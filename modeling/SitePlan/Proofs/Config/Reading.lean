/-
# What a configuration is read from

A configuration is made of the fields of a document, each read on its own: a required one
is there, and another is there or has its default. A theme is made of its fields in the
same way, but for its name, which must be there if no directory of overrides is, and for
the fields without a meaning of their own, which are kept as settings.

Key definitions: `Theme.ReadFrom`, `Config.ReadFrom`.
Key theorems: `Yaml.Decode.withDefault_eq_ok`, `Theme.ofEntries_eq_ok`,
`Config.ofFields_eq_ok`.
-/
import SitePlan.Config.Basic
import SitePlan.Proofs.Outcome

namespace SitePlan

open Yaml (Value)
open Yaml.Decode (Reader required withDefault)

/-- A field with a default has a value that is there, or the default. -/
theorem Yaml.Decode.withDefault_eq_ok {α : Type} {name : String} {default a : α}
    {read : Reader α} {fs : List (String × Value)} :
    withDefault name default read fs = .ok a ↔
      (∃ v, fs.lookup name = some v ∧ read v = .ok a) ∨ fs.lookup name = none ∧ a = default := by
  unfold withDefault
  cases fs.lookup name with
  | none => simp [eq_comm]
  | some v => simp

/-! ### Themes -/

namespace Theme

/-- The fields of a theme are those given. -/
structure ReadFrom (fs : List (String × Value)) (t : Theme) : Prop where
  name : ∃ name?, withDefault "name" none readText fs = .ok name? ∧
    chooseName name? t.customDir = .ok t.name
  palette : withDefault "palette" [] readPalette fs = .ok t.palette
  font : withDefault "font" .themeDefault FontConfig.read fs = .ok t.font
  features : ∃ features, withDefault "features" [] readTexts fs = .ok features ∧
    t.features = Text.sortedNames features
  custom_dir : withDefault "custom_dir" none readText fs = .ok t.customDir
  logo : withDefault "logo" none readText fs = .ok t.logo
  favicon : withDefault "favicon" none readText fs = .ok t.favicon
  language : withDefault "language" none readText fs = .ok t.language
  options : t.options = settings fs

theorem ofEntries_eq_ok {m : List (Value × Value)} {t : Theme} : ofEntries m = .ok t ↔
    ∃ fs, Yaml.Decode.fields known otherSetting [] m = .ok fs ∧ t.ReadFrom fs := by
  simp only [ofEntries, Outcome.bind_eq_ok]
  constructor
  · rintro ⟨fs, hfs, name?, hname?, _, hpalette, _, hfont, features, hfeatures, _, hcustom, _,
      hlogo, _, hfavicon, _, hlanguage, name, hname, h⟩
    cases h
    exact ⟨fs, hfs, ⟨name?, hname?, hname⟩, hpalette, hfont, ⟨features, hfeatures, rfl⟩, hcustom,
      hlogo, hfavicon, hlanguage, rfl⟩
  · rintro ⟨fs, hfs, h⟩
    obtain ⟨name?, hname?, hname⟩ := h.name
    obtain ⟨features, hfeatures, hsorted⟩ := h.features
    refine ⟨fs, hfs, name?, hname?, _, h.palette, _, h.font, features, hfeatures, _, h.custom_dir,
      _, h.logo, _, h.favicon, _, h.language, _, hname, ?_⟩
    rw [← hsorted, ← h.options]

end Theme

/-! ### Configurations -/

namespace Config

/-- The fields of a configuration are those given. What no document says is left empty. -/
structure ReadFrom (fs : List (String × Value)) (c : Config) : Prop where
  site_name : required "site_name" Yaml.Decode.text fs = .ok c.siteName
  site_url : withDefault "site_url" none readText fs = .ok c.siteUrl
  site_description : withDefault "site_description" none readText fs = .ok c.siteDescription
  site_author : withDefault "site_author" none readText fs = .ok c.siteAuthor
  copyright : withDefault "copyright" none readText fs = .ok c.copyright
  repo_url : withDefault "repo_url" none readText fs = .ok c.repoUrl
  repo_name : withDefault "repo_name" none readText fs = .ok c.repoName
  edit_uri : withDefault "edit_uri" none readText fs = .ok c.editUri
  docs_dir : withDefault "docs_dir" "docs" Yaml.Decode.text fs = .ok c.docsDir
  site_dir : withDefault "site_dir" "site" Yaml.Decode.text fs = .ok c.siteDir
  use_directory_urls :
    withDefault "use_directory_urls" true Yaml.Decode.bool fs = .ok c.useDirectoryUrls
  strict : withDefault "strict" false Yaml.Decode.bool fs = .ok c.strict
  dev_addr : withDefault "dev_addr" "127.0.0.1:8000" Yaml.Decode.text fs = .ok c.devAddr
  nav : withDefault "nav" none readNav fs = .ok c.nav
  theme : withDefault "theme" (.named Theme.defaultName) Theme.read fs = .ok c.theme
  markdown_extensions :
    withDefault "markdown_extensions" [] NamedEntry.readList fs = .ok c.markdownExtensions
  extra_javascript : withDefault "extra_javascript" [] readScripts fs = .ok c.extraJavascript
  extra_css : withDefault "extra_css" [] readStyles fs = .ok c.extraCss
  plugins : withDefault "plugins" [.plain "search"] NamedEntry.readList fs = .ok c.plugins
  extra : withDefault "extra" [] readExtra fs = .ok c.extra
  unsaid : c.paths = ⟨⟨""⟩, ⟨""⟩, ⟨""⟩⟩ ∧ c.configPath = none ∧ c.warnings = []

theorem ofFields_eq_ok {fs : List (String × Value)} {c : Config} :
    ofFields fs = .ok c ↔ c.ReadFrom fs := by
  constructor
  · intro h
    simp only [ofFields, Outcome.bind_eq_ok] at h
    obtain ⟨_, hname, _, hurl, _, hdescription, _, hauthor, _, hcopyright, _, hrepo, _, hrepoName,
      _, hedit, _, hdocs, _, hsite, _, hurls, _, hstrict, _, haddr, _, hnav, _, htheme, _,
      hextensions, _, hscripts, _, hstyles, _, hplugins, _, hextra, h⟩ := h
    cases h
    exact ⟨hname, hurl, hdescription, hauthor, hcopyright, hrepo, hrepoName, hedit, hdocs, hsite,
      hurls, hstrict, haddr, hnav, htheme, hextensions, hscripts, hstyles, hplugins, hextra,
      rfl, rfl, rfl⟩
  · intro h
    obtain ⟨hpaths, hpath, hwarnings⟩ := h.unsaid
    simp only [ofFields, h.site_name, h.site_url, h.site_description, h.site_author, h.copyright,
      h.repo_url, h.repo_name, h.edit_uri, h.docs_dir, h.site_dir, h.use_directory_urls, h.strict,
      h.dev_addr, h.nav, h.theme, h.markdown_extensions, h.extra_javascript, h.extra_css,
      h.plugins, h.extra, Outcome.ok_bind]
    rw [← hpaths, ← hpath, ← hwarnings]

end Config
end SitePlan
