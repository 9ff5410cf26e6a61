/-
# Site configurations

A configuration holds what a document says about a site, with defaults for what
it leaves out, the places of its directories, and the warnings found on the way.

Key definitions: `Config`, `ResolvedPaths`, `Config.read`, `Config.toJson`.
-/
import SitePlan.Config.NamedEntry
import SitePlan.Config.NavEntry
import SitePlan.Files.Path
import SitePlan.Theme.Basic

namespace SitePlan

open Yaml (Value DecodeError)
open Yaml.Decode (Reader Check)

/-- Where the directories of a site are. -/
structure ResolvedPaths where
  configDir : Path
  docsDir : Path
  siteDir : Path
  deriving DecidableEq, Repr, Inhabited

/-- A site configuration. `docsDir` and `siteDir` are as the document writes
them; `paths` says where they are. -/
structure Config where
  siteName : String
  siteUrl : Option String
  siteDescription : Option String
  siteAuthor : Option String
  copyright : Option String
  repoUrl : Option String
  repoName : Option String
  editUri : Option String
  docsDir : String
  siteDir : String
  useDirectoryUrls : Bool
  strict : Bool
  devAddr : String
  nav : Option (List NavEntry)
  theme : Theme
  markdownExtensions : List NamedEntry
  extraJavascript : List Script
  extraCss : List String
  plugins : List NamedEntry
  extra : List (Value × Value)
  paths : ResolvedPaths
  configPath : Option Path
  warnings : List String
  deriving Repr, Inhabited

namespace Config

/-- Reads an optional text. -/
def readText : Reader (Option String) := Yaml.Decode.optional Yaml.Decode.text

/-- Reads a declared navigation, or null for none. -/
def readNav : Reader (Option (List NavEntry)) :=
  Yaml.Decode.optional (Yaml.Decode.list NavEntry.read)

/-- Reads extra scripts. -/
def readScripts : Reader (List Script) := Yaml.Decode.list Script.read

/-- Reads extra style sheets. -/
def readStyles : Reader (List String) := Yaml.Decode.list Yaml.Decode.text

/-- Reads free-form data. -/
def readExtra : Reader (List (Value × Value)) := fun v => do
  let entries ← Yaml.Decode.entries "a YAML mapping" v
  match ← Yaml.Decode.value (.mapping entries) with
  | .mapping entries => .ok entries
  | _ => .ok []

/-- The fields that hold an optional text. -/
def optionalTexts : List String :=
  ["site_url", "site_description", "site_author", "copyright", "repo_url", "repo_name", "edit_uri"]

/-- The tests of the fields. -/
def known (name : String) : Option Check :=
  if ["site_name", "docs_dir", "site_dir", "dev_addr"].contains name then
    some (Yaml.Decode.fits Yaml.Decode.text)
  else if optionalTexts.contains name then some (Yaml.Decode.fits readText)
  else if ["use_directory_urls", "strict"].contains name then
    some (Yaml.Decode.fits Yaml.Decode.bool)
  else if name = "nav" then some (Yaml.Decode.fits readNav)
  else if name = "theme" then some (Yaml.Decode.fits Theme.read)
  else if ["markdown_extensions", "plugins"].contains name then
    some (Yaml.Decode.fits NamedEntry.readList)
  else if name = "extra_javascript" then some (Yaml.Decode.fits readScripts)
  else if name = "extra_css" then some (Yaml.Decode.fits readStyles)
  else if name = "extra" then some (Yaml.Decode.fits readExtra)
  else none

/-- Builds a configuration from the fields of a document. -/
def ofFields (fs : List (String × Value)) : Except DecodeError Config := do
  let siteName ← Yaml.Decode.required "site_name" Yaml.Decode.text fs
  let siteUrl ← Yaml.Decode.withDefault "site_url" none readText fs
  let siteDescription ← Yaml.Decode.withDefault "site_description" none readText fs
  let siteAuthor ← Yaml.Decode.withDefault "site_author" none readText fs
  let copyright ← Yaml.Decode.withDefault "copyright" none readText fs
  let repoUrl ← Yaml.Decode.withDefault "repo_url" none readText fs
  let repoName ← Yaml.Decode.withDefault "repo_name" none readText fs
  let editUri ← Yaml.Decode.withDefault "edit_uri" none readText fs
  let docsDir ← Yaml.Decode.withDefault "docs_dir" "docs" Yaml.Decode.text fs
  let siteDir ← Yaml.Decode.withDefault "site_dir" "site" Yaml.Decode.text fs
  let useDirectoryUrls ← Yaml.Decode.withDefault "use_directory_urls" true Yaml.Decode.bool fs
  let strict ← Yaml.Decode.withDefault "strict" false Yaml.Decode.bool fs
  let devAddr ← Yaml.Decode.withDefault "dev_addr" "127.0.0.1:8000" Yaml.Decode.text fs
  let nav ← Yaml.Decode.withDefault "nav" none readNav fs
  let theme ← Yaml.Decode.withDefault "theme" (Theme.named Theme.defaultName) Theme.read fs
  let markdownExtensions ←
    Yaml.Decode.withDefault "markdown_extensions" [] NamedEntry.readList fs
  let extraJavascript ← Yaml.Decode.withDefault "extra_javascript" [] readScripts fs
  let extraCss ← Yaml.Decode.withDefault "extra_css" [] readStyles fs
  let plugins ←
    Yaml.Decode.withDefault "plugins" [NamedEntry.plain "search"] NamedEntry.readList fs
  let extra ← Yaml.Decode.withDefault "extra" [] readExtra fs
  .ok
    { siteName := siteName, siteUrl := siteUrl, siteDescription := siteDescription
      siteAuthor := siteAuthor, copyright := copyright, repoUrl := repoUrl, repoName := repoName
      editUri := editUri, docsDir := docsDir, siteDir := siteDir
      useDirectoryUrls := useDirectoryUrls, strict := strict, devAddr := devAddr, nav := nav
      theme := theme, markdownExtensions := markdownExtensions
      extraJavascript := extraJavascript, extraCss := extraCss, plugins := plugins, extra := extra
      paths := ⟨⟨""⟩, ⟨""⟩, ⟨""⟩⟩, configPath := none, warnings := [] }

/-- Reads a configuration. Its places, file and warnings are left empty. -/
def read : Reader Config := fun v => do
  let entries ← Yaml.Decode.entries "struct Config" v
  let fs ← Yaml.Decode.fields known Yaml.Decode.ignoreOther [] entries
  ofFields fs

/-- The JSON form of a configuration: what a document can say, with defaults
filled in and without optional parts that are missing. -/
def toJson (c : Config) : Except Yaml.KeyError Json := do
  let theme ← c.theme.toJson
  let extensions ← c.markdownExtensions.mapM NamedEntry.toJson
  let plugins ← c.plugins.mapM NamedEntry.toJson
  let extra ← Value.entriesToJson c.extra
  .ok (.object
    ([("site_name", .string c.siteName)] ++ Json.optionalString "site_url" c.siteUrl ++
      Json.optionalString "site_description" c.siteDescription ++
      Json.optionalString "site_author" c.siteAuthor ++
      Json.optionalString "copyright" c.copyright ++ Json.optionalString "repo_url" c.repoUrl ++
      Json.optionalString "repo_name" c.repoName ++ Json.optionalString "edit_uri" c.editUri ++
      [("docs_dir", .string c.docsDir), ("site_dir", .string c.siteDir),
        ("use_directory_urls", .bool c.useDirectoryUrls), ("strict", .bool c.strict),
        ("dev_addr", .string c.devAddr)] ++
      Json.optionalField "nav" (c.nav.map fun nav => .array (NavEntry.listToJson nav)) ++
      [("theme", theme), ("markdown_extensions", .array extensions),
        ("extra_javascript", .array (c.extraJavascript.map Script.toJson)),
        ("extra_css", Json.strings c.extraCss), ("plugins", .array plugins)] ++
      (if c.extra.isEmpty then [] else [("extra", .object extra)])))

end Config
end SitePlan
