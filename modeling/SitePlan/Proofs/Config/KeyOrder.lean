/-
# The order of keys

A document may give its entries in any order, and so may the mapping of its theme. Loading
looks at one entry after the other and keeps to it alone: tags are replaced within an
entry, and a field is found by its name, which no other field of its record may have. So
two documents that differ in the order of their entries load alike: both or neither, to the
same configuration, with the warnings for their keys in the order of these.

One place is an exception. The further settings of a theme go into a list by their names,
and keys that are the same text under different tags are one name, of which the last in
order is kept. Where no two keys of further settings have the same text, order does not
matter there either.

Key definitions: `Theme.DistinctSettings`, `Config.DistinctSettings`, `Config.Reordered`,
`Config.ReadsTo`.
Key theorems: `Theme.read_perm`, `Config.read_perm`, `Config.ReadsTo.perm`,
`Config.ReadsTo.theme`, `Config.Reordered.ofText`, `Config.ofText_reordered`.
-/
import Mathlib.Data.List.Perm.Basic
import SitePlan.Proofs.Config.PlainText
import SitePlan.Proofs.Config.Reading
import SitePlan.Proofs.Config.Settings
import SitePlan.Proofs.Yaml.Equality
import SitePlan.Proofs.Yaml.Fields
import SitePlan.Proofs.Yaml.KeyOrder

namespace SitePlan

open Yaml (Value)
open Yaml.Decode (Reader fields named? ignoreOther required withDefault required_congr
  withDefault_congr)

/-! ### Themes -/

namespace Theme

variable {m m' : List (Value × Value)} {fs fs' : List (String × Value)} {t : Theme}

/-- No two keys of further settings have the same text. -/
def DistinctSettings (m : List (Value × Value)) : Prop :=
  ((m.filterMap fun e => e.1.text?).filter fun name => (known name).isNone).Nodup

instance (m : List (Value × Value)) : Decidable (DistinctSettings m) :=
  inferInstanceAs (Decidable (List.Nodup _))

theorem distinctSettings_congr (h : m'.map (fun e => e.1.text?) = m.map fun e => e.1.text?) :
    DistinctSettings m' ↔ DistinctSettings m := by
  have htexts : ∀ l : List (Value × Value),
      (l.filterMap fun e => e.1.text?) = (l.map fun e => e.1.text?).filterMap id := by
    intro l
    rw [List.filterMap_map]
    rfl
  unfold DistinctSettings
  rw [htexts, htexts, h]

/-- Further settings under different names are the same in any order. -/
theorem settings_perm (hperm : fs.Perm fs')
    (hdistinct : ((fs.map Prod.fst).filter fun name => (known name).isNone).Nodup) :
    settings fs' = settings fs := by
  refine Text.foldl_insertSorted_eq_of_perm (hperm.filter _) ?_
  rw [List.filter_map] at hdistinct
  exact hdistinct

/-- Fields with the same values make the same theme, but for its further settings. -/
theorem ReadFrom.congr (h : t.ReadFrom fs)
    (hsame : ∀ name, (known name).isSome = true → fs'.lookup name = fs.lookup name) :
    ReadFrom fs' { t with options := settings fs' } := by
  have hread : ∀ {α : Type} {name : String} {default a : α} {read : Reader α},
      (known name).isSome = true → withDefault name default read fs = .ok a →
      withDefault name default read fs' = .ok a :=
    fun hknown h => (withDefault_congr (hsame _ hknown)).trans h
  obtain ⟨name?, hname?, hname⟩ := h.name
  obtain ⟨features, hfeatures, hsorted⟩ := h.features
  exact
    { name := ⟨name?, hread rfl hname?, hname⟩
      palette := hread rfl h.palette
      font := hread rfl h.font
      features := ⟨features, hread rfl hfeatures, hsorted⟩
      custom_dir := hread rfl h.custom_dir
      logo := hread rfl h.logo
      favicon := hread rfl h.favicon
      language := hread rfl h.language
      options := rfl }

theorem ofEntries_perm (hperm : m.Perm m') (h : ofEntries m = .ok t) :
    ∃ t', ofEntries m' = .ok t' ∧ t' = { t with options := t'.options } ∧
      (DistinctSettings m → t'.options = t.options) := by
  obtain ⟨fs, hfs, hread⟩ := ofEntries_eq_ok.mp h
  obtain ⟨fs', hfs', hfields, hsame⟩ := Yaml.Decode.fields_perm hperm hfs
  obtain ⟨-, hall, -⟩ := Yaml.Decode.fields_eq_ok.mp hfs
  refine ⟨_, ofEntries_eq_ok.mpr ⟨fs', hfs', hread.congr hsame⟩, rfl, fun hdistinct => ?_⟩
  have hnames : fs.map Prod.fst = m.filterMap fun e => e.1.text? := by
    rw [hall, List.map_filterMap]
    refine List.filterMap_congr fun e _ => ?_
    unfold named?
    cases e.1.text? <;> rfl
  rw [hread.options]
  refine settings_perm hfields ?_
  rw [hnames]
  exact hdistinct

/-- **A theme does not depend on the order of its keys.** The same holds for its further
settings if no two of their keys have the same text. -/
theorem read_perm (hperm : m.Perm m') (h : Theme.read (.mapping m) = .ok t) :
    ∃ t', Theme.read (.mapping m') = .ok t' ∧ t' = { t with options := t'.options } ∧
      (DistinctSettings m → t' = t) := by
  obtain ⟨w, hw, ht⟩ := Outcome.bind_eq_ok.mp h
  obtain ⟨rfl, -⟩ := Yaml.Decode.value_eq_ok.mp hw
  have hentries : ofEntries (Value.entriesBareTags m) = .ok t := ht
  -- the fields of a theme can only be read if its keys are texts
  have htexts : ∀ e ∈ m, e.1.text?.isSome = true := by
    obtain ⟨fs, hfs, -⟩ := ofEntries_eq_ok.mp hentries
    obtain ⟨hnamed, -⟩ := Yaml.Decode.fields_eq_ok.mp hfs
    simp only [Yaml.Decode.named?_isSome] at hnamed
    exact Value.forall_text_entriesBareTags.mp hnamed
  obtain ⟨t', ht', heq, hoptions⟩ := ofEntries_perm (Value.entriesBareTags_perm hperm) hentries
  have hw' := Yaml.Decode.value_mapping_perm hperm htexts hw
  refine ⟨t', ?_, heq, fun hdistinct => ?_⟩
  · exact Outcome.bind_eq_ok.mpr ⟨_, hw', ht'⟩
  · have hbare := (distinctSettings_congr (Value.texts_entriesBareTags m)).mpr hdistinct
    rw [heq, hoptions hbare]

end Theme

namespace Config

variable {m m' rest es es' : List (Value × Value)} {fs fs' : List (String × Value)} {c : Config}
  {key : Value}

/-! ### Reading -/

/-- Fields with the same values make the same configuration, but for its theme. -/
theorem ReadFrom.congr (h : c.ReadFrom fs)
    (hsame : ∀ name, (known name).isSome = true → name ≠ "theme" →
      fs'.lookup name = fs.lookup name) {t : Theme}
    (htheme : withDefault "theme" (.named Theme.defaultName) Theme.read fs' = .ok t) :
    ReadFrom fs' { c with theme := t } := by
  have hread : ∀ {α : Type} {name : String} {default a : α} {read : Reader α},
      (known name).isSome = true → name ≠ "theme" → withDefault name default read fs = .ok a →
      withDefault name default read fs' = .ok a :=
    fun hknown hne h => (withDefault_congr (hsame _ hknown hne)).trans h
  exact
    { site_name := (required_congr (hsame _ rfl (by decide))).trans h.site_name
      site_url := hread rfl (by decide) h.site_url
      site_description := hread rfl (by decide) h.site_description
      site_author := hread rfl (by decide) h.site_author
      copyright := hread rfl (by decide) h.copyright
      repo_url := hread rfl (by decide) h.repo_url
      repo_name := hread rfl (by decide) h.repo_name
      edit_uri := hread rfl (by decide) h.edit_uri
      docs_dir := hread rfl (by decide) h.docs_dir
      site_dir := hread rfl (by decide) h.site_dir
      use_directory_urls := hread rfl (by decide) h.use_directory_urls
      strict := hread rfl (by decide) h.strict
      dev_addr := hread rfl (by decide) h.dev_addr
      nav := hread rfl (by decide) h.nav
      theme := htheme
      markdown_extensions := hread rfl (by decide) h.markdown_extensions
      extra_javascript := hread rfl (by decide) h.extra_javascript
      extra_css := hread rfl (by decide) h.extra_css
      plugins := hread rfl (by decide) h.plugins
      extra := hread rfl (by decide) h.extra
      unsaid := h.unsaid }

theorem read_mapping_eq_ok : Config.read (.mapping m) = .ok c ↔
    ∃ fs, fields known ignoreOther [] m = .ok fs ∧ c.ReadFrom fs := by
  have hread : Config.read (.mapping m) = fields known ignoreOther [] m >>= ofFields := rfl
  rw [hread, Outcome.bind_eq_ok]
  simp only [ofFields_eq_ok]

theorem read_perm (hperm : m.Perm m') (h : Config.read (.mapping m) = .ok c) :
    Config.read (.mapping m') = .ok c := by
  obtain ⟨fs, hfs, hread⟩ := read_mapping_eq_ok.mp h
  obtain ⟨fs', hfs', -, hsame⟩ := Yaml.Decode.fields_perm hperm hfs
  exact read_mapping_eq_ok.mpr ⟨fs', hfs', hread.congr (fun name hknown _ => hsame name hknown)
    ((withDefault_congr (hsame _ rfl)).trans hread.theme)⟩

/-- The fields after that of a theme are the same whatever its mapping is. -/
theorem fields_theme {v : Value} (hkey : key.text? = some "theme") :
    fields known ignoreOther [] ((key, v) :: rest) = .ok fs ↔
      (∃ t, Theme.read v = .ok t) ∧
        ∃ more, fields known ignoreOther ["theme"] rest = .ok more ∧ fs = ("theme", v) :: more := by
  have hpasses : Yaml.Decode.Passes known ignoreOther ("theme", v) ↔ ∃ t, Theme.read v = .ok t := by
    show (Theme.read v).map _ = .ok () ↔ _
    rw [Outcome.map_eq_ok]
    simp
  have hseen : (if (known "theme").isSome then "theme" :: [] else []) = ["theme"] := rfl
  rw [Yaml.Decode.fields_cons_eq_ok, hkey]
  simp only [Option.some.injEq, exists_eq_left', hpasses, List.not_mem_nil, not_false_eq_true,
    implies_true, true_and, hseen]

/-- Reading a document depends on the order of the keys of its theme in the further settings
of that at most. -/
theorem read_theme_perm (hkey : key.text? = some "theme") (hperm : es.Perm es')
    (h : Config.read (.mapping ((key, .mapping es) :: rest)) = .ok c) :
    ∃ t, Config.read (.mapping ((key, .mapping es') :: rest)) = .ok { c with theme := t } ∧
      t = { c.theme with options := t.options } ∧ (Theme.DistinctSettings es → t = c.theme) := by
  obtain ⟨fs, hfs, hread⟩ := read_mapping_eq_ok.mp h
  obtain ⟨-, more, hmore, rfl⟩ := (fields_theme hkey).mp hfs
  have htheme : Theme.read (.mapping es) = .ok c.theme := hread.theme
  obtain ⟨t, ht, heq, hsame⟩ := Theme.read_perm hperm htheme
  have hfs' : fields known ignoreOther [] ((key, .mapping es') :: rest) =
      .ok (("theme", .mapping es') :: more) :=
    (fields_theme hkey).mpr ⟨⟨t, ht⟩, more, hmore, rfl⟩
  refine ⟨t, read_mapping_eq_ok.mpr ⟨_, hfs', hread.congr (fun name _ hne => ?_) ht⟩, heq, hsame⟩
  rw [lookup_cons_eq, lookup_cons_eq, if_neg hne, if_neg hne]

/-! ### Replacing tags -/

section Resolving

open Environment (Resolves resolves_mapping)

variable {lookup : String → Option String}

/-- The second entry is the first with its tags replaced. -/
def ResolvesEntry (lookup : String → Option String) (e e' : Value × Value) : Prop :=
  e'.1 = e.1 ∧ Resolves lookup e.2 e'.2

theorem forall₂_resolvesEntry : ∀ {m n : List (Value × Value)},
    List.Forall₂ (ResolvesEntry lookup) m n ↔
      n.map Prod.fst = m.map Prod.fst ∧
        List.Forall₂ (Resolves lookup) (m.map Prod.snd) (n.map Prod.snd)
  | [], n => by cases n <;> simp
  | _ :: _, [] => by simp
  | e :: m, e' :: n => by
    rw [List.forall₂_cons, forall₂_resolvesEntry, List.map_cons, List.map_cons, List.map_cons,
      List.map_cons, List.forall₂_cons, List.cons.injEq]
    exact and_and_and_comm

theorem resolves_mapping_mapping {m n : List (Value × Value)} :
    Resolves lookup (.mapping m) (.mapping n) ↔ List.Forall₂ (ResolvesEntry lookup) m n := by
  rw [resolves_mapping, forall₂_resolvesEntry]
  simp

theorem resolves_perm {n : List (Value × Value)} (hperm : m.Perm m')
    (h : Resolves lookup (.mapping m) (.mapping n)) :
    ∃ n', Resolves lookup (.mapping m') (.mapping n') ∧ n.Perm n' := by
  rw [resolves_mapping_mapping] at h
  obtain ⟨n', hn', hnperm⟩ := List.perm_comp_forall₂ hperm.symm h
  exact ⟨n', resolves_mapping_mapping.mpr hn', hnperm.symm⟩

/-- What a document is read as in an environment, before it is placed. -/
def ReadsTo (lookup : String → Option String) (m : List (Value × Value)) (c : Config) : Prop :=
  ∃ n, Resolves lookup (.mapping m) (.mapping n) ∧ Config.read (.mapping n) = .ok c

theorem ReadsTo.perm (h : ReadsTo lookup m c) (hperm : m.Perm m') : ReadsTo lookup m' c := by
  obtain ⟨n, hn, hread⟩ := h
  obtain ⟨n', hn', hnperm⟩ := resolves_perm hperm hn
  exact ⟨n', hn', read_perm hnperm hread⟩

theorem ReadsTo.theme (hkey : key.text? = some "theme") (hperm : es.Perm es')
    (h : ReadsTo lookup ((key, .mapping es) :: rest) c) :
    ∃ t, ReadsTo lookup ((key, .mapping es') :: rest) { c with theme := t } ∧
      t = { c.theme with options := t.options } ∧ (Theme.DistinctSettings es → t = c.theme) := by
  obtain ⟨n, hn, hread⟩ := h
  rw [resolves_mapping_mapping] at hn
  obtain ⟨⟨key', v⟩, n, ⟨hkey', hv⟩, hrest, rfl⟩ := List.forall₂_cons_left_iff.mp hn
  obtain rfl : key' = key := hkey'
  obtain ⟨fs, ⟨hkeys, -⟩, rfl⟩ := resolves_mapping.mp hv
  obtain ⟨fs', hfs', hfsperm⟩ := resolves_perm hperm hv
  obtain ⟨t, ht, heq, hsame⟩ := read_theme_perm hkey hfsperm hread
  have hn' : List.Forall₂ (ResolvesEntry lookup) ((key', .mapping es') :: rest)
      ((key', .mapping fs') :: n) := .cons ⟨rfl, hfs'⟩ hrest
  refine ⟨t, ⟨_, resolves_mapping_mapping.mpr hn', ht⟩, heq,
    fun hdistinct => hsame ((Theme.distinctSettings_congr ?_).mpr hdistinct)⟩
  have htexts := congrArg (List.map Value.text?) hkeys
  rwa [List.map_map, List.map_map] at htexts

end Resolving

/-! ### Documents -/

/-- Two documents have the same entries in some order; but the one that is the mapping of the
theme may have its own entries in another order. -/
inductive Reordered (m m' : List (Value × Value)) : Prop
  | keys : m.Perm m' → Reordered m m'
  | theme {key : Value} {es es' rest : List (Value × Value)} : key.text? = some "theme" →
      es.Perm es' → m.Perm ((key, .mapping es) :: rest) → m'.Perm ((key, .mapping es') :: rest) →
      Reordered m m'

/-- In the mapping of the theme no two keys of further settings have the same text. -/
def DistinctSettings (m : List (Value × Value)) : Prop :=
  ∀ key es, (key, .mapping es) ∈ m → key.text? = some "theme" → Theme.DistinctSettings es

theorem Reordered.symm (h : Reordered m m') : Reordered m' m := by
  cases h with
  | keys hperm => exact .keys hperm.symm
  | theme hkey hperm hm hm' => exact .theme hkey hperm.symm hm' hm

theorem Reordered.map_fst (h : Reordered m m') : (m.map Prod.fst).Perm (m'.map Prod.fst) := by
  cases h with
  | keys hperm => exact hperm.map _
  | theme _ _ hm hm' => exact (hm.map Prod.fst).trans (hm'.map Prod.fst).symm

/-- A document is read the same in another order, but for further settings of its theme. -/
theorem Reordered.readsTo {lookup : String → Option String} (h : Reordered m m')
    (hc : ReadsTo lookup m c) : ∃ t, ReadsTo lookup m' { c with theme := t } ∧
      t = { c.theme with options := t.options } ∧ (DistinctSettings m → t = c.theme) := by
  cases h with
  | keys hperm => exact ⟨c.theme, hc.perm hperm, rfl, fun _ => rfl⟩
  | theme hkey hperm hm hm' =>
    obtain ⟨t, ht, heq, hsame⟩ := (hc.perm hm).theme hkey hperm
    refine ⟨t, ht.perm hm'.symm, heq, fun hdistinct => hsame (hdistinct _ _ ?_ hkey)⟩
    exact hm.mem_iff.mpr List.mem_cons_self

theorem keyWarnings_congr {n : List (Value × Value)} (h : n.map Prod.fst = m.map Prod.fst) :
    keyWarnings (.mapping n) = keyWarnings (.mapping m) := by
  show (unknownKeys n).map _ = (unknownKeys m).map _
  rw [unknownKeys_eq, unknownKeys_eq, h]

theorem keyWarnings_perm (h : (m.map Prod.fst).Perm (m'.map Prod.fst)) :
    (keyWarnings (.mapping m)).Perm (keyWarnings (.mapping m')) := by
  show ((unknownKeys m).map _).Perm ((unknownKeys m').map _)
  rw [unknownKeys_eq, unknownKeys_eq]
  exact ((h.filterMap _).filter _).map _

/-- A text that is a document loads exactly if its fields can be read and make a valid
configuration. -/
theorem ofText_isDocument_eq_ok {text : String} (h : IsDocument text m)
    {lookup : String → Option String} {dir : Path} {s : Settings} :
    ofText lookup dir s text = .ok c ↔ ∃ fields, ReadsTo lookup m fields ∧
      ((fields.placeIn dir).override s).Valid s.registry ∧
      c = { (fields.placeIn dir).override s with
        warnings := keyWarnings (.mapping m) ++ fields.theme.paletteWarnings } := by
  rw [ofText_of_isDocument h]
  simp only [Outcome.bind_eq_ok, Environment.resolve_eq_ok, ofDocument_eq_ok]
  constructor
  · rintro ⟨w, hw, fields, hread, hvalid, rfl⟩
    obtain ⟨n, ⟨hkeys, -⟩, rfl⟩ := Environment.resolves_mapping.mp hw
    rw [keyWarnings_congr hkeys]
    exact ⟨fields, ⟨n, hw, hread⟩, hvalid, rfl⟩
  · rintro ⟨fields, ⟨n, hn, hread⟩, hvalid, rfl⟩
    obtain ⟨_, ⟨hkeys, -⟩, hmapping⟩ := Environment.resolves_mapping.mp hn
    cases hmapping
    rw [← keyWarnings_congr hkeys]
    exact ⟨_, hn, fields, hread, hvalid, rfl⟩

/-- What a text loads to, one with its document in another order loads to as well, but for the
order of warnings and for further settings of the theme. -/
theorem Reordered.ofText {text text' : String} (hreordered : Reordered m m')
    (h : IsDocument text m) (h' : IsDocument text' m') {lookup : String → Option String}
    {dir : Path} {s : Settings} (hc : Config.ofText lookup dir s text = .ok c) :
    ∃ t others, t = { c.theme with options := t.options } ∧
      (DistinctSettings m → t = c.theme) ∧ c.warnings = keyWarnings (.mapping m) ++ others ∧
      Config.ofText lookup dir s text' =
        .ok { c with warnings := keyWarnings (.mapping m') ++ others, theme := t } := by
  obtain ⟨fields, hreads, hvalid, rfl⟩ := (ofText_isDocument_eq_ok h).mp hc
  obtain ⟨t, ht, heq, hsame⟩ := hreordered.readsTo hreads
  refine ⟨t, _, heq, hsame, rfl, (ofText_isDocument_eq_ok h').mpr ⟨_, ht, ?valid, ?result⟩⟩
  case valid =>
    rw [heq]
    exact { hvalid with }
  case result =>
    rw [heq]
    rfl

/-- **The order of keys does not matter.** Two texts whose documents differ in the order of
their entries, and of those of the theme, both load or both do not. The configurations are
equal but for the order of the warnings for keys, and for further settings of the theme if
two of their keys have the same text under different tags. -/
theorem ofText_reordered {text text' : String} {m m' : List (Value × Value)}
    (h : IsDocument text m) (h' : IsDocument text' m') (hreordered : Reordered m m')
    (lookup : String → Option String) (dir : Path) (s : Settings) :
    ((∃ c, ofText lookup dir s text = .ok c) ↔ ∃ c', ofText lookup dir s text' = .ok c') ∧
      ∀ c c', ofText lookup dir s text = .ok c → ofText lookup dir s text' = .ok c' →
        (c' = { c with
          warnings := c'.warnings, theme := { c.theme with options := c'.theme.options } }) ∧
        (DistinctSettings m → c' = { c with warnings := c'.warnings }) ∧
        (keyWarnings (.mapping m)).Perm (keyWarnings (.mapping m')) ∧
        ∃ others, c.warnings = keyWarnings (.mapping m) ++ others ∧
          c'.warnings = keyWarnings (.mapping m') ++ others := by
  refine ⟨⟨fun ⟨c, hc⟩ => ?_, fun ⟨c', hc'⟩ => ?_⟩, fun c c' hc hc' => ?_⟩
  · obtain ⟨t, others, -, -, -, ht⟩ := hreordered.ofText h h' hc
    exact ⟨_, ht⟩
  · obtain ⟨t, others, -, -, -, ht⟩ := hreordered.symm.ofText h' h hc'
    exact ⟨_, ht⟩
  · obtain ⟨t, others, heq, hsame, hwarnings, ht⟩ := hreordered.ofText h h' hc
    rw [hc'] at ht
    cases ht
    refine ⟨?_, fun hdistinct => ?_, keyWarnings_perm hreordered.map_fst, others, hwarnings, rfl⟩
    · rw [← heq]
    · rw [hsame hdistinct]

/-- A document with two keys without a meaning and a tagged key in its theme. -/
def usualOrder : String :=
  "site_name: Docs\ncolour: red\ntheme:\n  name: material\n  !x note: b\ntheem: 1\n"

/-- The same document in another order. -/
def otherOrder : String :=
  "theem: 1\ntheme:\n  !x note: b\n  name: material\nsite_name: Docs\ncolour: red\n"

/-- The entries before that of the theme, in the first order. -/
def firstEntries : List (Value × Value) :=
  [(.string "site_name", .string "Docs"), (.string "colour", .string "red")]

/-- The entry after it. -/
def lastEntries : List (Value × Value) := [(.string "theem", .number (.int 1))]

/-- The name of the theme. -/
def themeName : List (Value × Value) := [(.string "name", .string "material")]

/-- The other entry of the theme. -/
def themeRest : List (Value × Value) := [(.tagged "x" (.string "note"), .string "b")]

/-- Both documents load to the same configuration, and their warnings have the order of their
keys. -/
theorem ofText_reordered_otherOrder :
    ∃ c, ofText (fun _ => none) ⟨"/srv"⟩ .empty usualOrder = .ok c ∧
      c.warnings = ["unrecognized configuration key `colour`",
        "unrecognized configuration key `theem`"] ∧
      ofText (fun _ => none) ⟨"/srv"⟩ .empty otherOrder =
        .ok { c with
          warnings := ["unrecognized configuration key `theem`",
            "unrecognized configuration key `colour`"] } := by
  have husual : IsDocument usualOrder
      (firstEntries ++ (.string "theme", .mapping (themeName ++ themeRest)) :: lastEntries) :=
    { notBlank := by decide
      reads := Outcome.toOption_eq_some.mp (by decide +kernel) }
  have hother : IsDocument otherOrder
      (lastEntries ++ (.string "theme", .mapping (themeRest ++ themeName)) :: firstEntries) :=
    { notBlank := by decide
      reads := Outcome.toOption_eq_some.mp (by decide +kernel) }
  have hreordered : Reordered
      (firstEntries ++ (.string "theme", .mapping (themeName ++ themeRest)) :: lastEntries)
      (lastEntries ++ (.string "theme", .mapping (themeRest ++ themeName)) :: firstEntries) :=
    .theme (show (Value.string "theme").text? = some "theme" from rfl) List.perm_append_comm
      List.perm_middle (List.perm_middle.trans (.cons _ List.perm_append_comm))
  have hdistinct : DistinctSettings
      (firstEntries ++ (.string "theme", .mapping (themeName ++ themeRest)) :: lastEntries) := by
    intro key es hmem _
    have hentry : key = .string "theme" ∧ es = themeName ++ themeRest := by
      simpa [firstEntries, lastEntries] using hmem
    rw [hentry.2]
    decide
  have hwarnings : (ofText (fun _ => none) ⟨"/srv"⟩ .empty usualOrder).toOption.map
      Config.warnings = some ["unrecognized configuration key `colour`",
        "unrecognized configuration key `theem`"] := by
    rw [ofText_of_isDocument husual]
    decide +kernel
  have hkeys : keyWarnings (.mapping (firstEntries ++
      (.string "theme", .mapping (themeName ++ themeRest)) :: lastEntries)) =
        ["unrecognized configuration key `colour`", "unrecognized configuration key `theem`"] := by
    decide +kernel
  have hkeys' : keyWarnings (.mapping (lastEntries ++
      (.string "theme", .mapping (themeRest ++ themeName)) :: firstEntries)) =
        ["unrecognized configuration key `theem`", "unrecognized configuration key `colour`"] := by
    decide +kernel
  obtain ⟨c, hc, hcolour⟩ := Option.map_eq_some_iff.mp hwarnings
  have hload := Outcome.toOption_eq_some.mp hc
  obtain ⟨hloads, hsame⟩ :=
    ofText_reordered husual hother hreordered (fun _ => none) ⟨"/srv"⟩ .empty
  obtain ⟨c', hload'⟩ := hloads.mp ⟨c, hload⟩
  obtain ⟨-, hequal, -, others, hothers, hothers'⟩ := hsame c c' hload hload'
  rw [hcolour, hkeys, List.self_eq_append_right] at hothers
  rw [hkeys', hothers] at hothers'
  refine ⟨c, hload, hcolour, ?_⟩
  rw [hload', hequal hdistinct, hothers']
  rfl

/-- A document whose theme has a further setting under a tagged key, and then under the text
alone. -/
def taggedFirst : String := "site_name: Docs\ntheme:\n  name: material\n  !x note: a\n  note: b\n"

/-- The same document with the tagged key after the other. -/
def taggedLast : String := "site_name: Docs\ntheme:\n  name: material\n  note: b\n  !x note: a\n"

/-- Both documents load, each with the value of the key that comes last. -/
theorem ofText_keeps_last_setting :
    (∃ m m', IsDocument taggedFirst m ∧ IsDocument taggedLast m' ∧ Reordered m m') ∧
      (ofText (fun _ => none) ⟨"/srv"⟩ .empty taggedFirst).toOption.map
        (fun c => c.theme.options) = some [("note", .string "b")] ∧
      (ofText (fun _ => none) ⟨"/srv"⟩ .empty taggedLast).toOption.map
        (fun c => c.theme.options) = some [("note", .string "a")] := by
  have hfirst : IsDocument taggedFirst
      [(.string "site_name", .string "Docs"), (.string "theme", .mapping (themeName ++
        [(.tagged "x" (.string "note"), .string "a"), (.string "note", .string "b")]))] :=
    { notBlank := by decide
      reads := Outcome.toOption_eq_some.mp (by decide +kernel) }
  have hlast : IsDocument taggedLast
      [(.string "site_name", .string "Docs"), (.string "theme", .mapping (themeName ++
        [(.string "note", .string "b"), (.tagged "x" (.string "note"), .string "a")]))] :=
    { notBlank := by decide
      reads := Outcome.toOption_eq_some.mp (by decide +kernel) }
  refine ⟨⟨_, _, hfirst, hlast, ?reordered⟩, ?options, ?options'⟩
  case reordered =>
    exact .theme (show (Value.string "theme").text? = some "theme" from rfl)
      (.append_left _ (.swap _ _ _)) (.swap _ _ _) (.swap _ _ _)
  case options =>
    rw [ofText_of_isDocument hfirst]
    decide +kernel
  case options' =>
    rw [ofText_of_isDocument hlast]
    decide +kernel

end Config
end SitePlan
