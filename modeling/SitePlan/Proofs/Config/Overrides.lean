/-
# Settings act like edits of the document

What settings override can as well be written into the document: an address, a
strictness and two directories, each in the place of the value that the document
has, or at its end. Where the settings allow no names and their directories are
absolute, the edited document loads without settings to what the document loads to
with them, but for the directories as written, and fails with the same error. So
a value that is overridden is not looked at, as long as it is of its type, and
what loads is valid with the values that override.

The reason is that every step commutes with editing: reading the fields, making a
configuration of them, and placing its directories, of which an absolute one stays
where it is.

Key definitions: `Settings.edit`, `Settings.amend`, `Settings.spell`,
`Config.Overridable`.
Key theorems: `Config.ofFields_assigned`, `Config.read_edit`, `Config.ofDocument_edit`,
`Config.override_edits`.
-/
import SitePlan.Proofs.Config.PlainText
import SitePlan.Proofs.Config.Settings
import SitePlan.Proofs.Yaml.Equality
import SitePlan.Proofs.Yaml.Fields

namespace SitePlan

open Yaml (Value)

/-! ### Settings as edits -/

namespace Settings

/-- The values that settings have for fields of a document. -/
def values (s : Settings) : List (String × Option Value) :=
  [("site_url", s.siteUrl.map Value.string), ("strict", s.strict.map Value.bool),
    ("docs_dir", s.docsDir.map fun p => .string p.text),
    ("site_dir", s.siteDir.map fun p => .string p.text)]

/-- The fields that settings can override. -/
def fieldNames : List String := ["site_url", "strict", "docs_dir", "site_dir"]

theorem values_nodup (s : Settings) : (s.values.map Prod.fst).Nodup := by
  show fieldNames.Nodup
  decide

/-- The entries of a document with the values of settings written in. -/
def edit (s : Settings) (m : List (Value × Value)) : List (Value × Value) :=
  Value.setFields s.values m

/-- A configuration with directories spelled as in settings. -/
def spell (s : Settings) (c : Config) : Config :=
  { c with
    docsDir := (s.docsDir.map Path.text).getD c.docsDir
    siteDir := (s.siteDir.map Path.text).getD c.siteDir }

/-- A configuration read from a document in which the values of settings stand. -/
def amend (s : Settings) (c : Config) : Config :=
  { s.spell c with
    siteUrl := (s.siteUrl.map some).getD c.siteUrl
    strict := s.strict.getD c.strict }

/-- The directories of settings are absolute, if they have any. -/
def Absolute (s : Settings) : Prop :=
  (∀ p ∈ s.docsDir, p.isAbsolute = true) ∧ ∀ p ∈ s.siteDir, p.isAbsolute = true

end Settings

namespace Config

open Yaml.Decode

variable {s : Settings} {m : List (Value × Value)}

/-- The fields that settings override are missing or of their types. -/
structure Overridable (m : List (Value × Value)) : Prop where
  site_url : ∀ v, Value.lookup "site_url" m = some v → v = .null ∨ ∃ url, v = .string url
  strict : ∀ v, Value.lookup "strict" m = some v → ∃ b, v = .bool b
  docs_dir : ∀ v, Value.lookup "docs_dir" m = some v → ∃ path, v = .string path
  site_dir : ∀ v, Value.lookup "site_dir" m = some v → ∃ path, v = .string path

/-! ### Reading an edited document -/

/-- What settings override is of the type of its field, before and after. -/
theorem Overridable.replaceable (h : Overridable m) (s : Settings) :
    ∀ e ∈ s.values, Replaceable known m e := by
  have htext : ∀ {name : String} {p? : Option Path}, known name = some (fits Yaml.Decode.text) →
      (∀ v, Value.lookup name m = some v → ∃ path, v = .string path) →
      Replaceable known m (name, p?.map fun p => .string p.text) := by
    intro name p? hknown hfit
    refine ⟨_, hknown, fun v hv => ?_, fun w hw => ?_⟩
    · obtain ⟨p, -, rfl⟩ := Option.map_eq_some_iff.mp hv
      rfl
    · obtain ⟨path, rfl⟩ := hfit w hw
      rfl
  have hurl : Replaceable known m ("site_url", s.siteUrl.map Value.string) := by
    refine ⟨_, rfl, fun v hv => ?_, fun w hw => ?_⟩
    · obtain ⟨url, -, rfl⟩ := Option.map_eq_some_iff.mp hv
      rfl
    · rcases h.site_url w hw with rfl | ⟨url, rfl⟩
      · rfl
      · rfl
  have hstrict : Replaceable known m ("strict", s.strict.map Value.bool) := by
    refine ⟨_, rfl, fun v hv => ?_, fun w hw => ?_⟩
    · obtain ⟨b, -, rfl⟩ := Option.map_eq_some_iff.mp hv
      rfl
    · obtain ⟨b, rfl⟩ := h.strict w hw
      rfl
  unfold Settings.values
  simp only [List.forall_mem_cons]
  exact ⟨hurl, hstrict, htext rfl h.docs_dir, htext rfl h.site_dir, by simp⟩

/-- **A configuration made of edited fields is the edited configuration.** -/
theorem ofFields_assigned (s : Settings) {fs : List (String × Value)}
    (hchecked : ∀ e ∈ fs, ∀ check, known e.1 = some check → check e.2 = .ok ()) :
    ofFields (assignAll s.values fs) = (ofFields fs).map s.amend := by
  have hset : ∀ n v?, (n, v?) ∈ s.values →
      (assignAll s.values fs).lookup n = v?.or (fs.lookup n) :=
    fun _ _ hmem => lookup_assignAll_of_mem s.values fs s.values_nodup hmem
  have hurl : withDefault "site_url" none readText (assignAll s.values fs) =
      (withDefault "site_url" none readText fs).map fun url => (s.siteUrl.map some).getD url :=
    withDefault_assigned (hset _ (s.siteUrl.map Value.string) (by simp [Settings.values]))
      (fun _ => rfl) (withDefault_of_checked rfl hchecked)
  have hstrict : withDefault "strict" false Yaml.Decode.bool (assignAll s.values fs) =
      (withDefault "strict" false Yaml.Decode.bool fs).map fun b => (s.strict.map id).getD b :=
    withDefault_assigned (hset _ (s.strict.map Value.bool) (by simp [Settings.values]))
      (fun _ => rfl) (withDefault_of_checked rfl hchecked)
  have hdir : ∀ (name : String) (p? : Option Path) (default : String),
      (name, p?.map fun p => Value.string p.text) ∈ s.values →
      known name = some (fits Yaml.Decode.text) →
      withDefault name default Yaml.Decode.text (assignAll s.values fs) =
        (withDefault name default Yaml.Decode.text fs).map
          fun path => (p?.map Path.text).getD path :=
    fun _ _ _ hmem hknown => withDefault_assigned (hset _ _ hmem) (fun _ => rfl)
      (withDefault_of_checked hknown hchecked)
  have hdocs := hdir "docs_dir" s.docsDir "docs" (by simp [Settings.values]) rfl
  have hsite := hdir "site_dir" s.siteDir "site" (by simp [Settings.values]) rfl
  have hkept : ∀ n, n ∉ Settings.fieldNames → (assignAll s.values fs).lookup n = fs.lookup n :=
    fun n hn => lookup_assignAll_of_notMem s.values fs hn
  have hname : required "site_name" Yaml.Decode.text (assignAll s.values fs) =
      required "site_name" Yaml.Decode.text fs :=
    required_congr (hkept _ (by decide))
  have hother : ∀ {α : Type} (n : String) (default : α) (read : Yaml.Decode.Reader α),
      n ∉ Settings.fieldNames →
      withDefault n default read (assignAll s.values fs) = withDefault n default read fs :=
    fun n _ _ hn => withDefault_congr (hkept n hn)
  unfold ofFields
  simp (disch := decide) only [hurl, hstrict, hdocs, hsite, hname, hother, Outcome.bind_map,
    Outcome.map_bind, Option.map_id_fun, id]
  rfl

/-- Reading an edited document gives the edited configuration. -/
theorem read_edit (hbare : Value.BareKeys m) (hfit : Overridable m) (s : Settings) :
    Config.read (.mapping (s.edit m)) = (Config.read (.mapping m)).map s.amend := by
  have hfields : fields known ignoreOther [] (s.edit m) =
      (fields known ignoreOther [] m).map (assignAll s.values) :=
    fields_setFields s.values m hbare (hfit.replaceable s)
  show (fields known ignoreOther [] (s.edit m) >>= ofFields) =
    (fields known ignoreOther [] m >>= ofFields).map s.amend
  rw [hfields, Outcome.bind_map, Outcome.map_bind]
  cases hread : fields known ignoreOther [] m with
  | error e => rfl
  | ok fs => exact ofFields_assigned s (fields_checked m [] fs hread)

/-! ### Loading an edited document -/

/-- A directory that settings give is where it would be if it were written. -/
theorem join_spelled (dir : Path) {p? : Option Path} (habsolute : ∀ p ∈ p?, p.isAbsolute = true)
    (written : String) : dir.join ⟨(p?.map Path.text).getD written⟩ =
      p?.getD (dir.join ⟨written⟩) := by
  cases p? with
  | none => rfl
  | some p => exact if_pos (habsolute p rfl)

/-- Placing an edited configuration is overriding the placed one. -/
theorem placeIn_amend (dir : Path) (h : s.Absolute) (c : Config) :
    ((s.amend c).placeIn dir).override .empty = s.spell ((c.placeIn dir).override s) := by
  have hdocs := join_spelled dir h.1 c.docsDir
  have hsite := join_spelled dir h.2 c.siteDir
  have hurl : (s.siteUrl.map some).getD c.siteUrl = s.siteUrl.orElse fun _ => c.siteUrl := by
    cases s.siteUrl <;> rfl
  unfold placeIn override Settings.amend Settings.spell
  simp only [hdocs, hsite, hurl]
  rfl

theorem unknownKeys_setField {key : String} (hkey : key ∈ knownKeys) (v : Value)
    (m : List (Value × Value)) : unknownKeys (Value.setField key v m) = unknownKeys m := by
  have hknown : ([key].filter fun key => !knownKeys.contains key) = [] := by simp [hkey]
  rw [unknownKeys_eq, unknownKeys_eq]
  rcases Value.keys_setField key v m with hkeys | hkeys
  · rw [hkeys]
  · have htext : [Value.string key].filterMap Value.text? = [key] := rfl
    rw [hkeys, List.filterMap_append, htext, List.filter_append, hknown, List.append_nil]

theorem unknownKeys_setFields : ∀ (values : List (String × Option Value))
    (m : List (Value × Value)), (∀ e ∈ values, e.1 ∈ knownKeys) →
    unknownKeys (Value.setFields values m) = unknownKeys m
  | [], _, _ => rfl
  | (key, v?) :: values, m, h => by
    obtain ⟨hkey, hvalues⟩ := List.forall_mem_cons.mp h
    have ih := unknownKeys_setFields values (Value.setField? key v? m) hvalues
    show unknownKeys (Value.setFields values (Value.setField? key v? m)) = _
    rw [ih]
    cases v? with
    | some v => exact unknownKeys_setField hkey v m
    | none => rfl

/-- Writing settings into a document gives no new warning. -/
theorem keyWarnings_edit (s : Settings) (m : List (Value × Value)) :
    keyWarnings (.mapping (s.edit m)) = keyWarnings (.mapping m) := by
  have hkeys : unknownKeys (s.edit m) = unknownKeys m :=
    unknownKeys_setFields s.values m (by simp [Settings.values, knownKeys])
  exact congrArg (List.map _) hkeys

/-- **An edited document loads without settings as the document does with them.** -/
theorem ofDocument_edit (dir : Path) (hs : s.registry = .builtin) (habsolute : s.Absolute)
    (hbare : Value.BareKeys m) (hfit : Overridable m) :
    ofDocument dir .empty (.mapping (s.edit m)) =
      (ofDocument dir s (.mapping m)).map s.spell := by
  have hedit := read_edit hbare hfit s
  cases hread : Config.read (.mapping m) with
  | error e =>
    rw [hread] at hedit
    rw [ofDocument_of_misread dir _ hedit, ofDocument_of_misread dir s hread]
    rfl
  | ok c =>
    rw [hread] at hedit
    have hempty : Settings.empty.registry = .builtin := rfl
    -- directories as written are not looked at
    have hsame : (s.spell ((c.placeIn dir).override s)).validate .builtin =
        ((c.placeIn dir).override s).validate .builtin := rfl
    rw [ofDocument_of_read dir _ hedit, ofDocument_of_read dir s hread, placeIn_amend dir habsolute,
      keyWarnings_edit, hempty, hs, hsame, Outcome.map_map]
    rfl

/-! ### Texts -/

/-- **What settings override can as well be written into the document.** The
edited text loads without settings to what the text loads to with them, but for
the directories as written, and fails with the same error. What loads is valid
with the values of the settings, so one that is invalid is never accepted; and the
values that they override do not matter, so no such value is refused. -/
theorem override_edits (lookup : String → Option String) (dir : Path) {s : Settings}
    (hallowed : s.allowed = []) (habsolute : s.Absolute) {text text' : String}
    {m : List (Value × Value)} (htext : IsPlainText text m) (hfit : Overridable m)
    (htext' : IsPlainText text' (s.edit m)) :
    ofText lookup dir .empty text' = (ofText lookup dir s text).map s.spell ∧
      (∀ c, ofText lookup dir s text = .ok c → c.Valid .builtin ∧ c.paths.configDir = dir ∧
        (∀ url ∈ s.siteUrl, c.siteUrl = some url) ∧ (∀ b ∈ s.strict, c.strict = b) ∧
        (∀ p ∈ s.docsDir, c.paths.docsDir = p) ∧ ∀ p ∈ s.siteDir, c.paths.siteDir = p) ∧
      ∀ other m₂, IsPlainText other m₂ → Overridable m₂ → s.edit m₂ = s.edit m →
        (ofText lookup dir s other).map s.spell = (ofText lookup dir s text).map s.spell := by
  have hregistry : s.registry = .builtin := by
    rw [s.registry_eq, hallowed]
    rfl
  have hedit : ∀ {text m}, IsPlainText text m → Overridable m →
      (ofText lookup dir s text).map s.spell =
        ofDocument dir .empty (.mapping (s.edit m)) := by
    intro text m htext hfit
    have hbare : Value.BareKeys m := Value.bareKeys_of_untagged m htext.untagged
    rw [ofText_of_plain htext, ofDocument_edit dir hregistry habsolute hbare hfit]
  refine ⟨?same, fun c hc => ?valid, fun other m₂ hother hfit₂ hsame => ?unseen⟩
  case same =>
    rw [ofText_of_plain htext', hedit htext hfit]
  case valid =>
    rw [ofText_of_plain htext] at hc
    obtain ⟨fields, -, hvalid, rfl⟩ := ofDocument_eq_ok.mp hc
    rw [hregistry] at hvalid
    have hurl : ∀ url ∈ s.siteUrl, (s.siteUrl.orElse fun _ => fields.siteUrl) = some url := by
      rintro url hurl
      rw [hurl]
      rfl
    exact ⟨{ hvalid with }, rfl, hurl, fun b hb => congrArg (Option.getD · _) hb,
      fun p hp => congrArg (Option.getD · _) hp, fun p hp => congrArg (Option.getD · _) hp⟩
  case unseen =>
    rw [hedit hother hfit₂, hedit htext hfit, hsame]

/-- A document whose address and directories are no good. -/
def draftDocument : String :=
  "site_name: Docs\nsite_url: ftp://docs\ndocs_dir: .\nstrict: true\n"

/-- The entries of the document. -/
def draftEntries : List (Value × Value) :=
  [(.string "site_name", .string "Docs"), (.string "site_url", .string "ftp://docs"),
    (.string "docs_dir", .string "."), (.string "strict", .bool true)]

/-- The document with the values of settings written in. -/
def releasedDocument : String :=
  "site_name: Docs\nsite_url: http://docs\ndocs_dir: /srv/pages\nstrict: false\n" ++
    "site_dir: /srv/out\n"

/-- Settings that give another address and other directories. -/
def releaseSettings : Settings :=
  { Settings.empty with
    siteUrl := some "http://docs", strict := some false
    docsDir := some ⟨"/srv/pages"⟩, siteDir := some ⟨"/srv/out"⟩ }

/-- With settings that override what is no good the document loads, and its values
are those of the edited one. -/
theorem override_edits_draftDocument :
    ofText (fun _ => none) ⟨"/srv"⟩ .empty draftDocument =
        .error (.invalid (.notHttpUrl "site_url")) ∧
      ∃ c, ofText (fun _ => none) ⟨"/srv"⟩ releaseSettings draftDocument = .ok c ∧
        c.siteUrl = some "http://docs" ∧ c.strict = false ∧
        c.paths = ⟨⟨"/srv"⟩, ⟨"/srv/pages"⟩, ⟨"/srv/out"⟩⟩ ∧
        ofText (fun _ => none) ⟨"/srv"⟩ .empty releasedDocument =
          .ok { c with docsDir := "/srv/pages", siteDir := "/srv/out" } := by
  have hdraft : IsPlainText draftDocument draftEntries :=
    { notBlank := by decide
      reads := Outcome.toOption_eq_some.mp (by decide +kernel)
      untagged := by decide }
  have hreleased : IsPlainText releasedDocument (releaseSettings.edit draftEntries) :=
    { notBlank := by decide
      reads := Outcome.toOption_eq_some.mp (by decide +kernel)
      untagged := by decide }
  have hfit : Overridable draftEntries :=
    { site_url := fun v hv => .inr ⟨"ftp://docs", (Option.some.inj hv).symm⟩
      strict := fun v hv => ⟨true, (Option.some.inj hv).symm⟩
      docs_dir := fun v hv => ⟨".", (Option.some.inj hv).symm⟩
      site_dir := fun v hv => nomatch hv }
  have habsolute : releaseSettings.Absolute := by
    constructor
    · rintro p ⟨⟩
      rfl
    · rintro p ⟨⟩
      rfl
  obtain ⟨hsame, hvalid, -⟩ :=
    override_edits (fun _ => none) ⟨"/srv"⟩ rfl habsolute hdraft hfit hreleased
  have hloads : (ofDocument ⟨"/srv"⟩ releaseSettings (.mapping draftEntries)).toOption.isSome =
      true := by
    decide +kernel
  obtain ⟨c, hc⟩ := Option.isSome_iff_exists.mp hloads
  have hload : ofText (fun _ => none) ⟨"/srv"⟩ releaseSettings draftDocument = .ok c := by
    rw [ofText_of_plain hdraft]
    exact Outcome.toOption_eq_some.mp hc
  obtain ⟨-, hconfig, hurl, hstrict, hdocs, hsite⟩ := hvalid c hload
  refine ⟨?refused, c, hload, hurl _ rfl, hstrict _ rfl, ?paths, ?released⟩
  case refused =>
    rw [ofText_of_plain hdraft]
    rfl
  case paths =>
    have hpaths : c.paths = ⟨c.paths.configDir, c.paths.docsDir, c.paths.siteDir⟩ := rfl
    rw [hpaths, hconfig, hdocs _ rfl, hsite _ rfl]
  case released =>
    rw [hsame, hload]
    rfl

end Config
end SitePlan
