/-
# What settings change

Settings may allow names beyond the builtin ones. Registering a name adds it to
the names of its kind, and with it the name with the beginning that the kind
allows; it takes no name away and leaves the other kinds alone. So whatever is
registered, and in whichever order, the recognised names are those from before
and the added ones in their spellings. Rules ask for names to be recognised and
never for the opposite, hence a document that loads without settings loads with
settings that only allow names and set strictness, and to the same configuration
but for strictness.

Key definitions: `Registry.register`, `Settings.allowed`.
Key theorems: `Registry.mem_names_add`, `Registry.mem_names_register`,
`Registry.contains_register`, `Settings.registry_contains`, `Config.Valid.mono`,
`Config.ofDocument_eq_ok`, `Config.load_strict`, `Config.settings_widen`.
-/
import SitePlan.Proofs.Config.Rules

namespace SitePlan

open Yaml (Value)

/-! ### Registering names -/

namespace Registry

variable {kind kind' : IdentifierKind} {name name' : String}

theorem mem_insertName {names : List String} :
    name ∈ insertName name' names ↔ name ∈ names ∨ name = name' := by
  unfold insertName
  by_cases hold : names.contains name' = true
  · rw [if_pos hold]
    have hmem : name' ∈ names := List.contains_iff_mem.mp hold
    constructor
    · exact .inl
    · rintro (h | rfl)
      · exact h
      · exact hmem
  · rw [if_neg hold, List.mem_append, List.mem_singleton]

theorem mem_names_add {r : Registry} :
    name ∈ (r.add kind' name').names kind ↔ name ∈ r.names kind ∨ kind = kind' ∧ name = name' := by
  by_cases hkind : kind = kind'
  · subst hkind
    have h : (r.add kind name').names kind = insertName name' (r.names kind) := by
      cases kind <;> rfl
    rw [h, mem_insertName]
    simp
  · have h : (r.add kind' name').names kind = r.names kind := by
      cases kind <;> cases kind' <;> first | rfl | exact absurd rfl hkind
    rw [h]
    simp [hkind]

/-- The registry with names of several kinds added, one after the other. -/
def register (calls : List (IdentifierKind × String)) (r : Registry) : Registry :=
  calls.foldl (fun r call => r.add call.1 call.2) r

/-- The names of a kind are those from before and those added to it. -/
theorem mem_names_register : ∀ (calls : List (IdentifierKind × String)) (r : Registry),
    name ∈ (r.register calls).names kind ↔ name ∈ r.names kind ∨ (kind, name) ∈ calls
  | [], r => by simp [register]
  | (kind', name') :: calls, r => by
    have ih := mem_names_register calls (r.add kind' name')
    have hstep : r.register ((kind', name') :: calls) = (r.add kind' name').register calls := rfl
    rw [hstep, ih, mem_names_add, List.mem_cons, Prod.mk.injEq, or_assoc]

/-- A name is recognised after registering exactly if it was before, or if it was
added, as itself or as what follows the beginning that its kind allows. -/
theorem contains_register (calls : List (IdentifierKind × String)) (r : Registry)
    (kind : IdentifierKind) (name : String) : (r.register calls).contains kind name = true ↔
      r.contains kind name = true ∨ (kind, name) ∈ calls ∨
        ∃ start short, kind.namespaceText? = some start ∧ name = start ++ short ∧
          (kind, short) ∈ calls := by
  rw [contains_iff, contains_iff]
  unfold Recognises
  simp only [mem_names_register]
  constructor
  · rintro ((hold | hnew) | ⟨start, short, hstart, hname, hold | hnew⟩)
    · exact .inl (.inl hold)
    · exact .inr (.inl hnew)
    · exact .inl (.inr ⟨start, short, hstart, hname, hold⟩)
    · exact .inr (.inr ⟨start, short, hstart, hname, hnew⟩)
  · rintro ((hold | ⟨start, short, hstart, hname, hold⟩) |
      hnew | ⟨start, short, hstart, hname, hnew⟩)
    · exact .inl (.inl hold)
    · exact .inr ⟨start, short, hstart, hname, .inl hold⟩
    · exact .inl (.inr hnew)
    · exact .inr ⟨start, short, hstart, hname, .inr hnew⟩

end Registry

namespace Settings

/-- The names that settings allow, in the order in which they are registered. -/
def allowed (s : Settings) : List (IdentifierKind × String) :=
  s.allowExtensions.map (IdentifierKind.markdownExtension, ·) ++
    s.allowPlugins.map (IdentifierKind.plugin, ·) ++ s.allowThemes.map (IdentifierKind.theme, ·)

theorem registry_eq (s : Settings) : s.registry = Registry.builtin.register s.allowed := by
  unfold registry Registry.register allowed Registry.addAll
  rw [List.foldl_append, List.foldl_append, List.foldl_map, List.foldl_map, List.foldl_map]

/-- A name is recognised under settings exactly if it is builtin or if they allow it,
as itself or as what follows the beginning that its kind allows. -/
theorem registry_contains (s : Settings) (kind : IdentifierKind) (name : String) :
    s.registry.contains kind name = true ↔
      Registry.builtin.contains kind name = true ∨ (kind, name) ∈ s.allowed ∨
        ∃ start short, kind.namespaceText? = some start ∧ name = start ++ short ∧
          (kind, short) ∈ s.allowed := by
  rw [registry_eq]
  exact Registry.contains_register s.allowed .builtin kind name

theorem registry_recognises (s : Settings) {kind : IdentifierKind} {name : String}
    (h : Registry.builtin.Recognises kind name) : s.registry.Recognises kind name := by
  rw [← Registry.contains_iff] at h ⊢
  exact (s.registry_contains kind name).mpr (.inl h)

end Settings

/-! ### Loading -/

namespace Config

/-- A configuration stays valid where more names are recognised. -/
theorem Valid.mono {c : Config} {r r' : Registry}
    (hle : ∀ kind name, r.Recognises kind name → r'.Recognises kind name) (h : c.Valid r) :
    c.Valid r' :=
  { h with
    theme := hle _ _ h.theme
    extensions := fun e he => hle _ _ (h.extensions e he)
    plugins := fun e he => hle _ _ (h.plugins e he) }

theorem validate_eq_ok {c : Config} {r : Registry} {warnings : List String} :
    c.validate r = .ok warnings ↔ c.Valid r ∧ warnings = c.theme.paletteWarnings := by
  have henforces := c.validate_enforces r
  rw [valid_iff_rules, ← henforces.ok_iff]
  constructor
  · intro h
    have heq := henforces.eq_of_ok h
    exact ⟨heq ▸ h, heq⟩
  · rintro ⟨h, rfl⟩
    exact h

/-- The warnings for top-level keys without a meaning. -/
def keyWarnings (v : Value) : List String :=
  (unknownKeys (v.entries?.getD [])).map fun key => "unrecognized configuration key `" ++ key ++ "`"

/-- The keys without a meaning depend on the keys alone. -/
theorem unknownKeys_eq (m : List (Value × Value)) : unknownKeys m =
    ((m.map Prod.fst).filterMap Value.text?).filter fun key => !knownKeys.contains key := by
  unfold unknownKeys
  rw [List.filterMap_map]
  rfl

theorem ofDocument_of_read (dir : Path) (s : Settings) {v : Value} {fields : Config}
    (h : Config.read v = .ok fields) : ofDocument dir s v =
      (((fields.placeIn dir).override s).validate s.registry).map fun warnings =>
        { (fields.placeIn dir).override s with warnings := keyWarnings v ++ warnings } := by
  unfold ofDocument
  rw [h]
  show (((fields.placeIn dir).override s).validate s.registry >>= _) = _
  cases ((fields.placeIn dir).override s).validate s.registry <;> rfl

theorem ofDocument_of_misread (dir : Path) (s : Settings) {v : Value} {e : Yaml.DecodeError}
    (h : Config.read v = .error e) : ofDocument dir s v = .error (.decode e) := by
  unfold ofDocument
  rw [h]
  rfl

/-- A document loads exactly if its fields can be read and, placed and overridden,
make a valid configuration. -/
theorem ofDocument_eq_ok {dir : Path} {s : Settings} {v : Value} {c : Config} :
    ofDocument dir s v = .ok c ↔ ∃ fields, Config.read v = .ok fields ∧
      ((fields.placeIn dir).override s).Valid s.registry ∧
      c = { (fields.placeIn dir).override s with
        warnings := keyWarnings v ++ fields.theme.paletteWarnings } := by
  cases hread : Config.read v with
  | error e =>
    rw [ofDocument_of_misread dir s hread]
    simp
  | ok fields =>
    rw [ofDocument_of_read dir s hread, Outcome.map_eq_ok]
    simp only [validate_eq_ok]
    constructor
    · rintro ⟨_, ⟨hvalid, rfl⟩, rfl⟩
      exact ⟨fields, rfl, hvalid, rfl⟩
    · rintro ⟨_, hfields, hvalid, rfl⟩
      cases hfields
      exact ⟨_, ⟨hvalid, rfl⟩, rfl⟩

theorem ofText_eq_ok {lookup : String → Option String} {dir : Path} {s : Settings} {text : String}
    {c : Config} : ofText lookup dir s text = .ok c ↔
      ∃ v, documentEntries lookup text = .ok v ∧ ofDocument dir s v = .ok c :=
  Outcome.bind_eq_ok

/-! ### Strictness -/

theorem ofDocument_strict (dir : Path) (s : Settings) (strict : Bool) (v : Value) :
    ofDocument dir { s with strict := some strict } v =
      (ofDocument dir s v).map fun c => { c with strict := strict } := by
  cases hread : Config.read v with
  | error e =>
    rw [ofDocument_of_misread dir _ hread, ofDocument_of_misread dir s hread]
    rfl
  | ok fields =>
    have hsame : ((fields.placeIn dir).override { s with strict := some strict }).validate
        s.registry = ((fields.placeIn dir).override s).validate s.registry := rfl
    rw [ofDocument_of_read dir _ hread, ofDocument_of_read dir s hread, Outcome.map_map, ← hsame]
    rfl

theorem ofText_strict (lookup : String → Option String) (dir : Path) (s : Settings)
    (strict : Bool) (text : String) : ofText lookup dir { s with strict := some strict } text =
      (ofText lookup dir s text).map fun c => { c with strict := strict } := by
  unfold ofText
  cases documentEntries lookup text with
  | error e => rfl
  | ok v => exact ofDocument_strict dir s strict v

theorem loadFile_strict (h : Host) (s : Settings) (strict : Bool) (path : Path) :
    loadFile h { s with strict := some strict } path =
      (loadFile h s path).map fun c => { c with strict := strict } := by
  unfold loadFile
  cases (h.readText path).mapError ConfigError.file with
  | error e => rfl
  | ok text =>
    show (ofText h.lookupVariable path.directory { s with strict := some strict } text >>= _) =
      Except.map _ (ofText h.lookupVariable path.directory s text >>= _)
    rw [ofText_strict]
    cases ofText h.lookupVariable path.directory s text <;> rfl

/-- A site that loads does so strict or not, and is the same otherwise. -/
theorem load_strict (h : Host) (path : Option Path) (s : Settings) (strict : Bool) :
    load h path { s with strict := some strict } =
      (load h path s).map fun c => { c with strict := strict } := by
  unfold load
  cases path with
  | some path =>
    by_cases hpresent : h.present path
    · simp only [if_pos hpresent]
      exact loadFile_strict h s strict path
    · simp only [if_neg hpresent]
      rfl
  | none =>
    cases discover? h h.workingDirectory with
    | some path => exact loadFile_strict h s strict path
    | none => rfl

/-! ### Settings that only allow names and set strictness -/

/-- **Allowing names and setting strictness only widens what is recognised.** A text
that loads without settings loads with such settings, to the same configuration but
for strictness. Under settings a name is recognised exactly if it is without them or
if they allow it, as itself or, where the kind has a beginning, without it. The same
holds of whatever else is registered, and however often. -/
theorem settings_widen (lookup : String → Option String) (dir : Path) (text : String)
    {s : Settings} (hs : s.docsDir = none ∧ s.siteDir = none ∧ s.siteUrl = none) :
    (∀ c, ofText lookup dir .empty text = .ok c →
      ofText lookup dir s text = .ok { c with strict := s.strict.getD c.strict }) ∧
      (∀ (kind : IdentifierKind) (name : String), s.registry.contains kind name = true ↔
        Registry.builtin.contains kind name = true ∨ (kind, name) ∈ s.allowed ∨
          ∃ start short, kind.namespaceText? = some start ∧ name = start ++ short ∧
            (kind, short) ∈ s.allowed) ∧
      ∀ (base : Registry) (calls : List (IdentifierKind × String)) (kind : IdentifierKind)
        (name : String), (base.register calls).contains kind name = true ↔
          base.contains kind name = true ∨ (kind, name) ∈ calls ∨
            ∃ start short, kind.namespaceText? = some start ∧ name = start ++ short ∧
              (kind, short) ∈ calls := by
  refine ⟨fun c hc => ?_, s.registry_contains,
    fun base calls => Registry.contains_register calls base⟩
  obtain ⟨v, hv, hc⟩ := ofText_eq_ok.mp hc
  obtain ⟨fields, hread, hvalid, rfl⟩ := ofDocument_eq_ok.mp hc
  have hoverride : (fields.placeIn dir).override s =
      { (fields.placeIn dir).override .empty with strict := s.strict.getD fields.strict } := by
    unfold override
    rw [hs.1, hs.2.1, hs.2.2]
    rfl
  have hwide : ((fields.placeIn dir).override s).Valid s.registry := by
    rw [hoverride]
    exact { hvalid.mono fun _ _ h => s.registry_recognises h with }
  refine ofText_eq_ok.mpr ⟨v, hv, ofDocument_eq_ok.mpr ⟨fields, hread, hwide, ?_⟩⟩
  rw [hoverride]
  rfl

/-- A document with an extension in both spellings and a key without a meaning. -/
def tabledDocument : String :=
  "site_name: Docs\nmarkdown_extensions: [toc, markdown.extensions.toc]\ntheem: 1\n"

/-- Settings that allow a plugin, a theme and the longer spelling of an extension. -/
def wideSettings : Settings :=
  { Settings.empty with
    strict := some true, allowExtensions := ["markdown.extensions.toc", "toc"]
    allowPlugins := ["charts"], allowThemes := ["slate", "slate"] }

/-- The document loads with the settings as without them, but strict; and names in
front of which the beginning stands are recognised for extensions and plugins, but
not for themes, under the settings and where nothing is builtin. -/
theorem settings_widen_tabledDocument :
    (∃ c, ofText (fun _ => none) ⟨"/srv"⟩ .empty tabledDocument = .ok c ∧ c.strict = false ∧
      c.warnings = ["unrecognized configuration key `theem`"] ∧
      ofText (fun _ => none) ⟨"/srv"⟩ wideSettings tabledDocument = .ok { c with strict := true }) ∧
      wideSettings.registry.contains .plugin "material/charts" = true ∧
      wideSettings.registry.contains .theme "material/slate" = false ∧
      (Registry.empty.register wideSettings.allowed).contains .plugin "material/charts" = true := by
  have hfields : (ofText (fun _ => none) ⟨"/srv"⟩ .empty tabledDocument).toOption.map
      (fun c => (c.strict, c.warnings)) =
        some (false, ["unrecognized configuration key `theem`"]) := by decide +kernel
  obtain ⟨hwide, hrecognised, hregister⟩ :=
    settings_widen (fun _ => none) ⟨"/srv"⟩ tabledDocument (s := wideSettings) ⟨rfl, rfl, rfl⟩
  obtain ⟨c, hc, hvalues⟩ := Option.map_eq_some_iff.mp hfields
  obtain ⟨hstrict, hwarnings⟩ := Prod.mk.inj hvalues
  have hload := Outcome.toOption_eq_some.mp hc
  have hcharts : ∃ start short, IdentifierKind.plugin.namespaceText? = some start ∧
      "material/charts" = start ++ short ∧ (.plugin, short) ∈ wideSettings.allowed :=
    ⟨"material/", "charts", rfl, rfl, by decide⟩
  refine ⟨⟨c, hload, hstrict, hwarnings, hwide c hload⟩,
    (hrecognised _ _).mpr (.inr (.inr hcharts)), ?_, (hregister _ _ _ _).mpr (.inr (.inr hcharts))⟩
  rw [← Bool.not_eq_true, hrecognised]
  rintro (hold | hnew | ⟨start, short, hstart, -, -⟩)
  · exact absurd hold (by decide)
  · exact absurd hnew (by decide)
  · cases hstart

end Config
end SitePlan
