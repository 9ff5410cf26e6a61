/-
# Short forms of a theme

A theme may be written shorter than it is read: by its name alone, with one palette
variant in the place of a list, or without a name where a directory of overrides is given.
Each short form is read as its long form, whatever else the mapping holds, and fails with
the same error where that fails. The features of a theme are a set: the order of their
list and names listed again do not matter.

Key definitions: `Theme.Agree`, `Theme.HasOverrides`.
Key theorems: `Theme.read_mapping`, `Theme.ofEntries_congr`, `Theme.read_exchange`,
`Theme.read_shorthands`.
-/
import SitePlan.Proofs.Yaml.Exchange
import SitePlan.Theme.Basic

namespace SitePlan

open Outcome (Alike)
open Yaml (Value)
open Yaml.Decode (DifferAt fields fits withDefault withDefault_congr)

namespace Theme

/-! ### Themes of like fields -/

/-- The second fields make the same theme as the first: each field is read alike, but for
names that come to the same and features that are the same in order. -/
structure Agree (fs gs : List (String × Value)) : Prop where
  name : Alike (fun a b => ∀ dir, withDefault "custom_dir" none readText fs = .ok dir →
    chooseName b dir = chooseName a dir)
    (withDefault "name" none readText fs) (withDefault "name" none readText gs)
  palette : withDefault "palette" [] readPalette gs = withDefault "palette" [] readPalette fs
  features : Alike (fun a b => Text.sortedNames b = Text.sortedNames a)
    (withDefault "features" [] readTexts fs) (withDefault "features" [] readTexts gs)
  others : ∀ n ∈ ["font", "custom_dir", "logo", "favicon", "language"],
    gs.lookup n = fs.lookup n
  options : settings gs = settings fs

variable {m m' pre post : List (Value × Value)} {fs gs : List (String × Value)}

/-- Mappings whose fields make the same theme are read alike. -/
theorem ofEntries_congr
    (h : Alike Agree (fields known otherSetting [] m) (fields known otherSetting [] m')) :
    ofEntries m' = ofEntries m := by
  unfold ofEntries
  refine h.bind_eq fun fs gs h => ?_
  have hothers : ∀ n ∈ ["font", "custom_dir", "logo", "favicon", "language"],
      ∀ {α : Type} {default : α} {read : Yaml.Decode.Reader α},
      withDefault n default read gs = withDefault n default read fs :=
    fun n hn _ _ _ => withDefault_congr (h.others n hn)
  rw [h.palette, hothers "font" (by decide), hothers "custom_dir" (by decide),
    hothers "logo" (by decide), hothers "favicon" (by decide), hothers "language" (by decide),
    h.options]
  refine h.name.bind_eq fun name name' hname => ?_
  refine (Alike.same _).bind_eq fun palette _ hpalette => ?_
  refine (Alike.same _).bind_eq fun font _ hfont => ?_
  refine h.features.bind_eq fun features features' hfeatures => ?_
  refine (Alike.same _).bind_eq fun dir _ hdir => ?_
  rw [hpalette.1, hfont.1, hfeatures, hdir.1, hname dir hdir.2]

/-- Reading a mapping reads its entries with their tags bare, if no key repeats then. -/
theorem read_mapping (m : List (Value × Value)) : Theme.read (.mapping m) =
    if Value.entriesHaveTag m = true ∧
      Value.entriesRepeatKey (Value.entriesBareTags m) = true then .error .repeatedKey
    else ofEntries (Value.entriesBareTags m) := by
  have htag : (Value.mapping m).hasTag = Value.entriesHaveTag m := rfl
  have hrepeats : (Value.mapping m).bareTags.repeatsKey =
    Value.entriesRepeatKey (Value.entriesBareTags m) := rfl
  rw [Theme.read, Yaml.Decode.value, htag, hrepeats]
  by_cases ht : Value.entriesHaveTag m = true
  · rw [if_pos ht]
    by_cases hr : Value.entriesRepeatKey (Value.entriesBareTags m) = true
    · rw [if_pos hr, if_pos ⟨ht, hr⟩]
      rfl
    · rw [if_neg hr, if_neg fun h => hr h.2]
      rfl
  · rw [if_neg ht, if_neg fun h => ht h.1,
      Value.entriesBareTags_of_untagged m (Bool.eq_false_iff.mpr ht)]
    rfl

/-- Mappings with the same tags in this respect are read alike if their bare entries are. -/
theorem read_congr (htag : Value.entriesHaveTag m' = Value.entriesHaveTag m)
    (hrepeats : Value.entriesRepeatKey (Value.entriesBareTags m') =
      Value.entriesRepeatKey (Value.entriesBareTags m))
    (h : ofEntries (Value.entriesBareTags m') = ofEntries (Value.entriesBareTags m)) :
    Theme.read (.mapping m') = Theme.read (.mapping m) := by
  rw [read_mapping, read_mapping, htag, hrepeats, h]

/-! ### Another value for a field -/

section Differ

variable {name : String} {v? w? : Option Value} {v w : Value}

theorem settings_eq (h : DifferAt known name v? w? fs gs) : settings gs = settings fs := by
  unfold settings
  rw [h.further]

theorem withDefault_eq {α : Type} {n : String} {default : α} {read : Yaml.Decode.Reader α}
    (h : DifferAt known name v? w? fs gs) (hn : n ≠ name) :
    withDefault n default read gs = withDefault n default read fs :=
  withDefault_congr (h.others n hn)

theorem withDefault_first {α : Type} {default : α} {read : Yaml.Decode.Reader α}
    (h : DifferAt known name (some v) w? fs gs) : withDefault name default read fs = read v := by
  unfold withDefault
  rw [h.first]

theorem withDefault_second {α : Type} {default : α} {read : Yaml.Decode.Reader α}
    (h : DifferAt known name v? (some w) fs gs) : withDefault name default read gs = read w := by
  unfold withDefault
  rw [h.second]

theorem names_alike (h : DifferAt known name v? w? fs gs) (hn : "name" ≠ name) :
    Alike (fun a b => ∀ dir, withDefault "custom_dir" none readText fs = .ok dir →
      chooseName b dir = chooseName a dir)
      (withDefault "name" none readText fs) (withDefault "name" none readText gs) := by
  rw [withDefault_eq h hn]
  exact (Alike.same _).imp fun a b hab dir _ => by rw [hab.1]

theorem features_alike (h : DifferAt known name v? w? fs gs) (hn : "features" ≠ name) :
    Alike (fun a b => Text.sortedNames b = Text.sortedNames a)
      (withDefault "features" [] readTexts fs) (withDefault "features" [] readTexts gs) := by
  rw [withDefault_eq h hn]
  exact (Alike.same _).imp fun a b hab => by rw [hab.1]

/-- Palettes that are read alike make the same theme. -/
theorem agree_palette (h : DifferAt known "palette" (some v) (some w) fs gs)
    (hsame : readPalette w = readPalette v) : Agree fs gs where
  name := names_alike h (by decide)
  palette := by rw [withDefault_first h, withDefault_second h, hsame]
  features := features_alike h (by decide)
  others n hn := h.others n (ne_of_mem_of_not_mem hn (by decide))
  options := settings_eq h

/-- Lists of the same features make the same theme. -/
theorem agree_features {names names' : List String}
    (h : DifferAt known "features" (some v) (some w) fs gs) (hv : readTexts v = .ok names)
    (hw : readTexts w = .ok names') (hsame : ∀ s, s ∈ names' ↔ s ∈ names) : Agree fs gs where
  name := names_alike h (by decide)
  palette := withDefault_eq h (by decide)
  features := by
    rw [withDefault_first h, withDefault_second h, hv, hw]
    exact .ok (Text.sortedNames_congr hsame)
  others n hn := h.others n (ne_of_mem_of_not_mem hn (by decide))
  options := settings_eq h

/-- Where a directory of overrides is given, the default name makes the same theme as
none. -/
theorem agree_name {dir : String} (h : DifferAt known "name" v? w? fs gs)
    (hfirst : withDefault "name" none readText fs = .ok none)
    (hsecond : withDefault "name" none readText gs = .ok (some defaultName))
    (hdir : withDefault "custom_dir" none readText fs = .ok (some dir)) : Agree fs gs where
  name := by
    rw [hfirst, hsecond]
    refine .ok fun dir' hdir' => ?_
    rw [hdir] at hdir'
    cases hdir'
    rfl
  palette := withDefault_eq h (by decide)
  features := features_alike h (by decide)
  others n hn := h.others n (ne_of_mem_of_not_mem hn (by decide))
  options := settings_eq h

end Differ

/-! ### Another value in a mapping -/

section Exchange

variable {key v w : Value} {name : String} {check : Yaml.Decode.Check}

/-- A value can be changed for another where the two pass the test of their field alike and
the fields make the same theme with either. -/
theorem read_exchange (hkey : key.text? = some name) (hknown : known name = some check)
    (htag : w.hasTag = v.hasTag) (hrepeats : w.bareTags.repeatsKey = v.bareTags.repeatsKey)
    (hcheck : check w.bareTags = check v.bareTags)
    (hagree : ∀ fs gs,
      fields known otherSetting [] (Value.entriesBareTags (pre ++ (key, v) :: post)) = .ok fs →
      DifferAt known name (some v.bareTags) (some w.bareTags) fs gs → Agree fs gs) :
    Theme.read (.mapping (pre ++ (key, w) :: post)) =
      Theme.read (.mapping (pre ++ (key, v) :: post)) := by
  have hbare : key.bareTags.text? = some name := (Value.text?_bareTags key).trans hkey
  have halike := (Yaml.Decode.fields_exchange otherSetting hbare hknown hcheck
    (Value.entriesBareTags pre) (Value.entriesBareTags post)).results
  refine read_congr (Value.entriesHaveTag_exchange htag) ?_ ?_
  · rw [Value.entriesBareTags_around, Value.entriesBareTags_around]
    exact Value.entriesRepeatKey_exchange hrepeats _
  · rw [Value.entriesBareTags_around] at hagree
    rw [Value.entriesBareTags_around, Value.entriesBareTags_around]
    exact ofEntries_congr (halike.imp fun fs gs h => hagree fs gs h.2.1 h.1)

theorem readPalette_singleton (entries : List (Value × Value)) :
    readPalette (.sequence [.mapping entries]) = readPalette (.mapping entries) := by
  have htag : (Value.sequence [.mapping entries]).hasTag = (Value.mapping entries).hasTag :=
    Bool.or_false _
  have hrepeats : (Value.sequence [.mapping entries]).bareTags.repeatsKey =
      (Value.mapping entries).bareTags.repeatsKey := Bool.or_false _
  have hone : ∀ entry : Value, [entry].mapM PaletteEntry.read =
      (PaletteEntry.read entry).map fun p => [p] := by
    intro entry
    rw [List.mapM_cons, List.mapM_nil]
    cases PaletteEntry.read entry <;> rfl
  unfold readPalette Yaml.Decode.value
  rw [htag, hrepeats]
  by_cases ht : (Value.mapping entries).hasTag = true
  · rw [if_pos ht, if_pos ht]
    by_cases hr : (Value.mapping entries).bareTags.repeatsKey = true
    · rw [if_pos hr, if_pos hr]
    · rw [if_neg hr, if_neg hr]
      exact hone _
  · rw [if_neg ht, if_neg ht]
    exact hone _

theorem read_palette (hkey : key.text? = some "palette") (entries : List (Value × Value)) :
    Theme.read (.mapping (pre ++ (key, .sequence [.mapping entries]) :: post)) =
      Theme.read (.mapping (pre ++ (key, .mapping entries) :: post)) := by
  have hsame : readPalette (Value.sequence [.mapping entries]).bareTags =
      readPalette (Value.mapping entries).bareTags := readPalette_singleton _
  have hknown : known "palette" = some (fits readPalette) := rfl
  refine read_exchange hkey hknown (Bool.or_false _) (Bool.or_false _) ?_
    fun fs gs _ h => agree_palette h hsame
  exact congrArg (Except.map fun _ => ()) hsame

end Exchange

/-! ### Features -/

section Features

variable {key : Value} {names names' : List String}

theorem names_untagged (names : List String) :
    (Value.sequence (names.map .string)).hasTag = false := by
  show Value.itemsHaveTag (names.map .string) = false
  rw [Value.itemsHaveTag_eq, List.any_map, List.any_eq_false]
  exact fun _ _ => Bool.false_ne_true

theorem names_repeatsKey : ∀ names : List String,
    Value.itemsRepeatKey (names.map .string) = false
  | [] => rfl
  | _ :: names => names_repeatsKey names

theorem readTexts_names (names : List String) :
    readTexts (.sequence (names.map .string)) = .ok names := by
  refine Outcome.mapM_eq_ok.mpr ?_
  rw [List.map_map]
  rfl

/-- The features may be listed in another order and more than once. -/
theorem read_features (hkey : key.text? = some "features") (hsame : ∀ s, s ∈ names' ↔ s ∈ names) :
    Theme.read (.mapping (pre ++ (key, .sequence (names'.map .string)) :: post)) =
      Theme.read (.mapping (pre ++ (key, .sequence (names.map .string)) :: post)) := by
  have hbare : ∀ l : List String, (Value.sequence (l.map .string)).bareTags =
      .sequence (l.map .string) := fun l => Value.bareTags_of_untagged _ (names_untagged l)
  have hrepeats : ∀ l : List String, (Value.sequence (l.map .string)).repeatsKey = false :=
    names_repeatsKey
  have hknown : known "features" = some (fits readTexts) := rfl
  refine read_exchange hkey hknown ?_ ?_ ?_ fun fs gs _ h => ?_
  · rw [names_untagged, names_untagged]
  · rw [hbare, hbare, hrepeats, hrepeats]
  · unfold fits
    rw [hbare, hbare, readTexts_names, readTexts_names]
    rfl
  · rw [hbare, hbare] at h
    exact agree_features h (readTexts_names names) (readTexts_names names') hsame

end Features

/-! ### The name -/

/-- A mapping gives a directory of overrides. -/
def HasOverrides (m : List (Value × Value)) : Prop :=
  ∃ e ∈ m, e.1.text? = some "custom_dir" ∧ e.2.text?.isSome = true

section Name

variable {key v : Value}

theorem HasOverrides.bareTags (h : HasOverrides m) : HasOverrides (Value.entriesBareTags m) := by
  obtain ⟨e, he, hkey, hdir⟩ := h
  refine ⟨(e.1.bareTags, e.2.bareTags), ?_, ?_, ?_⟩
  · rw [Value.entriesBareTags_eq]
    exact List.mem_map_of_mem he
  · rw [Value.text?_bareTags, hkey]
  · rw [Value.text?_bareTags, hdir]

theorem readText_of_text? {s : String} (h : v.text? = some s) : readText v = .ok (some s) := by
  have htext : Yaml.Decode.text v = .ok s := by
    unfold Value.text? at h
    unfold Yaml.Decode.text
    revert h
    cases v.untagged <;> simp
  have hread : readText v = (Yaml.Decode.text v).map some := by
    cases v with
    | null => cases h
    | _ => rfl
  rw [hread, htext]
  rfl

theorem HasOverrides.read (h : HasOverrides m) (hfs : fields known otherSetting [] m = .ok fs) :
    ∃ dir, withDefault "custom_dir" none readText fs = .ok (some dir) := by
  obtain ⟨e, he, hkey, hdir⟩ := h
  obtain ⟨dir, hdir⟩ := Option.isSome_iff_exists.mp hdir
  have hknown : known "custom_dir" = some (fits readText) := rfl
  have hlookup : fs.lookup "custom_dir" = some e.2 :=
    Yaml.Decode.lookup_of_entry hfs he hkey hknown
  refine ⟨dir, ?_⟩
  unfold withDefault
  rw [hlookup]
  exact readText_of_text? hdir

/-- With a directory of overrides, null for a name is the default name. -/
theorem read_nullName (hkey : key.text? = some "name")
    (hdir : HasOverrides (pre ++ (key, .null) :: post)) :
    Theme.read (.mapping (pre ++ (key, .string defaultName) :: post)) =
      Theme.read (.mapping (pre ++ (key, .null) :: post)) := by
  have hknown : known "name" = some (fits readText) := rfl
  refine read_exchange hkey hknown rfl rfl rfl fun fs gs hfs h => ?_
  obtain ⟨dir, hdir⟩ := hdir.bareTags.read hfs
  exact agree_name h (withDefault_first h) (withDefault_second h) hdir

/-- With a directory of overrides, the default name can be left out. -/
theorem read_noName (hpre : ∀ e ∈ pre, e.1.text? ≠ some "name")
    (hpost : ∀ e ∈ post, e.1.text? ≠ some "name") (hdir : HasOverrides (pre ++ post)) :
    Theme.read (.mapping (pre ++ (.string "name", .string defaultName) :: post)) =
      Theme.read (.mapping (pre ++ post)) := by
  have hbare : ∀ m : List (Value × Value), (∀ e ∈ m, e.1.text? ≠ some "name") →
      ∀ e ∈ Value.entriesBareTags m, e.1.text? ≠ some "name" := by
    intro m hm
    rw [Value.entriesBareTags_eq, List.forall_mem_map]
    intro e he
    rw [Value.text?_bareTags]
    exact hm e he
  have hkeys : ∀ m : List (Value × Value), (∀ e ∈ m, e.1.text? ≠ some "name") →
      ∀ e ∈ m, e.1 ≠ .string "name" := by
    intro m hm e he heq
    exact hm e he (by rw [heq]; rfl)
  have hknown : known "name" = some (fits readText) := rfl
  have hfits : fits readText (.string defaultName) = .ok () := rfl
  have halike := (Yaml.Decode.fields_insert otherSetting hknown hfits (Value.entriesBareTags pre)
    (Value.entriesBareTags post) (hbare pre hpre) (hbare post hpost)).results
  refine read_congr (Value.entriesHaveTag_insert rfl rfl) ?_ ?_
  · rw [Value.entriesBareTags_around, Value.entriesBareTags_append]
    exact Value.entriesRepeatKey_insert rfl (hkeys _ (hbare post hpost)) _
      (hkeys _ (hbare pre hpre))
  · have hdirs := hdir.bareTags
    rw [Value.entriesBareTags_append] at hdirs
    rw [Value.entriesBareTags_around, Value.entriesBareTags_append]
    refine ofEntries_congr (halike.imp fun fs gs ⟨h, hfs, _⟩ => ?_)
    obtain ⟨dir, hdir⟩ := hdirs.read hfs
    refine agree_name h ?_ (withDefault_second h) hdir
    unfold withDefault
    rw [h.first]

end Name

/-! ### All short forms -/

/-- **The short forms of a theme are read as their long forms.** The name alone is a
mapping of it; one palette variant is the list of it; with a directory of overrides, no
name or null is the name `mkdocs`; and the features are a set. Whatever else stands in the
mapping, both forms give the same theme or the same error. -/
theorem read_shorthands :
    (∀ name, Theme.read (.string name) = .ok (named name) ∧
      Theme.read (.string name) = Theme.read (.mapping [(.string "name", .string name)])) ∧
    (∀ pre post key variant, key.text? = some "palette" →
      Theme.read (.mapping (pre ++ (key, .mapping variant) :: post)) =
        Theme.read (.mapping (pre ++ (key, .sequence [.mapping variant]) :: post))) ∧
    (∀ pre post, HasOverrides (pre ++ post) → (∀ e ∈ pre ++ post, e.1.text? ≠ some "name") →
      Theme.read (.mapping (pre ++ post)) =
        Theme.read (.mapping (pre ++ (.string "name", .string "mkdocs") :: post))) ∧
    (∀ pre post key, HasOverrides (pre ++ post) → key.text? = some "name" →
      Theme.read (.mapping (pre ++ (key, .null) :: post)) =
        Theme.read (.mapping (pre ++ (key, .string "mkdocs") :: post))) ∧
    ∀ pre post key (names names' : List String), key.text? = some "features" →
      (∀ name, name ∈ names ↔ name ∈ names') →
      Theme.read (.mapping (pre ++ (key, .sequence (names.map .string)) :: post)) =
        Theme.read (.mapping (pre ++ (key, .sequence (names'.map .string)) :: post)) := by
  refine ⟨fun name => ⟨rfl, rfl⟩, fun pre post key variant hkey => ?palette,
    fun pre post hdir hnone => ?missing, fun pre post key hdir hkey => ?null,
    fun pre post key names names' hkey hsame => ?features⟩
  case palette => exact (read_palette hkey variant).symm
  case missing =>
    obtain ⟨hpre, hpost⟩ := List.forall_mem_append.mp hnone
    exact (read_noName hpre hpost hdir).symm
  case null =>
    refine (read_nullName hkey ?_).symm
    obtain ⟨e, he, h⟩ := hdir
    exact ⟨e, List.mem_append.mpr ((List.mem_append.mp he).imp_right (List.mem_cons_of_mem _)), h⟩
  case features => exact (read_features hkey fun name => (hsame name).symm).symm

/-- A theme of one's own with a variant of the palette and some features, which leaves the
name out, or writes null for it. -/
theorem read_shorthands_ownTheme :
    let palette : Value := .mapping [(.string "scheme", .string "slate")]
    let dir : Value × Value := (.string "custom_dir", .string "overrides")
    let features (names : List String) : Value := .sequence (names.map .string)
    let read (m : List (Value × Value)) := Theme.read (.mapping m)
    read [dir, (.string "palette", palette)] =
        read [dir, (.string "palette", .sequence [palette])] ∧
      read [dir] = read [dir, (.string "name", .string "mkdocs")] ∧
      read [dir, (.string "name", .null)] = read [dir, (.string "name", .string "mkdocs")] ∧
      read [(.string "name", .string "material"), (.string "features", features ["b", "a"])] =
        read [(.string "name", .string "material"),
          (.string "features", features ["a", "b", "a"])] := by
  intro palette dir features read
  have hdir : HasOverrides [dir] := ⟨dir, List.mem_singleton_self _, rfl, rfl⟩
  obtain ⟨-, hpalette, hmissing, hnull, hfeatures⟩ := read_shorthands
  refine ⟨hpalette [dir] [] (.string "palette") _ rfl, hmissing [dir] [] hdir (by decide),
    hnull [dir] [] (.string "name") hdir rfl, ?_⟩
  refine hfeatures [(.string "name", .string "material")] [] (.string "features")
    ["b", "a"] ["a", "b", "a"] rfl fun name => ?_
  simp only [List.mem_cons, List.not_mem_nil, or_false]
  tauto

end Theme
end SitePlan
