/-
# Configurations with a JSON form

Most of a configuration is texts, truth values and lists of these, and always has a JSON
form. Values that a document gives freely stand in four places: the further settings of
the theme, the options of extensions, those of plugins, and the extra data. A
configuration has a JSON form exactly if all keys there can name fields. Loading keeps the
keys of a document and makes no new ones, since what a variable stands for is a scalar. So
what is loaded from a document whose keys can all name fields has a JSON form; but no step
of loading asks for that.

Key definitions: `Config.Printable`.
Key theorems: `Config.toJson_isOk_iff`, `Environment.resolves_printable`,
`Config.read_printable`, `Config.ofText_printable`.
-/
import SitePlan.Proofs.Config.NamedEntries
import SitePlan.Proofs.Config.Reading
import SitePlan.Proofs.Config.Settings
import SitePlan.Proofs.Yaml.KeyOrder
import SitePlan.Proofs.Yaml.Printable

namespace SitePlan

open Yaml (Value)

/-! ### The JSON form -/

theorem NamedEntry.toJson_isOk_iff {e : NamedEntry} :
    (∃ j, e.toJson = .ok j) ↔ (Value.mapping e.options).Printable := by
  rw [Value.printable_mapping, ← Value.entriesToJson_isOk_iff]
  simp [toJson, Outcome.bind_eq_ok]

namespace Theme

theorem settingsToJson_isOk_iff : ∀ {options : List (String × Value)},
    (∃ fs, settingsToJson options = .ok fs) ↔ ∀ o ∈ options, o.2.Printable
  | [] => by simp [settingsToJson]
  | (name, v) :: rest => by
    rw [List.forall_mem_cons, ← Value.toJson_isOk_iff, ← settingsToJson_isOk_iff]
    simp [settingsToJson, Outcome.bind_eq_ok]

theorem toJson_isOk_iff {t : Theme} :
    (∃ j, t.toJson = .ok j) ↔ ∀ o ∈ t.options, o.2.Printable := by
  rw [← settingsToJson_isOk_iff]
  simp [toJson, Outcome.bind_eq_ok]

end Theme

namespace Config

/-- In the values that a document gives freely, every key can name a field. -/
structure Printable (c : Config) : Prop where
  theme : ∀ o ∈ c.theme.options, o.2.Printable
  extensions : ∀ e ∈ c.markdownExtensions, (Value.mapping e.options).Printable
  plugins : ∀ e ∈ c.plugins, (Value.mapping e.options).Printable
  extra : (Value.mapping c.extra).Printable

/-- **A configuration has a JSON form exactly if all keys in its free values can name
fields.** -/
theorem toJson_isOk_iff {c : Config} : (∃ j, c.toJson = .ok j) ↔ c.Printable := by
  have hentries : ∀ entries : List NamedEntry, (∃ js, entries.mapM NamedEntry.toJson = .ok js) ↔
      ∀ e ∈ entries, (Value.mapping e.options).Printable := by
    intro entries
    simp only [Outcome.mapM_isOk_iff, NamedEntry.toJson_isOk_iff]
  have hextra : (∃ fs, Value.entriesToJson c.extra = .ok fs) ↔
      (Value.mapping c.extra).Printable := by
    rw [Value.printable_mapping, Value.entriesToJson_isOk_iff]
  constructor
  · rintro ⟨j, h⟩
    simp only [toJson, Outcome.bind_eq_ok] at h
    obtain ⟨theme, htheme, extensions, hextensions, plugins, hplugins, extra, hfields, -⟩ := h
    exact
      { theme := Theme.toJson_isOk_iff.mp ⟨theme, htheme⟩
        extensions := (hentries _).mp ⟨extensions, hextensions⟩
        plugins := (hentries _).mp ⟨plugins, hplugins⟩
        extra := hextra.mp ⟨extra, hfields⟩ }
  · intro h
    obtain ⟨theme, htheme⟩ := Theme.toJson_isOk_iff.mpr h.theme
    obtain ⟨extensions, hextensions⟩ := (hentries _).mpr h.extensions
    obtain ⟨plugins, hplugins⟩ := (hentries _).mpr h.plugins
    obtain ⟨extra, hfields⟩ := hextra.mpr h.extra
    simp only [toJson, htheme, hextensions, hplugins, hfields, Outcome.ok_bind]
    exact ⟨_, rfl⟩

end Config

/-! ### Resolving -/

namespace Environment

variable {lookup : String → Option String}

/-- What replaces a tag is a scalar, or a value within the tag. -/
theorem replaces_printable {arg w : Value} (harg : arg.Printable)
    (h : Replaces lookup arg w) : w.Printable := by
  cases h with
  | read _ _ _ hreads => exact .scalar hreads.isScalar
  | standIn hw =>
    obtain ⟨names, hgives, -⟩ := hw
    cases hgives with
    | several _ _ =>
      exact Value.printable_sequence.mp harg _
        (List.mem_append_right _ (List.mem_singleton_self _))

mutual

theorem resolves_printable : ∀ {v w : Value}, v.Printable → Resolves lookup v w → w.Printable
  | .tagged _ _, _, hv, h =>
    replaces_printable (Value.printable_tagged.mp hv) (resolves_tagged.mp h).2
  | .sequence items, w, hv, h => by
    obtain ⟨items', hitems, rfl⟩ := resolves_sequence.mp h
    exact .sequence (resolves_printable_items (Value.printable_sequence.mp hv) hitems)
  | .mapping entries, w, hv, h => by
    obtain ⟨entries', ⟨hkeys, hvalues⟩, rfl⟩ := resolves_mapping.mp h
    rw [Value.printable_mapping] at hv
    have hvalues' := resolves_printable_entries (fun e he => (hv e he).2) hvalues
    have hkeys' : ∀ k ∈ entries'.map Prod.fst, k.NamesField := by
      rw [hkeys]
      exact List.forall_mem_map.mpr fun e he => (hv e he).1
    exact .mapping (List.forall_mem_map.mp hkeys') (List.forall_mem_map.mp hvalues')
  | .null, _, hv, h => (resolves_scalar .null).mp h ▸ hv
  | .bool b, _, hv, h => (resolves_scalar (.bool b)).mp h ▸ hv
  | .number n, _, hv, h => (resolves_scalar (.number n)).mp h ▸ hv
  | .string s, _, hv, h => (resolves_scalar (.string s)).mp h ▸ hv

theorem resolves_printable_items : ∀ {items items' : List Value},
    (∀ v ∈ items, v.Printable) → List.Forall₂ (Resolves lookup) items items' →
    ∀ w ∈ items', w.Printable
  | [], _, _, h => by
    cases h
    simp
  | v :: rest, _, hall, h => by
    obtain ⟨hv, hrest⟩ := List.forall_mem_cons.mp hall
    cases h with
    | cons hw hws =>
      exact List.forall_mem_cons.mpr ⟨resolves_printable hv hw, resolves_printable_items hrest hws⟩

theorem resolves_printable_entries : ∀ {entries : List (Value × Value)} {ws : List Value},
    (∀ e ∈ entries, e.2.Printable) →
    List.Forall₂ (Resolves lookup) (entries.map Prod.snd) ws → ∀ w ∈ ws, w.Printable
  | [], _, _, h => by
    cases h
    simp
  | (_, v) :: rest, _, hall, h => by
    obtain ⟨hv, hrest⟩ := List.forall_mem_cons.mp hall
    cases h with
    | cons hw hws =>
      exact List.forall_mem_cons.mpr
        ⟨resolves_printable hv hw, resolves_printable_entries hrest hws⟩

end

end Environment

/-! ### Reading -/

namespace Yaml.Decode

variable {v w : Value}

theorem value_printable (hv : v.Printable) (h : value v = .ok w) : w.Printable := by
  obtain ⟨rfl, -⟩ := value_eq_ok.mp h
  exact Value.printable_bareTags hv

theorem entries_printable {expected : String} {es : List (Value × Value)} (hv : v.Printable)
    (h : entries expected v = .ok es) : (Value.mapping es).Printable := by
  rw [← Value.printable_untagged] at hv
  unfold entries at h
  split at h
  · next hmapping =>
    cases h
    rwa [← hmapping]
  · cases h
    exact Value.printable_nil
  · cases h

end Yaml.Decode

open Yaml.Decode

namespace NamedEntry

theorem GivesOptions.printable {v : Value} {options : List (Value × Value)}
    (h : GivesOptions v options) (hv : v.Printable) : (Value.mapping options).Printable := by
  cases h with
  | none => exact Value.printable_nil
  | given => exact hv

theorem InItem.printable {item : Value} {e : NamedEntry} (h : InItem item e)
    (hitem : item.Printable) : (Value.mapping e.options).Printable := by
  cases h with
  | name => exact Value.printable_nil
  | pair hpair =>
    exact hpair.2.printable (Value.printable_mapping.mp hitem _ List.mem_cons_self).2

theorem readList_printable {v : Value} {entries : List NamedEntry} (hv : v.Printable)
    (h : readList v = .ok entries) : ∀ e ∈ entries, (Value.mapping e.options).Printable := by
  obtain ⟨w, hw, hlist⟩ := Outcome.bind_eq_ok.mp h
  rw [Outcome.mapError_eq_ok, listOfValue_eq_ok] at hlist
  have hprintable := value_printable hv hw
  intro e he
  cases hlist with
  | null => exact absurd he List.not_mem_nil
  | sequence hitems =>
    obtain ⟨item, hitem, hnames⟩ := Outcome.exists_of_mem_forall₂ hitems he
    exact hnames.printable (Value.printable_sequence.mp hprintable item hitem)
  | mapping hpairs =>
    obtain ⟨pair, hpair, hnames⟩ := Outcome.exists_of_mem_forall₂ hpairs he
    exact hnames.2.printable (Value.printable_mapping.mp hprintable pair hpair).2

end NamedEntry

namespace Theme

theorem mem_settings {fs : List (String × Value)} {o : String × Value} (h : o ∈ settings fs) :
    o ∈ fs := by
  have hfold : ∀ {more acc : List (String × Value)},
      o ∈ more.foldl (fun acc f => Text.insertSorted f.1 f.2 acc) acc → o ∈ more ∨ o ∈ acc := by
    intro more
    induction more with
    | nil => exact .inr
    | cons f more ih =>
      intro acc h
      rcases ih h with h | h
      · exact .inl (List.mem_cons_of_mem _ h)
      · rcases Text.mem_insertSorted f.1 f.2 h with rfl | h
        · exact .inl List.mem_cons_self
        · exact .inr h
  rcases hfold h with h | h
  · exact List.mem_of_mem_filter h
  · exact absurd h List.not_mem_nil

theorem read_printable {v : Value} {t : Theme} (hv : v.Printable) (h : read v = .ok t) :
    ∀ o ∈ t.options, o.2.Printable := by
  obtain ⟨w, hw, ht⟩ := Outcome.bind_eq_ok.mp h
  have hprintable := value_printable hv hw
  split at ht
  · cases ht
    exact fun o ho => absurd ho List.not_mem_nil
  · next entries =>
    obtain ⟨fs, hfs, hread⟩ := ofEntries_eq_ok.mp ht
    rw [hread.options]
    intro o ho
    obtain ⟨e, he, -, heo⟩ := exists_entry_of_mem_fields hfs (mem_settings ho)
    rw [← heo]
    exact (Value.printable_mapping.mp hprintable e he).2
  · cases ht

end Theme

namespace Config

theorem readExtra_printable {v : Value} {extra : List (Value × Value)} (hv : v.Printable)
    (h : readExtra v = .ok extra) : (Value.mapping extra).Printable := by
  obtain ⟨es, hes, hvalue⟩ := Outcome.bind_eq_ok.mp h
  obtain ⟨w, hw, hextra⟩ := Outcome.bind_eq_ok.mp hvalue
  have hprintable := value_printable (entries_printable hv hes) hw
  split at hextra
  · cases hextra
    exact hprintable
  · cases hextra
    exact Value.printable_nil

/-- The free values of a configuration are those of its fields, or defaults. -/
theorem ReadFrom.printable {fs : List (String × Value)} {c : Config} (h : c.ReadFrom fs)
    (hfs : ∀ f ∈ fs, f.2.Printable) : c.Printable := by
  have hlookup : ∀ {name : String} {v : Value}, fs.lookup name = some v → v.Printable := by
    intro name v hv
    obtain ⟨front, back, rfl, -⟩ := List.lookup_eq_some_iff.mp hv
    exact hfs (name, v) (List.mem_append_right _ List.mem_cons_self)
  refine ⟨?theme, ?extensions, ?plugins, ?extra⟩
  case theme =>
    rcases withDefault_eq_ok.mp h.theme with ⟨v, hv, ht⟩ | ⟨-, ht⟩
    · exact Theme.read_printable (hlookup hv) ht
    · rw [ht]
      exact fun o ho => absurd ho List.not_mem_nil
  case extensions =>
    rcases withDefault_eq_ok.mp h.markdown_extensions with ⟨v, hv, hentries⟩ | ⟨-, hentries⟩
    · exact NamedEntry.readList_printable (hlookup hv) hentries
    · rw [hentries]
      simp
  case plugins =>
    rcases withDefault_eq_ok.mp h.plugins with ⟨v, hv, hentries⟩ | ⟨-, hentries⟩
    · exact NamedEntry.readList_printable (hlookup hv) hentries
    · rw [hentries]
      exact List.forall_mem_singleton.mpr Value.printable_nil
  case extra =>
    rcases withDefault_eq_ok.mp h.extra with ⟨v, hv, hextra⟩ | ⟨-, hextra⟩
    · exact readExtra_printable (hlookup hv) hextra
    · rw [hextra]
      exact Value.printable_nil

/-- **What is read from a value whose keys can name fields has a JSON form.** -/
theorem read_printable {v : Value} {c : Config} (hv : v.Printable) (h : Config.read v = .ok c) :
    c.Printable := by
  obtain ⟨es, hes, hread⟩ := Outcome.bind_eq_ok.mp h
  obtain ⟨fs, hfs, hc⟩ := Outcome.bind_eq_ok.mp hread
  have hentries := Value.printable_mapping.mp (entries_printable hv hes)
  refine (ofFields_eq_ok.mp hc).printable fun f hf => ?_
  obtain ⟨e, he, -, hef⟩ := exists_entry_of_mem_fields hfs hf
  rw [← hef]
  exact (hentries e he).2

/-- A text that loads is a document, and its tags can be replaced. -/
theorem documentEntries_eq_ok {lookup : String → Option String} {text : String} {w : Value}
    (h : documentEntries lookup text = .ok w) :
    ∃ v, Value.ofText text = .ok v ∧ Environment.Resolves lookup v w := by
  unfold documentEntries at h
  split_ifs at h
  split at h
  · cases h
  · next v hv =>
    split_ifs at h
    exact ⟨v, hv, (Environment.resolve_eq_ok v "" w).mp h⟩

/-- What a text loads to has a JSON form if all keys in its document can name fields. -/
theorem ofText_printable {lookup : String → Option String} {dir : Path} {s : Settings}
    {text : String} {c : Config} (h : ofText lookup dir s text = .ok c) :
    ∃ v, Value.ofText text = .ok v ∧ (v.Printable → c.Printable) := by
  obtain ⟨w, hw, hdocument⟩ := ofText_eq_ok.mp h
  obtain ⟨v, hv, hresolves⟩ := documentEntries_eq_ok hw
  obtain ⟨fields, hread, -, rfl⟩ := ofDocument_eq_ok.mp hdocument
  refine ⟨v, hv, fun hprintable => ?_⟩
  -- placing and overriding leave free values alone
  exact { read_printable (Environment.resolves_printable hprintable hresolves) hread with }

end Config
end SitePlan
