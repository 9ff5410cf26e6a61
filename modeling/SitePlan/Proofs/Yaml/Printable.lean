/-
# Values with a JSON form

A JSON object names its fields by text. So a value has a JSON form exactly if every key
of every mapping in it has a text: strings have, and so have truth values, integers and
finite doubles. A key that is null, a sequence, a mapping or tagged has none, wherever
it stands; of a value that is no key, nothing is asked.

Key definitions: `Yaml.Value.NamesField`, `Yaml.Value.Printable`.
Key theorems: `Yaml.Value.keyText_isOk_iff`, `Yaml.Value.toJson_isOk_iff`,
`Yaml.Value.entriesToJson_isOk_iff`, `Yaml.Value.printable_bareTags`.
-/
import SitePlan.Proofs.Environment.Replacement
import SitePlan.Yaml.Value.Json

namespace SitePlan
namespace Yaml.Value

/-- A key with a text that can name a field. -/
inductive NamesField : Value → Prop
  | string (s : String) : NamesField (.string s)
  | bool (b : Bool) : NamesField (.bool b)
  | int (n : Int) : NamesField (.number (.int n))
  | float {x : Float} : x.isFinite = true → NamesField (.number (.float x))

/-- Every key of every mapping in a value can name a field. -/
inductive Printable : Value → Prop
  | scalar {v : Value} : v.IsScalar → Printable v
  | sequence {items : List Value} : (∀ v ∈ items, Printable v) → Printable (.sequence items)
  | mapping {entries : List (Value × Value)} : (∀ e ∈ entries, NamesField e.1) →
      (∀ e ∈ entries, Printable e.2) → Printable (.mapping entries)
  | tagged (tag : String) {v : Value} : Printable v → Printable (.tagged tag v)

@[simp] theorem printable_sequence {items : List Value} :
    Printable (.sequence items) ↔ ∀ v ∈ items, v.Printable := by
  constructor
  · rintro (⟨⟨⟩⟩ | h)
    exact h
  · exact .sequence

@[simp] theorem printable_mapping {entries : List (Value × Value)} :
    Printable (.mapping entries) ↔ ∀ e ∈ entries, e.1.NamesField ∧ e.2.Printable := by
  constructor
  · rintro (⟨⟨⟩⟩ | _ | ⟨hkeys, hvalues⟩)
    exact fun e he => ⟨hkeys e he, hvalues e he⟩
  · exact fun h => .mapping (fun e he => (h e he).1) fun e he => (h e he).2

theorem printable_nil : Printable (.mapping []) := printable_mapping.mpr (by simp)

@[simp] theorem printable_tagged {tag : String} {v : Value} :
    Printable (.tagged tag v) ↔ v.Printable := by
  constructor
  · rintro (⟨⟨⟩⟩ | _ | _ | ⟨_, h⟩)
    exact h
  · exact .tagged tag

theorem printable_untagged : ∀ {v : Value}, v.untagged.Printable ↔ v.Printable
  | .tagged _ v => (printable_untagged (v := v)).trans printable_tagged.symm
  | .null | .bool _ | .number _ | .string _ | .sequence _ | .mapping _ => Iff.rfl

/-! ### The JSON form -/

theorem keyText_isOk_iff {k : Value} : (∃ s, keyText k = .ok s) ↔ k.NamesField := by
  constructor
  · rintro ⟨s, h⟩
    cases k with
    | string s => exact .string s
    | bool b => exact .bool b
    | number n =>
      cases n with
      | int n => exact .int n
      | float x =>
        rw [keyText] at h
        split at h
        · next hfinite => exact .float hfinite
        · cases h
    | _ => cases h
  · rintro (s | b | n | hfinite)
    · exact ⟨s, rfl⟩
    · exact ⟨_, rfl⟩
    · exact ⟨_, rfl⟩
    · exact ⟨_, if_pos hfinite⟩

mutual

/-- **A value has a JSON form exactly if all keys in it can name fields.** -/
theorem toJson_isOk_iff : ∀ v : Value, (∃ j, v.toJson = .ok j) ↔ v.Printable
  | .null => iff_of_true ⟨_, rfl⟩ (.scalar .null)
  | .bool b => iff_of_true ⟨_, rfl⟩ (.scalar (.bool b))
  | .number (.int n) => iff_of_true ⟨_, rfl⟩ (.scalar (.number _))
  | .number (.float x) => iff_of_true ⟨_, rfl⟩ (.scalar (.number _))
  | .string s => iff_of_true ⟨_, rfl⟩ (.scalar (.string s))
  | .sequence items => by
    rw [printable_sequence, ← itemsToJson_isOk_iff items]
    simp [toJson, Outcome.bind_eq_ok]
  | .mapping entries => by
    rw [printable_mapping, ← entriesToJson_isOk_iff entries]
    simp [toJson, Outcome.bind_eq_ok]
  | .tagged tag v => by
    rw [printable_tagged, ← toJson_isOk_iff v]
    simp [toJson, Outcome.bind_eq_ok]

theorem itemsToJson_isOk_iff : ∀ items : List Value,
    (∃ js, itemsToJson items = .ok js) ↔ ∀ v ∈ items, v.Printable
  | [] => by simp [itemsToJson]
  | v :: items => by
    rw [List.forall_mem_cons, ← toJson_isOk_iff v, ← itemsToJson_isOk_iff items]
    simp [itemsToJson, Outcome.bind_eq_ok]

theorem entriesToJson_isOk_iff : ∀ entries : List (Value × Value),
    (∃ fs, entriesToJson entries = .ok fs) ↔ ∀ e ∈ entries, e.1.NamesField ∧ e.2.Printable
  | [] => by simp [entriesToJson]
  | (k, v) :: entries => by
    rw [List.forall_mem_cons, ← keyText_isOk_iff, ← toJson_isOk_iff v,
      ← entriesToJson_isOk_iff entries]
    simp [entriesToJson, Outcome.bind_eq_ok, and_assoc]

end

/-- Whether all keys can name fields is decided by making the JSON form. -/
instance (v : Value) : Decidable v.Printable :=
  decidable_of_iff (v.toJson.toOption.isSome = true) <| by
    simp only [Option.isSome_iff_exists, Outcome.toOption_eq_some, toJson_isOk_iff]

/-! ### Tags -/

theorem bareTags_of_namesField {k : Value} (h : k.NamesField) : k.bareTags = k := by
  cases h <;> rfl

mutual

/-- The names of tags do not matter. -/
theorem printable_bareTags : ∀ {v : Value}, v.Printable → v.bareTags.Printable
  | .tagged _ _, h => .tagged _ (printable_bareTags (printable_tagged.mp h))
  | .sequence _, h => .sequence (printable_itemsBareTags (printable_sequence.mp h))
  | .mapping _, h =>
    printable_mapping.mpr (printable_entriesBareTags (printable_mapping.mp h))
  | .null, h | .bool _, h | .number _, h | .string _, h => h

theorem printable_itemsBareTags : ∀ {items : List Value}, (∀ v ∈ items, v.Printable) →
    ∀ v ∈ itemsBareTags items, v.Printable
  | [], _ => by simp [itemsBareTags]
  | v :: items, h => by
    obtain ⟨hv, hitems⟩ := List.forall_mem_cons.mp h
    exact List.forall_mem_cons.mpr ⟨printable_bareTags hv, printable_itemsBareTags hitems⟩

theorem printable_entriesBareTags : ∀ {entries : List (Value × Value)},
    (∀ e ∈ entries, e.1.NamesField ∧ e.2.Printable) →
    ∀ e ∈ entriesBareTags entries, e.1.NamesField ∧ e.2.Printable
  | [], _ => by simp [entriesBareTags]
  | (k, v) :: entries, h => by
    obtain ⟨⟨hk, hv⟩, hentries⟩ := List.forall_mem_cons.mp h
    refine List.forall_mem_cons.mpr ⟨⟨?_, printable_bareTags hv⟩,
      printable_entriesBareTags hentries⟩
    rwa [bareTags_of_namesField hk]

end

end Yaml.Value
end SitePlan
