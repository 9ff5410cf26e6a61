/-
# The shapes of a list of named entries

A mapping lists the same entries as the sequence of its one-key mappings, and a
name alone is the same as a mapping of the name to null or to no options, also
where the list is refused. What is read is what stands there: the names are the
keys or the items in their order, and the options are those given, none for null.

Key definitions: `NamedEntry.GivesOptions`, `NamedEntry.InPair`, `NamedEntry.InItem`,
`NamedEntry.Lists`, `NamedEntry.Respelled`.
Key theorems: `NamedEntry.ofPair_eq_ok`, `NamedEntry.ofItem_eq_ok`,
`NamedEntry.listOfValue_eq_ok`, `NamedEntry.listOfValue_shapes`.
-/
import Mathlib.Data.List.Forall2
import SitePlan.Config.NamedEntry
import SitePlan.Proofs.Outcome

namespace SitePlan
namespace NamedEntry

open Yaml (Value)

/-- The options that a value gives: null gives none. -/
inductive GivesOptions : Value → List (Value × Value) → Prop
  | none : GivesOptions .null []
  | given (options : List (Value × Value)) : GivesOptions (.mapping options) options

/-- The entry that a key names with its value: a string with options. -/
def InPair (pair : Value × Value) (e : NamedEntry) : Prop :=
  pair.1 = .string e.name ∧ GivesOptions pair.2 e.options

/-- The entry that an item names: a string alone, or a mapping with one key. -/
inductive InItem : Value → NamedEntry → Prop
  | name (name : String) : InItem (.string name) (plain name)
  | pair {pair : Value × Value} {e : NamedEntry} : InPair pair e → InItem (.mapping [pair]) e

/-- The entries that a value lists, one for each key or item and in their order. -/
inductive Lists : Value → List NamedEntry → Prop
  | null : Lists .null []
  | sequence {items : List Value} {es : List NamedEntry} :
      List.Forall₂ InItem items es → Lists (.sequence items) es
  | mapping {pairs : List (Value × Value)} {es : List NamedEntry} :
      List.Forall₂ InPair pairs es → Lists (.mapping pairs) es

/-- The second item is the first, or it has a string as the key of a mapping, with
null or without options. -/
inductive Respelled : Value → Value → Prop
  | same (item : Value) : Respelled item item
  | null (name : String) : Respelled (.string name) (.mapping [(.string name, .null)])
  | empty (name : String) : Respelled (.string name) (.mapping [(.string name, .mapping [])])

/-! ### One entry -/

theorem ofPair_eq_ok {pair : Value × Value} {e : NamedEntry} :
    ofPair pair = .ok e ↔ InPair pair e := by
  constructor
  · intro h
    unfold ofPair at h
    split at h <;> cases h
    case h_1 => exact ⟨rfl, .none⟩
    case h_2 => exact ⟨rfl, .given _⟩
  · obtain ⟨key, value⟩ := pair
    rintro ⟨rfl, hoptions⟩
    obtain ⟨name, options⟩ := e
    cases hoptions <;> rfl

theorem ofItem_eq_ok {item : Value} {e : NamedEntry} : ofItem item = .ok e ↔ InItem item e := by
  constructor
  · intro h
    unfold ofItem at h
    split at h
    case h_1 =>
      cases h
      exact .name _
    case h_2 => exact .pair (ofPair_eq_ok.mp h)
    case h_3 | h_4 => cases h
  · rintro (_ | hpair)
    · rfl
    · exact ofPair_eq_ok.mpr hpair

/-- The other spellings of an item are read in the same way. -/
theorem Respelled.ofItem_eq {item item' : Value} (h : Respelled item item') :
    ofItem item = ofItem item' := by
  cases h <;> rfl

/-! ### The whole list -/

/-- Reading a list succeeds exactly with the entries that it lists. -/
theorem listOfValue_eq_ok {v : Value} {es : List NamedEntry} :
    listOfValue v = .ok es ↔ Lists v es := by
  constructor
  · intro h
    unfold listOfValue at h
    split at h
    case h_1 =>
      cases h
      exact .null
    case h_2 => exact .sequence ((Outcome.mapM_eq_ok_iff_forall₂ fun _ _ => ofItem_eq_ok).mp h)
    case h_3 => exact .mapping ((Outcome.mapM_eq_ok_iff_forall₂ fun _ _ => ofPair_eq_ok).mp h)
    case h_4 => cases h
  · rintro (_ | hitems | hpairs)
    · rfl
    · exact (Outcome.mapM_eq_ok_iff_forall₂ fun _ _ => ofItem_eq_ok).mpr hitems
    · exact (Outcome.mapM_eq_ok_iff_forall₂ fun _ _ => ofPair_eq_ok).mpr hpairs

/-- **The shapes of a list are interchangeable.** A mapping is read as the
sequence of its one-key mappings, and a name alone as a mapping of it to null or
to no options, with the same entries or the same error. A list is read exactly as
the entries that stand in it. -/
theorem listOfValue_shapes :
    (∀ pairs, listOfValue (.mapping pairs) =
        listOfValue (.sequence (pairs.map fun pair => .mapping [pair]))) ∧
      (∀ items items', List.Forall₂ Respelled items items' →
        listOfValue (.sequence items) = listOfValue (.sequence items')) ∧
      ∀ v es, listOfValue v = .ok es ↔ Lists v es := by
  refine ⟨fun pairs => ?_, fun items items' h => ?_, fun v es => listOfValue_eq_ok⟩
  · rw [listOfValue, listOfValue, List.mapM_map]
    rfl
  · rw [listOfValue, listOfValue]
    exact Outcome.mapM_congr (h.imp fun _ _ => Respelled.ofItem_eq)

/-- Two names written as mappings. -/
theorem listOfValue_shapes_twoNames :
    listOfValue (.sequence [.mapping [(.string "toc", .null)],
        .mapping [(.string "tables", .mapping [])]]) = .ok [plain "toc", plain "tables"] := by
  have hnames : listOfValue (.sequence [.string "toc", .string "tables"]) =
      .ok [plain "toc", plain "tables"] :=
    (listOfValue_shapes.2.2 _ _).mpr (.sequence (.cons (.name _) (.cons (.name _) .nil)))
  exact (listOfValue_shapes.2.1 _ _ (.cons (.null _) (.cons (.empty _) .nil))).symm.trans hnames

end NamedEntry
end SitePlan
