/-
# Values are compared

Whether two values are the same can be decided: numbers as numbers, sequences item
by item, mappings entry by entry in their order, and tags as they are written.

Key definitions: `Yaml.Value.agrees`.
Key theorems: `Yaml.Value.agrees_iff`.
-/
import SitePlan.Yaml.Value.Basic

namespace SitePlan
namespace Yaml.Value

mutual

/-- Whether two values are the same. -/
def agrees : Value → Value → Bool
  | null, null => true
  | bool a, bool b => a == b
  | number m, number n => m == n
  | string s, string t => s == t
  | sequence vs, sequence ws => itemsAgree vs ws
  | mapping es, mapping fs => entriesAgree es fs
  | tagged s v, tagged t w => s == t && v.agrees w
  | _, _ => false

/-- Whether two lists of values are the same. -/
def itemsAgree : List Value → List Value → Bool
  | [], [] => true
  | v :: vs, w :: ws => v.agrees w && itemsAgree vs ws
  | _, _ => false

/-- Whether two lists of entries are the same. -/
def entriesAgree : List (Value × Value) → List (Value × Value) → Bool
  | [], [] => true
  | (k, v) :: es, (l, w) :: fs => k.agrees l && v.agrees w && entriesAgree es fs
  | _, _ => false

end

mutual

theorem agrees_iff : ∀ v w : Value, v.agrees w = true ↔ v = w
  | null, w => by cases w <;> simp [agrees]
  | bool a, w => by cases w <;> simp [agrees]
  | number m, w => by cases w <;> simp [agrees]
  | string s, w => by cases w <;> simp [agrees]
  | sequence vs, w => by cases w <;> simp [agrees, itemsAgree_iff vs]
  | mapping es, w => by cases w <;> simp [agrees, entriesAgree_iff es]
  | tagged s v, w => by cases w <;> simp [agrees, agrees_iff v]

theorem itemsAgree_iff : ∀ vs ws : List Value, itemsAgree vs ws = true ↔ vs = ws
  | [], ws => by cases ws <;> simp [itemsAgree]
  | v :: vs, ws => by cases ws <;> simp [itemsAgree, agrees_iff v, itemsAgree_iff vs]

theorem entriesAgree_iff : ∀ es fs : List (Value × Value), entriesAgree es fs = true ↔ es = fs
  | [], fs => by cases fs <;> simp [entriesAgree]
  | (k, v) :: es, fs => by
    cases fs <;> simp [entriesAgree, agrees_iff k, agrees_iff v, entriesAgree_iff es, Prod.ext_iff]

end

instance : DecidableEq Value := fun v w => decidable_of_iff (v.agrees w = true) (agrees_iff v w)

end Yaml.Value
end SitePlan
