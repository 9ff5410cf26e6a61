/-
# The entries of a mapping in another order

Reading a value of any kind gives the value with its tags bare, and fails if a mapping in
it has a key twice. For the entries of a mapping whose keys are texts, perhaps tagged ones,
their order does not matter for this: two such keys are the same key or not whichever of
them comes first.

Key theorems: `Yaml.Value.bareTags_of_untagged`, `Yaml.Value.sameKey_comm_of_text`,
`Yaml.Value.entriesRepeatKey_perm`, `Yaml.Decode.value_eq_ok`,
`Yaml.Decode.value_mapping_perm`.
-/
import Mathlib.Tactic.SplitIfs
import SitePlan.Proofs.Yaml.Records

namespace SitePlan
namespace Yaml.Value

/-! ### Bare tags -/

mutual

theorem bareTags_of_untagged : ∀ v : Value, v.hasTag = false → v.bareTags = v
  | .sequence items, h => congrArg sequence (itemsBareTags_of_untagged items h)
  | .mapping entries, h => congrArg mapping (entriesBareTags_of_untagged entries h)
  | .null, _ | .bool _, _ | .number _, _ | .string _, _ => rfl

theorem itemsBareTags_of_untagged : ∀ items : List Value, itemsHaveTag items = false →
    itemsBareTags items = items
  | [], _ => rfl
  | v :: items, h => by
    rw [itemsHaveTag, Bool.or_eq_false_iff] at h
    rw [itemsBareTags, bareTags_of_untagged v h.1, itemsBareTags_of_untagged items h.2]

theorem entriesBareTags_of_untagged : ∀ entries : List (Value × Value),
    entriesHaveTag entries = false → entriesBareTags entries = entries
  | [], _ => rfl
  | (k, v) :: entries, h => by
    rw [entriesHaveTag, Bool.or_eq_false_iff, Bool.or_eq_false_iff] at h
    rw [entriesBareTags, bareTags_of_untagged k h.1.1, bareTags_of_untagged v h.1.2,
      entriesBareTags_of_untagged entries h.2]

end

theorem text?_bareTags : ∀ v : Value, v.bareTags.text? = v.text?
  | .tagged _ v => text?_bareTags v
  | .null | .bool _ | .number _ | .string _ | .sequence _ | .mapping _ => rfl

theorem entriesHaveTag_eq : ∀ es : List (Value × Value),
    entriesHaveTag es = es.any fun e => e.1.hasTag || e.2.hasTag
  | [] => rfl
  | (k, v) :: es => by
    rw [entriesHaveTag, entriesHaveTag_eq es, List.any_cons]

theorem entriesBareTags_eq : ∀ es : List (Value × Value),
    entriesBareTags es = es.map fun e => (e.1.bareTags, e.2.bareTags)
  | [] => rfl
  | (k, v) :: es => by
    rw [entriesBareTags, entriesBareTags_eq es, List.map_cons]

theorem entriesBareTags_perm {es es' : List (Value × Value)} (h : es.Perm es') :
    (entriesBareTags es).Perm (entriesBareTags es') := by
  rw [entriesBareTags_eq, entriesBareTags_eq]
  exact h.map _

theorem texts_entriesBareTags (es : List (Value × Value)) :
    (entriesBareTags es).map (fun e => e.1.text?) = es.map fun e => e.1.text? := by
  rw [entriesBareTags_eq, List.map_map]
  exact List.map_congr_left fun e _ => text?_bareTags e.1

/-- All keys are texts with tags or without. -/
theorem forall_text_entriesBareTags {es : List (Value × Value)} :
    (∀ e ∈ entriesBareTags es, e.1.text?.isSome = true) ↔
      ∀ e ∈ es, e.1.text?.isSome = true := by
  rw [entriesBareTags_eq, List.forall_mem_map]
  simp only [text?_bareTags]

/-! ### Repeated keys -/

/-- Two texts are the same key whichever comes first. -/
theorem sameKey_comm_of_text : ∀ {k l : Value}, k.text?.isSome = true → l.text?.isSome = true →
    k.sameKey l = l.sameKey k
  | .string s, .string t, _, _ => by
    rw [sameKey, sameKey, Bool.beq_comm]
  | .tagged s v, .tagged t w, hk, hl => by
    have ih : v.sameKey w = w.sameKey v := sameKey_comm_of_text hk hl
    rw [sameKey, sameKey, ih, Bool.beq_comm]
  | .string _, .tagged _ _, _, _ => rfl
  | .tagged _ _, .string _, _, _ => rfl
  | .null, _, hk, _ | .bool _, _, hk, _ | .number _, _, hk, _ | .sequence _, _, hk, _
  | .mapping _, _, hk, _ => nomatch hk
  | _, .null, _, hl | _, .bool _, _, hl | _, .number _, _, hl | _, .sequence _, _, hl
  | _, .mapping _, _, hl => nomatch hl

theorem entriesRepeatKey_eq_false : ∀ {es : List (Value × Value)}, entriesRepeatKey es = false ↔
    es.Pairwise (fun e f => e.1.sameKey f.1 = false) ∧
      ∀ e ∈ es, e.1.repeatsKey = false ∧ e.2.repeatsKey = false
  | [] => by simp [entriesRepeatKey]
  | (k, v) :: es => by
    rw [entriesRepeatKey, Bool.or_eq_false_iff, Bool.or_eq_false_iff, Bool.or_eq_false_iff,
      List.any_eq_false, entriesRepeatKey_eq_false, List.pairwise_cons, List.forall_mem_cons]
    simp only [Bool.not_eq_true]
    tauto

/-- The order of entries whose keys are texts does not matter for repeated keys. -/
theorem entriesRepeatKey_perm {es es' : List (Value × Value)} (hperm : es.Perm es')
    (htexts : ∀ e ∈ es, e.1.text?.isSome = true) (h : entriesRepeatKey es = false) :
    entriesRepeatKey es' = false := by
  obtain ⟨hpairs, hparts⟩ := entriesRepeatKey_eq_false.mp h
  refine entriesRepeatKey_eq_false.mpr ⟨?_, fun e he => hparts e (hperm.mem_iff.mpr he)⟩
  -- among texts, to be different keys is symmetric
  have hapart : es.Pairwise fun e f =>
      e.1.text?.isSome = true ∧ f.1.text?.isSome = true ∧ e.1.sameKey f.1 = false :=
    hpairs.imp_of_mem fun he hf hne => ⟨htexts _ he, htexts _ hf, hne⟩
  have hsymm : ∀ {e f : Value × Value},
      (e.1.text?.isSome = true ∧ f.1.text?.isSome = true ∧ e.1.sameKey f.1 = false) →
      f.1.text?.isSome = true ∧ e.1.text?.isSome = true ∧ f.1.sameKey e.1 = false :=
    fun ⟨he, hf, hne⟩ => ⟨hf, he, sameKey_comm_of_text hf he ▸ hne⟩
  exact (hapart.perm hperm hsymm).imp fun h => h.2.2

end Yaml.Value

namespace Yaml.Decode

open Value (bareTags_of_untagged entriesHaveTag entriesHaveTag_eq entriesBareTags
  entriesBareTags_perm forall_text_entriesBareTags entriesRepeatKey_perm)

theorem value_eq_ok {v w : Value} : value v = .ok w ↔
    w = v.bareTags ∧ (v.hasTag = true → v.bareTags.repeatsKey = false) := by
  unfold value
  rw [eq_comm (a := w)]
  split_ifs with htag hrepeats
  · simp [htag, hrepeats]
  · simp [hrepeats]
  · rw [bareTags_of_untagged v (Bool.eq_false_iff.mpr htag)]
    simp [htag]

theorem value_of_untagged {v : Value} (h : v.hasTag = false) : value v = .ok v := by
  refine value_eq_ok.mpr ⟨(bareTags_of_untagged v h).symm, fun htag => ?_⟩
  rw [h] at htag
  cases htag

/-- **Reading a mapping whose keys are texts does not depend on their order.** -/
theorem value_mapping_perm {es es' : List (Value × Value)} {w : Value} (hperm : es.Perm es')
    (htexts : ∀ e ∈ es, e.1.text?.isSome = true) (h : value (.mapping es) = .ok w) :
    value (.mapping es') = .ok (.mapping (entriesBareTags es')) := by
  obtain ⟨-, hrepeats⟩ := value_eq_ok.mp h
  have htags : entriesHaveTag es' = entriesHaveTag es := by
    rw [entriesHaveTag_eq, entriesHaveTag_eq, hperm.any_eq]
  refine value_eq_ok.mpr ⟨rfl, fun htag => ?_⟩
  exact entriesRepeatKey_perm (entriesBareTags_perm hperm) (forall_text_entriesBareTags.mpr htexts)
    (hrepeats (htags.symm.trans htag))

end Yaml.Decode
end SitePlan
