/-
# Lists in increasing order of their keys

Putting a value in under its key keeps the keys in strictly increasing order.
Values under different keys are all there in the end. Two lists of texts in
increasing order with the same elements are the same list.

Key theorems: `lookup_eq_some_iff_mem`, `Text.insertSorted_sorted`,
`Text.foldl_insertSorted_perm`, `Text.foldl_insertSorted_eq_of_perm`,
`Text.eq_of_sorted`, `Text.sortedNames_congr`, `Text.mergeSort_sorted`,
`Text.mergeSort_eq_of_perm`.
-/
import Mathlib.Data.List.Nodup
import Mathlib.Tactic.SplitIfs
import SitePlan.Text.Basic

namespace SitePlan

theorem lookup_cons_eq {α : Type} (k k' : String) (v : α) (l : List (String × α)) :
    ((k', v) :: l).lookup k = if k = k' then some v else l.lookup k := by
  rw [List.lookup_cons]
  by_cases hk : k = k'
  · rw [hk, beq_self_eq_true, if_pos rfl]
  · rw [beq_false_of_ne hk, if_neg hk]

/-- Where no key stands twice, a key has the value that stands beside it. -/
theorem lookup_eq_some_iff_mem {α : Type} {k : String} {v : α} : ∀ {l : List (String × α)},
    (l.map Prod.fst).Nodup → (l.lookup k = some v ↔ (k, v) ∈ l)
  | [], _ => by simp
  | (k', v') :: rest, h => by
    obtain ⟨hnot, hrest⟩ := List.nodup_cons.mp h
    have ih := lookup_eq_some_iff_mem (k := k) (v := v) hrest
    rw [lookup_cons_eq, List.mem_cons, Prod.mk.injEq]
    by_cases hk : k = k'
    · have hmem : (k, v) ∉ rest := fun hv => hnot (List.mem_map.mpr ⟨(k, v), hv, hk⟩)
      rw [if_pos hk, Option.some.injEq, or_iff_left hmem, and_iff_right hk, eq_comm]
    · simp [hk, ih]

namespace Text

variable {α : Type} (key : String) (value : α)

theorem mem_insertSorted {e : String × α} : ∀ {l : List (String × α)},
    e ∈ insertSorted key value l → e = (key, value) ∨ e ∈ l
  | [], h => .inl (List.mem_singleton.mp h)
  | (k', v') :: rest, h => by
    rw [insertSorted] at h
    split_ifs at h with hlt heq
    · exact List.mem_cons.mp h
    · exact (List.mem_cons.mp h).imp_right (List.mem_cons_of_mem _)
    · rcases List.mem_cons.mp h with rfl | h
      · exact .inr List.mem_cons_self
      · exact (mem_insertSorted h).imp_right (List.mem_cons_of_mem _)

theorem insertSorted_sorted : ∀ {l : List (String × α)}, l.Pairwise (fun a b => a.1 < b.1) →
    (insertSorted key value l).Pairwise fun a b => a.1 < b.1
  | [], _ => List.pairwise_singleton _ _
  | (k', v') :: rest, h => by
    obtain ⟨hlt, hrest⟩ := List.pairwise_cons.mp h
    rw [insertSorted]
    split_ifs with hkey heq
    · refine List.pairwise_cons.mpr ⟨fun e he => ?_, h⟩
      rcases List.mem_cons.mp he with rfl | he
      · exact hkey
      · exact String.lt_trans hkey (hlt e he)
    · exact List.pairwise_cons.mpr ⟨fun e he => heq ▸ hlt e he, hrest⟩
    · refine List.pairwise_cons.mpr ⟨fun e he => ?_, insertSorted_sorted hrest⟩
      rcases mem_insertSorted key value he with rfl | he
      · exact Std.lt_of_le_of_ne (String.not_lt.mp hkey) (Ne.symm heq)
      · exact hlt e he

theorem insertSorted_perm : ∀ {l : List (String × α)}, key ∉ l.map Prod.fst →
    (insertSorted key value l).Perm ((key, value) :: l)
  | [], _ => .refl _
  | (k', v') :: rest, h => by
    obtain ⟨hne, hrest⟩ := List.ne_and_not_mem_of_not_mem_cons h
    rw [insertSorted, if_neg hne]
    split_ifs
    · exact .refl _
    · exact ((insertSorted_perm hrest).cons (k', v')).trans (.swap (key, value) (k', v') rest)

/-- Values under new keys, no two the same, are all put in. -/
theorem foldl_insertSorted_perm : ∀ {es l : List (String × α)}, ((es ++ l).map Prod.fst).Nodup →
    (es.foldl (fun l e => insertSorted e.1 e.2 l) l).Perm (es ++ l)
  | [], l, _ => .refl l
  | e :: es, l, h => by
    have hkeys : (e.1 :: (es ++ l).map Prod.fst).Nodup := h
    obtain ⟨hnot, hrest⟩ := List.nodup_cons.mp hkeys
    have hnew : e.1 ∉ l.map Prod.fst := by
      rw [List.map_append, List.mem_append, not_or] at hnot
      exact hnot.2
    have hperm : (es ++ insertSorted e.1 e.2 l).Perm (e :: (es ++ l)) :=
      ((insertSorted_perm e.1 e.2 hnew).append_left es).trans List.perm_middle
    exact (foldl_insertSorted_perm ((hperm.map Prod.fst).nodup_iff.mpr hkeys)).trans hperm

theorem foldl_insertSorted_sorted : ∀ (es : List (String × α)) {l : List (String × α)},
    l.Pairwise (fun a b => a.1 < b.1) →
      (es.foldl (fun l e => insertSorted e.1 e.2 l) l).Pairwise fun a b => a.1 < b.1
  | [], _, h => h
  | e :: es, _, h => foldl_insertSorted_sorted es (insertSorted_sorted e.1 e.2 h)

/-- Values under different keys are put in to the same list in any order. -/
theorem foldl_insertSorted_eq_of_perm {es es' : List (String × α)} (hperm : es.Perm es')
    (hkeys : (es.map Prod.fst).Nodup) :
    es'.foldl (fun l e => insertSorted e.1 e.2 l) [] =
      es.foldl (fun l e => insertSorted e.1 e.2 l) [] := by
  have hall : ∀ l : List (String × α), (l.map Prod.fst).Nodup →
      (l.foldl (fun l e => insertSorted e.1 e.2 l) []).Perm l := by
    intro l hl
    rw [← List.append_nil l] at hl
    exact (foldl_insertSorted_perm hl).trans (.of_eq (List.append_nil l))
  have hkeys' : (es'.map Prod.fst).Nodup := (hperm.map Prod.fst).nodup_iff.mp hkeys
  refine List.Perm.eq_of_pairwise (fun a b _ _ hab hba => ?_)
    (foldl_insertSorted_sorted es' .nil) (foldl_insertSorted_sorted es .nil)
    ((hall es' hkeys').trans (hperm.symm.trans (hall es hkeys).symm))
  exact absurd hab (String.lt_asymm hba)

/-! ### Names in order -/

theorem mem_keys_insertSorted {k : String} : ∀ {l : List (String × α)},
    k ∈ (insertSorted key value l).map Prod.fst ↔ k = key ∨ k ∈ l.map Prod.fst
  | [] => by simp [insertSorted]
  | (k', v') :: rest => by
    have ih : k ∈ (insertSorted key value rest).map Prod.fst ↔ k = key ∨ k ∈ rest.map Prod.fst :=
      mem_keys_insertSorted
    rw [insertSorted]
    split_ifs with hlt heq
    · simp
    · simp [heq]
    · rw [List.map_cons, List.mem_cons, ih, List.map_cons, List.mem_cons, or_left_comm]

theorem mem_keys_foldl_insertSorted {k : String} : ∀ (es l : List (String × α)),
    k ∈ (es.foldl (fun l e => insertSorted e.1 e.2 l) l).map Prod.fst ↔
      k ∈ es.map Prod.fst ∨ k ∈ l.map Prod.fst
  | [], l => by simp
  | e :: es, l => by
    rw [List.foldl_cons, mem_keys_foldl_insertSorted es, mem_keys_insertSorted, List.map_cons,
      List.mem_cons, or_left_comm, or_assoc]

theorem sortedNames_eq (names : List String) : sortedNames names =
    ((names.map fun name => (name, ())).foldl (fun l e => insertSorted e.1 e.2 l) []).map
      Prod.fst := by
  rw [sortedNames, List.foldl_map]

theorem mem_sortedNames {name : String} {names : List String} :
    name ∈ sortedNames names ↔ name ∈ names := by
  rw [sortedNames_eq, mem_keys_foldl_insertSorted]
  simp

theorem sortedNames_sorted (names : List String) : (sortedNames names).Pairwise (· < ·) := by
  rw [sortedNames_eq, List.pairwise_map]
  exact foldl_insertSorted_sorted _ .nil

/-- A list of texts in strictly increasing order is told by its elements. -/
theorem eq_of_sorted {xs ys : List String} (hxs : xs.Pairwise (· < ·)) (hys : ys.Pairwise (· < ·))
    (h : ∀ x, x ∈ xs ↔ x ∈ ys) : xs = ys := by
  have hnodup : ∀ {l : List String}, l.Pairwise (· < ·) → l.Nodup := by
    intro l hl
    refine hl.imp fun hlt => ?_
    rintro rfl
    exact String.lt_irrefl _ hlt
  refine List.Perm.eq_of_pairwise (fun a b _ _ hab hba => ?_) hxs hys
    ((List.perm_ext_iff_of_nodup (hnodup hxs) (hnodup hys)).mpr h)
  exact absurd hab (String.lt_asymm hba)

/-- Names in order are told by which names they are, not by how often or in which order
these are listed. -/
theorem sortedNames_congr {names names' : List String} (h : ∀ name, name ∈ names ↔ name ∈ names') :
    sortedNames names = sortedNames names' := by
  refine eq_of_sorted (sortedNames_sorted names) (sortedNames_sorted names') fun name => ?_
  rw [mem_sortedNames, mem_sortedNames, h]

theorem mergeSort_le (xs : List String) :
    (xs.mergeSort fun a b => decide (a ≤ b)).Pairwise (· ≤ ·) := by
  have htrans : ∀ a b c : String, decide (a ≤ b) = true → decide (b ≤ c) = true →
      decide (a ≤ c) = true := by
    intro a b c hab hbc
    exact decide_eq_true (String.le_trans (of_decide_eq_true hab) (of_decide_eq_true hbc))
  have htotal : ∀ a b : String, (decide (a ≤ b) || decide (b ≤ a)) = true := by
    intro a b
    simpa using String.le_total a b
  exact (List.pairwise_mergeSort htrans htotal xs).imp of_decide_eq_true

theorem mergeSort_sorted {xs : List String} (h : xs.Nodup) :
    (xs.mergeSort fun a b => decide (a ≤ b)).Pairwise (· < ·) := by
  have hnodup := (List.mergeSort_perm xs fun a b => decide (a ≤ b)).nodup_iff.mpr h
  exact (mergeSort_le xs).imp₂ (fun _ _ hle hne => Std.lt_of_le_of_ne hle hne) hnodup

/-- Sorting a list gives the one list in strictly increasing order that has the
same elements. -/
theorem mergeSort_eq_of_perm {xs ys : List String} (hperm : xs.Perm ys)
    (hsorted : ys.Pairwise (· < ·)) : (xs.mergeSort fun a b => decide (a ≤ b)) = ys := by
  refine List.Perm.eq_of_pairwise (fun a b _ _ hab hba => String.le_antisymm hab hba)
    (mergeSort_le xs) (hsorted.imp Std.le_of_lt) ((List.mergeSort_perm xs _).trans hperm)

end Text
end SitePlan
