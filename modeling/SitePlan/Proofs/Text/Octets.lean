/-
# The order of texts is that of their octets

A character with a greater code point has the greater encoding in UTF-8: it takes at least
as many octets, a first octet grows with their number, and among encodings of one length
the digits of the code point stand from the highest to the lowest. So two texts are in the
order of their characters exactly if their octets are in lexicographic order.

Key definitions: `Text.octets`.
Key theorems: `Text.encode_lt`, `Text.octets_lt_iff`.
-/
import Mathlib.Order.Basic
import Mathlib.Tactic.SplitIfs

namespace SitePlan
namespace Text

/-- The octets of a text in UTF-8. -/
def octets (s : String) : List UInt8 := s.toUTF8.data.toList

theorem octets_eq (s : String) : octets s = s.toList.flatMap String.utf8EncodeChar := by
  unfold octets
  rw [String.toUTF8, ← String.utf8Encode_toList, List.utf8Encode]
  simp

/-- Octets are compared one after the other. -/
theorem ofNat_cons_lt {a b : Nat} {xs ys : List UInt8} (ha : a < 256) (hb : b < 256) (hle : a ≤ b)
    (hrest : a = b → xs < ys) : UInt8.ofNat a :: xs < UInt8.ofNat b :: ys := by
  rw [List.cons_lt_cons_iff, UInt8.lt_iff_toNat_lt, ← UInt8.toNat_inj, UInt8.toNat_ofNat',
    UInt8.toNat_ofNat', Nat.mod_eq_of_lt ha, Nat.mod_eq_of_lt hb]
  rcases Nat.lt_or_eq_of_le hle with hlt | heq
  · exact .inl hlt
  · exact .inr ⟨heq, hrest heq⟩

/-- A character with a greater code point has the greater encoding, whatever follows. -/
theorem encode_lt {c d : Char} (h : c < d) (xs ys : List UInt8) :
    String.utf8EncodeChar c ++ xs < String.utf8EncodeChar d ++ ys := by
  have hlt : c.val.toNat < d.val.toNat := h
  have hd : d.val.toNat < 0x110000 := d.valid.elim (fun h => by omega) fun h => h.2
  unfold String.utf8EncodeChar
  simp only
  generalize c.val.toNat = n at hlt
  generalize d.val.toNat = m at hlt hd
  -- in each case the octets grow digit by digit, and not all digits are the same
  split_ifs <;> simp only [List.cons_append, List.nil_append]
  all_goals
    repeat refine ofNat_cons_lt (by omega) (by omega) (by omega) fun _ => ?_
    omega

theorem encode_append_lt : ∀ {cs ds : List Char}, cs < ds →
    cs.flatMap String.utf8EncodeChar < ds.flatMap String.utf8EncodeChar
  | _, [], h => absurd h (List.not_lt_nil _)
  | [], d :: ds, _ => by
    rw [List.flatMap_cons]
    obtain ⟨x, xs, hx⟩ := List.exists_cons_of_ne_nil (String.utf8EncodeChar_ne_nil (c := d))
    rw [hx]
    exact List.nil_lt_cons _ _
  | c :: cs, d :: ds, h => by
    rw [List.flatMap_cons, List.flatMap_cons]
    rcases List.cons_lt_cons_iff.mp h with hlt | ⟨rfl, hrest⟩
    · exact encode_lt hlt _ _
    · exact List.append_left_lt (encode_append_lt hrest)

/-- Texts are in the order of their characters exactly if they are in that of their
octets. -/
theorem octets_lt_iff {s t : String} : octets s < octets t ↔ s < t := by
  have hmono : ∀ {s t : String}, s < t → octets s < octets t := by
    intro s t h
    rw [octets_eq, octets_eq]
    exact encode_append_lt h
  refine ⟨fun h => ?_, hmono⟩
  by_contra hnot
  by_cases heq : t = s
  · subst heq
    exact List.lt_irrefl _ h
  · have hlt : t < s := Std.lt_of_le_of_ne (String.not_lt.mp hnot) heq
    exact List.lt_asymm (hmono hlt) h

end Text
end SitePlan
