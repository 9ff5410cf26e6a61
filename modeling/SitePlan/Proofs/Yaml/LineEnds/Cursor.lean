/-
# The same position in two texts

A position in a text has a twin in the text with a carriage return before every line feed:
what is left differs by the carriage returns alone, and line and column are the same. The
octets before the two differ by one for every line feed passed, so by the same number all
along a line. Moving on leads from twins to twins.

Key definitions: `Yaml.Twin`, `Yaml.Beside`.
Key theorems: `Yaml.Twin.advance`, `Yaml.Twin.takeWhile`, `Yaml.Twin.takeBreak`,
`Yaml.Twin.skipComment`, `Yaml.Twin.atDocumentMark`.
-/
import SitePlan.Proofs.Outcome
import SitePlan.Proofs.Text.LineEnds
import SitePlan.Yaml.Cursor

namespace SitePlan
namespace Yaml

open Text (crlf)
open Outcome (rel_imp)

/-- Positions in a text and in the one with carriage returns. At most `room` characters are
left; on `line`, which is this one or one before, the second is `shift` octets further. -/
structure Twin (room line : Nat) (shift : Int) (c c' : Cursor) : Prop where
  rest : c'.rest = crlf c.rest
  plain : '\r' ∉ c.rest
  line_eq : c'.line = c.line
  column_eq : c'.column = c.column
  length_le : c.rest.length ≤ room
  reached : line ≤ c.line
  offset : c.line = line → (c'.offset : Int) = c.offset + shift

/-- Pairs with the same first part, and second parts in a relation. -/
inductive Beside {α β : Type} (T : β → β → Prop) : α × β → α × β → Prop
  | mk {a : α} {b b' : β} : T b b' → Beside T (a, b) (a, b')

theorem gapOrEnd_crlf (cs : List Char) : gapOrEnd (crlf cs) = gapOrEnd cs := by
  cases cs with
  | nil => rfl
  | cons c cs =>
    by_cases h : c = '\n'
    · subst h
      rfl
    · rw [Text.crlf_cons h]
      rfl

theorem atDocumentMark_iff {c : Cursor} : c.atDocumentMark = true ↔ c.column = 0 ∧
    ∃ ch rest, (ch = '-' ∨ ch = '.') ∧ c.rest = ch :: ch :: ch :: rest ∧ gapOrEnd rest = true := by
  unfold Cursor.atDocumentMark
  rw [Bool.and_eq_true, beq_iff_eq]
  refine and_congr_right fun _ => ?_
  constructor
  · intro h
    split at h
    · next rest heq => exact ⟨'-', rest, .inl rfl, heq, h⟩
    · next rest heq => exact ⟨'.', rest, .inr rfl, heq, h⟩
    · cases h
  · rintro ⟨ch, rest, rfl | rfl, heq, h⟩ <;> rw [heq] <;> exact h

/-! ### The line end at a position -/

section

variable {c : Cursor} {cs : List Char}

theorem takeBreak_nil (h : c.rest = []) : c.takeBreak = ([], c) := by
  unfold Cursor.takeBreak
  rw [h]

theorem takeBreak_newline (h : c.rest = '\n' :: cs) :
    c.takeBreak = (['\n'], ⟨cs, c.offset + 1, c.line + 1, 0⟩) := by
  unfold Cursor.takeBreak
  rw [h]
  rfl

theorem takeBreak_return (h : c.rest = '\r' :: '\n' :: cs) :
    c.takeBreak = (['\n'], ⟨cs, c.offset + 2, c.line + 1, 0⟩) := by
  unfold Cursor.takeBreak
  rw [h]
  rfl

theorem takeBreak_cons {ch : Char} (hr : ch ≠ '\r') (h : c.rest = ch :: cs) :
    c.takeBreak = if isBreak ch then
        ([if ch == '\u2028' || ch == '\u2029' then ch else '\n'],
          ⟨cs, c.offset + ch.utf8Size, c.line + 1, 0⟩)
      else ([], c) := by
  unfold Cursor.takeBreak
  rw [h]
  split
  · next heq => exact absurd (List.cons.inj heq).1 hr
  · next heq =>
    obtain ⟨rfl, rfl⟩ := List.cons.inj heq
    rfl
  · next heq => cases heq

end

/-! ### Pairs -/

namespace Beside

variable {α β : Type} {T T' : β → β → Prop} {p p' : α × β}

theorem of (hfst : p'.1 = p.1) (hsnd : T p.2 p'.2) : Beside T p p' := by
  obtain ⟨a, b⟩ := p
  obtain ⟨a', b'⟩ := p'
  cases hfst
  exact .mk hsnd

theorem fst_eq (h : Beside T p p') : p'.1 = p.1 := by
  cases h
  rfl

theorem snd (h : Beside T p p') : T p.2 p'.2 := by
  cases h with
  | mk h => exact h

theorem imp (h : Beside T p p') (hT : ∀ b b', T b b' → T' b b') : Beside T' p p' := by
  cases h with
  | mk h => exact .mk (hT _ _ h)

theorem map {γ : Type} (h : Beside T p p') (f : α → γ) :
    Beside T (f p.1, p.2) (f p'.1, p'.2) := by
  cases h with
  | mk h => exact .mk h

end Beside

namespace Twin

variable {room line : Nat} {shift : Int} {c c' : Cursor}

theorem mono {more : Nat} (h : Twin room line shift c c') (hroom : room ≤ more) :
    Twin more line shift c c' :=
  { h with length_le := Nat.le_trans h.length_le hroom }

theorem tight (h : Twin room line shift c c') : Twin c.rest.length line shift c c' :=
  { h with length_le := Nat.le_refl _ }

theorem lt_fuel (h : Twin room line shift c c') :
    c.rest.length < c.fuel ∧ c.rest.length < c'.fuel := by
  have hlength := Text.length_le_length_crlf c.rest
  rw [← h.rest] at hlength
  exact ⟨Nat.lt_succ_self _, Nat.lt_succ_of_le hlength⟩

theorem room_pos (h : Twin room line shift c c') (hne : c.rest ≠ []) : 0 < room :=
  Nat.lt_of_lt_of_le (List.length_pos_of_ne_nil hne) h.length_le

theorem room_pos_of_head? (h : Twin room line shift c c') {p : Char → Bool}
    (hp : c.rest.head?.any p = true) : 0 < room := by
  refine h.room_pos fun hnil => ?_
  rw [hnil] at hp
  cases hp

/-- What is left begins with nothing, with a line feed and its carriage return, or with a
character of no such line end. -/
theorem cases (h : Twin room line shift c c') :
    (c.rest = [] ∧ c'.rest = []) ∨
      (∃ cs, c.rest = '\n' :: cs ∧ c'.rest = '\r' :: '\n' :: crlf cs) ∨
      ∃ ch cs, ch ≠ '\n' ∧ ch ≠ '\r' ∧ c.rest = ch :: cs ∧ c'.rest = ch :: crlf cs := by
  have hrest := h.rest
  have hplain := h.plain
  cases hc : c.rest with
  | nil =>
    rw [hc] at hrest
    exact .inl ⟨rfl, hrest⟩
  | cons ch cs =>
    rw [hc] at hrest hplain
    by_cases hn : ch = '\n'
    · subst hn
      exact .inr (.inl ⟨cs, rfl, hrest⟩)
    · rw [Text.crlf_cons hn] at hrest
      exact .inr (.inr ⟨ch, cs, hn, (List.ne_of_not_mem_cons hplain).symm, rfl, hrest⟩)

theorem isEmpty (h : Twin room line shift c c') : c'.rest.isEmpty = c.rest.isEmpty := by
  rw [h.rest, Bool.eq_iff_iff, List.isEmpty_iff, List.isEmpty_iff, Text.crlf_eq_nil]

theorem head?_any (h : Twin room line shift c c') {p : Char → Bool} (hp : p '\r' = p '\n') :
    c'.rest.head?.any p = c.rest.head?.any p := by
  rw [h.rest, Text.head?_crlf_any hp]

theorem head?_eq_some (h : Twin room line shift c c') {ch : Char} (hn : ch ≠ '\n')
    (hr : ch ≠ '\r') : c'.rest.head? = some ch ↔ c.rest.head? = some ch := by
  rw [h.rest, Text.head?_crlf_eq_some hn hr]

theorem head?_beq (h : Twin room line shift c c') {ch : Char} (hn : ch ≠ '\n')
    (hr : ch ≠ '\r') : (c'.rest.head? == some ch) = (c.rest.head? == some ch) := by
  rw [Bool.eq_iff_iff, beq_iff_eq, beq_iff_eq, h.head?_eq_some hn hr]

/-! ### Characters of a line -/

theorem advance (h : Twin room line shift c c') {n left : Nat} (hn : '\n' ∉ c.rest.take n)
    (hleft : c.rest.length ≤ left + n) : Twin left line shift (c.advance n) (c'.advance n) where
  rest := by
    unfold Cursor.advance
    rw [h.rest, Text.drop_crlf hn]
  plain := fun hmem => h.plain (List.mem_of_mem_drop hmem)
  line_eq := h.line_eq
  column_eq := by
    unfold Cursor.advance
    rw [h.column_eq]
  length_le := by
    unfold Cursor.advance
    rw [List.length_drop]
    omega
  reached := h.reached
  offset := by
    intro hline
    have hoffset := h.offset hline
    unfold Cursor.advance
    rw [h.rest, Text.take_crlf hn]
    push_cast
    omega

theorem advance_one (h : Twin room line shift c c') {ch : Char} {cs : List Char}
    (hc : c.rest = ch :: cs) (hn : ch ≠ '\n') :
    Twin (room - 1) line shift (c.advance 1) (c'.advance 1) := by
  have hroom := h.length_le
  rw [hc, List.length_cons] at hroom
  refine h.advance ?_ ?_
  · rw [hc]
    simpa using Ne.symm hn
  · rw [hc, List.length_cons]
    omega

theorem takeWhile (h : Twin room line shift c c') {p : Char → Bool} (hr : p '\r' = false)
    (hn : p '\n' = false) :
    Beside (Twin room line shift) (c.takeWhile p) (c'.takeWhile p) := by
  have htaken : c'.rest.takeWhile p = c.rest.takeWhile p := by
    rw [h.rest, Text.takeWhile_crlf hr hn]
  refine .of htaken ?_
  unfold Cursor.takeWhile
  rw [htaken]
  refine h.advance ?_ (Nat.le_trans h.length_le (Nat.le_add_right _ _))
  intro hmem
  have htake : c.rest.take (c.rest.takeWhile p).length = c.rest.takeWhile p :=
    (List.prefix_iff_eq_take.mp (List.takeWhile_prefix p)).symm
  rw [htake] at hmem
  have hp := List.mem_takeWhile_imp hmem
  rw [hn] at hp
  cases hp

theorem skipWhile (h : Twin room line shift c c') {p : Char → Bool} (hr : p '\r' = false)
    (hn : p '\n' = false) : Twin room line shift (c.skipWhile p) (c'.skipWhile p) :=
  (h.takeWhile hr hn).snd

theorem skipComment (h : Twin room line shift c c') :
    Twin room line shift c.skipComment c'.skipComment := by
  unfold Cursor.skipComment
  rcases h.cases with ⟨e, e'⟩ | ⟨cs, e, e'⟩ | ⟨ch, cs, hn, hr, e, e'⟩
  · rw [e, e']
    exact h
  · rw [e, e']
    exact h
  · rw [e, e']
    by_cases hch : ch = '#'
    · subst hch
      exact h.skipWhile (by decide) (by decide)
    · split
      · next heq => exact absurd (List.cons.inj heq).1 hch
      · split
        · next heq => exact absurd (List.cons.inj heq).1 hch
        · exact h

/-! ### Line ends -/

/-- On a later line any numbers of octets may stand before the two. -/
theorem later {cs : List Char} {n offset offset' column : Nat} (hplain : '\r' ∉ cs)
    (hroom : cs.length ≤ room) (hline : line < n) :
    Twin room line shift ⟨cs, offset, n, column⟩ ⟨crlf cs, offset', n, column⟩ where
  rest := rfl
  plain := hplain
  line_eq := rfl
  column_eq := rfl
  length_le := hroom
  reached := Nat.le_of_lt hline
  offset := fun heq => absurd heq (Nat.ne_of_gt hline)

/-- Past a line end that stands here; its carriage return belongs to it. -/
theorem takeBreak_of_isBreak (h : Twin room line shift c c')
    (hbreak : c.rest.head?.any isBreak = true) :
    Beside (Twin (room - 1) line shift) c.takeBreak c'.takeBreak := by
  have hroom := h.length_le
  have hplain := h.plain
  have hline := Nat.lt_succ_of_le h.reached
  rcases h.cases with ⟨e, e'⟩ | ⟨cs, e, e'⟩ | ⟨ch, cs, hn, hr, e, e'⟩
  · rw [e] at hbreak
    cases hbreak
  · rw [e, List.length_cons] at hroom
    rw [e] at hplain
    rw [takeBreak_newline e, takeBreak_return e', h.line_eq]
    exact .mk (later (List.not_mem_of_not_mem_cons hplain) (Nat.le_sub_one_of_lt hroom) hline)
  · rw [e, List.length_cons] at hroom
    rw [e] at hplain hbreak
    have hch : isBreak ch = true := hbreak
    rw [takeBreak_cons hr e, takeBreak_cons hr e', if_pos hch, if_pos hch, h.line_eq]
    exact .mk (later (List.not_mem_of_not_mem_cons hplain) (Nat.le_sub_one_of_lt hroom) hline)

theorem takeBreak (h : Twin room line shift c c') :
    Beside (Twin room line shift) c.takeBreak c'.takeBreak := by
  by_cases hbreak : c.rest.head?.any isBreak = true
  · exact (h.takeBreak_of_isBreak hbreak).imp fun _ _ hnext => hnext.mono (Nat.sub_le room 1)
  · rcases h.cases with ⟨e, e'⟩ | ⟨cs, e, e'⟩ | ⟨ch, cs, hn, hr, e, e'⟩
    · rw [takeBreak_nil e, takeBreak_nil e']
      exact .mk h
    · rw [e] at hbreak
      exact absurd rfl hbreak
    · rw [e] at hbreak
      have hch : ¬ isBreak ch = true := hbreak
      rw [takeBreak_cons hr e, takeBreak_cons hr e', if_neg hch, if_neg hch]
      exact .mk h

theorem skipBreak (h : Twin room line shift c c') :
    Twin room line shift c.skipBreak c'.skipBreak :=
  h.takeBreak.snd

theorem widen {α : Type} {less : Nat} {x x' : Option (α × Cursor)}
    (h : Option.Rel (Beside (Twin less line shift)) x x') (hroom : less ≤ room) :
    Option.Rel (Beside (Twin room line shift)) x x' :=
  rel_imp h fun _ _ hp => hp.imp fun _ _ hd => hd.mono hroom

/-! ### What stands at a position -/

theorem gapOrEnd_eq (h : Twin room line shift c c') : gapOrEnd c'.rest = gapOrEnd c.rest := by
  rw [h.rest, gapOrEnd_crlf]

theorem breakOrEnd_eq (h : Twin room line shift c c') : breakOrEnd c'.rest = breakOrEnd c.rest := by
  rcases h.cases with ⟨e, e'⟩ | ⟨cs, e, e'⟩ | ⟨ch, cs, hn, hr, e, e'⟩ <;> rw [e, e'] <;> rfl

theorem atDocumentMark (h : Twin room line shift c c') : c'.atDocumentMark = c.atDocumentMark := by
  rw [Bool.eq_iff_iff, atDocumentMark_iff, atDocumentMark_iff, h.column_eq, h.rest]
  refine and_congr_right fun _ => ?_
  constructor
  · rintro ⟨ch, rest, hch, hrest, hgap⟩
    have hnr : ch ≠ '\n' ∧ ch ≠ '\r' := by rcases hch with rfl | rfl <;> decide
    obtain ⟨more, hfirst, hmore⟩ := (Text.crlf_eq_cons hnr.1 hnr.2).mp hrest
    obtain ⟨more', rfl, hmore'⟩ := (Text.crlf_eq_cons hnr.1 hnr.2).mp hmore.symm
    obtain ⟨more'', rfl, rfl⟩ := (Text.crlf_eq_cons hnr.1 hnr.2).mp hmore'.symm
    exact ⟨ch, more'', hch, hfirst, gapOrEnd_crlf more'' ▸ hgap⟩
  · rintro ⟨ch, rest, hch, hrest, hgap⟩
    have hn : ch ≠ '\n' := by rcases hch with rfl | rfl <;> decide
    refine ⟨ch, crlf rest, hch, ?_, (gapOrEnd_crlf rest).trans hgap⟩
    rw [hrest, Text.crlf_cons hn, Text.crlf_cons hn, Text.crlf_cons hn]

end Twin
end Yaml
end SitePlan
