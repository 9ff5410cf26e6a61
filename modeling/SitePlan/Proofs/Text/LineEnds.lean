/-
# Both kinds of line ends

A text with a carriage return before every line feed has the lines it had, all but the last
with a carriage return at the end. What is taken from it up to a line end, left of it by
trimming, or told by its first characters is the same as without.

Key definitions: `Text.crlf`.
Key theorems: `Text.crlf_append`, `Text.splitAt_crlf`, `Text.takeWhile_crlf`,
`Text.drop_crlf`, `Text.trimChars_crlf`.
-/
import SitePlan.Proofs.Text.Blank
import SitePlan.Proofs.Text.Split

namespace SitePlan
namespace Text

/-- The text with a carriage return before every line feed. -/
def crlf : List Char → List Char
  | [] => []
  | c :: cs => if c = '\n' then '\r' :: '\n' :: crlf cs else c :: crlf cs

@[simp] theorem crlf_nil : crlf [] = [] := rfl

@[simp] theorem crlf_newline (cs : List Char) : crlf ('\n' :: cs) = '\r' :: '\n' :: crlf cs := rfl

theorem crlf_cons {c : Char} (h : c ≠ '\n') (cs : List Char) : crlf (c :: cs) = c :: crlf cs := by
  rw [crlf, if_neg h]

theorem crlf_append : ∀ cs ds : List Char, crlf (cs ++ ds) = crlf cs ++ crlf ds
  | [], _ => rfl
  | c :: cs, ds => by
    by_cases h : c = '\n'
    · subst h
      simp [crlf_append cs ds]
    · rw [List.cons_append, crlf_cons h, crlf_cons h, crlf_append cs ds, List.cons_append]

theorem crlf_of_not_mem : ∀ {cs : List Char}, '\n' ∉ cs → crlf cs = cs
  | [], _ => rfl
  | c :: cs, h => by
    rw [List.mem_cons, not_or] at h
    rw [crlf_cons (Ne.symm h.1), crlf_of_not_mem h.2]

@[simp] theorem crlf_eq_nil {cs : List Char} : crlf cs = [] ↔ cs = [] := by
  cases cs with
  | nil => simp
  | cons c cs =>
    by_cases h : c = '\n'
    · subst h
      simp
    · simp [crlf_cons h]

theorem length_le_length_crlf : ∀ cs : List Char, cs.length ≤ (crlf cs).length
  | [] => Nat.le_refl 0
  | c :: cs => by
    have ih := length_le_length_crlf cs
    rw [crlf]
    split <;> simp only [List.length_cons] <;> omega

/-- A property of both characters of a line end holds of all characters if it did. -/
theorem all_crlf {p : Char → Bool} (h : p '\r' = p '\n') : ∀ cs, (crlf cs).all p = cs.all p
  | [] => rfl
  | c :: cs => by
    have ih := all_crlf h cs
    by_cases hc : c = '\n'
    · subst hc
      simp [h, ih]
    · simp [crlf_cons hc, ih]

/-! ### Beginnings -/

/-- What is told by the first character, be it either of a line end, is told the same. -/
theorem head?_crlf_any {p : Char → Bool} (h : p '\r' = p '\n') (cs : List Char) :
    (crlf cs).head?.any p = cs.head?.any p := by
  cases cs with
  | nil => rfl
  | cons c cs =>
    by_cases hc : c = '\n'
    · subst hc
      simp [h]
    · simp [crlf_cons hc]

/-- A character that belongs to no line end begins the text if it did. -/
theorem head?_crlf_eq_some {c : Char} (hn : c ≠ '\n') (hr : c ≠ '\r') (cs : List Char) :
    (crlf cs).head? = some c ↔ cs.head? = some c := by
  cases cs with
  | nil => rfl
  | cons d cs =>
    by_cases hd : d = '\n'
    · subst hd
      simp [Ne.symm hn, Ne.symm hr]
    · simp [crlf_cons hd]

/-- What follows a first character that belongs to no line end. -/
theorem crlf_eq_cons {c : Char} (hn : c ≠ '\n') (hr : c ≠ '\r') {cs rest : List Char} :
    crlf cs = c :: rest ↔ ∃ cs', cs = c :: cs' ∧ rest = crlf cs' := by
  cases cs with
  | nil => simp
  | cons d cs =>
    by_cases hd : d = '\n'
    · subst hd
      simp [Ne.symm hn, Ne.symm hr]
    · rw [crlf_cons hd]
      constructor
      · intro h
        obtain ⟨rfl, rfl⟩ := List.cons.inj h
        exact ⟨cs, rfl, rfl⟩
      · rintro ⟨cs', h, rfl⟩
        obtain ⟨rfl, rfl⟩ := List.cons.inj h
        rfl

theorem crlf_ne_newline (cs rest : List Char) : crlf cs ≠ '\n' :: rest := by
  cases cs with
  | nil => simp
  | cons c cs =>
    by_cases hc : c = '\n'
    · subst hc
      simp
    · rw [crlf_cons hc]
      exact fun h => hc (List.cons.inj h).1

theorem exists_of_crlf_eq_return {cs rest : List Char} (hplain : '\r' ∉ cs)
    (h : crlf cs = '\r' :: rest) : ∃ cs', cs = '\n' :: cs' ∧ rest = '\n' :: crlf cs' := by
  cases cs with
  | nil => cases h
  | cons c cs =>
    by_cases hc : c = '\n'
    · subst hc
      exact ⟨cs, rfl, (List.cons.inj h).2.symm⟩
    · rw [crlf_cons hc] at h
      obtain ⟨rfl, -⟩ := List.cons.inj h
      exact absurd List.mem_cons_self hplain

theorem takeWhile_crlf {p : Char → Bool} (hr : p '\r' = false) (hn : p '\n' = false) :
    ∀ cs, (crlf cs).takeWhile p = cs.takeWhile p
  | [] => rfl
  | c :: cs => by
    have ih := takeWhile_crlf hr hn cs
    by_cases hc : c = '\n'
    · subst hc
      simp [hr, hn]
    · simp [crlf_cons hc, List.takeWhile_cons, ih]

theorem take_crlf : ∀ {n : Nat} {cs : List Char}, '\n' ∉ cs.take n →
    (crlf cs).take n = cs.take n
  | 0, _, _ => rfl
  | _ + 1, [], _ => rfl
  | n + 1, c :: cs, h => by
    rw [List.take_succ_cons, List.mem_cons, not_or] at h
    rw [crlf_cons (Ne.symm h.1), List.take_succ_cons, List.take_succ_cons, take_crlf h.2]

/-- A line feed among the first characters has its carriage return among them. -/
theorem return_mem_take_crlf : ∀ {n : Nat} {cs : List Char}, '\n' ∈ cs.take n →
    '\r' ∈ (crlf cs).take n
  | 0, _, h => absurd h List.not_mem_nil
  | _ + 1, [], h => absurd h List.not_mem_nil
  | n + 1, c :: cs, h => by
    by_cases hc : c = '\n'
    · subst hc
      exact List.mem_cons_self
    · rw [List.take_succ_cons] at h
      rw [crlf_cons hc, List.take_succ_cons]
      exact List.mem_cons_of_mem c
        (return_mem_take_crlf ((List.mem_cons.mp h).resolve_left (Ne.symm hc)))

/-- What follows characters before a line end has its line ends as the text has. -/
theorem drop_crlf : ∀ {n : Nat} {cs : List Char}, '\n' ∉ cs.take n →
    (crlf cs).drop n = crlf (cs.drop n)
  | 0, _, _ => rfl
  | _ + 1, [], _ => rfl
  | n + 1, c :: cs, h => by
    rw [List.take_succ_cons, List.mem_cons, not_or] at h
    rw [crlf_cons (Ne.symm h.1), List.drop_succ_cons, List.drop_succ_cons, drop_crlf h.2]

/-! ### Lines -/

/-- All lines but the last have a carriage return at their end. -/
theorem splitAt_crlf : ∀ {cs last : List Char} {earlier : List (List Char)},
    splitAt '\n' cs = earlier ++ [last] →
    splitAt '\n' (crlf cs) = earlier.map (· ++ ['\r']) ++ [last]
  | [], last, earlier, h => by
    have hearlier : earlier = [] := by
      cases earlier with
      | nil => rfl
      | cons line more => simp [splitAt] at h
    subst hearlier
    exact h
  | c :: cs, last, earlier, h => by
    by_cases hc : c = '\n'
    · subst hc
      have hreturn : splitAt '\n' (crlf ('\n' :: cs)) = ['\r'] :: splitAt '\n' (crlf cs) := by
        rw [crlf_newline]
        exact splitAt_append '\n' ['\r'] (crlf cs)
      rw [splitAt, if_pos rfl] at h
      cases earlier with
      | nil => exact absurd (List.cons.inj h).2 (splitAt_ne_nil '\n' cs)
      | cons line more =>
        obtain ⟨rfl, hmore⟩ := List.cons.inj h
        rw [hreturn, splitAt_crlf hmore]
        rfl
    · rw [crlf_cons hc]
      rw [splitAt, if_neg hc] at h ⊢
      cases hs : splitAt '\n' cs with
      | nil => exact absurd hs (splitAt_ne_nil '\n' cs)
      | cons line more =>
        rw [hs] at h
        cases earlier with
        | nil =>
          obtain ⟨rfl, rfl⟩ := List.cons.inj h
          rw [splitAt_crlf (show splitAt '\n' cs = [] ++ [line] from hs)]
          rfl
        | cons first earlier =>
          obtain ⟨rfl, rfl⟩ := List.cons.inj h
          rw [splitAt_crlf (show splitAt '\n' cs = (line :: earlier) ++ [last] from hs)]
          rfl

/-! ### Trimming -/

theorem dropWhile_crlf {p : Char → Bool} (hr : p '\r' = true) (hn : p '\n' = true) :
    ∀ cs, (crlf cs).dropWhile p = crlf (cs.dropWhile p)
  | [] => rfl
  | c :: cs => by
    have ih := dropWhile_crlf hr hn cs
    by_cases hc : c = '\n'
    · subst hc
      simp [hr, hn, ih]
    · by_cases hp : p c = true
      · simp [crlf_cons hc, hp, ih]
      · rw [crlf_cons hc, List.dropWhile_cons_of_neg hp, List.dropWhile_cons_of_neg hp,
          crlf_cons hc]

theorem rdropWhile_crlf {p : Char → Bool} (hr : p '\r' = true) (hn : p '\n' = true)
    (cs : List Char) : (crlf cs).rdropWhile p = crlf (cs.rdropWhile p) := by
  induction cs using List.reverseRecOn with
  | nil => rfl
  | append_singleton cs c ih =>
    rw [crlf_append]
    by_cases hc : c = '\n'
    · subst hc
      have hreturn : crlf cs ++ crlf ['\n'] = crlf cs ++ ['\r'] ++ ['\n'] := by simp
      rw [hreturn, List.rdropWhile_concat_pos _ _ _ hn, List.rdropWhile_concat_pos _ _ _ hr, ih,
        List.rdropWhile_concat_pos _ _ _ hn]
    · rw [crlf_cons hc, crlf_nil]
      by_cases hp : p c = true
      · rw [List.rdropWhile_concat_pos _ _ _ hp, List.rdropWhile_concat_pos _ _ _ hp, ih]
      · rw [List.rdropWhile_concat_neg _ _ _ hp, List.rdropWhile_concat_neg _ _ _ hp,
          crlf_append, crlf_cons hc, crlf_nil]

/-- Trimming leaves the same text, with the line ends inside it. -/
theorem trimChars_crlf (cs : List Char) : trimChars (crlf cs) = crlf (trimChars cs) := by
  have hr : isBlank '\r' = true := by decide
  have hn : isBlank '\n' = true := by decide
  rw [trimChars_eq_rdropWhile, trimChars_eq_rdropWhile, dropWhile_crlf hr hn,
    rdropWhile_crlf hr hn]

end Text
end SitePlan
