/-
# Pieces of a text

Splitting a text at a character is the inverse of putting the character between
pieces that do not hold it. Dropping a beginning leaves what follows it.

Key theorems: `Text.splitAt_eq_splitOn`, `Text.not_mem_of_mem_splitAt`,
`Text.splitAt_append`, `Text.splitAt_append_replicate`, `Text.splitAt_intercalate`,
`Text.splitAt_join`, `Text.prefix_append_cons_iff`, `Text.intercalate_append`,
`Text.intercalate_splitAt`, `Text.empty_mem_splitAt_iff`, `Text.splitLast?_eq_some`,
`Text.dropStart?_eq_some`, `Text.endsWith_iff`.
-/
import SitePlan.Text.Basic

namespace SitePlan
namespace Text

variable (sep : Char)

theorem splitAt_eq_splitOn : ∀ cs : List Char, splitAt sep cs = cs.splitOn sep
  | [] => rfl
  | c :: cs => by
    rw [splitAt, splitAt_eq_splitOn cs, List.splitOn_cons_eq_if_modifyHead]
    by_cases h : c = sep
    · simp [h]
    · rw [if_neg h, if_neg (by simpa using h)]
      cases hs : cs.splitOn sep with
      | nil => exact absurd hs (List.splitOn_ne_nil sep cs)
      | cons piece pieces => rfl

theorem splitAt_ne_nil (cs : List Char) : splitAt sep cs ≠ [] := by
  rw [splitAt_eq_splitOn]
  exact List.splitOn_ne_nil sep cs

theorem not_mem_of_mem_splitAt : ∀ (cs : List Char), ∀ piece ∈ splitAt sep cs, sep ∉ piece
  | [], piece, h => by
    rw [splitAt, List.mem_singleton] at h
    simp [h]
  | c :: cs, piece, h => by
    have ih := not_mem_of_mem_splitAt cs
    rw [splitAt] at h
    split at h
    · rcases List.mem_cons.mp h with rfl | h
      · exact List.not_mem_nil
      · exact ih piece h
    · rename_i hc
      cases hs : splitAt sep cs with
      | nil => exact absurd hs (splitAt_ne_nil sep cs)
      | cons first rest =>
        rw [hs] at h ih
        rcases List.mem_cons.mp h with rfl | h
        · exact List.not_mem_cons_of_ne_of_not_mem (Ne.symm hc) (ih first List.mem_cons_self)
        · exact ih piece (List.mem_cons_of_mem _ h)

theorem splitAt_append (xs ys : List Char) :
    splitAt sep (xs ++ sep :: ys) = splitAt sep xs ++ splitAt sep ys := by
  simp only [splitAt_eq_splitOn, List.splitOn_append_cons_self]

theorem splitAt_append_replicate (xs : List Char) (n : Nat) :
    splitAt sep (xs ++ List.replicate n sep) = splitAt sep xs ++ List.replicate n [] := by
  induction n generalizing xs with
  | zero => simp
  | succ n ih =>
    have hrest := ih []
    rw [List.nil_append] at hrest
    rw [List.replicate_succ, splitAt_append, hrest, List.replicate_succ]
    rfl

theorem splitAt_intercalate {pieces : List (List Char)} (hne : pieces ≠ [])
    (h : ∀ piece ∈ pieces, sep ∉ piece) : splitAt sep ([sep].intercalate pieces) = pieces := by
  rw [splitAt_eq_splitOn, List.splitOn_intercalate sep h hne]

theorem splitAt_of_not_mem {cs : List Char} (h : sep ∉ cs) : splitAt sep cs = [cs] := by
  have hpieces := splitAt_intercalate sep (List.cons_ne_nil cs []) (List.forall_mem_singleton.mpr h)
  rwa [List.intercalate_singleton] at hpieces

/-- A text of closed lines is cut into the lines and the empty piece after the last. -/
theorem splitAt_join : ∀ {lines : List String}, (∀ line ∈ lines, '\n' ∉ line.toList) →
    splitAt '\n' (String.join (lines.map fun line => line ++ "\n")).toList =
      lines.map String.toList ++ [[]]
  | [], _ => rfl
  | line :: lines, h => by
    obtain ⟨hline, hlines⟩ := List.forall_mem_cons.mp h
    have hjoin : (String.join ((line :: lines).map fun line => line ++ "\n")).toList =
        line.toList ++ '\n' :: (String.join (lines.map fun line => line ++ "\n")).toList := by
      simp
    rw [hjoin, splitAt_append, splitAt_of_not_mem '\n' hline, splitAt_join hlines]
    rfl

/-- A text without the separator begins a text exactly if it begins the first piece. -/
theorem prefix_append_cons_iff {start : List Char} (h : sep ∉ start) (piece rest : List Char) :
    start <+: piece ++ sep :: rest ↔ start <+: piece := by
  constructor
  · intro hstart
    have hpiece : piece ++ [sep] <+: piece ++ sep :: rest :=
      (List.prefix_append_right_inj piece).mpr ⟨rest, rfl⟩
    rcases List.prefix_or_prefix_of_prefix hstart hpiece with hshort | hlong
    · rcases List.prefix_concat_iff.mp hshort with heq | hshort
      · exact absurd (heq ▸ List.mem_append_right piece List.mem_cons_self) h
      · exact hshort
    · exact absurd (hlong.subset (List.mem_append_right piece List.mem_cons_self)) h
  · exact fun hstart => hstart.trans (List.prefix_append piece _)

theorem intercalate_cons {rest : List (List Char)} (h : rest ≠ []) (piece : List Char) :
    [sep].intercalate (piece :: rest) = piece ++ sep :: [sep].intercalate rest := by
  rw [List.intercalate_cons_of_ne_nil h, List.append_assoc, List.singleton_append]

theorem intercalate_append {later : List (List Char)} (hl : later ≠ []) :
    ∀ {earlier : List (List Char)}, earlier ≠ [] → [sep].intercalate (earlier ++ later) =
      [sep].intercalate earlier ++ sep :: [sep].intercalate later
  | [piece], _ => by
    rw [List.singleton_append, intercalate_cons sep hl, List.intercalate_singleton]
  | piece :: next :: more, _ => by
    have hmore : next :: more ≠ [] := List.cons_ne_nil next more
    rw [List.cons_append, intercalate_cons sep (List.append_ne_nil_of_left_ne_nil hmore later),
      intercalate_append hl hmore, intercalate_cons sep hmore, List.append_assoc, List.cons_append]

theorem intercalate_splitAt (cs : List Char) : [sep].intercalate (splitAt sep cs) = cs := by
  rw [splitAt_eq_splitOn, List.intercalate_splitOn]

/-- A character other than the separator is in some piece. -/
theorem exists_piece_of_mem {c : Char} : ∀ {cs : List Char}, c ∈ cs → c ≠ sep →
    ∃ piece ∈ splitAt sep cs, c ∈ piece
  | [], h, _ => absurd h List.not_mem_nil
  | d :: cs, h, hc => by
    rw [splitAt]
    split
    · rename_i hd
      have hmem : c ∈ cs := (List.mem_cons.mp h).resolve_left fun he => hc (he.trans hd)
      obtain ⟨piece, hp, hcp⟩ := exists_piece_of_mem hmem hc
      exact ⟨piece, List.mem_cons_of_mem _ hp, hcp⟩
    · cases hs : splitAt sep cs with
      | nil => exact absurd hs (splitAt_ne_nil sep cs)
      | cons first rest =>
        rcases List.mem_cons.mp h with rfl | h
        · exact ⟨c :: first, List.mem_cons_self, List.mem_cons_self⟩
        · obtain ⟨piece, hp, hcp⟩ := exists_piece_of_mem h hc
          rw [hs] at hp
          rcases List.mem_cons.mp hp with rfl | hp
          · exact ⟨d :: piece, List.mem_cons_self, List.mem_cons_of_mem _ hcp⟩
          · exact ⟨piece, List.mem_cons_of_mem _ hp, hcp⟩

/-- The pieces after the first are those of the text after a character that is no
separator. -/
theorem tail_splitAt_cons {c : Char} (h : c ≠ sep) (cs : List Char) :
    (splitAt sep (c :: cs)).tail = (splitAt sep cs).tail := by
  rw [splitAt, if_neg h]
  cases splitAt sep cs <;> rfl

/-- The first piece is empty where the text begins with a separator. -/
theorem empty_mem_splitAt_iff_tail : ∀ {cs : List Char}, [] ∈ (splitAt sep cs).dropLast ↔
    cs.head? = some sep ∨ [] ∈ (splitAt sep cs).tail.dropLast
  | [] => by simp [splitAt]
  | c :: cs => by
    by_cases hc : c = sep
    · rw [splitAt, if_pos hc, List.dropLast_cons_of_ne_nil (splitAt_ne_nil sep cs)]
      simp [hc]
    · have hhead : (c :: cs).head? ≠ some sep := fun h => hc (Option.some.inj h)
      rw [or_iff_right hhead, splitAt, if_neg hc]
      rcases splitAt sep cs with _ | ⟨piece, _ | ⟨next, more⟩⟩ <;> simp

/-- A piece between two others is empty where two separators stand in a row. -/
theorem empty_mem_tail_splitAt_iff : ∀ {cs : List Char},
    [] ∈ (splitAt sep cs).tail.dropLast ↔ [sep, sep] <:+: cs
  | [] => by simp [splitAt]
  | c :: cs => by
    have ih : [] ∈ (splitAt sep cs).tail.dropLast ↔ [sep, sep] <:+: cs :=
      empty_mem_tail_splitAt_iff
    rw [List.infix_cons_iff, List.cons_prefix_cons]
    by_cases hc : c = sep
    · have htail : (splitAt sep (c :: cs)).tail = splitAt sep cs := by
        rw [splitAt, if_pos hc, List.tail_cons]
      have hhead : [sep] <+: cs ↔ cs.head? = some sep := by
        cases cs <;> simp [eq_comm]
      rw [htail, empty_mem_splitAt_iff_tail, ih, hhead, and_iff_right hc.symm]
    · rw [tail_splitAt_cons sep hc, ih, or_iff_right fun h => hc h.1.symm]

/-- A piece before the last is empty exactly where the text begins with a separator or
holds two in a row. -/
theorem empty_mem_splitAt_iff {cs : List Char} :
    [] ∈ (splitAt sep cs).dropLast ↔ cs.head? = some sep ∨ [sep, sep] <:+: cs := by
  rw [empty_mem_splitAt_iff_tail, empty_mem_tail_splitAt_iff]

theorem splitLast?_eq_none : ∀ {cs : List Char}, splitLast? sep cs = none ↔ sep ∉ cs
  | [] => by simp [splitLast?]
  | c :: cs => by
    have ih : splitLast? sep cs = none ↔ sep ∉ cs := splitLast?_eq_none
    rw [splitLast?, List.mem_cons, not_or, ← ih]
    cases splitLast? sep cs <;> simp [eq_comm]

theorem splitLast?_append {rest : List Char} (h : sep ∉ rest) :
    ∀ before : List Char, splitLast? sep (before ++ sep :: rest) = some (before, rest)
  | [] => by
    have hnone := (splitLast?_eq_none sep).mpr h
    rw [List.nil_append, splitLast?, hnone]
    exact if_pos rfl
  | c :: before => by
    rw [List.cons_append, splitLast?, splitLast?_append h before]

/-- The last separator is the one with none after it. -/
theorem splitLast?_eq_some {cs before rest : List Char} :
    splitLast? sep cs = some (before, rest) ↔ cs = before ++ sep :: rest ∧ sep ∉ rest := by
  constructor
  · intro h
    induction cs generalizing before with
    | nil => cases h
    | cons c cs ih =>
      rw [splitLast?] at h
      cases hs : splitLast? sep cs with
      | some parts =>
        rw [hs] at h
        cases h
        obtain ⟨hcs, hrest⟩ := ih hs
        exact ⟨by rw [hcs, List.cons_append], hrest⟩
      | none =>
        rw [hs] at h
        simp only at h
        split at h
        · rename_i hc
          cases h
          exact ⟨by rw [hc, List.nil_append], (splitLast?_eq_none sep).mp hs⟩
        · cases h
  · rintro ⟨rfl, hrest⟩
    exact splitLast?_append sep hrest before

theorem dropStart?_eq_some : ∀ {start cs rest : List Char},
    dropStart? start cs = some rest ↔ cs = start ++ rest
  | [], cs, rest => by simp [dropStart?]
  | b :: bs, [], rest => by simp [dropStart?]
  | b :: bs, c :: cs, rest => by
    rw [dropStart?]
    by_cases hbc : b = c
    · rw [if_pos hbc, dropStart?_eq_some, hbc]
      simp
    · rw [if_neg hbc]
      simp [Ne.symm hbc]

theorem endsWith_iff {ending cs : List Char} : endsWith ending cs = true ↔ ending <:+ cs := by
  unfold endsWith startsWith
  rw [Option.isSome_iff_exists, ← List.reverse_prefix]
  exact exists_congr fun rest => dropStart?_eq_some.trans eq_comm

end Text
end SitePlan
