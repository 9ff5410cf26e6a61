/-
# Texts that are not blank

Trimming leaves a text that begins with a character that is not blank, or nothing. The
upper case of a character that is not blank is not blank either, as the table of upper
cases shows. So a trimmed text, with its first character in upper case or not, is blank
only where nothing but blanks was there to trim.

Key definitions: `Text.BeginsBlank`, `Text.EndsBlank`.
Key theorems: `Text.trimChars_eq_nil`, `Text.isBlank_of_trimChars_eq_cons`,
`Text.isBlankText_trimChars`, `Text.trimChars_append`, `Text.trimChars_append_left`,
`Text.trimChars_eq_self_iff`, `Text.length_trimChars_lt`, `Text.isBlank_of_mem_upper`,
`Text.isBlankText_capitalize_trimChars`.
-/
import Mathlib.Data.List.DropRight
import SitePlan.Text.Basic
import SitePlan.Text.Upper

namespace SitePlan
namespace Text

/-! ### Trimming -/

theorem isBlankText_ofList (cs : List Char) : isBlankText (String.ofList cs) = cs.all isBlank := by
  rw [isBlankText, String.toList_ofList]

theorem trimChars_eq_rdropWhile (cs : List Char) :
    trimChars cs = (cs.dropWhile isBlank).rdropWhile isBlank := rfl

/-- What is left of a text begins with a character that is not blank. -/
theorem isBlank_of_trimChars_eq_cons {cs rest : List Char} {c : Char}
    (h : trimChars cs = c :: rest) : isBlank c = false := by
  have hprefix : trimChars cs <+: cs.dropWhile isBlank := List.rdropWhile_prefix isBlank _
  obtain ⟨more, hmore⟩ := hprefix
  have hhead := List.head?_dropWhile_not isBlank cs
  rw [← hmore, h] at hhead
  exact hhead

theorem trimChars_eq_nil (cs : List Char) : trimChars cs = [] ↔ cs.all isBlank = true := by
  rw [trimChars_eq_rdropWhile, List.rdropWhile_eq_nil_iff, List.all_eq_true]
  constructor
  · intro h
    have hnil : cs.dropWhile isBlank = [] := by
      cases hdrop : cs.dropWhile isBlank with
      | nil => rfl
      | cons c rest =>
        have hhead := List.head?_dropWhile_not isBlank cs
        rw [hdrop] at h hhead
        exact absurd (h c List.mem_cons_self) (by simpa using hhead)
    exact List.dropWhile_eq_nil_iff.mp hnil
  · exact fun h c hc => h c ((List.dropWhile_suffix isBlank).subset hc)

theorem isBlankText_trimChars (cs : List Char) :
    isBlankText (String.ofList (trimChars cs)) = cs.all isBlank := by
  rw [isBlankText_ofList, Bool.eq_iff_iff, ← trimChars_eq_nil cs]
  cases h : trimChars cs with
  | nil => simp
  | cons c rest => simp [isBlank_of_trimChars_eq_cons h]

theorem trimChars_append {blanks : List Char} (h : ∀ c ∈ blanks, isBlank c = true)
    (cs : List Char) : trimChars (cs ++ blanks) = trimChars cs := by
  by_cases hcs : ∀ c ∈ cs, isBlank c = true
  · have hall : (cs ++ blanks).all isBlank = true :=
      List.all_eq_true.mpr (List.forall_mem_append.mpr ⟨hcs, h⟩)
    rw [(trimChars_eq_nil _).mpr hall, (trimChars_eq_nil _).mpr (List.all_eq_true.mpr hcs)]
  · have hdrop : (cs ++ blanks).dropWhile isBlank = cs.dropWhile isBlank ++ blanks := by
      rw [List.dropWhile_append, if_neg]
      simpa using hcs
    have hend : blanks.reverse.dropWhile isBlank = [] :=
      List.dropWhile_eq_nil_iff.mpr fun c hc => h c (List.mem_reverse.mp hc)
    unfold trimChars dropEndWhile
    rw [hdrop, List.reverse_append, List.dropWhile_append, hend]
    rfl

theorem trimChars_append_left {blanks : List Char} (h : ∀ c ∈ blanks, isBlank c = true)
    (cs : List Char) : trimChars (blanks ++ cs) = trimChars cs := by
  unfold trimChars
  rw [List.dropWhile_append_of_pos h]

/-- A text that does not end with a blank is trimmed at its beginning alone. -/
theorem trimChars_concat {c : Char} (hc : isBlank c = false) (cs : List Char) :
    trimChars (cs ++ [c]) = (cs ++ [c]).dropWhile isBlank := by
  have hdrop : ∃ rest, (cs ++ [c]).dropWhile isBlank = rest ++ [c] := by
    rw [List.dropWhile_append]
    split
    · exact ⟨[], by simp [hc]⟩
    · exact ⟨_, rfl⟩
  obtain ⟨rest, hrest⟩ := hdrop
  rw [trimChars_eq_rdropWhile, hrest]
  exact List.rdropWhile_concat_neg isBlank rest c (by simp [hc])

/-- The text begins with a blank. -/
def BeginsBlank (cs : List Char) : Prop := ∃ c ∈ cs.head?, isBlank c = true

/-- The text ends with a blank. -/
def EndsBlank (cs : List Char) : Prop := ∃ c ∈ cs.getLast?, isBlank c = true

-- decided on the first character, rather than by a search through all characters
instance (cs : List Char) : Decidable (BeginsBlank cs) := Option.decidableExistsMem cs.head?

theorem trimChars_infix (cs : List Char) : trimChars cs <:+: cs :=
  (List.rdropWhile_prefix isBlank _).isInfix.trans (List.dropWhile_suffix isBlank).isInfix

theorem not_beginsBlank_trimChars (cs : List Char) : ¬ BeginsBlank (trimChars cs) := by
  rintro ⟨c, hc, hblank⟩
  obtain ⟨rest, hrest⟩ := List.head?_eq_some_iff.mp hc
  rw [isBlank_of_trimChars_eq_cons hrest] at hblank
  cases hblank

theorem not_endsBlank_trimChars (cs : List Char) : ¬ EndsBlank (trimChars cs) := by
  rintro ⟨c, hc, hblank⟩
  obtain ⟨hne, hlast⟩ := List.mem_getLast?_eq_getLast hc
  rw [hlast] at hblank
  exact List.rdropWhile_last_not isBlank _ hne hblank

theorem EndsBlank.of_suffix {ending cs : List Char} (h : ending <:+ cs) :
    EndsBlank ending → EndsBlank cs := by
  rintro ⟨c, hc, hblank⟩
  obtain ⟨before, rfl⟩ := h
  rw [Option.mem_def] at hc
  exact ⟨c, by rw [Option.mem_def, List.getLast?_append, hc, Option.some_or], hblank⟩

/-- Trimming changes nothing exactly if no blank stands at either end. -/
theorem trimChars_eq_self_iff {cs : List Char} :
    trimChars cs = cs ↔ ¬ BeginsBlank cs ∧ ¬ EndsBlank cs := by
  constructor
  · intro h
    have hends := And.intro (not_beginsBlank_trimChars cs) (not_endsBlank_trimChars cs)
    rwa [h] at hends
  · rintro ⟨hbegin, hend⟩
    have hdrop : cs.dropWhile isBlank = cs := by
      cases cs with
      | nil => rfl
      | cons c rest => exact List.dropWhile_cons_of_neg fun hc => hbegin ⟨c, rfl, hc⟩
    rw [trimChars_eq_rdropWhile, hdrop, List.rdropWhile_eq_self_iff]
    exact fun hne hlast => hend ⟨_, List.getLast?_eq_some_getLast hne, hlast⟩

/-- A text that goes on to a character that is not blank is longer when trimmed. -/
theorem length_trimChars_lt {c : Char} (hc : isBlank c = false) (cs more : List Char) :
    (trimChars cs).length < (trimChars (cs ++ (more ++ [c]))).length := by
  have hend : trimChars (cs ++ (more ++ [c])) = (cs ++ (more ++ [c])).dropWhile isBlank := by
    rw [← List.append_assoc, trimChars_concat hc]
  have hprefix : (trimChars cs).length ≤ (cs.dropWhile isBlank).length :=
    (List.rdropWhile_prefix isBlank _).length_le
  have hne : (more ++ [c]).dropWhile isBlank ≠ [] := fun hnil => by
    have hblank := List.dropWhile_eq_nil_iff.mp hnil c (by simp)
    rw [hc] at hblank
    cases hblank
  rw [hend, List.dropWhile_append]
  split
  · next hnil =>
    rw [List.isEmpty_iff.mp hnil] at hprefix
    exact Nat.lt_of_le_of_lt hprefix (List.length_pos_of_ne_nil hne)
  · rw [List.length_append, List.length_append, List.length_singleton]
    omega

/-! ### Upper case -/

/-- The code points of the blank characters. -/
def blankCodes : List Nat :=
  [9, 10, 11, 12, 13, 0x20, 0x85, 0xa0, 0x1680, 0x2000, 0x2001, 0x2002, 0x2003, 0x2004, 0x2005,
    0x2006, 0x2007, 0x2008, 0x2009, 0x200a, 0x2028, 0x2029, 0x202f, 0x205f, 0x3000]

theorem toNat_mem_blankCodes {c : Char} (h : isBlank c = true) : c.toNat ∈ blankCodes := by
  simp only [isBlank, Bool.or_eq_true, Bool.and_eq_true, decide_eq_true_eq, beq_iff_eq] at h
  simp only [blankCodes, List.mem_cons, List.not_mem_nil, or_false]
  omega

theorem mem_blankCodes_of_isBlank_ofNat {n : Nat} (h : isBlank (Char.ofNat n) = true) :
    n ∈ blankCodes := by
  have hmem := toNat_mem_blankCodes h
  by_cases hn : n.isValidChar
  · rw [Char.ofNat, dif_pos hn] at hmem
    exact hmem
  · rw [Char.ofNat, dif_neg hn] at hmem
    exact absurd hmem (by decide)

/-- No blank stands in the images of a run. -/
theorem upperRuns_notBlank : ∀ run ∈ upperRuns, ∀ n ∈ blankCodes,
    n < run.2.2.2 ∨ run.2.2.2 + (run.2.1 - run.1) < n := by
  decide +kernel

theorem upperExpansions_notBlank : ∀ e ∈ upperExpansions, ∀ n ∈ e.2,
    isBlank (Char.ofNat n) = false := by
  decide +kernel

theorem ascii_upper_notBlank : ∀ n < 0x80, isBlank (Char.ofNat n) = false →
    isBlank (Char.ofNat n).toUpper = false := by
  decide +kernel

theorem isBlank_of_upperInRun {n m : Nat} {run : Nat × Nat × Nat × Nat} (hrun : run ∈ upperRuns)
    (h : upperInRun n run = some m) : isBlank (Char.ofNat m) = false := by
  obtain ⟨first, last, step, image⟩ := run
  unfold upperInRun at h
  simp only [Option.ite_none_right_eq_some, Bool.and_eq_true, decide_eq_true_eq] at h
  obtain ⟨⟨⟨hfirst, hlast⟩, -⟩, hm⟩ := h
  rw [Bool.eq_false_iff]
  intro hblank
  have hapart := upperRuns_notBlank _ hrun m (mem_blankCodes_of_isBlank_ofNat hblank)
  have hm := Option.some.inj hm
  simp only at hapart
  omega

/-- The upper case of a character that is not blank holds no blank. -/
theorem isBlank_of_mem_upper {c : Char} (h : isBlank c = false) :
    ∀ d ∈ upper c, isBlank d = false := by
  unfold upper
  simp only
  -- an ASCII character, one with an expansion, and one of a run or without an upper case
  split
  · next hascii =>
    have hupper := ascii_upper_notBlank c.toNat hascii
    rw [Char.ofNat_toNat] at hupper
    exact List.forall_mem_singleton.mpr (hupper h)
  · split
    · next e image hfind =>
      have he := List.mem_of_find?_eq_some hfind
      rw [List.forall_mem_map]
      exact upperExpansions_notBlank _ he
    · rw [List.forall_mem_singleton]
      cases hruns : upperRuns.findSome? (upperInRun c.toNat) with
      | none => exact h
      | some m =>
        obtain ⟨run, hrun, hm⟩ := List.exists_of_findSome?_eq_some hruns
        exact isBlank_of_upperInRun hrun hm

theorem upper_ne_nil (c : Char) : upper c ≠ [] := by
  have hexpansions : ∀ e ∈ upperExpansions, e.2 ≠ [] := by decide +kernel
  unfold upper
  simp only
  split
  · exact List.cons_ne_nil _ _
  · split
    · next e image hfind =>
      rw [Ne, List.map_eq_nil_iff]
      exact hexpansions _ (List.mem_of_find?_eq_some hfind)
    · exact List.cons_ne_nil _ _

/-- A trimmed text with its first character in upper case is blank only where the text
was. -/
theorem isBlankText_capitalize_trimChars (cs : List Char) :
    isBlankText (String.ofList (capitalize (trimChars cs))) = cs.all isBlank := by
  rw [isBlankText_ofList, Bool.eq_iff_iff, ← trimChars_eq_nil cs]
  cases h : trimChars cs with
  | nil => simp [capitalize]
  | cons c rest =>
    obtain ⟨d, hd⟩ := List.exists_mem_of_ne_nil _ (upper_ne_nil c)
    have hblank := isBlank_of_mem_upper (isBlank_of_trimChars_eq_cons h) d hd
    refine iff_of_false (fun hall => ?_) (List.cons_ne_nil c rest)
    rw [capitalize, List.all_append, Bool.and_eq_true] at hall
    rw [List.all_eq_true.mp hall.1 d hd] at hblank
    exact Bool.noConfusion hblank

end Text
end SitePlan
