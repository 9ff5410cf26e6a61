/-
# Which heading gives the title

A heading line is `#`, at least one space or tab and a text that is not blank. Its title
is the least beginning of the text after which only a closing follows: blanks, `#` signs
and blanks, each possibly none. The first heading line of a page without front matter
gives the title, unless a line before it hides it: one of `#` and at least two blanks, of
which the first is a space or tab. Such a line counts as the first heading and gives no
title, while `#` alone and `#` with one blank are passed over.

Key definitions: `Page.IsHeading`, `Page.HidesHeadings`, `Page.IsClosing`,
`Page.HeadingText`.
Key theorems: `Page.isClosing_iff`, `Page.beforeClosing_spec`,
`Page.headingText?_of_isHeading`, `Page.headingText?_of_hides`, `Page.first_headingText`,
`Page.extractTitle?_firstHeading`.
-/
import SitePlan.Proofs.Page.FrontMatter
import SitePlan.Proofs.Text.Blank

namespace SitePlan
namespace Page

/-- A line of `#`, at least one space or tab, and a text that is not blank. -/
def IsHeading (line : List Char) : Prop :=
  ∃ blanks text, line = '#' :: (blanks ++ text) ∧ blanks ≠ [] ∧
    (∀ c ∈ blanks, isLineBlank c = true) ∧ ∃ c ∈ text, Text.isBlank c = false

/-- A line of `#`, a space or tab, and at least one more character, all of them blank. -/
def HidesHeadings (line : List Char) : Prop :=
  ∃ first more, line = '#' :: first :: more ∧ isLineBlank first = true ∧ more ≠ [] ∧
    ∀ c ∈ more, Text.isBlank c = true

/-- Spaces and tabs, `#` signs, and spaces and tabs again, each possibly none. -/
def IsClosing (cs : List Char) : Prop :=
  ∃ before n after, cs = before ++ List.replicate n '#' ++ after ∧
    (∀ c ∈ before, isLineBlank c = true) ∧ ∀ c ∈ after, isLineBlank c = true

/-- What a heading line has between the spaces and tabs behind its `#` and a closing: at
least one character, and no more than it takes for a closing to follow. -/
def HeadingText (line text : List Char) : Prop :=
  ∃ blanks closing, line = '#' :: (blanks ++ (text ++ closing)) ∧ blanks ≠ [] ∧
    (∀ c ∈ blanks, isLineBlank c = true) ∧ (∃ c more, text = c :: more ∧ isLineBlank c = false) ∧
    IsClosing closing ∧
    ∀ before after, before ≠ [] → text ++ closing = before ++ after → IsClosing after →
      text.length ≤ before.length

theorem isBlank_of_isLineBlank {c : Char} (h : isLineBlank c = true) : Text.isBlank c = true := by
  simp only [isLineBlank, Bool.or_eq_true, beq_iff_eq] at h
  rcases h with rfl | rfl <;> decide

/-! ### The text of a heading line -/

theorem isClosing_iff {cs : List Char} : isClosing cs = true ↔ IsClosing cs := by
  unfold isClosing IsClosing
  constructor
  · intro h
    have hsigns : (cs.dropWhile isLineBlank).takeWhile (· == '#') =
        List.replicate ((cs.dropWhile isLineBlank).takeWhile (· == '#')).length '#' :=
      List.eq_replicate_iff.mpr ⟨rfl, fun c hc =>
        beq_iff_eq.mp (List.mem_takeWhile_imp (p := (· == '#')) hc)⟩
    refine ⟨cs.takeWhile isLineBlank, ((cs.dropWhile isLineBlank).takeWhile (· == '#')).length,
      (cs.dropWhile isLineBlank).dropWhile (· == '#'), ?_, fun c hc => List.mem_takeWhile_imp hc,
      List.all_eq_true.mp h⟩
    rw [← hsigns, List.append_assoc, List.takeWhile_append_dropWhile,
      List.takeWhile_append_dropWhile]
  · rintro ⟨before, n, after, rfl, hbefore, hafter⟩
    rw [List.append_assoc, List.dropWhile_append_of_pos hbefore]
    cases n with
    | zero =>
      have hnil : after.dropWhile isLineBlank = [] := List.dropWhile_eq_nil_iff.mpr hafter
      rw [List.replicate_zero, List.nil_append, hnil]
      rfl
    | succ n =>
      have hstop : (List.replicate (n + 1) '#' ++ after).dropWhile isLineBlank =
          List.replicate (n + 1) '#' ++ after := rfl
      have hsigns : ∀ c ∈ List.replicate (n + 1) '#', (c == '#') = true := fun c hc =>
        beq_iff_eq.mpr (List.eq_of_mem_replicate hc)
      rw [hstop, List.dropWhile_append_of_pos hsigns, List.all_eq_true]
      exact fun c hc => hafter c ((List.dropWhile_suffix _).subset hc)

/-- What stands before the closing is as short as it can be. -/
theorem beforeClosing_spec : ∀ {cs : List Char}, cs ≠ [] →
    beforeClosing cs ≠ [] ∧ ∃ closing, cs = beforeClosing cs ++ closing ∧ IsClosing closing ∧
      ∀ before after, before ≠ [] → cs = before ++ after → IsClosing after →
        (beforeClosing cs).length ≤ before.length
  | c :: cs, _ => by
    rw [beforeClosing]
    split
    · next hclosing =>
      exact ⟨List.cons_ne_nil _ _, cs, rfl, isClosing_iff.mp hclosing,
        fun before _ hne _ _ => List.length_pos_of_ne_nil hne⟩
    · next hopen =>
      have hne : cs ≠ [] := by
        rintro rfl
        exact hopen rfl
      obtain ⟨-, closing, hcs, hclosing, hleast⟩ := beforeClosing_spec hne
      refine ⟨List.cons_ne_nil _ _, closing, congrArg (c :: ·) hcs, hclosing, ?_⟩
      intro before after hbefore heq hafter
      obtain ⟨d, more, rfl⟩ := List.exists_cons_of_ne_nil hbefore
      obtain ⟨-, hrest⟩ := List.cons.inj heq
      -- a beginning of one character would leave a closing, and there is none behind it
      have hmore : more ≠ [] := by
        rintro rfl
        rw [hrest] at hopen
        exact hopen (isClosing_iff.mpr hafter)
      exact Nat.succ_le_succ (hleast more after hmore hrest hafter)

theorem headingText?_cons (cs : List Char) : headingText? ('#' :: cs) =
    if cs.takeWhile isLineBlank = [] then none
    else if cs.dropWhile isLineBlank ≠ [] then some (beforeClosing (cs.dropWhile isLineBlank))
    else if 2 ≤ (cs.takeWhile isLineBlank).length then
      some ((cs.takeWhile isLineBlank).drop ((cs.takeWhile isLineBlank).length - 1))
    else none := rfl

theorem headingText?_of_ne {c : Char} (h : c ≠ '#') (cs : List Char) :
    headingText? (c :: cs) = none := by
  unfold headingText?
  split
  · next heq => exact absurd (List.cons.inj heq).1 h
  · rfl

theorem headingText?_of_isHeading {line : List Char} (h : IsHeading line) :
    ∃ text, headingText? line = some text ∧ HeadingText line text := by
  obtain ⟨blanks, text, rfl, hne, hblanks, c, hc, hcblank⟩ := h
  have hrest : (blanks ++ text).dropWhile isLineBlank ≠ [] := by
    intro hnil
    have hcline := List.dropWhile_eq_nil_iff.mp hnil c (List.mem_append_right blanks hc)
    rw [isBlank_of_isLineBlank hcline] at hcblank
    exact Bool.noConfusion hcblank
  have hfirst : (blanks ++ text).takeWhile isLineBlank ≠ [] := by
    rw [List.takeWhile_append_of_pos hblanks]
    exact fun hnil => hne (List.append_eq_nil_iff.mp hnil).1
  obtain ⟨hbefore, closing, hclosing, hisClosing, hleast⟩ := beforeClosing_spec hrest
  refine ⟨_, (headingText?_cons _).trans (by rw [if_neg hfirst, if_pos hrest]),
    (blanks ++ text).takeWhile isLineBlank, closing, ?_, hfirst,
    fun d hd => List.mem_takeWhile_imp hd, ?_, hisClosing, ?_⟩
  · rw [← hclosing, List.takeWhile_append_dropWhile]
  · obtain ⟨d, more, hd⟩ := List.exists_cons_of_ne_nil hbefore
    refine ⟨d, more, hd, ?_⟩
    have hhead := List.head?_dropWhile_not isLineBlank (blanks ++ text)
    rw [hclosing, hd] at hhead
    exact hhead
  · rw [← hclosing]
    exact hleast

/-- Behind the spaces and tabs a line has its text and the closing. -/
theorem dropWhile_of_text {blanks text closing : List Char}
    (hblanks : ∀ c ∈ blanks, isLineBlank c = true)
    (htext : ∃ c more, text = c :: more ∧ isLineBlank c = false) :
    (blanks ++ (text ++ closing)).dropWhile isLineBlank = text ++ closing := by
  obtain ⟨c, more, rfl, hc⟩ := htext
  rw [List.dropWhile_append_of_pos hblanks, List.cons_append,
    List.dropWhile_cons_of_neg (Bool.not_eq_true _ ▸ hc)]

theorem HeadingText.unique {line text text' : List Char} (h : HeadingText line text)
    (h' : HeadingText line text') : text = text' := by
  obtain ⟨blanks, closing, rfl, -, hblanks, htext, hclosing, hleast⟩ := h
  obtain ⟨blanks', closing', hline, -, hblanks', htext', hclosing', hleast'⟩ := h'
  have hrest : text ++ closing = text' ++ closing' := by
    rw [← dropWhile_of_text hblanks htext, (List.cons.inj hline).2,
      dropWhile_of_text hblanks' htext']
  have hne : ∀ {t : List Char}, (∃ c more, t = c :: more ∧ isLineBlank c = false) → t ≠ [] := by
    rintro t ⟨c, more, rfl, -⟩
    exact List.cons_ne_nil c more
  have hlength : text.length = text'.length :=
    Nat.le_antisymm (hleast text' closing' (hne htext') hrest hclosing')
      (hleast' text closing (hne htext) hrest.symm hclosing)
  exact (List.append_inj hrest hlength).1

/-- A line that hides headings has a blank text. -/
theorem headingText?_of_hides {line : List Char} (h : HidesHeadings line) :
    ∃ text, headingText? line = some text ∧ text.all Text.isBlank = true := by
  obtain ⟨first, more, rfl, hfirst, hne, hmore⟩ := h
  have hblank : ∀ c ∈ first :: more, Text.isBlank c = true :=
    List.forall_mem_cons.mpr ⟨isBlank_of_isLineBlank hfirst, hmore⟩
  have htake : (first :: more).takeWhile isLineBlank = first :: more.takeWhile isLineBlank :=
    List.takeWhile_cons_of_pos hfirst
  have hdrop : (first :: more).dropWhile isLineBlank = more.dropWhile isLineBlank :=
    List.dropWhile_cons_of_pos hfirst
  rw [headingText?_cons, htake, hdrop, if_neg (List.cons_ne_nil _ _)]
  -- only spaces and tabs: the text is the last of them; else it begins with another blank
  by_cases hrest : more.dropWhile isLineBlank = []
  · have hall : more.takeWhile isLineBlank = more :=
      List.takeWhile_eq_self_iff.mpr (List.dropWhile_eq_nil_iff.mp hrest)
    have htwo : 2 ≤ (first :: more).length :=
      Nat.succ_le_succ (List.length_pos_of_ne_nil hne)
    rw [if_neg (not_not.mpr hrest), hall, if_pos htwo]
    exact ⟨_, rfl, List.all_eq_true.mpr fun c hc => hblank c (List.mem_of_mem_drop hc)⟩
  · obtain ⟨-, closing, hclosing, -⟩ := beforeClosing_spec hrest
    rw [if_pos hrest]
    refine ⟨_, rfl, List.all_eq_true.mpr fun c hc => hmore c ?_⟩
    have hmem : c ∈ more.dropWhile isLineBlank := by
      rw [hclosing]
      exact List.mem_append_left closing hc
    exact (List.dropWhile_suffix _).subset hmem

/-- Only a line of `#` and a space or tab has a text. -/
theorem exists_blank_of_headingText? {line text : List Char} (h : headingText? line = some text) :
    ∃ first more, line = '#' :: first :: more ∧ isLineBlank first = true := by
  cases line with
  | nil => cases h
  | cons c cs =>
    by_cases hc : c = '#'
    · subst hc
      rw [headingText?_cons] at h
      cases cs with
      | nil => cases h
      | cons first more =>
        refine ⟨first, more, rfl, ?_⟩
        by_contra hfirst
        rw [List.takeWhile_cons_of_neg hfirst, if_pos rfl] at h
        cases h
    · rw [headingText?_of_ne hc] at h
      cases h

/-- Only heading lines and the lines that hide them have a text. -/
theorem isHeading_or_hides {line text : List Char} (h : headingText? line = some text) :
    IsHeading line ∨ HidesHeadings line := by
  obtain ⟨first, more, rfl, hfirst⟩ := exists_blank_of_headingText? h
  by_cases hmore : ∀ c ∈ more, Text.isBlank c = true
  · refine .inr ⟨first, more, rfl, hfirst, ?_, hmore⟩
    rintro rfl
    rw [headingText?_cons, List.takeWhile_cons_of_pos hfirst,
      List.dropWhile_cons_of_pos hfirst] at h
    cases h
  · obtain ⟨c, hc, hcblank⟩ := not_forall₂.mp hmore
    exact .inl ⟨[first], more, rfl, List.cons_ne_nil _ _, List.forall_mem_singleton.mpr hfirst,
      c, hc, by simpa using hcblank⟩

/-! ### The first heading line of a page -/

theorem splitFrontMatter_of_none {content : List Char} (h : (splitFrontMatter content).1 = none) :
    splitFrontMatter content = (none, content) := by
  unfold splitFrontMatter at h ⊢
  simp only at h ⊢
  split at h
  · cases h
  · rfl

/-- The first text of a line gives the title, if it is not blank. -/
theorem headingTitle?_eq (body : String) : headingTitle? body =
    ((Text.splitAt '\n' body.toList).findSome? headingText?).bind fun text =>
      if text.all Text.isBlank = true then none
      else some (String.ofList (Text.trimChars text)) := by
  unfold headingTitle? firstHeading?
  cases (Text.splitAt '\n' body.toList).findSome? headingText? with
  | none => rfl
  | some text =>
    have hnil := Text.trimChars_eq_nil text
    by_cases hblank : text.all Text.isBlank = true
    · rw [Option.bind_some, if_pos hblank, Option.map_some, hnil.mpr hblank]
      rfl
    · have hne := mt hnil.mp hblank
      rw [Option.bind_some, if_neg hblank, Option.map_some]
      simp [Option.filter, hne]

/-- Which text comes first: that of the first heading line, or a blank one where a line
before it hides it. -/
theorem first_headingText {earlier later : List (List Char)} {line text : List Char}
    (hearlier : ∀ l ∈ earlier, ¬ IsHeading l) (htext : headingText? line = some text) :
    (∀ l ∈ earlier, ¬ HidesHeadings l) ∧
        (earlier ++ line :: later).findSome? headingText? = some text ∨
      (∃ l ∈ earlier, HidesHeadings l) ∧ ∃ blank, blank.all Text.isBlank = true ∧
        (earlier ++ line :: later).findSome? headingText? = some blank := by
  rw [List.findSome?_append]
  cases hfirst : earlier.findSome? headingText? with
  | none =>
    rw [Option.none_or, List.findSome?_cons, htext]
    refine .inl ⟨fun l hl hhides => ?_, rfl⟩
    obtain ⟨t, ht, -⟩ := headingText?_of_hides hhides
    rw [List.findSome?_eq_none_iff.mp hfirst l hl] at ht
    cases ht
  | some t =>
    obtain ⟨l, hl, ht⟩ := List.exists_of_findSome?_eq_some hfirst
    have hhides := (isHeading_or_hides ht).resolve_left (hearlier l hl)
    obtain ⟨blank, hblank, hall⟩ := headingText?_of_hides hhides
    cases ht.symm.trans hblank
    exact .inr ⟨⟨l, hl, hhides⟩, t, hall, rfl⟩

/-- **The first heading line gives the title, unless a line before it hides it.** The title
is the text of the line, trimmed, and never blank; besides a line that hides headings only
a text that is blank but for its closing leaves the page without one. -/
theorem extractTitle?_firstHeading {content : String} {earlier later : List (List Char)}
    {line : List Char} (hfront : (splitFrontMatter content.toList).1 = none)
    (hlines : Text.splitAt '\n' content.toList = earlier ++ line :: later)
    (hearlier : ∀ l ∈ earlier, ¬ IsHeading l) (hline : IsHeading line) :
    ∃ text, (∀ t, HeadingText line t ↔ t = text) ∧
      ((extractTitle? content).isSome = true ↔
        (∀ l ∈ earlier, ¬ HidesHeadings l) ∧ ∃ c ∈ text, Text.isBlank c = false) ∧
      ∀ title, extractTitle? content = some title →
        title = String.ofList (Text.trimChars text) ∧ Text.isBlankText title = false := by
  obtain ⟨text, htext, hheading⟩ := headingText?_of_isHeading hline
  have htitle : extractTitle? content = headingTitle? content := by
    rw [extractTitle?_of_split (splitFrontMatter_of_none hfront), String.ofList_toList]
    rfl
  refine ⟨text, fun t => ⟨fun h => h.unique hheading, fun h => h ▸ hheading⟩, ?_⟩
  rw [htitle, headingTitle?_eq, hlines]
  rcases first_headingText hearlier htext with
    ⟨hshown, hfirst⟩ | ⟨⟨l, hl, hhides⟩, blank, hall, hfirst⟩
  · rw [hfirst, Option.bind_some]
    by_cases hblank : text.all Text.isBlank = true
    · rw [if_pos hblank]
      refine ⟨iff_of_false Bool.false_ne_true fun h => ?_, fun title h => by cases h⟩
      obtain ⟨c, hc, hcblank⟩ := h.2
      rw [List.all_eq_true.mp hblank c hc] at hcblank
      exact Bool.noConfusion hcblank
    · rw [if_neg hblank]
      have hcontent : ∃ c ∈ text, Text.isBlank c = false := by
        simpa using hblank
      refine ⟨iff_of_true rfl ⟨hshown, hcontent⟩, fun title h => ?_⟩
      cases h
      exact ⟨rfl, (Text.isBlankText_trimChars text).trans (Bool.not_eq_true _ ▸ hblank)⟩
  · rw [hfirst, Option.bind_some, if_pos hall]
    exact ⟨iff_of_false Bool.false_ne_true fun h => h.1 l hl hhides, fun title h => by cases h⟩

/-- A page whose fourth line is the first heading line. -/
def latePage : String := "#\n# \n#Glued\n# Real ##\n# Other"

/-- The title of `latePage` comes from its fourth line. -/
theorem extractTitle?_firstHeading_latePage :
    (splitFrontMatter latePage.toList).1 = none ∧
      Text.splitAt '\n' latePage.toList =
        ["#".toList, "# ".toList, "#Glued".toList] ++ "# Real ##".toList :: ["# Other".toList] ∧
      (∀ l ∈ ["#".toList, "# ".toList, "#Glued".toList], ¬ IsHeading l ∧ ¬ HidesHeadings l) ∧
      IsHeading "# Real ##".toList ∧ HeadingText "# Real ##".toList "Real".toList ∧
      extractTitle? latePage = some "Real" := by
  have hlines : Text.splitAt '\n' latePage.toList =
      ["#".toList, "# ".toList, "#Glued".toList] ++ "# Real ##".toList :: ["# Other".toList] := by
    decide
  have hearlier : ∀ l ∈ ["#".toList, "# ".toList, "#Glued".toList],
      ¬ IsHeading l ∧ ¬ HidesHeadings l := by
    intro l hl
    have hnone : headingText? l = none := by
      revert l
      decide
    constructor <;> intro h
    · obtain ⟨text, htext, -⟩ := headingText?_of_isHeading h
      cases hnone.symm.trans htext
    · obtain ⟨text, htext, -⟩ := headingText?_of_hides h
      cases hnone.symm.trans htext
  have hline : IsHeading "# Real ##".toList :=
    ⟨[' '], "Real ##".toList, rfl, by decide, List.forall_mem_singleton.mpr rfl,
      'R', List.mem_cons_self, rfl⟩
  have hreal : HeadingText "# Real ##".toList "Real".toList := by
    obtain ⟨text, htext, hheading⟩ := headingText?_of_isHeading hline
    have heq : headingText? "# Real ##".toList = some "Real".toList := by decide
    cases heq.symm.trans htext
    exact hheading
  obtain ⟨text, htext, hsome, htitle⟩ :=
    extractTitle?_firstHeading (show (splitFrontMatter latePage.toList).1 = none from rfl) hlines
      (fun l hl => (hearlier l hl).1) hline
  obtain rfl := (htext _).mp hreal
  obtain ⟨title, heq⟩ := Option.isSome_iff_exists.mp
    (hsome.mpr ⟨fun l hl => (hearlier l hl).2, 'R', List.mem_cons_self, rfl⟩)
  have hname : title = "Real" := (htitle title heq).1
  exact ⟨rfl, hlines, hearlier, hline, hreal, hname ▸ heq⟩

/-- With two blanks behind its `#` a blank line hides the heading that follows; with one or
none it does not. -/
theorem extractTitle?_hidden_by_blanks :
    HidesHeadings "#  ".toList ∧ IsHeading "# Real".toList ∧
      extractTitle? "#  \n# Real" = none ∧
      extractTitle? "# \n# Real" = some "Real" ∧ extractTitle? "#\n# Real" = some "Real" :=
  ⟨⟨' ', [' '], rfl, rfl, by decide, List.forall_mem_singleton.mpr rfl⟩,
    ⟨[' '], "Real".toList, rfl, by decide, List.forall_mem_singleton.mpr rfl,
      'R', List.mem_cons_self, rfl⟩, by decide, by decide, by decide⟩

end Page
end SitePlan
