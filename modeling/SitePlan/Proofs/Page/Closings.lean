/-
# What is left out at the end of a heading

A closing is blanks, `#` signs and blanks, and what a heading line shows is the least
beginning of its text that a closing follows. So the `#` signs at the end of a text are left
out, and with them the spaces and tabs before them: those that stand apart from the text,
but those that follow it directly too, down to the character before them. A text of `#`
signs alone keeps the first.

Key definitions: `Page.textTitle?`.
Key theorems: `Page.beforeClosing_append`, `Page.headingText?_line`,
`Page.extractTitle?_closing`.
-/
import SitePlan.Proofs.Page.Headings

namespace SitePlan
namespace Page

/-- The title that a text gives: what trimming leaves of it, unless that is nothing. -/
def textTitle? (text : List Char) : Option String :=
  if Text.trimChars text = [] then none else some (String.ofList (Text.trimChars text))

/-! ### Closings -/

theorem IsClosing.of_cons {c : Char} {cs : List Char} (h : IsClosing (c :: cs)) :
    IsClosing cs := by
  obtain ⟨before, n, after, heq, hbefore, hafter⟩ := h
  cases before with
  | cons b before =>
    exact ⟨before, n, after, (List.cons.inj heq).2, (List.forall_mem_cons.mp hbefore).2, hafter⟩
  | nil =>
    cases n with
    | succ n => exact ⟨[], n, after, (List.cons.inj heq).2, hbefore, hafter⟩
    | zero =>
      have hcs : c :: cs = after := heq
      rw [← hcs] at hafter
      exact ⟨[], 0, cs, rfl, hbefore, (List.forall_mem_cons.mp hafter).2⟩

theorem IsClosing.of_append {cs : List Char} : ∀ {init : List Char}, IsClosing (init ++ cs) →
    IsClosing cs
  | [], h => h
  | _ :: _, h => IsClosing.of_append h.of_cons

/-- A closing that does not begin with a space or tab is `#` signs, and blanks after them. -/
theorem IsClosing.signs {c : Char} {cs : List Char} (h : IsClosing (c :: cs))
    (hc : isLineBlank c = false) :
    c = '#' ∧ ∃ n after, cs = List.replicate n '#' ++ after ∧
      ∀ d ∈ after, isLineBlank d = true := by
  obtain ⟨before, n, after, heq, hbefore, hafter⟩ := h
  have hblank : ∀ {more : List Char}, c :: cs = more → ¬ ∀ d ∈ more, isLineBlank d = true := by
    rintro _ rfl hmore
    rw [hmore c List.mem_cons_self] at hc
    cases hc
  cases before with
  | cons b before =>
    obtain ⟨rfl, -⟩ := List.cons.inj heq
    rw [hbefore c List.mem_cons_self] at hc
    cases hc
  | nil =>
    cases n with
    | zero => exact absurd hafter (hblank heq)
    | succ n =>
      obtain ⟨rfl, rfl⟩ := List.cons.inj heq
      exact ⟨rfl, n, after, rfl, hafter⟩

/-- What stands before the closing ends with the last character after which a closing
follows, if none begins with it. -/
theorem beforeClosing_append {c : Char} {closing : List Char} (hclosing : IsClosing closing)
    (hopen : ¬ IsClosing (c :: closing)) :
    ∀ init : List Char, beforeClosing (init ++ c :: closing) = init ++ [c]
  | [] => by
    rw [List.nil_append, beforeClosing, if_pos (isClosing_iff.mpr hclosing)]
    rfl
  | d :: init => by
    have hlater : ¬ IsClosing (init ++ c :: closing) := fun h => hopen h.of_append
    rw [List.cons_append, beforeClosing, if_neg (mt isClosing_iff.mp hlater),
      beforeClosing_append hclosing hopen init]
    rfl

theorem beforeClosing_of_ne {c : Char} {closing : List Char} (hclosing : IsClosing closing)
    (hc : isLineBlank c = false) (hsign : c ≠ '#') (init : List Char) :
    beforeClosing (init ++ c :: closing) = init ++ [c] :=
  beforeClosing_append hclosing (fun h => hsign (h.signs hc).1) init

/-! ### Titles of texts -/

theorem isBlank_of_lineBlanks {cs : List Char} (h : ∀ c ∈ cs, isLineBlank c = true) :
    ∀ c ∈ cs, Text.isBlank c = true := fun c hc => isBlank_of_isLineBlank (h c hc)

theorem textTitle?_append {blanks : List Char} (h : ∀ c ∈ blanks, Text.isBlank c = true)
    (text : List Char) : textTitle? (text ++ blanks) = textTitle? text := by
  unfold textTitle?
  rw [Text.trimChars_append h]

/-- The first text of a line gives the title. -/
theorem headingTitle?_eq_textTitle? (body : String) : headingTitle? body =
    ((Text.splitAt '\n' body.toList).findSome? headingText?).bind textTitle? := by
  rw [headingTitle?_eq]
  congr 1
  funext text
  unfold textTitle?
  simp only [Text.trimChars_eq_nil]

/-- A text that begins with no space or tab is what the closing is searched in. -/
theorem headingText?_line {blanks text trailing : List Char} (hne : blanks ≠ [])
    (hblanks : ∀ c ∈ blanks, isLineBlank c = true)
    (htext : ∃ c more, text = c :: more ∧ isLineBlank c = false) :
    headingText? ('#' :: (blanks ++ (text ++ trailing))) =
      some (beforeClosing (text ++ trailing)) := by
  have hfirst : (blanks ++ (text ++ trailing)).takeWhile isLineBlank ≠ [] := by
    rw [List.takeWhile_append_of_pos hblanks]
    exact fun hnil => hne (List.append_eq_nil_iff.mp hnil).1
  have hrest : text ++ trailing ≠ [] := by
    obtain ⟨c, more, rfl, -⟩ := htext
    exact List.cons_ne_nil c _
  rw [headingText?_cons, if_neg hfirst, dropWhile_of_text hblanks htext, if_pos hrest]

theorem exists_last_notBlank : ∀ {cs : List Char}, (∃ c ∈ cs, isLineBlank c = false) →
    ∃ init c after, cs = init ++ c :: after ∧ isLineBlank c = false ∧
      ∀ d ∈ after, isLineBlank d = true
  | [], h => by
    obtain ⟨c, hc, -⟩ := h
    cases hc
  | c :: cs, h => by
    by_cases hcs : ∃ d ∈ cs, isLineBlank d = false
    · obtain ⟨init, d, after, rfl, hd, hafter⟩ := exists_last_notBlank hcs
      exact ⟨c :: init, d, after, rfl, hd, hafter⟩
    · have hafter : ∀ d ∈ cs, isLineBlank d = true := by simpa using hcs
      obtain ⟨d, hd, hblank⟩ := h
      have hc : isLineBlank c = false := by
        rcases List.mem_cons.mp hd with rfl | hd
        · exact hblank
        · exact absurd ⟨d, hd, hblank⟩ hcs
      exact ⟨[], c, cs, rfl, hc, hafter⟩

/-! ### The three ways a text can end -/

section

variable {text trailing : List Char} (htrailing : ∀ c ∈ trailing, isLineBlank c = true)
include htrailing

/-- Signs that stand apart are left out, with the blanks before them. -/
theorem textTitle?_apart {u sep : List Char} (n : Nat) (hsep : sep ≠ [])
    (hblanks : ∀ c ∈ sep, isLineBlank c = true) (hu : ∃ c ∈ u, isLineBlank c = false) :
    textTitle? (beforeClosing (u ++ sep ++ List.replicate (n + 1) '#' ++ trailing)) =
      textTitle? u := by
  obtain ⟨init, c, after, rfl, hc, hafter⟩ := exists_last_notBlank hu
  have hall : ∀ d ∈ after ++ sep, isLineBlank d = true :=
    List.forall_mem_append.mpr ⟨hafter, hblanks⟩
  have hclosing : IsClosing (after ++ sep ++ List.replicate (n + 1) '#' ++ trailing) :=
    ⟨after ++ sep, n + 1, trailing, rfl, hall, htrailing⟩
  -- a sign, a blank and a sign again are no closing
  have hopen : ¬ IsClosing (c :: (after ++ sep ++ List.replicate (n + 1) '#' ++ trailing)) := by
    intro h
    have hne : after ++ sep ≠ [] := List.append_ne_nil_of_right_ne_nil after hsep
    obtain ⟨b, blanks, hb⟩ := List.exists_cons_of_ne_nil hne
    obtain ⟨-, k, more, heq, hmore⟩ := h.signs hc
    rw [hb, List.append_assoc, List.cons_append] at heq
    have hbblank := hall b (hb ▸ List.mem_cons_self)
    cases k with
    | succ k =>
      obtain ⟨rfl, -⟩ := List.cons.inj heq
      cases hbblank
    | zero =>
      rw [List.replicate_zero, List.nil_append] at heq
      rw [← heq] at hmore
      have hsign := hmore '#' (by simp)
      cases hsign
  have hshape : init ++ c :: after ++ sep ++ List.replicate (n + 1) '#' ++ trailing =
      init ++ c :: (after ++ sep ++ List.replicate (n + 1) '#' ++ trailing) := by simp
  have hu' : init ++ c :: after = init ++ [c] ++ after := by simp
  rw [hshape, beforeClosing_append hclosing hopen, hu',
    textTitle?_append (isBlank_of_lineBlanks hafter)]

/-- Signs that follow a character directly are left out too, if there are any. -/
theorem beforeClosing_glued {c : Char} (hc : isLineBlank c = false) (hsign : c ≠ '#')
    (init : List Char) (n : Nat) :
    beforeClosing (init ++ c :: List.replicate n '#' ++ trailing) = init ++ [c] := by
  have hclosing : IsClosing (List.replicate n '#' ++ trailing) :=
    ⟨[], n, trailing, rfl, List.forall_mem_nil _, htrailing⟩
  rw [List.append_assoc, List.cons_append, beforeClosing_of_ne hclosing hc hsign]

/-- Of a text of signs alone the first is left. -/
theorem beforeClosing_signs (n : Nat) :
    beforeClosing (List.replicate (n + 1) '#' ++ trailing) = ['#'] := by
  have hclosing : IsClosing (List.replicate n '#' ++ trailing) :=
    ⟨[], n, trailing, rfl, List.forall_mem_nil _, htrailing⟩
  rw [List.replicate_succ, List.cons_append, beforeClosing, if_pos (isClosing_iff.mpr hclosing)]

end

/-- **Which `#` signs a heading leaves out.** All those at the end of its text, whether
blanks stand before them or not: the title is the text up to the blanks before them or up to
the character that they follow. Signs alone give the title `#`. A line of `#` and blanks
before the heading takes the title away. -/
theorem extractTitle?_closing {content : String} {earlier later : List (List Char)}
    {blanks text trailing : List Char}
    (hfront : (splitFrontMatter content.toList).1 = none)
    (hlines : Text.splitAt '\n' content.toList =
      earlier ++ ('#' :: (blanks ++ (text ++ trailing))) :: later)
    (hearlier : ∀ l ∈ earlier, ¬ IsHeading l)
    (hne : blanks ≠ []) (hblanks : ∀ c ∈ blanks, isLineBlank c = true)
    (htrailing : ∀ c ∈ trailing, isLineBlank c = true)
    (hfirst : ∃ c more, text = c :: more ∧ isLineBlank c = false) :
    ((∃ l ∈ earlier, HidesHeadings l) → extractTitle? content = none) ∧
    ((∀ l ∈ earlier, ¬ HidesHeadings l) →
      (∀ u sep n, text = u ++ sep ++ List.replicate (n + 1) '#' → u ≠ [] → sep ≠ [] →
        (∀ c ∈ sep, isLineBlank c = true) → extractTitle? content = textTitle? u) ∧
      (∀ init c n, text = init ++ c :: List.replicate n '#' → isLineBlank c = false → c ≠ '#' →
        extractTitle? content = textTitle? (init ++ [c])) ∧
      ∀ n, text = List.replicate (n + 1) '#' → extractTitle? content = some "#") := by
  have htitle : extractTitle? content = headingTitle? content := by
    rw [extractTitle?_of_split (splitFrontMatter_of_none hfront), String.ofList_toList]
    rfl
  have htext : headingText? ('#' :: (blanks ++ (text ++ trailing))) =
      some (beforeClosing (text ++ trailing)) := headingText?_line hne hblanks hfirst
  rw [htitle, headingTitle?_eq_textTitle?, hlines]
  rcases first_headingText hearlier htext with
    ⟨hshown, hfound⟩ | ⟨⟨l, hl, hhides⟩, blank, hall, hfound⟩
  · rw [hfound, Option.bind_some]
    refine ⟨fun ⟨l, hl, hhides⟩ => absurd hhides (hshown l hl), fun _ => ⟨?_, ?_, ?_⟩⟩
    · intro u sep n htext hu hsep hsepBlank
      obtain ⟨c, more, hc, hcblank⟩ := hfirst
      obtain ⟨d, u', rfl⟩ := List.exists_cons_of_ne_nil hu
      have hcd : c = d := by
        rw [hc] at htext
        exact (List.cons.inj htext).1
      rw [htext]
      exact textTitle?_apart htrailing n hsep hsepBlank ⟨d, List.mem_cons_self, hcd ▸ hcblank⟩
    · rintro init c n rfl hc hsign
      rw [beforeClosing_glued htrailing hc hsign]
    · rintro n rfl
      rw [beforeClosing_signs htrailing]
      rfl
  · rw [hfound, Option.bind_some]
    refine ⟨fun _ => ?_, fun hshown => absurd hhides (hshown l hl)⟩
    unfold textTitle?
    rw [if_pos ((Text.trimChars_eq_nil blank).mpr hall)]

/-- A page of a remark and a heading with blanks at both ends of its text. -/
def sharpPage : String := "Draft\n# \tC# major ## \n# Other"

/-- The title of `sharpPage` keeps the sign inside the text and leaves out the two after
it. -/
theorem extractTitle?_closing_sharpPage :
    (splitFrontMatter sharpPage.toList).1 = none ∧
      Text.splitAt '\n' sharpPage.toList = ["Draft".toList] ++
        ('#' :: (" \t".toList ++ ("C# major ##".toList ++ " ".toList))) ::
          ["# Other".toList] ∧
      (∀ l ∈ ["Draft".toList], ¬ IsHeading l ∧ ¬ HidesHeadings l) ∧
      " \t".toList ≠ [] ∧ (∀ c ∈ " \t".toList, isLineBlank c = true) ∧
      (∀ c ∈ " ".toList, isLineBlank c = true) ∧
      (∃ c more, "C# major ##".toList = c :: more ∧ isLineBlank c = false) ∧
      "C# major ##".toList = "C# major".toList ++ " ".toList ++ List.replicate (1 + 1) '#' ∧
      extractTitle? sharpPage = textTitle? "C# major".toList ∧
      textTitle? "C# major".toList = some "C# major" := by
  have hfront : (splitFrontMatter sharpPage.toList).1 = none := rfl
  have hlines : Text.splitAt '\n' sharpPage.toList = ["Draft".toList] ++
      ('#' :: (" \t".toList ++ ("C# major ##".toList ++ " ".toList))) :: ["# Other".toList] := by
    decide
  have hearlier : ∀ l ∈ ["Draft".toList], ¬ IsHeading l ∧ ¬ HidesHeadings l := by
    refine List.forall_mem_singleton.mpr ⟨?_, ?_⟩
    · rintro ⟨blanks, text, heq, -⟩
      exact absurd (List.cons.inj heq).1 (by decide)
    · rintro ⟨first, more, heq, -⟩
      exact absurd (List.cons.inj heq).1 (by decide)
  have hblanks : ∀ c ∈ " \t".toList, isLineBlank c = true := List.all_eq_true.mp rfl
  have htrailing : ∀ c ∈ " ".toList, isLineBlank c = true := List.all_eq_true.mp rfl
  have hfirst : ∃ c more, "C# major ##".toList = c :: more ∧ isLineBlank c = false :=
    ⟨'C', "# major ##".toList, rfl, rfl⟩
  obtain ⟨-, hshown⟩ := extractTitle?_closing hfront hlines (fun l hl => (hearlier l hl).1)
    (by decide) hblanks htrailing hfirst
  obtain ⟨hapart, -, -⟩ := hshown fun l hl => (hearlier l hl).2
  exact ⟨hfront, hlines, hearlier, by decide, hblanks, htrailing, hfirst, rfl,
    hapart "C# major".toList " ".toList 1 rfl (by decide) (by decide) htrailing, by decide⟩

/-- A sign that follows the text directly is left out as one that stands apart is. -/
theorem extractTitle?_drops_gluedSign :
    extractTitle? "# C#" = some "C" ∧ extractTitle? "# C #" = some "C" ∧
      textTitle? "C#".toList = some "C#" := by
  decide

end Page
end SitePlan
