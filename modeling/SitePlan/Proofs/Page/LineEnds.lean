/-
# Titles and both kinds of line ends

A page with a carriage return before every line feed has the front matter of the page
without, but for the carriage returns, and the same title in it. Its headings differ: a
carriage return is no blank of a line. On the first line with `#` and a space or tab, if a
line follows, it is taken for text, so the closing before it is none, and a line that
had no text has a blank one and hides the headings after it.

Key definitions: `Page.OpensHeading`, `Page.linesTitle?`.
Key theorems: `Page.splitFrontMatter_crlf`, `Page.frontMatterTitle?_crlf`,
`Page.headingText?_return`, `Page.textTitle?_append_closing`, `Page.extractTitle?_crlf`.
-/
import SitePlan.Proofs.Page.Closings
import SitePlan.Proofs.Text.LineEnds
import SitePlan.Proofs.Yaml.Unfinished

namespace SitePlan
namespace Page

open Text (crlf)

/-! ### Front matter -/

theorem crlf_eq_hyphens {cs rest : List Char} : crlf cs = "---".toList ++ rest ↔
    ∃ cs', cs = "---".toList ++ cs' ∧ rest = crlf cs' := by
  constructor
  · intro h
    obtain ⟨cs₁, rfl, h₁⟩ := (Text.crlf_eq_cons (by decide) (by decide)).mp h
    obtain ⟨cs₂, rfl, h₂⟩ := (Text.crlf_eq_cons (by decide) (by decide)).mp h₁.symm
    obtain ⟨cs₃, rfl, h₃⟩ := (Text.crlf_eq_cons (by decide) (by decide)).mp h₂.symm
    exact ⟨cs₃, rfl, h₃⟩
  · rintro ⟨cs', rfl, rfl⟩
    rw [Text.crlf_append]
    rfl

theorem isFence_crlf (cs : List Char) : IsFence (crlf cs) ↔ IsFence cs := by
  constructor
  · rintro ⟨rest, h⟩
    obtain ⟨cs', rfl, -⟩ := crlf_eq_hyphens.mp h.symm
    exact ⟨cs', rfl⟩
  · rintro ⟨rest, rfl⟩
    exact ⟨crlf rest, (crlf_eq_hyphens.mpr ⟨rest, rfl, rfl⟩).symm⟩

/-- The first fence is the same; the carriage return before it stays in front matter. -/
theorem splitAtFence_crlf : ∀ cs : List Char, splitAtFence (crlf cs) =
    (splitAtFence cs).map fun parts => (crlf parts.1 ++ ['\r'], crlf parts.2)
  | [] => rfl
  | c :: cs => by
    have ih := splitAtFence_crlf cs
    by_cases hc : c = '\n'
    · subst hc
      rw [Text.crlf_newline, splitAtFence_cons fun h => absurd h.1 (by decide)]
      by_cases hfence : IsFence cs
      · obtain ⟨body, rfl⟩ := hfence
        rw [Text.crlf_append]
        rfl
      · rw [splitAtFence_cons fun h => hfence ((isFence_crlf cs).mp h.2),
          splitAtFence_cons fun h => hfence h.2, ih]
        cases splitAtFence cs <;> rfl
    · rw [Text.crlf_cons hc, splitAtFence_cons fun h => hc h.1, splitAtFence_cons fun h => hc h.1,
        ih]
      cases splitAtFence cs with
      | none => rfl
      | some parts => simp [Text.crlf_cons hc]

/-- What follows the line that opens front matter. -/
def opened? (content : List Char) : Option (List Char) :=
  (Text.dropStart? "---\n".toList content).or (Text.dropStart? "---\r\n".toList content)

theorem splitFrontMatter_eq (content : List Char) : splitFrontMatter content =
    ((opened? content).bind splitAtFence).elim (none, content) fun parts =>
      (some parts.1, parts.2) := by
  unfold splitFrontMatter opened?
  cases Text.dropStart? "---\n".toList content with
  | some rest =>
    dsimp only [Option.some_or, Option.bind_some]
    cases splitAtFence rest <;> rfl
  | none =>
    dsimp only [Option.none_or]
    cases (Text.dropStart? "---\r\n".toList content).bind splitAtFence <;> rfl

/-- Front matter is opened by a line with either end. -/
theorem opened?_crlf {cs : List Char} (h : '\r' ∉ cs) :
    opened? (crlf cs) = (opened? cs).map crlf := by
  unfold opened?
  cases hopen : Text.dropStart? "---\n".toList cs with
  | some rest =>
    obtain rfl := Text.dropStart?_eq_some.mp hopen
    rfl
  | none =>
    have hfeed : ∀ rest, cs ≠ "---\n".toList ++ rest := fun rest hrest => by
      rw [Text.dropStart?_eq_some.mpr hrest] at hopen
      cases hopen
    have hreturn : Text.dropStart? "---\r\n".toList cs = none := by
      rw [Option.eq_none_iff_forall_ne_some]
      intro rest hrest
      rw [Text.dropStart?_eq_some] at hrest
      exact h (by rw [hrest]; simp)
    have hfeed' : Text.dropStart? "---\n".toList (crlf cs) = none := by
      rw [Option.eq_none_iff_forall_ne_some]
      intro rest hrest
      rw [Text.dropStart?_eq_some] at hrest
      have hcs : crlf cs = "---".toList ++ '\n' :: rest := hrest
      obtain ⟨cs', rfl, hcs'⟩ := crlf_eq_hyphens.mp hcs
      exact Text.crlf_ne_newline cs' rest hcs'.symm
    have hreturn' : Text.dropStart? "---\r\n".toList (crlf cs) = none := by
      rw [Option.eq_none_iff_forall_ne_some]
      intro rest hrest
      rw [Text.dropStart?_eq_some] at hrest
      have hcs : crlf cs = "---".toList ++ '\r' :: '\n' :: rest := hrest
      obtain ⟨cs', rfl, hcs'⟩ := crlf_eq_hyphens.mp hcs
      obtain ⟨more, rfl, -⟩ := Text.exists_of_crlf_eq_return
        (fun hmem => h (List.mem_append_right _ hmem)) hcs'.symm
      exact hfeed more rfl
    rw [hreturn, hfeed', hreturn']
    rfl

theorem opened?_suffix {content rest : List Char} (h : opened? content = some rest) :
    rest <:+ content := by
  rcases Option.or_eq_some_iff.mp h with hopen | ⟨-, hopen⟩
  · exact ⟨_, (Text.dropStart?_eq_some.mp hopen).symm⟩
  · exact ⟨_, (Text.dropStart?_eq_some.mp hopen).symm⟩

/-- Front matter ends where its fence begins. -/
theorem prefix_of_splitAtFence : ∀ {cs yaml body : List Char},
    splitAtFence cs = some (yaml, body) → yaml <+: cs
  | [], _, _, h => by cases h
  | c :: cs, yaml, body, h => by
    by_cases hfence : c = '\n' ∧ IsFence cs
    · obtain ⟨rfl, body', rfl⟩ := hfence
      rw [splitAtFence_fence] at h
      obtain ⟨rfl, -⟩ := Prod.mk.inj (Option.some.inj h)
      exact List.nil_prefix
    · rw [splitAtFence_cons hfence, Option.map_eq_some_iff] at h
      obtain ⟨parts, hparts, heq⟩ := h
      obtain ⟨rfl, -⟩ := Prod.mk.inj heq
      exact (List.prefix_cons_inj c).mpr (prefix_of_splitAtFence hparts)

/-- All of the front matter stands in the page. -/
theorem mem_of_mem_frontMatter {content yaml body : List Char}
    (h : splitFrontMatter content = (some yaml, body)) : ∀ c ∈ yaml, c ∈ content := by
  rw [splitFrontMatter_eq] at h
  cases hparts : (opened? content).bind splitAtFence with
  | none =>
    rw [hparts] at h
    cases h
  | some parts =>
    rw [hparts] at h
    obtain ⟨heq, -⟩ := Prod.mk.inj h
    obtain rfl := Option.some.inj heq
    obtain ⟨rest, hopen, hfence⟩ := Option.bind_eq_some_iff.mp hparts
    exact fun c hc => (opened?_suffix hopen).subset ((prefix_of_splitAtFence hfence).subset hc)

/-- Front matter and body are the same but for the line ends. -/
theorem splitFrontMatter_crlf {cs : List Char} (h : '\r' ∉ cs) :
    splitFrontMatter (crlf cs) =
      ((splitFrontMatter cs).1.map fun yaml => crlf yaml ++ ['\r'],
        crlf (splitFrontMatter cs).2) := by
  rw [splitFrontMatter_eq, splitFrontMatter_eq, opened?_crlf h, Option.bind_map]
  cases opened? cs with
  | none => rfl
  | some rest =>
    rw [Option.bind_some, Option.bind_some, Function.comp_apply, splitAtFence_crlf]
    cases splitAtFence rest <;> rfl

theorem frontMatterTitle?_crlf {yaml : List Char} (h : '\r' ∉ yaml) :
    frontMatterTitle? (crlf yaml ++ ['\r']) = frontMatterTitle? yaml := by
  have hreturn : ∀ c ∈ ['\r'], Text.isBlank c = true := List.forall_mem_singleton.mpr rfl
  have hplain : '\r' ∉ Text.trimChars yaml := fun hmem =>
    h ((List.dropWhile_suffix _).subset ((List.rdropWhile_prefix _ _).subset hmem))
  have hdocument : documentTitle?
        (Yaml.Document.ofTokens (Yaml.tokens (crlf (Text.trimChars yaml)))) =
      documentTitle? (Yaml.Document.ofTokens (Yaml.tokens (Text.trimChars yaml))) := by
    by_cases hallowed : (Text.trimChars yaml).all Yaml.isAllowed = true
    · rw [Yaml.tokens_crlf hplain hallowed]
    · have hallowed' : ¬ (crlf (Text.trimChars yaml)).all Yaml.isAllowed = true := by
        rwa [Text.all_crlf (p := Yaml.isAllowed) rfl]
      unfold documentTitle?
      rw [Yaml.complete_ofTokens_eq_false hallowed, Yaml.complete_ofTokens_eq_false hallowed']
  unfold frontMatterTitle?
  dsimp only
  rw [Text.trimChars_append hreturn, Text.trimChars_crlf, hdocument]
  simp only [Text.crlf_eq_nil]

theorem blockTitle?_crlf {yaml : List Char} (h : '\r' ∉ yaml) :
    blockTitle? (String.ofList (crlf yaml ++ ['\r'])) = blockTitle? (String.ofList yaml) := by
  unfold blockTitle?
  rw [String.toList_ofList, String.toList_ofList, frontMatterTitle?_crlf h]

/-! ### Headings -/

/-- A line that begins with `#` and a space or tab. -/
def OpensHeading (line : List Char) : Prop :=
  ∃ first more, line = '#' :: first :: more ∧ isLineBlank first = true

/-- The title that the lines of a body give. -/
def linesTitle? (lines : List (List Char)) : Option String :=
  (lines.findSome? headingText?).bind textTitle?

/-- A carriage return at the end does not make a line begin otherwise. -/
theorem opensHeading_return {line : List Char} :
    OpensHeading (line ++ ['\r']) ↔ OpensHeading line := by
  constructor
  · rintro ⟨first, more, heq, hfirst⟩
    match line with
    | [] => exact absurd (List.cons.inj heq).1 (by decide)
    | [_] =>
      obtain ⟨-, hrest⟩ := List.cons.inj heq
      obtain ⟨rfl, -⟩ := List.cons.inj hrest
      cases hfirst
    | c :: d :: rest =>
      obtain ⟨rfl, hrest⟩ := List.cons.inj heq
      obtain ⟨rfl, -⟩ := List.cons.inj hrest
      exact ⟨d, rest, rfl, hfirst⟩
  · rintro ⟨first, more, rfl, hfirst⟩
    exact ⟨first, more ++ ['\r'], rfl, hfirst⟩

theorem headingText?_eq_none {line : List Char} (h : ¬ OpensHeading line) :
    headingText? line = none := by
  rw [Option.eq_none_iff_forall_ne_some]
  exact fun text htext => h (exists_blank_of_headingText? htext)

/-- Lines that open no heading are passed over. -/
theorem linesTitle?_append {earlier : List (List Char)} (h : ∀ l ∈ earlier, ¬ OpensHeading l)
    (later : List (List Char)) : linesTitle? (earlier ++ later) = linesTitle? later := by
  have hnone : earlier.findSome? headingText? = none :=
    List.findSome?_eq_none_iff.mpr fun l hl => headingText?_eq_none (h l hl)
  unfold linesTitle?
  rw [List.findSome?_append, hnone, Option.none_or]

theorem linesTitle?_cons {line text : List Char} (h : headingText? line = some text)
    (later : List (List Char)) : linesTitle? (line :: later) = textTitle? text := by
  unfold linesTitle?
  rw [List.findSome?_cons, h, Option.bind_some]

theorem linesTitle?_cons_of_none {line : List Char} (h : headingText? line = none)
    (later : List (List Char)) : linesTitle? (line :: later) = linesTitle? later := by
  unfold linesTitle?
  rw [List.findSome?_cons, h]

/-- One blank and nothing else is no heading. -/
theorem headingText?_pair {first : Char} (h : isLineBlank first = true) :
    headingText? ['#', first] = none := by
  rw [headingText?_cons, List.takeWhile_cons_of_pos h, List.dropWhile_cons_of_pos h]
  rfl

/-- With a carriage return at the end all that follows the blanks of a line is text. -/
theorem headingText?_return {first : Char} (hfirst : isLineBlank first = true)
    (more : List Char) : headingText? ('#' :: first :: more ++ ['\r']) =
      some (more.dropWhile isLineBlank ++ ['\r']) := by
  have hreturn : isLineBlank '\r' = false := by decide
  have htext : ∃ c rest, more.dropWhile isLineBlank ++ ['\r'] = c :: rest ∧
      isLineBlank c = false := by
    cases hrest : more.dropWhile isLineBlank with
    | nil => exact ⟨'\r', [], rfl, hreturn⟩
    | cons c rest =>
      have hhead := List.head?_dropWhile_not isLineBlank more
      rw [hrest] at hhead
      exact ⟨c, rest ++ ['\r'], rfl, hhead⟩
  have hblanks : ∀ c ∈ first :: more.takeWhile isLineBlank, isLineBlank c = true :=
    List.forall_mem_cons.mpr ⟨hfirst, fun c hc => List.mem_takeWhile_imp hc⟩
  have hline : '#' :: first :: more ++ ['\r'] = '#' :: (first :: more.takeWhile isLineBlank ++
      (more.dropWhile isLineBlank ++ ['\r'] ++ [])) := by
    simp [← List.append_assoc]
  have hclosing : IsClosing [] := ⟨[], 0, [], rfl, List.forall_mem_nil _, List.forall_mem_nil _⟩
  rw [hline, headingText?_line (List.cons_ne_nil _ _) hblanks htext, List.append_nil,
    beforeClosing_of_ne hclosing hreturn (by decide)]

/-- Blanks at the beginning of a text are no part of its title. -/
theorem textTitle?_dropWhile (text : List Char) :
    textTitle? (text.dropWhile isLineBlank) = textTitle? text := by
  have hblanks : ∀ c ∈ text.takeWhile isLineBlank, Text.isBlank c = true :=
    isBlank_of_lineBlanks fun c hc => List.mem_takeWhile_imp hc
  have htrim := Text.trimChars_append_left hblanks (text.dropWhile isLineBlank)
  rw [List.takeWhile_append_dropWhile] at htrim
  unfold textTitle?
  rw [htrim]

/-- A line with more than one blank, or with other characters behind it, has a text. -/
theorem exists_headingText? {first : Char} {more : List Char} (hfirst : isLineBlank first = true)
    (hmore : more ≠ []) : ∃ text, headingText? ('#' :: first :: more) = some text ∧
      textTitle? text = textTitle? (beforeClosing (more.dropWhile isLineBlank)) := by
  have htake : (first :: more).takeWhile isLineBlank = first :: more.takeWhile isLineBlank :=
    List.takeWhile_cons_of_pos hfirst
  have hdrop : (first :: more).dropWhile isLineBlank = more.dropWhile isLineBlank :=
    List.dropWhile_cons_of_pos hfirst
  by_cases hrest : more.dropWhile isLineBlank = []
  · have hhides : HidesHeadings ('#' :: first :: more) :=
      ⟨first, more, rfl, hfirst, hmore,
        isBlank_of_lineBlanks (List.dropWhile_eq_nil_iff.mp hrest)⟩
    obtain ⟨text, htext, hall⟩ := headingText?_of_hides hhides
    refine ⟨text, htext, ?_⟩
    unfold textTitle?
    rw [if_pos ((Text.trimChars_eq_nil text).mpr hall), hrest]
    rfl
  · refine ⟨_, ?_, rfl⟩
    rw [headingText?_cons, htake, hdrop, if_neg (List.cons_ne_nil _ _), if_pos hrest]

theorem textTitle?_inj {text text' : List Char} :
    textTitle? text = textTitle? text' ↔ Text.trimChars text = Text.trimChars text' := by
  unfold textTitle?
  constructor
  · intro h
    split_ifs at h with hnil hnil' hnil'
    · rw [hnil, hnil']
    · exact String.ofList_injective (Option.some.inj h)
  · intro h
    rw [h]

/-- A closing changes the title exactly if there is a sign in it. -/
theorem textTitle?_append_closing {closing : List Char} (h : IsClosing closing)
    (text : List Char) : textTitle? (text ++ closing) = textTitle? text ↔ '#' ∉ closing := by
  obtain ⟨before, n, after, rfl, hbefore, hafter⟩ := h
  have hsign : Text.isBlank '#' = false := by decide
  cases n with
  | zero =>
    have hall : ∀ c ∈ before ++ after, isLineBlank c = true :=
      List.forall_mem_append.mpr ⟨hbefore, hafter⟩
    rw [List.replicate_zero, List.append_nil]
    refine iff_of_true (textTitle?_append (isBlank_of_lineBlanks hall) text) fun hmem => ?_
    exact absurd (hall '#' hmem) (by decide)
  | succ n =>
    have hshape : text ++ (before ++ List.replicate (n + 1) '#' ++ after) =
        text ++ (before ++ List.replicate n '#' ++ ['#']) ++ after := by
      simp [List.replicate_succ']
    refine iff_of_false (fun heq => ?_) (fun hmem => hmem (by simp))
    rw [hshape, textTitle?_append (isBlank_of_lineBlanks hafter), textTitle?_inj] at heq
    have hlt := Text.length_trimChars_lt hsign text (before ++ List.replicate n '#')
    rw [heq] at hlt
    exact Nat.lt_irrefl _ hlt

/-! ### The whole page -/

/-- What follows the beginning of a text up to the closing is one. -/
theorem isClosing_of_beforeClosing {cs closing : List Char}
    (h : cs = beforeClosing cs ++ closing) : IsClosing closing := by
  by_cases hcs : cs = []
  · subst hcs
    obtain rfl := (List.nil_eq_append_iff.mp h).2
    exact ⟨[], 0, [], rfl, List.forall_mem_nil _, List.forall_mem_nil _⟩
  · obtain ⟨-, closing', heq, hclosing, -⟩ := beforeClosing_spec hcs
    obtain rfl := List.append_cancel_left (h.symm.trans heq)
    exact hclosing

theorem extractTitle?_eq_lines {content : String} {block : Option (List Char)}
    {body : List Char} (h : splitFrontMatter content.toList = (block, body)) :
    extractTitle? content = (block.bind fun yaml => blockTitle? (String.ofList yaml)).or
      (linesTitle? (Text.splitAt '\n' body)) := by
  rw [extractTitle?_of_split h, headingTitle?_eq_textTitle?, String.toList_ofList, linesTitle?]

theorem not_opensHeading_return {lines : List (List Char)}
    (h : ∀ line ∈ lines, ¬ OpensHeading line) :
    ∀ line ∈ lines.map (· ++ ['\r']), ¬ OpensHeading line :=
  List.forall_mem_map.mpr fun line hline => mt opensHeading_return.mp (h line hline)

/-- Where no line but the last begins with `#` and a space or tab, the title is the same. -/
theorem linesTitle?_crlf_of_last {body : List Char}
    (h : ∀ line ∈ (Text.splitAt '\n' body).dropLast, ¬ OpensHeading line) :
    linesTitle? (Text.splitAt '\n' (crlf body)) = linesTitle? (Text.splitAt '\n' body) := by
  have hlast : Text.splitAt '\n' body = (Text.splitAt '\n' body).dropLast ++
      [(Text.splitAt '\n' body).getLast (Text.splitAt_ne_nil '\n' body)] :=
    (List.dropLast_concat_getLast _).symm
  rw [Text.splitAt_crlf hlast, linesTitle?_append (not_opensHeading_return h),
    ← linesTitle?_append h, ← hlast]

/-- Where another line does first, all that follows its blanks gives the title. -/
theorem linesTitle?_crlf {body more : List Char} {first : Char} {earlier later : List (List Char)}
    (hlines : Text.splitAt '\n' body = earlier ++ ('#' :: first :: more) :: later)
    (hlater : later ≠ []) (hfirst : isLineBlank first = true)
    (hearlier : ∀ line ∈ earlier, ¬ OpensHeading line) :
    linesTitle? (Text.splitAt '\n' (crlf body)) = textTitle? more := by
  obtain ⟨middle, last, rfl⟩ : ∃ middle last, later = middle ++ [last] :=
    ⟨_, _, (List.dropLast_concat_getLast hlater).symm⟩
  have hshape : Text.splitAt '\n' body =
      (earlier ++ ('#' :: first :: more) :: middle) ++ [last] := by
    rw [hlines, List.append_assoc, List.cons_append]
  rw [Text.splitAt_crlf hshape, List.map_append, List.append_assoc,
    linesTitle?_append (not_opensHeading_return hearlier), List.map_cons, List.cons_append,
    linesTitle?_cons (headingText?_return hfirst more),
    textTitle?_append (List.forall_mem_singleton.mpr rfl), textTitle?_dropWhile]

/-- **Which titles a carriage return before every line feed changes.** None that front matter
gives. Without one the title changes only on the first line, of those that another follows,
that begins with `#` and a space or tab: then all that follows the blanks gives it, so it is
the same exactly if there is no sign in the closing; and if nothing follows the one blank,
there is no title, whatever the later lines gave. -/
theorem extractTitle?_crlf {content : String} (hplain : '\r' ∉ content.toList)
    {block : Option (List Char)} {body : List Char}
    (hsplit : splitFrontMatter content.toList = (block, body)) :
    (∀ title, (block.bind fun yaml => blockTitle? (String.ofList yaml)) = some title →
      extractTitle? content = some title ∧
        extractTitle? (String.ofList (crlf content.toList)) = some title) ∧
    ((block.bind fun yaml => blockTitle? (String.ofList yaml)) = none →
      ((∀ line ∈ (Text.splitAt '\n' body).dropLast, ¬ OpensHeading line) →
        extractTitle? (String.ofList (crlf content.toList)) = extractTitle? content) ∧
      ∀ earlier first more later,
        Text.splitAt '\n' body = earlier ++ ('#' :: first :: more) :: later → later ≠ [] →
        isLineBlank first = true → (∀ line ∈ earlier, ¬ OpensHeading line) →
        extractTitle? (String.ofList (crlf content.toList)) = textTitle? more ∧
        (more = [] → extractTitle? content = linesTitle? later) ∧
        (more ≠ [] → ∀ closing,
          more.dropWhile isLineBlank = beforeClosing (more.dropWhile isLineBlank) ++ closing →
          (extractTitle? (String.ofList (crlf content.toList)) = extractTitle? content ↔
            '#' ∉ closing))) := by
  have hfront : (block.map fun yaml => crlf yaml ++ ['\r']).bind
      (fun yaml => blockTitle? (String.ofList yaml)) =
        block.bind fun yaml => blockTitle? (String.ofList yaml) := by
    cases block with
    | none => rfl
    | some yaml =>
      exact blockTitle?_crlf fun hmem => hplain (mem_of_mem_frontMatter hsplit _ hmem)
  have hsplit' : splitFrontMatter (String.ofList (crlf content.toList)).toList =
      (block.map fun yaml => crlf yaml ++ ['\r'], crlf body) := by
    rw [String.toList_ofList, splitFrontMatter_crlf hplain, hsplit]
  rw [extractTitle?_eq_lines hsplit, extractTitle?_eq_lines hsplit', hfront]
  refine ⟨fun title htitle => ?_, fun hnone => ?_⟩
  · rw [htitle]
    exact ⟨rfl, rfl⟩
  rw [hnone, Option.none_or, Option.none_or]
  refine ⟨linesTitle?_crlf_of_last,
    fun earlier first more later hlines hlater hfirst hearlier => ?_⟩
  rw [linesTitle?_crlf hlines hlater hfirst hearlier, hlines, linesTitle?_append hearlier]
  refine ⟨rfl, ?_, fun hmore closing hclosing => ?_⟩
  · rintro rfl
    exact linesTitle?_cons_of_none (headingText?_pair hfirst) later
  · obtain ⟨text, htext, htitle⟩ := exists_headingText? hfirst hmore
    rw [linesTitle?_cons htext, htitle,
      ← textTitle?_append_closing (isClosing_of_beforeClosing hclosing), ← hclosing,
      textTitle?_dropWhile]

/-- A page with a heading that is closed by signs. -/
def closedPage : String := "Draft\n# Closed ##\nEnd"

/-- A page with a title in front matter and a heading that is closed by signs. -/
def titledPage : String := "---\ntitle: Guide\n---\n# Closed ##\n"

/-- With carriage returns the title of `closedPage` has its signs, and that of `titledPage`
is the same. -/
theorem extractTitle?_crlf_closedPage :
    '\r' ∉ closedPage.toList ∧ splitFrontMatter closedPage.toList = (none, closedPage.toList) ∧
      Text.splitAt '\n' closedPage.toList =
        ["Draft".toList] ++ ('#' :: ' ' :: "Closed ##".toList) :: ["End".toList] ∧
      (∀ line ∈ ["Draft".toList], ¬ OpensHeading line) ∧
      "Closed ##".toList.dropWhile isLineBlank =
        beforeClosing ("Closed ##".toList.dropWhile isLineBlank) ++ " ##".toList ∧
      extractTitle? (String.ofList (crlf closedPage.toList)) = textTitle? "Closed ##".toList ∧
      extractTitle? (String.ofList (crlf closedPage.toList)) ≠ extractTitle? closedPage ∧
      '\r' ∉ titledPage.toList ∧
      splitFrontMatter titledPage.toList =
        (some "title: Guide".toList, "\n# Closed ##\n".toList) ∧
      blockTitle? "title: Guide" = some "Guide" ∧
      extractTitle? (String.ofList (crlf titledPage.toList)) = some "Guide" := by
  have hplain : '\r' ∉ closedPage.toList := by decide
  have hsplit : splitFrontMatter closedPage.toList = (none, closedPage.toList) := rfl
  have hlines : Text.splitAt '\n' closedPage.toList =
      ["Draft".toList] ++ ('#' :: ' ' :: "Closed ##".toList) :: ["End".toList] := by decide
  have hearlier : ∀ line ∈ ["Draft".toList], ¬ OpensHeading line := by
    refine List.forall_mem_singleton.mpr ?_
    rintro ⟨first, more, heq, -⟩
    exact absurd (List.cons.inj heq).1 (by decide)
  have hclosing : "Closed ##".toList.dropWhile isLineBlank =
      beforeClosing ("Closed ##".toList.dropWhile isLineBlank) ++ " ##".toList := by decide
  obtain ⟨hreturn, -, hsame⟩ := ((extractTitle?_crlf hplain hsplit).2 rfl).2 _ _ _ _ hlines
    (by decide) rfl hearlier
  have htitled : '\r' ∉ titledPage.toList := by decide
  have hblock : splitFrontMatter titledPage.toList =
      (some "title: Guide".toList, "\n# Closed ##\n".toList) := by decide
  have htitle : blockTitle? "title: Guide" = some "Guide" := by decide +kernel
  have hblockTitle : ((some "title: Guide".toList).bind fun yaml =>
      blockTitle? (String.ofList yaml)) = some "Guide" := by
    rw [Option.bind_some, String.ofList_toList, htitle]
  exact ⟨hplain, hsplit, hlines, hearlier, hclosing, hreturn,
    fun h => (hsame (by decide) _ hclosing).mp h (by decide), htitled, hblock, htitle,
    ((extractTitle?_crlf htitled hblock).1 "Guide" hblockTitle).2⟩

/-- Carriage returns bring signs back into the title, and hide a heading behind a line of
`#` and one blank. -/
theorem extractTitle?_changed_by_crlf :
    extractTitle? "# Closed ##\n" = some "Closed" ∧
      crlf "# Closed ##\n".toList = "# Closed ##\r\n".toList ∧
      extractTitle? "# Closed ##\r\n" = some "Closed ##" ∧
      extractTitle? "# \n# Real" = some "Real" ∧
      crlf "# \n# Real".toList = "# \r\n# Real".toList ∧
      extractTitle? "# \r\n# Real" = none := by
  decide

end Page
end SitePlan
