/-
# Where front matter ends

Front matter ends before the first line after it that begins with `---`, a fence. What
stands before is read for a title and nothing else, what stands after the fence is
searched for a heading and nothing else; without a fence all of the page is searched.

The fence that ends front matter has to have a line before it. A block without any line
does not end where the line after the opening one is a fence, but goes on to the next
fence, if there is one: what stands in between is taken for front matter.

Key definitions: `Page.IsFence`, `Page.blockTitle?`, `Page.headingTitle?`.
Key theorems: `Page.splitAtFence_fenced`, `Page.splitAtFence_unfenced`,
`Page.extractTitle?_of_split`, `Page.extractTitle?_frontMatter`,
`Page.extractTitle?_emptyBlock`.
-/
import SitePlan.Page.Title
import SitePlan.Proofs.Text.Split

namespace SitePlan
namespace Page

/-- A line that begins with three hyphens. -/
def IsFence (line : List Char) : Prop := "---".toList <+: line

instance (line : List Char) : Decidable (IsFence line) :=
  inferInstanceAs (Decidable ("---".toList <+: line))

/-- The title that front matter gives. -/
def blockTitle? (block : String) : Option String :=
  (frontMatterTitle? block.toList).map String.ofList

/-- The title that the first heading gives, if it is not blank. -/
def headingTitle? (body : String) : Option String :=
  ((firstHeading? body.toList).filter fun title => title ≠ []).map String.ofList

/-! ### The first fence -/

theorem splitAtFence_fence (body : List Char) :
    splitAtFence ('\n' :: ("---".toList ++ body)) = some ([], body) := rfl

theorem splitAtFence_cons {c : Char} {cs : List Char} (h : ¬ (c = '\n' ∧ IsFence cs)) :
    splitAtFence (c :: cs) = (splitAtFence cs).map fun parts => (c :: parts.1, parts.2) := by
  rw [splitAtFence]
  split
  · next body heq =>
    obtain ⟨rfl, rfl⟩ := List.cons.inj heq
    exact absurd ⟨rfl, body, rfl⟩ h
  · rfl

theorem splitAtFence_append {line : List Char} (h : '\n' ∉ line) (rest : List Char) :
    splitAtFence (line ++ rest) =
      (splitAtFence rest).map fun parts => (line ++ parts.1, parts.2) := by
  induction line with
  | nil => simp
  | cons c line ih =>
    rw [List.mem_cons, not_or] at h
    rw [List.cons_append, splitAtFence_cons fun hfence => h.1 hfence.1.symm, ih h.2,
      Option.map_map]
    rfl

/-- A line is passed over, unless a fence follows. -/
theorem splitAtFence_line {line rest : List Char} (h : '\n' ∉ line) (hrest : ¬ IsFence rest) :
    splitAtFence (line ++ '\n' :: rest) =
      (splitAtFence rest).map fun parts => (line ++ '\n' :: parts.1, parts.2) := by
  rw [splitAtFence_append h, splitAtFence_cons fun hfence => hrest hfence.2, Option.map_map]
  rfl

/-- Whether a text is a fence is told by its first line. -/
theorem isFence_append_newline (line rest : List Char) :
    IsFence (line ++ '\n' :: rest) ↔ IsFence line :=
  Text.prefix_append_cons_iff '\n' (by decide) line rest

theorem isFence_append_nil (line : List Char) : IsFence (line ++ []) ↔ IsFence line := by
  rw [List.append_nil]

/-- Whether lines begin with a fence is told by the first of them, where that goes for one
line with what follows. -/
theorem isFence_lines {rest : List Char} (h : ∀ line, IsFence (line ++ rest) ↔ IsFence line)
    (line : List Char) (lines : List (List Char)) :
    IsFence (['\n'].intercalate (line :: lines) ++ rest) ↔ IsFence line := by
  cases lines with
  | nil =>
    rw [List.intercalate_singleton]
    exact h line
  | cons next more =>
    rw [Text.intercalate_cons '\n' (List.cons_ne_nil next more), List.append_assoc]
    exact isFence_append_newline line _

/-- Lines of which none after the first is a fence are passed over. -/
theorem splitAtFence_lines {rest : List Char} (h : ∀ line, IsFence (line ++ rest) ↔ IsFence line) :
    ∀ {lines : List (List Char)}, lines ≠ [] → (∀ line ∈ lines, '\n' ∉ line) →
    (∀ line ∈ lines.tail, ¬ IsFence line) → splitAtFence (['\n'].intercalate lines ++ rest) =
      (splitAtFence rest).map fun parts => (['\n'].intercalate lines ++ parts.1, parts.2)
  | [line], _, hline, _ => by
    rw [List.intercalate_singleton, splitAtFence_append (hline line List.mem_cons_self)]
  | line :: next :: more, _, hline, hfence => by
    obtain ⟨hfirst, hrest⟩ := List.forall_mem_cons.mp hline
    obtain ⟨hnext, hmore⟩ := List.forall_mem_cons.mp hfence
    have ih := splitAtFence_lines h (List.cons_ne_nil next more) hrest hmore
    have hopen : ¬ IsFence (['\n'].intercalate (next :: more) ++ rest) := by
      rw [isFence_lines h]
      exact hnext
    rw [Text.intercalate_cons '\n' (List.cons_ne_nil next more), List.append_assoc,
      List.cons_append, splitAtFence_line hfirst hopen, ih, Option.map_map]
    simp only [Function.comp_def, List.append_assoc, List.cons_append]

/-- The first fence after a line ends what stands before it. -/
theorem splitAtFence_fenced (body : List Char) {lines : List (List Char)} (hne : lines ≠ [])
    (hline : ∀ line ∈ lines, '\n' ∉ line) (hfence : ∀ line ∈ lines.tail, ¬ IsFence line) :
    splitAtFence (['\n'].intercalate lines ++ '\n' :: ("---".toList ++ body)) =
      some (['\n'].intercalate lines, body) := by
  rw [splitAtFence_lines (fun line => isFence_append_newline line _) hne hline hfence,
    splitAtFence_fence, Option.map_some, List.append_nil]

/-- Without a fence after a line nothing is split off. -/
theorem splitAtFence_unfenced {lines : List (List Char)} (hne : lines ≠ [])
    (hline : ∀ line ∈ lines, '\n' ∉ line) (hfence : ∀ line ∈ lines.tail, ¬ IsFence line) :
    splitAtFence (['\n'].intercalate lines) = none := by
  have hnone := splitAtFence_lines isFence_append_nil hne hline hfence
  rw [List.append_nil] at hnone
  rw [hnone]
  rfl

/-! ### The parts of a page -/

theorem splitFrontMatter_opened (rest : List Char) :
    splitFrontMatter ("---\n".toList ++ rest) =
      ((splitAtFence rest).map fun parts => (some parts.1, parts.2)).getD
        (none, "---\n".toList ++ rest) := by
  have hopened : Text.dropStart? "---\n".toList ("---\n".toList ++ rest) = some rest :=
    Text.dropStart?_eq_some.mpr rfl
  unfold splitFrontMatter
  simp only [hopened, Option.bind_some]
  cases splitAtFence rest <;> rfl

theorem splitFrontMatter_fenced (body : List Char) {lines : List (List Char)} (hne : lines ≠ [])
    (hline : ∀ line ∈ lines, '\n' ∉ line) (hfence : ∀ line ∈ lines.tail, ¬ IsFence line) :
    splitFrontMatter
        ("---\n".toList ++ (['\n'].intercalate lines ++ '\n' :: ("---".toList ++ body))) =
      (some (['\n'].intercalate lines), body) := by
  rw [splitFrontMatter_opened, splitAtFence_fenced body hne hline hfence]
  rfl

/-- A page whose lines after the first two are no fences has no front matter. -/
theorem splitFrontMatter_unfenced {rest : List Char}
    (h : ∀ line ∈ (Text.splitAt '\n' rest).tail, ¬ IsFence line) :
    splitFrontMatter ("---\n".toList ++ rest) = (none, "---\n".toList ++ rest) := by
  have hnone := splitAtFence_unfenced (Text.splitAt_ne_nil '\n' rest)
    (Text.not_mem_of_mem_splitAt '\n' rest) h
  rw [Text.intercalate_splitAt] at hnone
  rw [splitFrontMatter_opened, hnone]
  rfl

/-! ### The title -/

/-- A title in front matter is what trimming leaves, and not nothing. -/
theorem frontMatterTitle?_eq_some {block title : List Char}
    (h : frontMatterTitle? block = some title) :
    ∃ text, title = Text.trimChars text ∧ Text.trimChars text ≠ [] := by
  unfold frontMatterTitle? at h
  simp only [Option.bind_eq_bind, Option.ite_none_left_eq_some, Option.bind_eq_some_iff] at h
  obtain ⟨-, text, -, hne, htitle⟩ := h
  exact ⟨text, (Option.some.inj htitle).symm, hne⟩

/-- The front matter comes first, the first heading of the body second. -/
theorem extractTitle?_of_split {content : String} {block : Option (List Char)} {body : List Char}
    (h : splitFrontMatter content.toList = (block, body)) :
    extractTitle? content = (block.bind fun yaml => blockTitle? (String.ofList yaml)).or
      (headingTitle? (String.ofList body)) := by
  unfold extractTitle? blockTitle? headingTitle?
  rw [h]
  simp only [String.toList_ofList]
  cases hblock : block.bind frontMatterTitle? with
  | some title =>
    obtain ⟨yaml, rfl, htitle⟩ := Option.bind_eq_some_iff.mp hblock
    obtain ⟨text, rfl, hne⟩ := frontMatterTitle?_eq_some htitle
    simp [htitle, hne]
  | none =>
    have hnone : (block.bind fun yaml => (frontMatterTitle? yaml).map String.ofList) = none := by
      cases block with
      | none => rfl
      | some yaml => exact congrArg (Option.map String.ofList) hblock
    rw [hnone]
    cases firstHeading? body with
    | none => rfl
    | some title => by_cases htitle : title = [] <;> simp [htitle, Option.filter]

theorem firstHeading?_line {line : List Char} (h : '\n' ∉ line) (hnone : headingText? line = none)
    (rest : List Char) : firstHeading? (line ++ '\n' :: rest) = firstHeading? rest := by
  unfold firstHeading?
  rw [Text.splitAt_append, Text.splitAt_of_not_mem '\n' h, List.singleton_append,
    List.findSome?_cons, hnone]

theorem headingTitle?_newline (body : String) :
    headingTitle? ("\n" ++ body) = headingTitle? body := by
  unfold headingTitle?
  rw [String.toList_append]
  exact congrArg (fun title => (Option.filter _ title).map _)
    (firstHeading?_line (List.not_mem_nil : '\n' ∉ []) rfl body.toList)

theorem headingTitle?_fence (body : String) :
    headingTitle? ("---\n" ++ body) = headingTitle? body := by
  unfold headingTitle?
  rw [String.toList_append]
  exact congrArg (fun title => (Option.filter _ title).map _)
    (firstHeading?_line (by decide : '\n' ∉ "---".toList) rfl body.toList)

/-- Lines after the opening fence, of which none but the first is a fence, are front matter
where a fence follows, and the text after this fence is searched for a heading. -/
theorem extractTitle?_fenced {lines : List String} (hne : lines ≠ [])
    (hline : ∀ line ∈ lines, '\n' ∉ line.toList)
    (hfence : ∀ line ∈ lines.tail, ¬ IsFence line.toList) (after : String) :
    extractTitle? ("---\n" ++ "\n".intercalate lines ++ "\n---" ++ after) =
      (blockTitle? ("\n".intercalate lines)).or (headingTitle? after) := by
  have hchars : ['\n'].intercalate (lines.map String.toList) = ("\n".intercalate lines).toList := by
    rw [String.toList_intercalate]
    rfl
  have hsplit := splitFrontMatter_fenced after.toList (mt List.map_eq_nil_iff.mp hne)
    (List.forall_mem_map.mpr hline) (by rw [← List.map_tail]; exact List.forall_mem_map.mpr hfence)
  have hcontent : ("---\n" ++ "\n".intercalate lines ++ "\n---" ++ after).toList =
      "---\n".toList ++ (['\n'].intercalate (lines.map String.toList) ++
        '\n' :: ("---".toList ++ after.toList)) := by
    rw [hchars]
    simp only [String.toList_append, List.append_assoc]
    rfl
  rw [← hcontent, hchars] at hsplit
  rw [extractTitle?_of_split hsplit, Option.bind_some, String.ofList_toList, String.ofList_toList]

theorem extractTitle?_unfenced {rest : String}
    (h : ∀ line ∈ (Text.splitAt '\n' rest.toList).tail, ¬ IsFence line) :
    extractTitle? ("---\n" ++ rest) = headingTitle? ("---\n" ++ rest) := by
  have hsplit := splitFrontMatter_unfenced h
  rw [← String.toList_append] at hsplit
  rw [extractTitle?_of_split hsplit, String.ofList_toList, Option.bind_none, Option.none_or]

/-- **Front matter ends at its own fence and comes first.** Its lines, of which none is a
fence, are read for a title, and without one the first heading after its fence gives the
title, whatever else stands there. Where no later line is a fence all of the page is
searched for a heading. -/
theorem extractTitle?_frontMatter :
    (∀ (lines : List String) (body : String), lines ≠ [] →
      (∀ line ∈ lines, '\n' ∉ line.toList ∧ ¬ IsFence line.toList) →
      extractTitle? ("---\n" ++ "\n".intercalate lines ++ "\n---\n" ++ body) =
        (blockTitle? ("\n".intercalate lines)).or (headingTitle? body)) ∧
    ∀ rest : String, (∀ line ∈ Text.splitAt '\n' rest.toList, ¬ IsFence line) →
      extractTitle? ("---\n" ++ rest) = headingTitle? ("---\n" ++ rest) := by
  constructor
  · intro lines body hne hlines
    have hfenced := extractTitle?_fenced hne (fun line hline => (hlines line hline).1)
      (fun line hline => (hlines line (List.mem_of_mem_tail hline)).2) ("\n" ++ body)
    have hclosing : "\n---" ++ ("\n" ++ body) = "\n---\n" ++ body := by
      rw [← String.append_assoc]
      rfl
    rw [headingTitle?_newline, String.append_assoc, hclosing, ← String.append_assoc] at hfenced
    exact hfenced
  · exact fun rest hrest => extractTitle?_unfenced fun line hline =>
      hrest line (List.mem_of_mem_tail hline)

/-- A page with front matter, a heading and more fences, and one whose front matter is
never closed. -/
theorem extractTitle?_frontMatter_draftPage :
    (∀ line ∈ ["lang: en", "# Draft"], '\n' ∉ line.toList ∧ ¬ IsFence line.toList) ∧
      blockTitle? ("\n".intercalate ["lang: en", "# Draft"]) = none ∧
      extractTitle? "---\nlang: en\n# Draft\n---\n# Setup\n---\ntitle: Other\n---\n" =
        some "Setup" ∧
      (∀ line ∈ Text.splitAt '\n' "title: Guide\n# Start".toList, ¬ IsFence line) ∧
      extractTitle? "---\ntitle: Guide\n# Start" = some "Start" := by
  have hlines : ∀ line ∈ ["lang: en", "# Draft"], '\n' ∉ line.toList ∧ ¬ IsFence line.toList := by
    decide
  have hblock : blockTitle? ("\n".intercalate ["lang: en", "# Draft"]) = none := by decide +kernel
  have hrest : ∀ line ∈ Text.splitAt '\n' "title: Guide\n# Start".toList, ¬ IsFence line := by
    decide
  have hclosed := extractTitle?_frontMatter.1 ["lang: en", "# Draft"]
    "# Setup\n---\ntitle: Other\n---\n" (by decide) hlines
  rw [hblock, Option.none_or] at hclosed
  exact ⟨hlines, hblock, hclosed.trans (by decide), hrest,
    (extractTitle?_frontMatter.2 "title: Guide\n# Start" hrest).trans (by decide)⟩

theorem exists_firstFence {body : List Char} (h : ∃ line ∈ Text.splitAt '\n' body, IsFence line)
    (opening : List Char) :
    ∃ hidden after, (∀ line ∈ hidden, '\n' ∉ line ∧ ¬ IsFence line) ∧
      opening ++ '\n' :: body =
        ['\n'].intercalate (opening :: hidden) ++ '\n' :: ("---".toList ++ after) := by
  obtain ⟨fence, hfind⟩ : ∃ fence, ((Text.splitAt '\n' body).find? fun line => IsFence line) =
      some fence := by
    rw [← Option.isSome_iff_exists, List.find?_isSome]
    simpa using h
  obtain ⟨hfence, hidden, later, hbody, hhidden⟩ := List.find?_eq_some_iff_append.mp hfind
  obtain ⟨after, hafter⟩ := (isFence_lines isFence_append_nil fence later).mpr
    (of_decide_eq_true hfence)
  rw [List.append_nil] at hafter
  refine ⟨hidden, after, fun line hline => ⟨?_, by simpa using hhidden line hline⟩, ?_⟩
  · exact Text.not_mem_of_mem_splitAt '\n' body line (hbody ▸ List.mem_append_left _ hline)
  · have hwhole : ['\n'].intercalate (opening :: Text.splitAt '\n' body) =
        opening ++ '\n' :: body := by
      rw [Text.intercalate_cons '\n' (Text.splitAt_ne_nil '\n' body), Text.intercalate_splitAt]
    rw [← hwhole, hbody, ← List.cons_append,
      Text.intercalate_append '\n' (List.cons_ne_nil _ _) (List.cons_ne_nil _ _), ← hafter]

/-- **What an empty block hides.** Nothing, where no line of the body is a fence. Otherwise
the second fence of the page does not end the block: it is the first line of a block
that goes on to the first fence of the body, and the heading that gives the title is
searched for after that one. -/
theorem extractTitle?_emptyBlock (body : String) :
    ((∀ line ∈ Text.splitAt '\n' body.toList, ¬ IsFence line) ∧
      extractTitle? ("---\n---\n" ++ body) = headingTitle? body) ∨
    ∃ (hidden : List String) (after : String),
      (∀ line ∈ hidden, '\n' ∉ line.toList ∧ ¬ IsFence line.toList) ∧
      "---\n" ++ body = "\n".intercalate ("---" :: hidden) ++ "\n---" ++ after ∧
      extractTitle? ("---\n---\n" ++ body) =
        (blockTitle? ("\n".intercalate ("---" :: hidden))).or (headingTitle? after) := by
  have hcontent : "---\n---\n" ++ body = "---\n" ++ ("---\n" ++ body) := by
    rw [← String.append_assoc]
    rfl
  rw [hcontent]
  -- the opening line is gone, so the second fence of the page is the line before the next
  by_cases hfence : ∃ line ∈ Text.splitAt '\n' body.toList, IsFence line
  · obtain ⟨hidden, after, hhidden, heq⟩ := exists_firstFence hfence "---".toList
    have hlines : ∀ line ∈ hidden.map String.ofList,
        '\n' ∉ line.toList ∧ ¬ IsFence line.toList := by
      simpa only [List.forall_mem_map, String.toList_ofList] using hhidden
    have hparts : "---\n" ++ body =
        "\n".intercalate ("---" :: hidden.map String.ofList) ++ "\n---" ++ String.ofList after := by
      have hchars : (hidden.map String.ofList).map String.toList = hidden := by simp
      have hrest : (String.ofList after).toList = after := String.toList_ofList
      rw [← String.toList_inj, String.toList_append, String.toList_append, String.toList_append,
        String.toList_intercalate, List.map_cons, hchars, hrest, List.append_assoc]
      exact heq
    refine .inr ⟨hidden.map String.ofList, String.ofList after, hlines, hparts, ?_⟩
    rw [hparts, ← String.append_assoc, ← String.append_assoc]
    exact extractTitle?_fenced (List.cons_ne_nil _ _)
      (List.forall_mem_cons.mpr ⟨by decide, fun line hline => (hlines line hline).1⟩)
      (fun line hline => (hlines line hline).2) _
  · have hnone : ∀ line ∈ Text.splitAt '\n' body.toList, ¬ IsFence line := fun line hline hline' =>
      hfence ⟨line, hline, hline'⟩
    have hlines : Text.splitAt '\n' ("---\n" ++ body).toList =
        "---".toList :: Text.splitAt '\n' body.toList := by
      rw [String.toList_append]
      exact Text.splitAt_append '\n' "---".toList body.toList
    refine .inl ⟨hnone, ?_⟩
    rw [extractTitle?_unfenced (hlines ▸ hnone), headingTitle?_fence, headingTitle?_fence]

/-- An empty block before a body with a fence: the first heading of the body is passed
over, and its first lines are read as front matter. -/
theorem extractTitle?_hidden_by_emptyBlock :
    headingTitle? "# A\n---\n# B\n" = some "A" ∧
      extractTitle? ("---\n---\n" ++ "# A\n---\n# B\n") = some "B" ∧
      headingTitle? "title: C\n---\n# D\n" = some "D" ∧
      extractTitle? ("---\n---\n" ++ "title: C\n---\n# D\n") = some "C" := by
  decide +kernel

end Page
end SitePlan
