/-
# Titles of pages that are not blank

A title that the text of a page gives is never blank. One that is made of a name is blank
exactly if nothing but separators stands in the name: blanks, hyphens and underscores. A
page that stands for its directory is called by the name of the directory, and the index
page of the site, which has no such name, by a title of its own.

Key definitions: `Page.isSeparator`, `Page.name?`.
Key theorems: `Page.extractTitle?_notBlank`, `Page.isBlankText_titleFromName`,
`Page.isBlankText_titleFromPath_iff`.
-/
import SitePlan.Proofs.Page.Address
import SitePlan.Proofs.Page.Headings

namespace SitePlan
namespace Page

/-! ### Titles in the text -/

theorem blockTitle?_notBlank {block title : String} (h : blockTitle? block = some title) :
    Text.isBlankText title = false := by
  obtain ⟨chars, hchars, rfl⟩ := Option.map_eq_some_iff.mp h
  obtain ⟨text, rfl, hne⟩ := frontMatterTitle?_eq_some hchars
  rw [Text.isBlankText_trimChars, Bool.eq_false_iff]
  exact mt (Text.trimChars_eq_nil text).mpr hne

theorem headingTitle?_notBlank {body title : String} (h : headingTitle? body = some title) :
    Text.isBlankText title = false := by
  rw [headingTitle?_eq, Option.bind_eq_some_iff] at h
  obtain ⟨text, -, htext⟩ := h
  rw [Option.ite_none_left_eq_some] at htext
  obtain ⟨hblank, htitle⟩ := htext
  rw [← Option.some.inj htitle, Text.isBlankText_trimChars, Bool.eq_false_iff]
  exact hblank

theorem extractTitle?_notBlank {content title : String} (h : extractTitle? content = some title) :
    Text.isBlankText title = false := by
  rw [extractTitle?_of_split (Prod.eta (splitFrontMatter content.toList)).symm,
    Option.or_eq_some_iff] at h
  rcases h with hblock | ⟨-, hheading⟩
  · obtain ⟨yaml, -, hyaml⟩ := Option.bind_eq_some_iff.mp hblock
    exact blockTitle?_notBlank hyaml
  · exact headingTitle?_notBlank hheading

/-! ### Titles made of names -/

/-- A blank, a hyphen or an underscore. -/
def isSeparator (c : Char) : Bool := Text.isBlank c || c == '-' || c == '_'

/-- The name that a page is called by: that of its directory if it stands for that one,
else its stem. The index page of the site has none. -/
def name? (path : String) : Option (List Char) :=
  if isIndex path = true then
    let parent := (splitDirectory (directory path)).2
    if parent = [] then none else some parent
  else some (fileStem path)

/-- A name makes a blank title exactly if there are only separators in it. -/
theorem isBlankText_titleFromName (name : List Char) :
    Text.isBlankText (titleFromName name) = name.all isSeparator := by
  have hspaced : ∀ c : Char,
      Text.isBlank (if c = '-' ∨ c = '_' then ' ' else c) = isSeparator c := by
    intro c
    unfold isSeparator
    split_ifs with hc
    · rcases hc with rfl | rfl <;> rfl
    · rw [not_or] at hc
      rw [beq_false_of_ne hc.1, beq_false_of_ne hc.2, Bool.or_false, Bool.or_false]
  have htitle : titleFromName name = String.ofList (Text.capitalize (Text.trimChars
      (name.map fun c => if c = '-' ∨ c = '_' then ' ' else c))) := rfl
  rw [htitle, Text.isBlankText_capitalize_trimChars, List.all_map]
  exact congrArg name.all (funext hspaced)

theorem titleFromPath_of_index {path : String} (h : isIndex path = true) :
    titleFromPath path = if (splitDirectory (directory path)).2 = [] then "Home"
      else titleFromName (splitDirectory (directory path)).2 := by
  unfold titleFromPath directory
  obtain ⟨dir, name⟩ := splitDirectory path.toList
  simp only [h, ↓reduceIte]
  unfold splitDirectory
  cases Text.splitLast? '/' dir <;> rfl

theorem titleFromPath_of_not_index {path : String} (h : isIndex path = false) :
    titleFromPath path = titleFromName (fileStem path) := by
  unfold titleFromPath fileStem
  obtain ⟨dir, name⟩ := splitDirectory path.toList
  simp only [h, Bool.false_eq_true, ↓reduceIte]

/-- The title that a path makes is that of the name of its page, or `Home` without one. -/
theorem titleFromPath_eq (path : String) :
    titleFromPath path = ((name? path).map titleFromName).getD "Home" := by
  unfold name?
  cases hindex : isIndex path with
  | false => exact titleFromPath_of_not_index hindex
  | true =>
    rw [titleFromPath_of_index hindex, if_pos rfl]
    split_ifs with hparent <;> simp [hparent]

/-- The title that a path makes is blank exactly if there are only separators in the name
that its page is called by. -/
theorem isBlankText_titleFromPath_iff {path : String} :
    Text.isBlankText (titleFromPath path) = true ↔
      ∃ name, name? path = some name ∧ name.all isSeparator = true := by
  rw [titleFromPath_eq]
  cases name? path with
  | none => simp [show Text.isBlankText "Home" = false by decide]
  | some name => simp [isBlankText_titleFromName]

end Page
end SitePlan
