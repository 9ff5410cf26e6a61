/-
# The title of a page

The title in the front matter comes first, the first heading of the body
second. A heading without text is no title.

A level-one heading is a line of `#`, at least one blank (space or tab) and a
text. Blanks and closing `#` signs at the end of the line do not belong to the
text. What the text is when nothing but blanks follow depends on their number:
with two or more the heading is blank, with one there is none.

Key definitions: `Page.headingText?`, `Page.firstHeading?`,
`Page.extractTitle?`.
-/
import SitePlan.Page.FrontMatter

namespace SitePlan
namespace Page

/-- Space and tab. -/
def isLineBlank (c : Char) : Bool := c == ' ' || c == '\t'

/-- Whether a text is blanks, `#` signs and blanks again, each possibly none. -/
def isClosing (cs : List Char) : Bool :=
  ((cs.dropWhile isLineBlank).dropWhile (· == '#')).all isLineBlank

/-- The shortest text, of at least one character, after which only a closing
follows. -/
def beforeClosing : List Char → List Char
  | [] => []
  | c :: cs => if isClosing cs then [c] else c :: beforeClosing cs

/-- The text of a heading line, if the line is one. -/
def headingText? : List Char → Option (List Char)
  | '#' :: cs =>
    let rest := cs.dropWhile isLineBlank
    let blanks := cs.takeWhile isLineBlank
    if blanks = [] then none
    else if rest ≠ [] then some (beforeClosing rest)
    else if 2 ≤ blanks.length then some (blanks.drop (blanks.length - 1))
    else none
  | _ => none

/-- The text of the first heading, without blanks at its ends. -/
def firstHeading? (body : List Char) : Option (List Char) :=
  ((Text.splitAt '\n' body).findSome? headingText?).map Text.trimChars

/-- The title that the text of a page gives. -/
def extractTitle? (content : String) : Option String :=
  let (frontMatter, body) := splitFrontMatter content.toList
  match (frontMatter.bind frontMatterTitle?).orElse fun _ => firstHeading? body with
  | some title => if title = [] then none else some (String.ofList title)
  | none => none

end Page
end SitePlan
