/-
# White space inside a scalar

Blanks within a line are kept; a line end is folded. Folding turns a single
line feed into a space and drops the first of several; a Unicode line or
paragraph separator is kept as it is.

Key definitions: `Yaml.Gap`, `Yaml.Gap.text`, `Yaml.Gap.take`.
-/
import SitePlan.Yaml.Cursor

namespace SitePlan
namespace Yaml

/-- White space between two parts of a scalar: blanks of one line, or line ends
with the first apart. The first is missing after an escaped line end. -/
inductive Gap
  | blanks (text : List Char)
  | lines (first : List Char) (more : List Char)
  deriving DecidableEq, Repr

namespace Gap

/-- What the white space contributes to the scalar. -/
def text : Gap → List Char
  | blanks cs => cs
  | lines first more =>
    if first = ['\n'] then (if more = [] then [' '] else more) else first ++ more

/-- Whether the white space holds a line end. -/
def isLines : Gap → Bool
  | blanks _ => false
  | lines _ _ => true

/-- Reads blanks and line ends onto `gap`. On a later line a tab left of column
`margin` is an error. -/
def takeFrom (margin : Nat) : Nat → Gap → Cursor → Option (Gap × Cursor)
  | 0, gap, c => some (gap, c)
  | fuel + 1, gap, c =>
    match c.rest with
    | [] => some (gap, c)
    | ch :: _ =>
      if isGap ch then
        match gap with
        | blanks cs => takeFrom margin fuel (blanks (cs ++ [ch])) (c.advance 1)
        | lines _ _ =>
          if ch == '\t' && c.column < margin then none
          else takeFrom margin fuel gap (c.advance 1)
      else if isBreak ch then
        let (b, c) := c.takeBreak
        match gap with
        | blanks _ => takeFrom margin fuel (lines b []) c
        | lines first more => takeFrom margin fuel (lines first (more ++ b)) c
      else some (gap, c)

/-- Reads the white space at the cursor. -/
def take (margin : Nat) (gap : Gap) (c : Cursor) : Option (Gap × Cursor) :=
  takeFrom margin c.fuel gap c

end Gap
end Yaml
end SitePlan
