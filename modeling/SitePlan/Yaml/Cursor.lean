/-
# A position in a text

A cursor is what is left of a text together with the number of octets before
it in UTF-8, its line and its column. A column counts characters. Moving over a
line end starts a new line; a carriage return with a line feed is one line end.

Key definitions: `Yaml.Cursor`, `Yaml.Cursor.advance`, `Yaml.Cursor.takeWhile`,
`Yaml.Cursor.takeBreak`.
-/
import SitePlan.Yaml.Character

namespace SitePlan
namespace Yaml

/-- A position in a text: what is left, and where that begins. -/
structure Cursor where
  rest : List Char
  offset : Nat
  line : Nat
  column : Nat
  deriving DecidableEq, Repr

/-- The number of octets that encode the characters. -/
def octetCount (cs : List Char) : Nat := cs.foldr (fun c n => c.utf8Size + n) 0

namespace Cursor

/-- The start of a text. -/
def start (text : List Char) : Cursor := ⟨text, 0, 0, 0⟩

/-- An upper bound on the steps that consume a character each, and one more. -/
def fuel (c : Cursor) : Nat := c.rest.length + 1

/-- Whether at least `n` characters are left. -/
def has (n : Nat) (c : Cursor) : Bool := (c.rest.take n).length == n

/-- Past `n` characters of the same line. -/
def advance (n : Nat) (c : Cursor) : Cursor :=
  ⟨c.rest.drop n, c.offset + octetCount (c.rest.take n), c.line, c.column + n⟩

/-- The characters up to the first that fails `p`, none of them a line end, and
the position after them. -/
def takeWhile (p : Char → Bool) (c : Cursor) : List Char × Cursor :=
  let taken := c.rest.takeWhile p
  (taken, c.advance taken.length)

/-- Past the characters that satisfy `p`, none of them a line end. -/
def skipWhile (p : Char → Bool) (c : Cursor) : Cursor := (c.takeWhile p).2

/-- A line end as text holds it, nothing if there is none, and the position
after it. All but the two Unicode separators become a line feed. -/
def takeBreak (c : Cursor) : List Char × Cursor :=
  match c.rest with
  | '\r' :: '\n' :: rest => (['\n'], ⟨rest, c.offset + 2, c.line + 1, 0⟩)
  | b :: rest =>
    if isBreak b then
      ([if b == '\u2028' || b == '\u2029' then b else '\n'], ⟨rest, c.offset + b.utf8Size, c.line + 1, 0⟩)
    else ([], c)
  | [] => ([], c)

/-- Past a line end, if there is one. -/
def skipBreak (c : Cursor) : Cursor := c.takeBreak.2

/-- Past a comment, if one begins here. -/
def skipComment (c : Cursor) : Cursor :=
  match c.rest with
  | '#' :: _ => c.skipWhile fun ch => !isBreak ch
  | _ => c

/-- Whether a document mark (three hyphens or three points, then a blank or the
end) stands here, at the start of a line. -/
def atDocumentMark (c : Cursor) : Bool :=
  c.column == 0 && match c.rest with
    | '-' :: '-' :: '-' :: rest => gapOrEnd rest
    | '.' :: '.' :: '.' :: rest => gapOrEnd rest
    | _ => false

end Cursor
end Yaml
end SitePlan
