/-
# Scalars

The three ways to write a scalar: plain, between quotes, and as an indented
block. Each reader starts at the first character of the scalar and gives its
text and the position after it, or `none` if it is not well formed.

`margin` is the least column at which content of the enclosing block may
stand.

Key definitions: `Yaml.Scalar.takePlain`, `Yaml.Scalar.takeSingle`,
`Yaml.Scalar.takeDouble`, `Yaml.Scalar.takeBlock`.
-/
import SitePlan.Yaml.Token.Gap

namespace SitePlan
namespace Yaml
namespace Scalar

/-! ### Plain scalars -/

/-- The characters of a plain scalar up to the next blank or the end of the
scalar. In a flow collection a colon before a mark of the collection is an
error. -/
def plainRun (flow : Bool) : List Char → Option (List Char)
  | [] => some []
  | c :: cs =>
    if isGap c || isBreak c then some []
    else if flow && c == ':' && cs.head?.any (fun d => isFlowMark d || d == '?') then none
    else if (c == ':' && gapOrEnd cs) || (flow && isFlowMark c) then some []
    else (plainRun flow cs).map (c :: ·)

/-- A plain scalar from one of its lines on, with the white space before it;
also tells whether the reading stopped after a line end. -/
def plainFrom (flow : Bool) (margin : Nat) :
    Nat → Gap → Cursor → Option (List Char × Bool × Cursor)
  | 0, gap, c => some ([], gap.isLines, c)
  | fuel + 1, gap, c =>
    if c.atDocumentMark || c.rest.head? == some '#' then some ([], gap.isLines, c)
    else do
      let run ← plainRun flow c.rest
      if run.isEmpty then some ([], gap.isLines, c)
      else
        let part := gap.text ++ run
        let c := c.advance run.length
        if !gapOrEnd c.rest || c.rest.isEmpty then some (part, false, c)
        else do
          let (gap, c) ← Gap.take margin (.blanks []) c
          if !flow && c.column < margin then some (part, gap.isLines, c)
          else do
            let (more, stopped, c) ← plainFrom flow margin fuel gap c
            some (part ++ more, stopped, c)

/-- A plain scalar. -/
def takePlain (flow : Bool) (margin : Nat) (c : Cursor) : Option (List Char × Bool × Cursor) :=
  plainFrom flow margin c.fuel (.blanks []) c

/-! ### Scalars between quotes -/

/-- A character by its code in hexadecimal digits. -/
def charOfHex? (digits : List Char) : Option Char := do
  let values ← digits.mapM hexValue?
  let n := values.foldl (fun n d => 16 * n + d) 0
  if n < 0xd800 ∨ (0xdfff < n ∧ n ≤ 0x10ffff) then some (Char.ofNat n) else none

/-- The character for a letter after a backslash. -/
def escapeChar? (c : Char) : Option Char :=
  match c with
  | '0' => some '\x00'
  | 'a' => some '\x07'
  | 'b' => some '\x08'
  | 't' => some '\t'
  | '\t' => some '\t'
  | 'n' => some '\n'
  | 'v' => some '\x0b'
  | 'f' => some '\x0c'
  | 'r' => some '\r'
  | 'e' => some '\x1b'
  | ' ' => some ' '
  | '"' => some '"'
  | '/' => some '/'
  | '\\' => some '\\'
  | 'N' => some '\u0085'
  | '_' => some '\u00a0'
  | 'L' => some '\u2028'
  | 'P' => some '\u2029'
  | _ => none

/-- The number of hexadecimal digits after a backslash and a letter. -/
def escapeWidth? (c : Char) : Option Nat :=
  match c with
  | 'x' => some 2
  | 'u' => some 4
  | 'U' => some 8
  | _ => none

/-- The characters between single quotes up to the next blank or quote, and the
number of characters read. -/
def singleRun : List Char → List Char × Nat
  | '\'' :: '\'' :: cs =>
    let (run, n) := singleRun cs
    ('\'' :: run, n + 2)
  | c :: cs =>
    if c == '\'' || isGap c || isBreak c then ([], 0)
    else
      let (run, n) := singleRun cs
      (c :: run, n + 1)
  | [] => ([], 0)

/-- The characters between double quotes up to the next blank, quote or escaped
line end; tells whether it was an escaped line end. -/
def doubleRun : Nat → Cursor → Option (List Char × Bool × Cursor)
  | 0, _ => none
  | fuel + 1, c =>
    match c.rest with
    | '\\' :: e :: rest =>
      if isBreak e then some ([], true, (c.advance 1).skipBreak)
      else do
        let (ch, n) ← match escapeChar? e, escapeWidth? e with
          | some ch, _ => some (ch, 2)
          | none, some width =>
            if rest.length < width then none
            else (charOfHex? (rest.take width)).map fun ch => (ch, width + 2)
          | none, none => none
        let (run, joined, c) ← doubleRun fuel (c.advance n)
        some (ch :: run, joined, c)
    | ['\\'] => none
    | ch :: _ =>
      if ch == '"' || isGap ch || isBreak ch then some ([], false, c)
      else do
        let (run, joined, c) ← doubleRun fuel (c.advance 1)
        some (ch :: run, joined, c)
    | [] => some ([], false, c)

/-- A scalar after its opening quote. -/
def quotedFrom (single : Bool) : Nat → Cursor → Option (List Char × Cursor)
  | 0, _ => none
  | fuel + 1, c =>
    if c.atDocumentMark || c.rest.isEmpty then none
    else do
      let (run, joined, c) ←
        if single then
          let (run, n) := singleRun c.rest
          some (run, false, c.advance n)
        else doubleRun c.fuel c
      if c.rest.head? == some (if single then '\'' else '"') then some (run, c.advance 1)
      else do
        let (gap, c) ← Gap.take 0 (if joined then .lines [] [] else .blanks []) c
        let (more, c) ← quotedFrom single fuel c
        some (run ++ gap.text ++ more, c)

/-- A scalar between single quotes. -/
def takeSingle (c : Cursor) : Option (List Char × Cursor) :=
  quotedFrom true c.fuel (c.advance 1)

/-- A scalar between double quotes. -/
def takeDouble (c : Cursor) : Option (List Char × Cursor) :=
  quotedFrom false c.fuel (c.advance 1)

/-! ### Block scalars -/

/-- What happens to the line ends after the last line of a block scalar. -/
inductive Chomp
  | strip
  | clip
  | keep
  deriving DecidableEq, Repr

/-- The chomping mark at the cursor, if any. -/
def takeChomp (c : Cursor) : Option (Chomp × Cursor) :=
  match c.rest with
  | '+' :: _ => some (.keep, c.advance 1)
  | '-' :: _ => some (.strip, c.advance 1)
  | _ => none

/-- The indentation mark at the cursor; zero when there is none. A digit zero is
an error. -/
def takeIndent (c : Cursor) : Option (Nat × Cursor) :=
  match c.rest with
  | d :: _ =>
    if d == '0' then none
    else if d.isDigit then some (d.toNat - '0'.toNat, c.advance 1)
    else some (0, c)
  | [] => some (0, c)

/-- The marks after the opening mark, in either order. -/
def takeHeader (c : Cursor) : Option (Chomp × Nat × Cursor) :=
  match takeChomp c with
  | some (chomp, c) => (takeIndent c).map fun (n, c) => (chomp, n, c)
  | none => do
    let (n, c) ← takeIndent c
    if n = 0 then some (.clip, 0, c)
    else match takeChomp c with
      | some (chomp, c) => some (chomp, n, c)
      | none => some (.clip, n, c)

/-- Skips indentation and empty lines: gives their line ends, the largest column
reached and the position. With `indent` zero, still unknown, any indentation is
skipped. A tab in the indentation is an error. -/
def emptyLines (indent : Nat) : Nat → Nat → Cursor → Option (List Char × Nat × Cursor)
  | 0, widest, c => some ([], widest, c)
  | fuel + 1, widest, c =>
    let spaces := (c.rest.takeWhile (· == ' ')).length
    let c := c.advance (if indent = 0 then spaces else min spaces (indent - c.column))
    let widest := max widest c.column
    if (indent = 0 || c.column < indent) && c.rest.head? == some '\t' then none
    else if breakOrEnd c.rest && !c.rest.isEmpty then do
      let (b, c) := c.takeBreak
      let (more, widest, c) ← emptyLines indent fuel widest c
      some (b ++ more, widest, c)
    else some ([], widest, c)

/-- The lines of a block scalar from one on. `ended` is the line end before it,
`skipped` the line ends of empty lines after that, `led` whether the line before
began with a blank. Gives the text and the line ends left after the last line. -/
def blockLines (isLiteral : Bool) (indent : Nat) :
    Nat → List Char → List Char → Bool → Cursor →
      Option (List Char × List Char × List Char × Cursor)
  | 0, ended, skipped, _, c => some ([], ended, skipped, c)
  | fuel + 1, ended, skipped, led, c =>
    if c.column ≠ indent ∨ c.rest.isEmpty then some ([], ended, skipped, c)
    else do
      let leads := c.rest.head?.any isGap
      let between :=
        if !isLiteral && ended == ['\n'] && !led && !leads then
          (if skipped.isEmpty then [' '] else skipped)
        else ended ++ skipped
      let (line, c) := c.takeWhile fun ch => !isBreak ch
      let (ended, c) := c.takeBreak
      let (skipped, _, c) ← emptyLines indent c.fuel 0 c
      let (more, ended, skipped, c) ← blockLines isLiteral indent fuel ended skipped leads c
      some (between ++ line ++ more, ended, skipped, c)

/-- A block scalar from its opening mark on. -/
def takeBlock (isLiteral : Bool) (margin : Nat) (c : Cursor) : Option (List Char × Cursor) := do
  let (chomp, increment, c) ← takeHeader (c.advance 1)
  let c := (c.skipWhile isGap).skipComment
  if !breakOrEnd c.rest then none
  else do
    let c := c.skipBreak
    let given := if increment = 0 then 0 else (margin - 1) + increment
    let (skipped, widest, c) ← emptyLines given c.fuel 0 c
    let indent := if given = 0 then max widest (max margin 1) else given
    let (text, ended, skipped, c) ← blockLines isLiteral indent c.fuel [] skipped false c
    let tail := match chomp with
      | .strip => []
      | .clip => ended
      | .keep => ended ++ skipped
    some (text ++ tail, c)

end Scalar
end Yaml
end SitePlan
