/-
# Anchors, tags and directives

Readers for the tokens that begin with `&`, `*`, `!` and, at the start of a
line, `%`. A tag may hold escaped octets (`%20`), which are decoded as UTF-8;
what follows an escaped NUL is dropped.

Key definitions: `Yaml.takeName`, `Yaml.takeTag`, `Yaml.takeDirective`.
-/
import SitePlan.Yaml.Cursor
import SitePlan.Yaml.Token.Basic

namespace SitePlan
namespace Yaml

/-- The name of an anchor or of a reference to one, after its mark. -/
def takeName (c : Cursor) : Option (List Char × Cursor) :=
  let (name, c) := (c.advance 1).takeWhile isWord
  let ends := gapOrEnd c.rest || c.rest.head?.any fun d => "?:,]\x7d%@\x60".toList.contains d
  if name.isEmpty || !ends then none else some (name, c)

/-! ### Escaped octets -/

/-- An octet written as a percent sign and two digits. -/
def takeOctet : List Char → Option (Nat × List Char)
  | '%' :: h :: l :: rest =>
    match hexValue? h, hexValue? l with
    | some h, some l => some (16 * h + l, rest)
    | _, _ => none
  | _ => none

/-- The further octets of a character: the value so far, extended. -/
def takeOctets : Nat → Nat → List Char → Option (Nat × List Char)
  | 0, value, cs => some (value, cs)
  | n + 1, value, cs => do
    let (octet, cs) ← takeOctet cs
    if octet / 64 = 2 then takeOctets n (64 * value + octet % 64) cs else none

/-- The character with the given code, if its encoding has the given number of
octets and no fewer would do. -/
def charOfOctets? (octets code : Nat) : Option Char :=
  let least := match octets with
    | 1 => 0
    | 2 => 0x80
    | 3 => 0x800
    | _ => 0x10000
  if least ≤ code ∧ (code < 0xd800 ∨ (0xdfff < code ∧ code ≤ 0x10ffff)) then
    some (Char.ofNat code)
  else none

/-- A character written as escaped octets; `some none` when the octets form no
character. -/
def takeEscaped (cs : List Char) : Option (Option Char × List Char) := do
  let (first, cs) ← takeOctet cs
  let (more, value) ←
    if first < 0x80 then some (0, first)
    else if first / 32 = 6 then some (1, first % 32)
    else if first / 16 = 14 then some (2, first % 16)
    else if first / 8 = 30 then some (3, first % 8)
    else none
  let (code, cs) ← takeOctets more value cs
  some (charOfOctets? (more + 1) code, cs)

/-- The characters of a tag, decoded, and the number of characters read. -/
def tagRun (flowMarks : Bool) : Nat → List Char → Option (TagText × Nat)
  | 0, _ => some ([], 0)
  | _ + 1, [] => some ([], 0)
  | fuel + 1, c :: cs =>
    if c == '%' then do
      let (ch, rest) ← takeEscaped (c :: cs)
      let (run, n) ← tagRun flowMarks fuel rest
      some (ch :: run, n + (cs.length + 1 - rest.length))
    else if isTagChar flowMarks c then do
      let (run, n) ← tagRun flowMarks fuel cs
      some (some c :: run, n + 1)
    else some ([], 0)

/-- The characters of a tag up to an escaped NUL; tells whether there are any
at all. -/
def takeTagText (flowMarks : Bool) (c : Cursor) : Option (TagText × Bool × Cursor) := do
  let (run, n) ← tagRun flowMarks c.fuel c.rest
  some (run.takeWhile (· != some '\x00'), !run.isEmpty, c.advance n)

/-! ### Tags -/

/-- Whether `cs` is a named handle such as `!e!` or `!!`. -/
def isNamedHandle (cs : List Char) : Bool :=
  2 ≤ cs.length && cs.getLast? == some '!'

/-- A handle: an exclamation mark, a name, and another mark if it stands there. -/
def takeHandle (c : Cursor) : Option (List Char × Cursor) :=
  match c.rest with
  | '!' :: _ =>
    let (name, c) := (c.advance 1).takeWhile isWord
    match c.rest with
    | '!' :: _ => some ('!' :: name ++ ['!'], c.advance 1)
    | _ => some ('!' :: name, c)
  | _ => none

/-- A tag as handle and suffix; the handle of a tag in angle brackets is
empty. -/
def takeTagParts (c : Cursor) : Option (List Char × TagText × Cursor) :=
  match c.rest with
  | '!' :: '<' :: _ => do
    let (text, nonempty, c) ← takeTagText true (c.advance 2)
    if nonempty && c.rest.head? == some '>' then some ([], text, c.advance 1) else none
  | _ => do
    let (handle, c) ← takeHandle c
    let (text, nonempty, c) ← takeTagText false c
    if isNamedHandle handle then
      if nonempty then some (handle, text, c) else none
    else
      let suffix := handle.tail.map some ++ text
      if suffix.isEmpty then some ([], [some '!'], c) else some (['!'], suffix, c)

/-- A tag. -/
def takeTag (flow : Bool) (c : Cursor) : Option (Token × Cursor) := do
  let (handle, suffix, c) ← takeTagParts c
  if gapOrEnd c.rest || (flow && c.rest.head? == some ',') then some (.tag handle suffix, c)
  else none

/-! ### Directives -/

/-- A number of at most nine digits. -/
def takeVersionNumber (c : Cursor) : Option (Nat × Cursor) :=
  let (digits, c) := c.takeWhile Char.isDigit
  if digits.isEmpty || 9 < digits.length then none
  else some (digits.foldl (fun n d => 10 * n + (d.toNat - '0'.toNat)) 0, c)

/-- A version directive after its name. -/
def takeVersion (c : Cursor) : Option (Token × Cursor) := do
  let (major, c) ← takeVersionNumber (c.skipWhile isGap)
  if c.rest.head? != some '.' then none
  else do
    let (minor, c) ← takeVersionNumber (c.advance 1)
    some (.version major minor, c)

/-- A tag directive after its name. -/
def takeTagHandle (c : Cursor) : Option (Token × Cursor) := do
  let (handle, c) ← takeHandle (c.skipWhile isGap)
  if handle != ['!'] && !isNamedHandle handle then none
  else if !c.rest.head?.any isGap then none
  else do
    let (text, nonempty, c) ← takeTagText true (c.skipWhile isGap)
    if nonempty && gapOrEnd c.rest then some (.tagHandle handle text, c) else none

/-- A directive, with the rest of its line. -/
def takeDirective (c : Cursor) : Option (Token × Cursor) := do
  let (name, c) := (c.advance 1).takeWhile isWord
  let (token, c) ←
    if !gapOrEnd c.rest then none
    else if name = "YAML".toList then takeVersion c
    else if name = "TAG".toList then takeTagHandle c
    else none
  let c := (c.skipWhile isGap).skipComment
  if breakOrEnd c.rest then some (token, c.skipBreak) else none

end Yaml
end SitePlan
