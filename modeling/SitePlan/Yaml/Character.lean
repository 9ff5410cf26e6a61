/-
# Characters of YAML

The classes that decide where tokens begin and end, and the set of characters
that a YAML text may hold at all.

A text is looked at in pieces of 16384 octets, a character cut at the end of a
piece belonging to the next. A piece that holds a character no text may hold
cannot be read, nor can what follows it.

Key definitions: `Yaml.isBreak`, `Yaml.isGap`, `Yaml.gapOrEnd`, `Yaml.isWord`,
`Yaml.isAllowed`, `Yaml.readable`.
-/
namespace SitePlan
namespace Yaml

/-- The byte order mark. -/
def byteOrderMark : Char := '\ufeff'

/-- The characters that end a line. -/
def isBreak (c : Char) : Bool :=
  c == '\n' || c == '\r' || c == '\u0085' || c == '\u2028' || c == '\u2029'

/-- Space and tab. -/
def isGap (c : Char) : Bool := c == ' ' || c == '\t'

/-- Whether the rest of a text is empty or begins with space, tab or line end. -/
def gapOrEnd : List Char → Bool
  | [] => true
  | c :: _ => isGap c || isBreak c

/-- Whether the rest of a text is empty or begins with a line end. -/
def breakOrEnd : List Char → Bool
  | [] => true
  | c :: _ => isBreak c

/-- The characters of anchors, tag handles and directive names. -/
def isWord (c : Char) : Bool := c.isAlphanum || c == '_' || c == '-'

/-- The characters that delimit flow collections. -/
def isFlowMark (c : Char) : Bool :=
  c == ',' || c == '[' || c == ']' || c == '\x7b' || c == '\x7d'

/-- The characters of a tag; those with a meaning in flow collections only
where `flowMarks` says so. -/
def isTagChar (flowMarks : Bool) (c : Char) : Bool :=
  isWord c || ";/?:@&=+$.%!~*'()".toList.contains c ||
    (flowMarks && (c == ',' || c == '[' || c == ']'))

/-- The characters that cannot begin a plain scalar, blanks apart. -/
def isIndicator (c : Char) : Bool :=
  isFlowMark c || "-?:#&*!|>'\"%@\x60".toList.contains c

/-- The characters a text may hold. -/
def isAllowed (c : Char) : Bool :=
  let n := c.toNat
  n == 9 || n == 10 || n == 13 || (0x20 ≤ n && n ≤ 0x7e) || n == 0x85 ||
    (0xa0 ≤ n && n ≤ 0xd7ff) || (0xe000 ≤ n && n ≤ 0xfffd) || 0x10000 ≤ n

/-- The value of a hexadecimal digit. -/
def hexValue? (c : Char) : Option Nat :=
  let n := c.toNat
  if '0'.toNat ≤ n ∧ n ≤ '9'.toNat then some (n - '0'.toNat)
  else if 'a'.toNat ≤ n ∧ n ≤ 'f'.toNat then some (n - 'a'.toNat + 10)
  else if 'A'.toNat ≤ n ∧ n ≤ 'F'.toNat then some (n - 'A'.toNat + 10)
  else none

/-- The number of octets of a piece. -/
def pieceSize : Nat := 16384

/-- The characters at the beginning that fit into `room` octets, and the rest. -/
def splitOctets : Nat → List Char → List Char × List Char
  | _, [] => ([], [])
  | room, c :: cs =>
    if c.utf8Size ≤ room then
      let (taken, rest) := splitOctets (room - c.utf8Size) cs
      (c :: taken, rest)
    else ([], c :: cs)

/-- The pieces before the first that cannot be read, joined; the first argument
bounds their number. -/
def readable : Nat → List Char → List Char
  | 0, _ => []
  | fuel + 1, text =>
    let (piece, rest) := splitOctets pieceSize text
    if piece.isEmpty || !piece.all isAllowed then [] else piece ++ readable fuel rest

end Yaml
end SitePlan
