/-
# Printing JSON

`compact` writes a value on one line without spaces; `pretty` indents by two
spaces and writes an empty array or object as `[]` or `\x7b\x7d`. Control
characters are escaped, other characters stand for themselves; a double that is
not finite is `null`.

Key definitions: `Json.compact`, `Json.pretty`.
-/
import SitePlan.Json.Basic

namespace SitePlan
namespace Json

/-- A hexadecimal digit. -/
def hexDigit (n : Nat) : Char := (Nat.toDigits 16 n).headD '0'

/-- A character within a JSON string. -/
def escapeChar (c : Char) : List Char :=
  if c = '"' then ['\\', '"']
  else if c = '\\' then ['\\', '\\']
  else if c = '\n' then ['\\', 'n']
  else if c = '\r' then ['\\', 'r']
  else if c = '\t' then ['\\', 't']
  else if c = '\x08' then ['\\', 'b']
  else if c = '\x0c' then ['\\', 'f']
  else if c.toNat < 0x20 then
    ['\\', 'u', '0', '0', hexDigit (c.toNat / 16), hexDigit (c.toNat % 16)]
  else [c]

/-- A string with its quotes. -/
def quoted (s : String) : List Char := '"' :: s.toList.flatMap escapeChar ++ ['"']

/-- A value that is neither array nor object. -/
def scalar : Json → List Char
  | bool b => (if b then "true" else "false").toList
  | int n => (toString n).toList
  | float x => (if x.isFinite then floatText x else "null").toList
  | string s => quoted s
  | _ => "null".toList

mutual

/-- On one line, in front of `rest`. -/
def compactOnto : Json → List Char → List Char
  | array items, rest => '[' :: compactItems items (']' :: rest)
  | object fields, rest => '\x7b' :: compactFields fields ('\x7d' :: rest)
  | v, rest => scalar v ++ rest

/-- The items of an array, with commas between them. -/
def compactItems : List Json → List Char → List Char
  | [], rest => rest
  | [v], rest => compactOnto v rest
  | v :: vs, rest => compactOnto v (',' :: compactItems vs rest)

/-- The fields of an object, with commas between them. -/
def compactFields : List (String × Json) → List Char → List Char
  | [], rest => rest
  | [(name, v)], rest => quoted name ++ ':' :: compactOnto v rest
  | (name, v) :: fields, rest =>
    quoted name ++ ':' :: compactOnto v (',' :: compactFields fields rest)

end

/-- A value on one line. -/
def compact (v : Json) : String := String.ofList (compactOnto v [])

/-- A line end and the indentation of the given depth. -/
def newLine (depth : Nat) : List Char := '\n' :: List.replicate (2 * depth) ' '

mutual

/-- Over several lines, in front of `rest`. -/
def prettyOnto (depth : Nat) : Json → List Char → List Char
  | array [], rest => '[' :: ']' :: rest
  | array items, rest =>
    '[' :: prettyItems (depth + 1) items (newLine depth ++ ']' :: rest)
  | object [], rest => '\x7b' :: '\x7d' :: rest
  | object fields, rest =>
    '\x7b' :: prettyFields (depth + 1) fields (newLine depth ++ '\x7d' :: rest)
  | v, rest => scalar v ++ rest

/-- The items of an array, each on a line of its own. -/
def prettyItems (depth : Nat) : List Json → List Char → List Char
  | [], rest => rest
  | [v], rest => newLine depth ++ prettyOnto depth v rest
  | v :: vs, rest => newLine depth ++ prettyOnto depth v (',' :: prettyItems depth vs rest)

/-- The fields of an object, each on a line of its own. -/
def prettyFields (depth : Nat) : List (String × Json) → List Char → List Char
  | [], rest => rest
  | [(name, v)], rest => newLine depth ++ quoted name ++ ':' :: ' ' :: prettyOnto depth v rest
  | (name, v) :: fields, rest =>
    newLine depth ++ quoted name ++ ':' :: ' ' ::
      prettyOnto depth v (',' :: prettyFields depth fields rest)

end

/-- A value over several lines, indented by two spaces. -/
def pretty (v : Json) : String := String.ofList (prettyOnto 0 v [])

end Json
end SitePlan
