/-
# Text

What the readers share. A character is blank when it has the White_Space
property; trimming drops the blanks at the ends of a text, and a text is blank
when nothing is left of it. A text is cut at every occurrence of a character, at
the last one, or after a known beginning. Names are put in the order of their
code points, character by character.

Key definitions: `Text.isBlank`, `Text.trimChars`, `Text.isBlankText`,
`Text.splitAt`, `Text.splitLast?`, `Text.dropStart?`, `Text.insertSorted`,
`Text.sortedNames`.
-/
namespace SitePlan
namespace Text

/-- The characters with the White_Space property. -/
def isBlank (c : Char) : Bool :=
  let n := c.toNat
  (9 ≤ n && n ≤ 13) || n == 0x20 || n == 0x85 || n == 0xa0 || n == 0x1680 ||
    (0x2000 ≤ n && n ≤ 0x200a) || n == 0x2028 || n == 0x2029 || n == 0x202f ||
    n == 0x205f || n == 0x3000

/-- The list without the members at its end that satisfy `p`. -/
def dropEndWhile {α : Type} (p : α → Bool) (l : List α) : List α :=
  (l.reverse.dropWhile p).reverse

/-- The characters without the blanks at both ends. -/
def trimChars (cs : List Char) : List Char :=
  dropEndWhile isBlank (cs.dropWhile isBlank)

/-- Whether a text holds nothing but blanks. -/
def isBlankText (s : String) : Bool := s.toList.all isBlank

/-- The pieces between the occurrences of `sep`, at least one. -/
def splitAt (sep : Char) : List Char → List (List Char)
  | [] => [[]]
  | c :: cs =>
    if c = sep then [] :: splitAt sep cs
    else match splitAt sep cs with
      | piece :: pieces => (c :: piece) :: pieces
      | [] => [[c]]

/-- The parts before and after the last `sep`, if there is one. -/
def splitLast? (sep : Char) : List Char → Option (List Char × List Char)
  | [] => none
  | c :: cs =>
    match splitLast? sep cs with
    | some (before, rest) => some (c :: before, rest)
    | none => if c = sep then some ([], cs) else none

/-- What follows the given beginning, if the text has it. -/
def dropStart? : List Char → List Char → Option (List Char)
  | [], cs => some cs
  | _ :: _, [] => none
  | b :: bs, c :: cs => if b = c then dropStart? bs cs else none

/-- Whether the text begins with `start`. -/
def startsWith (start : List Char) (cs : List Char) : Bool := (dropStart? start cs).isSome

/-- Whether the text ends with `ending`. -/
def endsWith (ending : List Char) (cs : List Char) : Bool :=
  startsWith ending.reverse cs.reverse

/-- The text with its ASCII letters in lower case. -/
def lowerAscii (cs : List Char) : List Char := cs.map Char.toLower

/-- A list in increasing order of keys with a value put in, in place of the one
that the key has already. -/
def insertSorted {α : Type} (key : String) (value : α) : List (String × α) → List (String × α)
  | [] => [(key, value)]
  | (k, v) :: rest =>
    if key < k then (key, value) :: (k, v) :: rest
    else if key = k then (key, value) :: rest
    else (k, v) :: insertSorted key value rest

/-- The names of a list in increasing order, each once. -/
def sortedNames (names : List String) : List String :=
  (names.foldl (fun acc name => insertSorted name () acc) []).map (·.1)

end Text
end SitePlan
