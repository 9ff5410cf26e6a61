/-
# From text to tokens

The lexer keeps, beside its position, the columns of the open block
collections and the places where a key of a mapping may have begun. A colon
turns such a place into a key after the fact: the tokens `key` and, for the
first key of a block, `blockMappingStart` are put in front of what was read
since. A place is given up when the line ends or after 1024 octets.

A token is *ready* once nothing can be put in front of it any more. When the
text turns out not to be well formed, only the tokens that were ready before
the fault are given. A character that no text may hold is a fault where its
piece of the text begins (`readable`); the tokens before it need four characters
after them.

The columns are kept as margins: the margin of a block at column `n` is
`n + 1`, the least column of nested content; outside all blocks it is 0.

Key definitions: `Yaml.Lexer`, `Yaml.Lexer.next`, `Yaml.tokens`.
-/
import SitePlan.Yaml.Character
import SitePlan.Yaml.Token.Scalar
import SitePlan.Yaml.Token.Tag

namespace SitePlan
namespace Yaml

/-- A place where a key may have begun: before which token and where in the
text. A required key is one without which the block cannot go on. -/
structure KeyPlace where
  token : Nat
  offset : Nat
  line : Nat
  column : Nat
  required : Bool
  deriving DecidableEq, Repr

/-- The state of reading tokens; `read` holds them latest first. -/
structure Lexer where
  cursor : Cursor
  read : List Token
  count : Nat
  margins : List Nat
  key : Option KeyPlace
  outerKeys : List (Option KeyPlace)
  keyAllowed : Bool
  finished : Bool
  deriving DecidableEq, Repr

namespace Lexer

/-- The state at the start of a text. -/
def start (text : List Char) : Lexer :=
  { cursor := .start text, read := [], count := 0, margins := [], key := none, outerKeys := []
    keyAllowed := true, finished := false }

/-- Whether a flow collection is open. -/
def inFlow (s : Lexer) : Bool := !s.outerKeys.isEmpty

/-- The margin of the innermost block. -/
def margin (s : Lexer) : Nat := s.margins.headD 0

/-- Adds a token at the end. -/
def push (token : Token) (s : Lexer) : Lexer :=
  { s with read := token :: s.read, count := s.count + 1 }

/-- Puts a token in front of the one numbered `place`. -/
def insert (place : Nat) (token : Token) (s : Lexer) : Lexer :=
  let later := s.count - place
  { s with read := s.read.take later ++ token :: s.read.drop later, count := s.count + 1 }

/-- The state with the position moved. -/
def moveTo (c : Cursor) (s : Lexer) : Lexer := { s with cursor := c }

/-! ### Places of keys -/

/-- Gives up a place that the position has left behind. A required key must not
be given up. -/
def freshKey (c : Cursor) : Option KeyPlace → Option (Option KeyPlace)
  | none => some none
  | some k =>
    if k.line < c.line ∨ k.offset + 1024 < c.offset then
      (if k.required then none else some none)
    else some (some k)

/-- Gives up all places left behind. -/
def dropStale (s : Lexer) : Option Lexer := do
  let key ← freshKey s.cursor s.key
  let outerKeys ← s.outerKeys.mapM (freshKey s.cursor)
  some { s with key := key, outerKeys := outerKeys }

/-- Gives up the innermost place. -/
def removeKey (s : Lexer) : Option Lexer :=
  if s.key.any (·.required) then none else some { s with key := none }

/-- Notes that a key may begin here, where one is allowed. -/
def saveKey (s : Lexer) : Option Lexer :=
  if s.keyAllowed then
    s.removeKey.map fun s =>
      { s with
        key := some
          { token := s.count, offset := s.cursor.offset, line := s.cursor.line
            column := s.cursor.column
            required := !s.inFlow && s.margin == s.cursor.column + 1 } }
  else some s

/-- The number of tokens in front of which nothing can be put any more. -/
def ready (s : Lexer) : Nat :=
  (s.key :: s.outerKeys).foldl (fun n k => k.elim n fun k => min n k.token) s.count

/-! ### Blocks -/

/-- The margins left when the blocks beyond `limit` are closed, and how many
are. -/
def closeBeyond (limit : Nat) : List Nat → List Nat × Nat
  | [] => ([], 0)
  | m :: ms => if limit < m then ((closeBeyond limit ms).1, (closeBeyond limit ms).2 + 1) else (m :: ms, 0)

/-- Closes the blocks whose margin is beyond `limit`. Inside a flow collection
indentation has no meaning. -/
def closeBlocks (limit : Nat) (s : Lexer) : Lexer :=
  if s.inFlow then s
  else
    let (margins, n) := closeBeyond limit s.margins
    { s with
      margins := margins, read := List.replicate n Token.blockEnd ++ s.read, count := s.count + n }

/-- Opens a block at a column to the right of the innermost one, with its token
in front of the one numbered `place`. -/
def openBlock (column place : Nat) (token : Token) (s : Lexer) : Lexer :=
  if !s.inFlow && s.margin ≤ column then
    ({ s with margins := (column + 1) :: s.margins }).insert place token
  else s

/-! ### Reading one token -/

/-- Past blanks, comments and line ends. A tab counts as blank only where no key
may begin; a line end outside flow collections allows one. -/
def skipToToken (flow : Bool) : Nat → Bool → Cursor → Bool × Cursor
  | 0, allowed, c => (allowed, c)
  | fuel + 1, allowed, c =>
    let c := if c.column == 0 && c.rest.head? == some byteOrderMark then c.advance 1 else c
    let c := c.skipWhile fun ch => ch == ' ' || ((flow || !allowed) && ch == '\t')
    let c := c.skipComment
    if c.rest.head?.any isBreak then skipToToken flow fuel (allowed || !flow) c.skipBreak
    else (allowed, c)

/-- The end of the text, as if at the start of a line. -/
def readEnd (s : Lexer) : Option Lexer := do
  let c := s.cursor
  let s := if c.column == 0 then s else s.moveTo { c with column := 0, line := c.line + 1 }
  let s ← (s.closeBlocks 0).removeKey
  some { s.push .streamEnd with keyAllowed := false, finished := true }

/-- A directive or a document mark, which closes all blocks. -/
def readDocumentMark (take : Cursor → Option (Token × Cursor)) (s : Lexer) : Option Lexer := do
  let s ← (s.closeBlocks 0).removeKey
  let (token, c) ← take s.cursor
  some { (s.push token).moveTo c with keyAllowed := false }

/-- The beginning of a flow collection, which may itself be a key. -/
def openFlow (token : Token) (s : Lexer) : Option Lexer := do
  let s ← s.saveKey
  some
    { (s.push token).moveTo (s.cursor.advance 1) with
      outerKeys := s.key :: s.outerKeys, key := none, keyAllowed := true }

/-- The end of a flow collection. -/
def closeFlow (token : Token) (s : Lexer) : Option Lexer := do
  let s ← s.removeKey
  let s := match s.outerKeys with
    | k :: ks => { s with key := k, outerKeys := ks }
    | [] => s
  some { (s.push token).moveTo (s.cursor.advance 1) with keyAllowed := false }

/-- A comma. -/
def readComma (s : Lexer) : Option Lexer := do
  let s ← s.removeKey
  some { (s.push .flowEntry).moveTo (s.cursor.advance 1) with keyAllowed := true }

/-- A mark that stands before an entry (`-` or `?`) and opens its block if need
be. -/
def readEntryMark (token opening : Token) (allowedAfter : Bool) (s : Lexer) : Option Lexer := do
  let s ← if s.inFlow then some s
    else if s.keyAllowed then some (s.openBlock s.cursor.column s.count opening)
    else none
  let s ← s.removeKey
  some { (s.push token).moveTo (s.cursor.advance 1) with keyAllowed := allowedAfter }

/-- A colon: it makes a key of the innermost place, or stands for a value whose
key is empty or was marked. -/
def readColon (s : Lexer) : Option Lexer := do
  let s ← match s.key with
    | some k =>
      let s := (s.insert k.token .key).openBlock k.column k.token .blockMappingStart
      some { s with key := none, keyAllowed := false }
    | none =>
      if s.inFlow then some { s with keyAllowed := false }
      else if s.keyAllowed then
        some { s.openBlock s.cursor.column s.count .blockMappingStart with keyAllowed := true }
      else none
  some ((s.push .value).moveTo (s.cursor.advance 1))

/-- A token that may begin a key and is not itself the place of a further one. -/
def readContent (take : Cursor → Option (Token × Cursor)) (s : Lexer) : Option Lexer := do
  let s ← s.saveKey
  let (token, c) ← take s.cursor
  some { (s.push token).moveTo c with keyAllowed := false }

/-- A plain scalar; where it ran over a line end, a key may follow. -/
def readPlain (s : Lexer) : Option Lexer := do
  let s ← s.saveKey
  let (text, stopped, c) ← Scalar.takePlain s.inFlow s.margin s.cursor
  some { (s.push (.scalar text .plain)).moveTo c with keyAllowed := stopped }

/-- A block scalar. -/
def readBlock (isLiteral : Bool) (s : Lexer) : Option Lexer := do
  let s ← s.removeKey
  let (text, c) ← Scalar.takeBlock isLiteral s.margin s.cursor
  some
    { (s.push (.scalar text (if isLiteral then .literal else .folded))).moveTo c with
      keyAllowed := true }

/-- A token made of the characters at the position. -/
def mark (token : Token) (length : Nat) (c : Cursor) : Option (Token × Cursor) :=
  some (token, c.advance length)

/-- Reads on by one token, given its first character. -/
def readToken (ch : Char) (rest : List Char) (s : Lexer) : Option Lexer :=
  let c := s.cursor
  let flow := s.inFlow
  let spaced := gapOrEnd rest
  if c.column == 0 && ch == '%' then s.readDocumentMark takeDirective
  else if c.atDocumentMark then
    s.readDocumentMark (mark (if ch == '-' then .documentStart else .documentEnd) 3)
  else if ch == '[' then s.openFlow .flowSequenceStart
  else if ch == '\x7b' then s.openFlow .flowMappingStart
  else if ch == ']' then s.closeFlow .flowSequenceEnd
  else if ch == '\x7d' then s.closeFlow .flowMappingEnd
  else if ch == ',' then s.readComma
  else if ch == '-' && spaced then s.readEntryMark .blockEntry .blockSequenceStart true
  else if ch == '?' && (flow || spaced) then s.readEntryMark .key .blockMappingStart (!flow)
  else if ch == ':' && (flow || spaced) then s.readColon
  else if ch == '*' then
    s.readContent fun c => (takeName c).map fun (name, c) => (.reference name, c)
  else if ch == '&' then
    s.readContent fun c => (takeName c).map fun (name, c) => (.anchor name, c)
  else if ch == '!' then s.readContent (takeTag flow)
  else if ch == '|' && !flow then s.readBlock true
  else if ch == '>' && !flow then s.readBlock false
  else if ch == '\'' then
    s.readContent fun c => (Scalar.takeSingle c).map fun (text, c) => (.scalar text .singleQuoted, c)
  else if ch == '"' then
    s.readContent fun c => (Scalar.takeDouble c).map fun (text, c) => (.scalar text .doubleQuoted, c)
  else if !isIndicator ch && !isGap ch then s.readPlain
  else if ch == '-' && !rest.head?.any isGap then s.readPlain
  else if !flow && (ch == '?' || ch == ':') then s.readPlain
  else none

/-- Reads on by one token, with the block ends in front of it; `none` if the
text is not well formed here. -/
def next (s : Lexer) : Option Lexer := do
  let (allowed, c) := skipToToken s.inFlow s.cursor.fuel s.keyAllowed s.cursor
  let s ← ({ s with keyAllowed := allowed }.moveTo c).dropStale
  let s := s.closeBlocks (c.column + 1)
  match c.rest with
  | [] => s.readEnd
  | ch :: rest => s.readToken ch rest

/-- Of the tokens read, in order, the first `ready`. -/
def readySoFar (s : Lexer) (ready : Nat) : List Token :=
  (s.read.drop (s.count - ready)).reverse

/-- Reads on to the end, or to the first fault. It is a fault, too, when fewer
than `reserve` characters are left. At a fault it gives the tokens that were
ready at the last point where all was well. -/
def run (reserve : Nat) : Nat → Nat → Lexer → List Token
  | 0, ready, s => s.readySoFar ready
  | fuel + 1, ready, s =>
    match s.dropStale with
    | none => s.readySoFar ready
    | some s =>
      if s.finished then s.read.reverse
      else match s.next.filter fun t => t.cursor.has reserve with
        | none => s.readySoFar s.ready
        | some t => run reserve fuel s.ready t

end Lexer

/-- The tokens of a text. They end with `streamEnd` if the text is well formed
to its end, and with the last ready token before the fault if not. -/
def tokens (text : List Char) : List Token :=
  let whole := text.all isAllowed
  let s := Lexer.start (if whole then text else readable (text.length + 1) text)
  s.run (if whole then 0 else 4) (s.cursor.fuel + 1) 0

end Yaml
end SitePlan
