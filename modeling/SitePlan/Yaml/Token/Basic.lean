/-
# Tokens of YAML

The marks and words that a YAML text is made of. A tag is kept as it is
written: a handle and what follows it, whose escaped octets may form no
character.

Key definitions: `Yaml.Token`, `Yaml.TagText`.
-/
namespace SitePlan
namespace Yaml

/-- How a scalar is written. -/
inductive ScalarStyle
  | plain
  | singleQuoted
  | doubleQuoted
  | literal
  | folded
  deriving DecidableEq, Repr

/-- The text of a tag; `none` stands for escaped octets that form no
character. -/
abbrev TagText := List (Option Char)

/-- A token. `blockEnd` closes the innermost open block collection. -/
inductive Token
  | version (major minor : Nat)
  | tagHandle (handle : List Char) (expansion : TagText)
  | documentStart
  | documentEnd
  | streamEnd
  | blockSequenceStart
  | blockMappingStart
  | blockEnd
  | flowSequenceStart
  | flowSequenceEnd
  | flowMappingStart
  | flowMappingEnd
  | blockEntry
  | flowEntry
  | key
  | value
  | reference (name : List Char)
  | anchor (name : List Char)
  | tag (handle : List Char) (suffix : TagText)
  | scalar (text : List Char) (style : ScalarStyle)
  deriving DecidableEq, Repr

end Yaml
end SitePlan
