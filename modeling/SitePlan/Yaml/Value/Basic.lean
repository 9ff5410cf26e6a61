/-
# Values

What a YAML document says once tokens, anchors and styles are forgotten. A
mapping keeps its entries in order. Tags of the document's own survive as
tagged values; `untagged` looks through them. The name of a tag counts without
one exclamation mark at its front, unless the mark is all of it.

Two values are the same key when they agree up to the order of the entries of
mappings. The number 1 and the number 1.0 are different keys; all not-a-number
values are one key, and so are the two zeros.

Key definitions: `Yaml.Value`, `Yaml.bareTag`, `Yaml.Value.untagged`,
`Yaml.Value.sameKey`, `Yaml.Value.hasTag`.
-/
namespace SitePlan
namespace Yaml

/-- A number: an integer or a double. -/
inductive Number
  | int (n : Int)
  | float (x : Float)
  deriving DecidableEq, Repr, Inhabited

/-- A YAML value. -/
inductive Value
  | null
  | bool (b : Bool)
  | number (n : Number)
  | string (s : String)
  | sequence (items : List Value)
  | mapping (entries : List (Value × Value))
  | tagged (tag : String) (value : Value)
  deriving Repr, Inhabited

/-- The name of a tag without one exclamation mark at its front. The mark alone
stays. -/
def bareTag (tag : String) : String :=
  match tag.toList with
  | '!' :: c :: cs => String.ofList (c :: cs)
  | _ => tag

/-- A tag as it is shown. -/
def tagText (tag : String) : String := "!" ++ bareTag tag

/-- Whether two numbers are the same key. -/
def Number.sameKey : Number → Number → Bool
  | int m, int n => m == n
  | float x, float y => x == y || (x.isNaN && y.isNaN)
  | _, _ => false

namespace Value

/-- The value without its tags. -/
def untagged : Value → Value
  | tagged _ v => v.untagged
  | v => v

/-- The text of a string, also of a tagged one. -/
def text? (v : Value) : Option String :=
  match v.untagged with
  | string s => some s
  | _ => none

/-- The truth value of a boolean, also of a tagged one. -/
def bool? (v : Value) : Option Bool :=
  match v.untagged with
  | bool b => some b
  | _ => none

/-- The entries of a mapping, also of a tagged one. -/
def entries? (v : Value) : Option (List (Value × Value)) :=
  match v.untagged with
  | mapping entries => some entries
  | _ => none

mutual

/-- Whether two values are the same key. -/
def sameKey : Value → Value → Bool
  | null, null => true
  | bool a, bool b => a == b
  | number m, number n => m.sameKey n
  | string s, string t => s == t
  | sequence xs, sequence ys => sameItems xs ys
  | mapping es, mapping fs => es.length == fs.length && sameEntries es fs
  | tagged s v, tagged t w => bareTag s == bareTag t && v.sameKey w
  | _, _ => false

/-- Whether two lists have the same keys in order. -/
def sameItems : List Value → List Value → Bool
  | [], [] => true
  | v :: vs, w :: ws => v.sameKey w && sameItems vs ws
  | _, _ => false

/-- Whether each entry has its like among the others. -/
def sameEntries : List (Value × Value) → List (Value × Value) → Bool
  | [], _ => true
  | (k, v) :: es, fs => (fs.any fun f => k.sameKey f.1 && v.sameKey f.2) && sameEntries es fs

end

mutual

/-- Whether a tag stands anywhere in a value. -/
def hasTag : Value → Bool
  | tagged _ _ => true
  | sequence items => itemsHaveTag items
  | mapping entries => entriesHaveTag entries
  | _ => false

/-- Whether a tag stands anywhere in the items. -/
def itemsHaveTag : List Value → Bool
  | [] => false
  | v :: vs => hasTag v || itemsHaveTag vs

/-- Whether a tag stands anywhere in the entries. -/
def entriesHaveTag : List (Value × Value) → Bool
  | [] => false
  | (k, v) :: es => hasTag k || hasTag v || entriesHaveTag es

end

mutual

/-- The value with one exclamation mark less at the front of each tag. -/
def bareTags : Value → Value
  | tagged tag v => tagged (bareTag tag) v.bareTags
  | sequence items => sequence (itemsBareTags items)
  | mapping entries => mapping (entriesBareTags entries)
  | v => v

/-- The items with one exclamation mark less at the front of each tag. -/
def itemsBareTags : List Value → List Value
  | [] => []
  | v :: vs => v.bareTags :: itemsBareTags vs

/-- The entries with one exclamation mark less at the front of each tag. -/
def entriesBareTags : List (Value × Value) → List (Value × Value)
  | [] => []
  | (k, v) :: es => (k.bareTags, v.bareTags) :: entriesBareTags es

end

mutual

/-- Whether a mapping anywhere in a value has a key twice. -/
def repeatsKey : Value → Bool
  | tagged _ v => v.repeatsKey
  | sequence items => itemsRepeatKey items
  | mapping entries => entriesRepeatKey entries
  | _ => false

/-- Whether a mapping anywhere in the items has a key twice. -/
def itemsRepeatKey : List Value → Bool
  | [] => false
  | v :: vs => v.repeatsKey || itemsRepeatKey vs

/-- Whether the entries have a key twice, or a mapping anywhere in them has. -/
def entriesRepeatKey : List (Value × Value) → Bool
  | [] => false
  | (k, v) :: es =>
    es.any (fun e => k.sameKey e.1) || k.repeatsKey || v.repeatsKey || entriesRepeatKey es

end

/-- The value that a mapping has for a string, which must not be tagged. -/
def lookup (key : String) : List (Value × Value) → Option Value
  | [] => none
  | (string k, v) :: rest => if k = key then some v else lookup key rest
  | _ :: rest => lookup key rest

end Value
end Yaml
end SitePlan
