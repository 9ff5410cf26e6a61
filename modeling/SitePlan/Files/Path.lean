/-
# Paths

A path is kept as it is written and compared by its components: empty segments
and inner `.` segments say nothing, a leading `.` and every `..` do. Joining
writes a separator where one is needed and never normalises; an absolute path
replaces what it is joined to.

Key definitions: `Path`, `Path.components`, `Path.same`, `Path.isWithin`,
`Path.join`, `Path.parent?`.
-/
import SitePlan.Text.Basic

namespace SitePlan

/-- A path as it is written. -/
structure Path where
  text : String
  deriving DecidableEq, Repr, Inhabited

namespace Path

/-- A component of a path. -/
inductive Component
  | root
  | here
  | up
  | name (s : List Char)
  deriving DecidableEq, Repr

/-- The characters of a path. -/
def chars (p : Path) : List Char := p.text.toList

/-- Whether the path begins at the root. -/
def isAbsolute (p : Path) : Bool := p.chars.head? == some '/'

/-- The component that a segment after the first stands for, if any. -/
def ofSegment (segment : List Char) : Option Component :=
  if segment = [] ∨ segment = ['.'] then none
  else if segment = ['.', '.'] then some .up
  else some (.name segment)

/-- The component that the first segment of a relative path stands for. -/
def ofFirstSegment (segment : List Char) : Option Component :=
  if segment = ['.'] then some .here else ofSegment segment

/-- The components of the text of a path. -/
def componentsOf (cs : List Char) : List Component :=
  match Text.splitAt '/' cs with
  | [] => []
  | first :: rest =>
    if first = [] ∧ rest ≠ [] then .root :: rest.filterMap ofSegment
    else (ofFirstSegment first).toList ++ rest.filterMap ofSegment

/-- The components of a path. -/
def components (p : Path) : List Component := componentsOf p.chars

/-- Whether two paths have the same components. -/
def same (p q : Path) : Bool := p.components == q.components

/-- Whether the components of `p` begin with those of `dir`. -/
def isWithin (p dir : Path) : Bool := dir.components.isPrefixOf p.components

/-- The path `p` seen from `base`. -/
def join (base p : Path) : Path :=
  if p.isAbsolute then p
  else if base.chars = [] ∨ base.chars.getLast? = some '/' then ⟨base.text ++ p.text⟩
  else ⟨base.text ++ "/" ++ p.text⟩

/-- Segments without those at the end that stand for no component. The first
segment of a relative path may be a `.` that does. -/
def dropEmptyEnd (segments : List (List Char)) : List (List Char) :=
  (segments.reverse.dropWhile fun s => (ofSegment s).isNone).reverse

/-- The segments without the last component and what follows it, if there is
one; `relative` tells whether the first segment may be a leading `.`. -/
def dropLast? (relative : Bool) (segments : List (List Char)) : Option (List (List Char)) :=
  let leading : List (List Char) :=
    if relative && segments.head? == some ['.'] then [['.']] else []
  match dropEmptyEnd (segments.drop leading.length) with
  | [] => if leading = [] then none else some []
  | body => some (leading ++ dropEmptyEnd body.dropLast)

/-- The path without its last component; `none` for the root and the empty
path. -/
def parent? (p : Path) : Option Path :=
  match Text.splitAt '/' p.chars with
  | [] => none
  | first :: rest =>
    if first = [] ∧ rest ≠ [] then
      (dropLast? false rest).map fun body =>
        ⟨String.ofList ('/' :: ['/'].intercalate body)⟩
    else
      (dropLast? true (first :: rest)).map fun body => ⟨String.ofList (['/'].intercalate body)⟩

/-- The directory of a file: its parent, or `.` where that is empty or there is
none. -/
def directory (p : Path) : Path :=
  match p.parent? with
  | some dir => if dir.text = "" then ⟨"."⟩ else dir
  | none => ⟨"."⟩

end Path
end SitePlan
