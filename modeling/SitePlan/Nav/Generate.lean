/-
# Generating a navigation

Without a declaration the tree follows the source directory: every directory
that holds pages is a group. Within a directory the pages come first, those
that stand for the directory ahead of the others and each part in alphabetical
order without regard to ASCII case; then come the groups, by directory name.

Key definitions: `PageTree`, `PageTree.insert`, `PageTree.ofPaths`,
`Resolver.generate`.
-/
import SitePlan.Nav.Resolve

namespace SitePlan

/-- The pages of a directory, by full path in order of insertion, and its
subdirectories in increasing order of names. -/
structure PageTree where
  files : List String
  directories : List (String × PageTree)
  deriving Repr, Inhabited

namespace PageTree

/-- A directory without pages. -/
def empty : PageTree := ⟨[], []⟩

mutual

/-- Puts a page into the directory at the end of the given names. -/
def insert (path : String) : List String → PageTree → PageTree
  | [], t => { t with files := t.files ++ [path] }
  | name :: rest, t => { t with directories := insertInto path name rest t.directories }

/-- Puts a page below the directory with the given name among others. -/
def insertInto (path name : String) (rest : List String) :
    List (String × PageTree) → List (String × PageTree)
  | [] => [(name, insert path rest empty)]
  | (n, t) :: more =>
    if name < n then (name, insert path rest empty) :: (n, t) :: more
    else if name = n then (n, insert path rest t) :: more
    else (n, t) :: insertInto path name rest more

end

/-- The names of the directories on the way to a page. -/
def directoriesOf (path : String) : List String :=
  (Text.splitAt '/' path.toList).dropLast.map String.ofList

/-- The tree of all given pages. -/
def ofPaths (paths : List String) : PageTree :=
  paths.foldl (fun t path => t.insert path (directoriesOf path)) empty

end PageTree

namespace Resolver

/-- The place of a page among those of its directory. -/
def sortKey (path : String) : Bool × String :=
  (!Page.isIndex path, String.ofList (Text.lowerAscii path.toList))

/-- Whether the place `a` is not after the place `b`. -/
def placeLe (a b : Bool × String) : Bool :=
  if a.1 = b.1 then decide (a.2 ≤ b.2) else b.1

/-- The pages of a directory in the order of the tree. -/
def sortPages (paths : List String) : List String :=
  paths.mergeSort fun p q => placeLe (sortKey p) (sortKey q)

mutual

/-- The items of a directory; its pages count as referenced. -/
def directoryItems (r : Resolver) : PageTree → Findings → List NavItem × Findings
  | ⟨files, directories⟩, f =>
    let paths := sortPages files
    let (groups, f) := groupItems r directories (paths.foldl (fun f path => f.visit path) f)
    (paths.map (r.pageItem none) ++ groups, f)

/-- The groups of subdirectories; one without items is left out. -/
def groupItems (r : Resolver) : List (String × PageTree) → Findings → List NavItem × Findings
  | [], f => ([], f)
  | (name, t) :: rest, f =>
    let (children, f) := directoryItems r t f
    let (groups, f) := groupItems r rest f
    (if children.isEmpty then groups
      else NavItem.group (Page.titleFromName name.toList) children :: groups, f)

end

/-- The generated items and what was found. -/
def generate (r : Resolver) : Except SourceError (List NavItem × Findings) := do
  let pages ← r.source.pages
  .ok (r.directoryItems (PageTree.ofPaths pages) Findings.empty)

end Resolver
end SitePlan
