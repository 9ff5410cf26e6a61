/-
# Pages in a directory

A source that reads the files of a directory. A path must not be empty, begin at
the root or lead upwards. Listing descends into all directories but passes over
files and directories whose name begins with a point. It fails at a directory
whose path is too long.

Key definitions: `PageDirectory`, `PageDirectory.fullPath`,
`PageDirectory.source`.
-/
import SitePlan.Page.Memory

namespace SitePlan

/-- A directory of sources on a host. -/
structure PageDirectory where
  host : Host
  docsDir : Path

namespace PageDirectory

/-- Whether a component leads nowhere else. -/
def staysWithin : Path.Component → Bool
  | .here => true
  | .name _ => true
  | .root => false
  | .up => false

/-- The place of a path below the directory. -/
def fullPath (d : PageDirectory) (path : String) : Except SourceError Path :=
  if path = "" ∨ !(Path.mk path).components.all staysWithin then .error (.invalidPath path)
  else .ok (d.docsDir.join ⟨path⟩)

/-- Whether there is a file at a path. -/
def holds (d : PageDirectory) (path : String) : Bool :=
  match d.fullPath path with
  | .ok full => d.host.isFile full
  | .error _ => false

/-- The text of the file at a path. -/
def read (d : PageDirectory) (path : String) : Except SourceError String := do
  let full ← d.fullPath path
  match d.host.readText full with
  | .ok text => .ok text
  | .error .notFound => .error (.notFound full)
  | .error e => .error (.file full e)

/-- Whether a name is passed over in listings. -/
def isHidden (name : String) : Bool := name.toList.head? == some '.'

mutual

/-- The pages at and below an entry with the given relative path. -/
def pagesAt (path : String) : FileTree → List String
  | .file _ => if Page.isMarkdown path then [path] else []
  | .directory entries => pagesIn (path ++ "/") entries

/-- The pages at and below the entries of a directory; `start` goes in front of
their names. -/
def pagesIn (start : String) : List (String × FileTree) → List String
  | [] => []
  | (name, node) :: rest =>
    (if isHidden name then [] else pagesAt (start ++ name) node) ++ pagesIn start rest

end

mutual

/-- The first directory at or below `full` that a listing cannot open, its path
being too long. -/
def tooFarAt (full : Path) : FileTree → Option Path
  | .file _ => none
  | .directory entries =>
    if Host.maxPathBytes < full.text.utf8ByteSize then some full else tooFarIn full entries

/-- The first directory among the entries of `dir` that a listing cannot open. -/
def tooFarIn (dir : Path) : List (String × FileTree) → Option Path
  | [] => none
  | (name, node) :: rest =>
    (if isHidden name then none else tooFarAt (dir.join ⟨name⟩) node).or (tooFarIn dir rest)

end

/-- The paths of all pages, in increasing order. -/
def pages (d : PageDirectory) : Except SourceError (List String) :=
  match d.host.find d.docsDir with
  | .ok (.directory entries) =>
    match tooFarIn d.docsDir entries with
    | some dir => .error (.file dir .nameTooLong)
    | none => .ok ((pagesIn "" entries).mergeSort fun a b => decide (a ≤ b))
  | _ => .error (.notFound d.docsDir)

/-- The directory as a page source. -/
def source (d : PageDirectory) : PageSource where
  holds := d.holds
  read := d.read
  pages := d.pages

end PageDirectory
end SitePlan
