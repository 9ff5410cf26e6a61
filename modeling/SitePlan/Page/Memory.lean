/-
# Page sources, and pages in memory

A page source tells which files there are, what they hold and which of them are
pages. Paths are relative, with `/` between segments.

The simplest source is given by its files: texts by path, in increasing order of
paths. A path that is added again takes its new text.

Key definitions: `SourceError`, `PageSource`, `MemoryPages`, `MemoryPages.add`,
`MemoryPages.source`.
-/
import SitePlan.Files.Tree
import SitePlan.Page.Path

namespace SitePlan

/-- Why a source gives no answer. -/
inductive SourceError
  | notFound (path : Path)
  | invalidPath (path : String)
  | file (path : Path) (e : FileError)
  deriving DecidableEq, Repr

/-- The wording of the error. -/
def SourceError.message : SourceError → String
  | notFound path => "Not found: " ++ path.text
  | invalidPath path => "Invalid path: " ++ path
  | file path e => "I/O error at " ++ path.text ++ ": " ++ e.message

/-- Read access to the sources of a site. -/
structure PageSource where
  /-- Whether there is a file at a path. -/
  holds : String → Bool
  /-- The text of the file at a path. -/
  read : String → Except SourceError String
  /-- The paths of all pages, in increasing order. -/
  pages : Except SourceError (List String)

/-- Texts by path, in increasing order of paths. -/
structure MemoryPages where
  files : List (String × String)
  deriving DecidableEq, Repr, Inhabited

namespace MemoryPages

/-- No files. -/
def empty : MemoryPages := ⟨[]⟩

/-- Adds a file. -/
def add (path text : String) (m : MemoryPages) : MemoryPages :=
  ⟨Text.insertSorted path text m.files⟩

/-- Adds pages without text. -/
def addPages (paths : List String) (m : MemoryPages) : MemoryPages :=
  paths.foldl (fun m path => m.add path "") m

/-- The paths of the pages. -/
def pages (m : MemoryPages) : List String := (m.files.map (·.1)).filter Page.isMarkdown

/-- The text of a file. -/
def read (m : MemoryPages) (path : String) : Except SourceError String :=
  match m.files.lookup path with
  | some text => .ok text
  | none => .error (.notFound ⟨path⟩)

/-- The files as a page source. -/
def source (m : MemoryPages) : PageSource where
  holds path := (m.files.lookup path).isSome
  read := m.read
  pages := .ok m.pages

end MemoryPages

end SitePlan
