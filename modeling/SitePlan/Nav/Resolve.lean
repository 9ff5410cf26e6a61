/-
# Resolving a declared navigation

Resolving walks through the declared entries in order and builds the tree. An
entry at fault is left out and its fault noted, so that one walk finds all of
them; only a repeated label is noted without leaving the entry out. A page that
is listed again gives a warning.

Key definitions: `NavError`, `normalizePath?`, `Findings`, `Resolver`,
`Resolver.entries`.
-/
import SitePlan.Config.NavEntry
import SitePlan.Nav.Item
import SitePlan.Page.Memory
import SitePlan.Page.Title

namespace SitePlan

/-- A fault of the navigation. -/
inductive NavError
  | missingPage (label path : String)
  | notMarkdown (label path : String)
  | invalidPath (label path : String)
  | duplicateLabel (label parent : String)
  | emptyGroup (label : String)
  | source (e : SourceError)
  deriving DecidableEq, Repr

/-- The wording of the fault. -/
def NavError.message : NavError → String
  | missingPage label path =>
    "nav entry `" ++ label ++ "` points to missing file `" ++ path ++ "`"
  | notMarkdown label path =>
    "nav entry `" ++ label ++ "` points to `" ++ path ++ "`, which is not a markdown page"
  | invalidPath label path =>
    "nav entry `" ++ label ++ "` has invalid path `" ++ path ++
      "`: paths must be relative to docs_dir"
  | duplicateLabel label parent => "duplicate nav label `" ++ label ++ "` in " ++ parent
  | emptyGroup label => "nav section `" ++ label ++ "` has no entries"
  | source e => e.message

/-- The text without the `./` it begins with, however often. -/
def dropHere : List Char → List Char
  | '.' :: '/' :: rest => dropHere rest
  | cs => cs

/-- The path of a page as it is written in a declaration, without blanks around
it and `./` before it. It must not be empty, begin at the root, lead upwards or
hold a backslash. -/
def normalizePath? (path : String) : Option String :=
  let cs := dropHere (Text.trimChars path.toList)
  if cs = [] ∨ cs.head? = some '/' ∨ '\\' ∈ cs ∨ ['.', '.'] ∈ Text.splitAt '/' cs then none
  else some (String.ofList cs)

/-- What has been found so far, in order; `referenced` are the sources of the
pages. -/
structure Findings where
  errors : List NavError
  warnings : List String
  referenced : List String
  deriving DecidableEq, Repr, Inhabited

namespace Findings

/-- Nothing found yet. -/
def empty : Findings := ⟨[], [], []⟩

/-- Notes a fault. -/
def fault (e : NavError) (f : Findings) : Findings := { f with errors := f.errors ++ [e] }

/-- Notes that a page is listed, with a warning if it was before. -/
def reference (source : String) (f : Findings) : Findings :=
  if f.referenced.contains source then
    { f with warnings := f.warnings ++ ["page `" ++ source ++ "` is listed in nav more than once"] }
  else { f with referenced := f.referenced ++ [source] }

/-- Notes that a page is listed, without a warning if it was before. -/
def visit (source : String) (f : Findings) : Findings :=
  if f.referenced.contains source then f else { f with referenced := f.referenced ++ [source] }

end Findings

/-- What resolving needs to know: the pages, and how their addresses look. -/
structure Resolver where
  source : PageSource
  directoryUrls : Bool

namespace Resolver

/-- The title of a page that is given none: from its text, or else from its
path. -/
def pageTitle (r : Resolver) (path : String) : String :=
  match r.source.read path with
  | .ok content => (Page.extractTitle? content).getD (Page.titleFromPath path)
  | .error _ => Page.titleFromPath path

/-- The item of a page with the given source. -/
def pageItem (r : Resolver) (title : Option String) (source : String) : NavItem :=
  NavItem.page (title.getD (r.pageTitle source)) source (Page.url source r.directoryUrls)

/-- A page entry: its item, unless it is at fault. -/
def page (r : Resolver) (title : Option String) (path : String) (f : Findings) :
    Option NavItem × Findings :=
  let label := title.getD path
  match normalizePath? path with
  | none => (none, f.fault (.invalidPath label path))
  | some source =>
    if !Page.isMarkdown source then (none, f.fault (.notMarkdown label path))
    else if !r.source.holds source then (none, f.fault (.missingPage label path))
    else (some (r.pageItem title source), f.reference source)

/-- The place of entries in messages, by the titles of the groups around them. -/
def describePlace (trail : List String) : String :=
  if trail.isEmpty then "the top level" else "section " ++ " > ".intercalate trail

/-- Notes a label that one of its siblings has already. -/
def noteLabel (trail seen : List String) (label : Option String) (f : Findings) : Findings :=
  match label with
  | some l => if seen.contains l then f.fault (.duplicateLabel l (describePlace trail)) else f
  | none => f

mutual

/-- An entry within the groups of `trail`: its item, unless it is at fault. -/
def entry (r : Resolver) (trail : List String) : NavEntry → Findings → Option NavItem × Findings
  | .page title path, f => r.page title path f
  | .link title url, f => (some (NavItem.link title url), f)
  | .group title children, f =>
    match children with
    | [] => (none, f.fault (.emptyGroup title))
    | child :: rest =>
      let (items, f) := entries r (trail ++ [title]) [] (child :: rest) f
      (some (NavItem.group title items), f)

/-- Entries within the groups of `trail`, after siblings with the labels
`seen`. -/
def entries (r : Resolver) (trail seen : List String) :
    List NavEntry → Findings → List NavItem × Findings
  | [], f => ([], f)
  | e :: rest, f =>
    let (item, f) := entry r trail e (noteLabel trail seen e.label? f)
    let (items, f) := entries r trail (e.label?.toList ++ seen) rest f
    (item.toList ++ items, f)

end

end Resolver
end SitePlan
