/-
# Page paths

A page is named by its path below the source directory, with `/` between
segments. The stem of its file name gives its address and a title; a page with
the stem `index` or `readme` stands for its directory.

Key definitions: `Page.isMarkdown`, `Page.isIndex`, `Page.url`,
`Page.titleFromName`, `Page.titleFromPath`.
-/
import SitePlan.Text.Basic
import SitePlan.Text.Upper

namespace SitePlan
namespace Page

/-- Whether a path names a markdown page. -/
def isMarkdown (path : String) : Bool :=
  let lower := Text.lowerAscii path.toList
  Text.endsWith ".md".toList lower || Text.endsWith ".markdown".toList lower

/-- The directory and the file name of a path. -/
def splitDirectory (path : List Char) : List Char × List Char :=
  (Text.splitLast? '/' path).getD ([], path)

/-- A file name without its last extension. -/
def stem (name : List Char) : List Char :=
  match Text.splitLast? '.' name with
  | some (stem, _) => stem
  | none => name

/-- The stems of pages that stand for their directory. -/
def indexStems : List (List Char) := ["index".toList, "readme".toList]

/-- Whether a page stands for its directory. -/
def isIndex (path : String) : Bool :=
  indexStems.contains (Text.lowerAscii (stem (splitDirectory path.toList).2))

/-- The address of a page, relative to that of the site: its own directory or an
`html` file. -/
def url (path : String) (directoryUrls : Bool) : String :=
  let (dir, name) := splitDirectory path.toList
  let start := if dir = [] then [] else dir ++ ['/']
  String.ofList <| match isIndex path, directoryUrls with
    | true, true => start
    | true, false => start ++ "index.html".toList
    | false, true => start ++ stem name ++ ['/']
    | false, false => start ++ stem name ++ ".html".toList

/-- The title that a file or directory name makes. -/
def titleFromName (name : List Char) : String :=
  let spaced := name.map fun c => if c = '-' ∨ c = '_' then ' ' else c
  String.ofList (Text.capitalize (Text.trimChars spaced))

/-- The title that a path makes; a page that stands for its directory takes the
directory's name. -/
def titleFromPath (path : String) : String :=
  let (dir, name) := splitDirectory path.toList
  if isIndex path then
    let parent := match Text.splitLast? '/' dir with
      | some (_, last) => last
      | none => dir
    if parent = [] then "Home" else titleFromName parent
  else titleFromName (stem name)

end Page
end SitePlan
