/-
# The navigation tree

An item is a page, a group or an external link, with a title and perhaps an
address, a source and children. Only groups with children can be expanded.

Key definitions: `NavItem`, `Navigation`, `Navigation.text`, `Navigation.pages`,
`Navigation.find?`, `Navigation.toJson`.
-/
import SitePlan.Json.Basic

namespace SitePlan

/-- What an item is. -/
inductive NavKind
  | page
  | group
  | link
  deriving DecidableEq, Repr, Inhabited

/-- The kind in JSON. -/
def NavKind.text : NavKind → String
  | page => "page"
  | group => "section"
  | link => "link"

/-- An item of the navigation. -/
structure NavItem where
  title : String
  kind : NavKind
  url : Option String
  source : Option String
  children : List NavItem
  deriving BEq, Repr, Inhabited

namespace NavItem

/-- A page with its source and address. -/
def page (title source url : String) : NavItem := ⟨title, .page, some url, some source, []⟩

/-- An external link. -/
def link (title url : String) : NavItem := ⟨title, .link, some url, none, []⟩

/-- A group of items. -/
def group (title : String) (children : List NavItem) : NavItem :=
  ⟨title, .group, none, none, children⟩

/-- Whether an item is a group with children. -/
def isExpandable (item : NavItem) : Bool := item.kind == .group && !item.children.isEmpty

/-- The line of an item, without indentation. -/
def label (item : NavItem) : String :=
  match item.kind with
  | .page => "- " ++ item.title ++ " [" ++ item.source.getD "" ++ "]"
  | .link => "- " ++ item.title ++ " -> " ++ item.url.getD ""
  | .group => "+ " ++ item.title

/-- The indentation at a depth. -/
def indent (depth : Nat) : String := String.ofList (List.replicate (2 * depth) ' ')

mutual

/-- The lines of an item and of the items below it. -/
def lines (depth : Nat) : NavItem → List String
  | ⟨title, kind, url, source, children⟩ =>
    (indent depth ++ label ⟨title, kind, url, source, children⟩) :: linesOf (depth + 1) children

/-- The lines of items. -/
def linesOf (depth : Nat) : List NavItem → List String
  | [] => []
  | item :: rest => lines depth item ++ linesOf depth rest

end

mutual

/-- The pages at and below an item, in display order. -/
def pages : NavItem → List NavItem
  | ⟨title, kind, url, source, children⟩ =>
    (if kind = .page then [⟨title, kind, url, source, children⟩] else []) ++ pagesOf children

/-- The pages at and below items, in display order. -/
def pagesOf : List NavItem → List NavItem
  | [] => []
  | item :: rest => pages item ++ pagesOf rest

end

mutual

/-- The JSON form of an item; what is missing or empty is left out. -/
def toJson : NavItem → Json
  | ⟨title, kind, url, source, children⟩ =>
    .object
      ([("title", .string title), ("kind", .string kind.text)] ++ Json.optionalString "url" url ++
        Json.optionalString "source" source ++ Json.listField "children" (listToJson children))

/-- The JSON forms of items. -/
def listToJson : List NavItem → List Json
  | [] => []
  | item :: rest => toJson item :: listToJson rest

end

/-- The item at the end of a path of titles among the given items. -/
def findIn : List NavItem → List String → Option NavItem
  | _, [] => none
  | items, [title] => items.find? fun item => item.title == title
  | items, title :: rest =>
    (items.find? fun item => item.title == title).bind fun item => findIn item.children rest

end NavItem

/-- The navigation of a site; `generated` tells whether it comes from the source
directory rather than from a declaration. -/
structure Navigation where
  items : List NavItem
  generated : Bool
  deriving BEq, Repr, Inhabited

namespace Navigation

/-- The titles of the top level. -/
def titles (n : Navigation) : List String := n.items.map (·.title)

/-- All pages, in display order. -/
def pages (n : Navigation) : List NavItem := NavItem.pagesOf n.items

/-- The item at the end of a path of titles, which must not be empty. -/
def find? (n : Navigation) (titles : List String) : Option NavItem :=
  NavItem.findIn n.items titles

/-- The tree as text, one line for each item. -/
def text (n : Navigation) : String :=
  String.join ((NavItem.linesOf 0 n.items).map fun line => line ++ "\n")

/-- The JSON form of the tree. -/
def toJson (n : Navigation) : Json :=
  .object [("items", .array (NavItem.listToJson n.items)), ("generated", .bool n.generated)]

end Navigation
end SitePlan
