/-
# Recognised identifiers

A registry lists the themes, markdown extensions and plugins that a site may
name. An extension may also be named with `markdown.extensions.` in front, a
plugin with `material/`.

Key definitions: `Registry`, `Registry.builtin`, `Registry.recognise?`,
`Registry.contains`, `Registry.add`.
-/
import SitePlan.Text.Basic

namespace SitePlan

/-- What an identifier names. -/
inductive IdentifierKind
  | theme
  | markdownExtension
  | plugin
  deriving DecidableEq, Repr

/-- The kind in words. -/
def IdentifierKind.text : IdentifierKind → String
  | theme => "theme"
  | markdownExtension => "markdown extension"
  | plugin => "plugin"

/-- The beginning that a name of the kind may carry. -/
def IdentifierKind.namespaceText? : IdentifierKind → Option String
  | theme => none
  | markdownExtension => some "markdown.extensions."
  | plugin => some "material/"

/-- The recognised identifiers of each kind. -/
structure Registry where
  themes : List String
  extensions : List String
  plugins : List String
  deriving DecidableEq, Repr, Inhabited

namespace Registry

/-- The themes that need no registration. -/
def builtinThemes : List String := ["material", "mkdocs", "readthedocs"]

/-- The markdown extensions that need no registration. -/
def builtinExtensions : List String :=
  ["abbr", "admonition", "attr_list", "codehilite", "def_list", "extra", "fenced_code",
    "footnotes", "legacy_attrs", "legacy_em", "md_in_html", "meta", "nl2br", "sane_lists",
    "smarty", "tables", "toc", "wikilinks", "pymdownx.arithmatex", "pymdownx.b64",
    "pymdownx.betterem", "pymdownx.blocks.admonition", "pymdownx.blocks.details",
    "pymdownx.blocks.html", "pymdownx.blocks.tab", "pymdownx.caret", "pymdownx.critic",
    "pymdownx.details", "pymdownx.emoji", "pymdownx.escapeall", "pymdownx.extra",
    "pymdownx.highlight", "pymdownx.inlinehilite", "pymdownx.keys", "pymdownx.magiclink",
    "pymdownx.mark", "pymdownx.progressbar", "pymdownx.saneheaders", "pymdownx.smartsymbols",
    "pymdownx.snippets", "pymdownx.striphtml", "pymdownx.superfences", "pymdownx.tabbed",
    "pymdownx.tasklist", "pymdownx.tilde"]

/-- The plugins that need no registration. -/
def builtinPlugins : List String :=
  ["search", "awesome-pages", "blog", "git-revision-date-localized", "include-markdown", "info",
    "macros", "mermaid2", "minify", "mkdocstrings", "offline", "optimize", "privacy", "redirects",
    "render_swagger", "social", "swagger-ui-tag", "tags"]

/-- The registry of what needs no registration. -/
def builtin : Registry := ⟨builtinThemes, builtinExtensions, builtinPlugins⟩

/-- The registry that recognises nothing. -/
def empty : Registry := ⟨[], [], []⟩

/-- The registered names of a kind. -/
def names (r : Registry) : IdentifierKind → List String
  | .theme => r.themes
  | .markdownExtension => r.extensions
  | .plugin => r.plugins

/-- The registered name that a name is recognised as: itself, or what follows
the beginning that the kind allows. -/
def recognise? (r : Registry) (kind : IdentifierKind) (name : String) : Option String :=
  if (r.names kind).contains name then some name
  else do
    let start ← kind.namespaceText?
    let short ← Text.dropStart? start.toList name.toList
    if (r.names kind).contains (String.ofList short) then some (String.ofList short) else none

/-- Whether a name is recognised. -/
def contains (r : Registry) (kind : IdentifierKind) (name : String) : Bool :=
  (r.recognise? kind name).isSome

/-- A list with a name that it may have already. -/
def insertName (name : String) (names : List String) : List String :=
  if names.contains name then names else names ++ [name]

/-- Registers a name. -/
def add (kind : IdentifierKind) (name : String) (r : Registry) : Registry :=
  match kind with
  | .theme => { r with themes := insertName name r.themes }
  | .markdownExtension => { r with extensions := insertName name r.extensions }
  | .plugin => { r with plugins := insertName name r.plugins }

/-- Registers several names. -/
def addAll (kind : IdentifierKind) (names : List String) (r : Registry) : Registry :=
  names.foldl (fun r name => r.add kind name) r

end Registry
end SitePlan
