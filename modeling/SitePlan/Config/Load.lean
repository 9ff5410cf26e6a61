/-
# Loading a configuration

A text becomes a configuration in fixed steps: it is read as YAML, environment
tags are replaced, the fields are read, directories are placed relative to the
file, settings override, and the result is validated. A top-level key with no
meaning gives a warning.

Without a given file, the nearest directory with a configuration file counts:
the working directory, then the directories above it.

Key definitions: `Settings`, `Config.ofText`, `Config.discover?`, `Config.load`.
-/
import SitePlan.Config.Environment
import SitePlan.Config.Validate

namespace SitePlan

open Yaml (Value)

/-- What overrides a document, and the identifiers recognised beyond the builtin
ones. -/
structure Settings where
  docsDir : Option Path
  siteDir : Option Path
  siteUrl : Option String
  strict : Option Bool
  allowExtensions : List String
  allowPlugins : List String
  allowThemes : List String
  deriving DecidableEq, Repr, Inhabited

namespace Settings

/-- Settings that change nothing. -/
def empty : Settings := ⟨none, none, none, none, [], [], []⟩

/-- The builtin identifiers and those allowed beyond them. -/
def registry (s : Settings) : Registry :=
  ((Registry.builtin.addAll .markdownExtension s.allowExtensions).addAll .plugin s.allowPlugins)
    |>.addAll .theme s.allowThemes

end Settings

namespace Config

/-- The names of configuration files, the preferred one first. -/
def fileNames : List String := ["mkdocs.yml", "mkdocs.yaml"]

/-- The top-level keys with a meaning. -/
def knownKeys : List String :=
  ["site_name", "site_url", "site_description", "site_author", "copyright", "repo_url",
    "repo_name", "edit_uri", "edit_uri_template", "docs_dir", "site_dir", "use_directory_urls",
    "strict", "dev_addr", "nav", "theme", "markdown_extensions", "extra_javascript", "extra_css",
    "extra_templates", "plugins", "extra", "hooks", "watch", "validation", "exclude_docs",
    "not_in_nav", "draft_docs", "remote_branch", "remote_name"]

/-- The top-level keys without a meaning, in order. -/
def unknownKeys (entries : List (Value × Value)) : List String :=
  (entries.filterMap fun e => e.1.text?).filter fun key => !knownKeys.contains key

/-- Puts the directories relative to that of the configuration file. -/
def placeIn (dir : Path) (c : Config) : Config :=
  { c with paths := ⟨dir, dir.join ⟨c.docsDir⟩, dir.join ⟨c.siteDir⟩⟩ }

/-- Applies settings. -/
def override (s : Settings) (c : Config) : Config :=
  { c with
    siteUrl := s.siteUrl.orElse fun _ => c.siteUrl
    strict := s.strict.getD c.strict
    paths :=
      { c.paths with
        docsDir := s.docsDir.getD c.paths.docsDir
        siteDir := s.siteDir.getD c.paths.siteDir } }

/-- The fields of a document that is a mapping, tags replaced. -/
def documentEntries (lookup : String → Option String) (text : String) :
    Except ConfigError Value :=
  if Text.isBlankText text then .error (.invalid .emptyDocument)
  else match Value.ofText text with
    | .error e => .error (.document e)
    | .ok v =>
      if v.entries?.isSome then Environment.resolve lookup "" v
      else .error (.invalid .notMapping)

/-- Reads, places, overrides and validates the fields of a document. -/
def ofDocument (dir : Path) (s : Settings) (v : Value) : Except ConfigError Config := do
  let c ← (Config.read v).mapError ConfigError.decode
  let unknown := (unknownKeys (v.entries?.getD [])).map fun key =>
    "unrecognized configuration key `" ++ key ++ "`"
  let c := (c.placeIn dir).override s
  let warnings ← c.validate s.registry
  .ok { c with warnings := unknown ++ warnings }

/-- The configuration of a text whose file is in the given directory. -/
def ofText (lookup : String → Option String) (dir : Path) (s : Settings) (text : String) :
    Except ConfigError Config := do
  let v ← documentEntries lookup text
  ofDocument dir s v

/-- The configuration file in a directory, if there is one. -/
def fileIn? (h : Host) (dir : Path) : Option Path :=
  (fileNames.map fun name => dir.join ⟨name⟩).find? h.isFile

/-- The configuration file in the nearest of a directory and its parents. The
first argument bounds the number of parents. -/
def discoverFrom (h : Host) : Nat → Path → Option Path
  | 0, dir => fileIn? h dir
  | n + 1, dir =>
    match fileIn? h dir with
    | some file => some file
    | none =>
      match dir.parent? with
      | some parent => discoverFrom h n parent
      | none => none

/-- The configuration file in the nearest of a directory and its parents. -/
def discover? (h : Host) (dir : Path) : Option Path :=
  discoverFrom h dir.chars.length dir

/-- Loads the configuration of a file. -/
def loadFile (h : Host) (s : Settings) (path : Path) : Except ConfigError Config := do
  let text ← (h.readText path).mapError ConfigError.file
  let c ← ofText h.lookupVariable path.directory s text
  .ok { c with configPath := some path }

/-- Loads the configuration of the given file, or of the nearest one. -/
def load (h : Host) (path : Option Path) (s : Settings) : Except ConfigError Config :=
  match path with
  | some path => if h.present path then loadFile h s path else .error (.notFound path)
  | none =>
    match discover? h h.workingDirectory with
    | some path => loadFile h s path
    | none => .error (.notFound (h.workingDirectory.join ⟨"mkdocs.yml"⟩))

end Config
end SitePlan
