/-
# Configuration errors

The ways in which a configuration can fail to load, each with its cause, and the
wording of each.

Key definitions: `Invalid`, `EnvironmentFault`, `ConfigError`,
`ConfigError.message`.
-/
import SitePlan.Config.Registry
import SitePlan.Files.Tree
import SitePlan.Yaml.Decode
import SitePlan.Yaml.Value.Read

namespace SitePlan

/-- Why a configuration is not valid. -/
inductive Invalid
  | emptyDocument
  | notMapping
  | unsupportedTag (tag field : String)
  | blankText (field : String)
  | notHttpUrl (field : String)
  | portZero
  | notHostPort (address : String)
  | docsIsConfigDirectory
  | siteInsideDocs (site docs : Path)
  | docsInsideSite (docs site : Path)
  | repeatedName (field name : String)
  | lineNumbersNotBool
  | unknownLineNumberStyle
  deriving DecidableEq, Repr

/-- The name of the extension whose options are checked. -/
def highlightName : String := "pymdownx.highlight"

/-- The styles of line numbers. -/
def lineNumberStyles : List String := ["table", "pymdownx-inline", "inline"]

/-- The wording of the cause. -/
def Invalid.message : Invalid → String
  | emptyDocument => "configuration document is empty"
  | notMapping => "configuration document must be a mapping"
  | unsupportedTag tag field => "unsupported YAML tag " ++ Yaml.tagText tag ++ " in " ++ field
  | blankText field => field ++ " cannot be empty"
  | notHttpUrl field => field ++ " must start with http:// or https://"
  | portZero => "dev_addr port cannot be 0"
  | notHostPort address => "dev_addr must be host:port, got `" ++ address ++ "`"
  | docsIsConfigDirectory => "docs_dir cannot be the directory containing the config file"
  | siteInsideDocs site docs =>
    "site_dir (" ++ site.text ++ ") cannot be inside docs_dir (" ++ docs.text ++ ")"
  | docsInsideSite docs site =>
    "docs_dir (" ++ docs.text ++ ") cannot be inside site_dir (" ++ site.text ++ ")"
  | repeatedName field name => field ++ ": `" ++ name ++ "` is listed more than once"
  | lineNumbersNotBool => highlightName ++ ".linenums must be true or false"
  | unknownLineNumberStyle =>
    highlightName ++ ".linenums_style must be one of " ++ ", ".intercalate lineNumberStyles

/-- Why an environment tag gives no value. -/
inductive EnvironmentFault
  | badArgument
  | nameNotText
  | unset (names : List String)
  deriving DecidableEq, Repr

/-- The wording of the fault. -/
def EnvironmentFault.message : EnvironmentFault → String
  | badArgument => "!ENV expects a variable name or a sequence of names"
  | nameNotText => "!ENV variable names must be strings"
  | unset names => "$\x7b" ++ "\x7d, $\x7b".intercalate names ++ "\x7d not set"

/-- Why a configuration does not load. -/
inductive ConfigError
  | notFound (path : Path)
  | file (e : FileError)
  | document (e : Yaml.ReadError)
  | decode (e : Yaml.DecodeError)
  | invalid (e : Invalid)
  | unknownIdentifier (kind : IdentifierKind) (name : String)
  | environment (field : String) (fault : EnvironmentFault)
  deriving Repr

/-- The wording of the error. -/
def ConfigError.message : ConfigError → String
  | notFound path => "Configuration file not found: " ++ path.text
  | file e => "I/O error: " ++ e.message
  | document .malformed => "YAML parse error: malformed document"
  | document .duplicateKey => "YAML parse error: duplicate entry"
  | decode e => "YAML parse error: " ++ e.message
  | invalid e => "Configuration error: " ++ e.message
  | unknownIdentifier kind name => "Unknown " ++ kind.text ++ ": " ++ name
  | environment field fault =>
    "Environment variable error in " ++ field ++ ": " ++ fault.message

/-- Fails with `unknownIdentifier` unless the name is recognised. -/
def Registry.require (r : Registry) (kind : IdentifierKind) (name : String) :
    Except ConfigError Unit :=
  if r.contains kind name then .ok () else .error (.unknownIdentifier kind name)

end SitePlan
