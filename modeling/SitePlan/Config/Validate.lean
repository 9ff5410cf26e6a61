/-
# Validation

A configuration is valid when its texts, addresses and directories make sense
and every identifier it names is recognised and named once. The first violated
rule is reported; the warnings of a valid one are those of its palette.

The development address is a host, a colon and a port: everything before the
last colon is the host, and the port is a number from 1 to 65535 with at most
one plus sign in front.

Key definitions: `Config.validate`, `port?`.
-/
import SitePlan.Config.Basic
import SitePlan.Config.Error
import SitePlan.Text.Basic

namespace SitePlan

/-- The number that digits stand for, if it is below 65536. -/
def smallNumber? (ds : List Char) : Option Nat :=
  ds.foldlM (fun n c =>
    if c.isDigit then
      let m := 10 * n + (c.toNat - '0'.toNat)
      if m < 65536 then some m else none
    else none) 0

/-- The port that a text stands for: digits, after at most one plus sign. -/
def port? (cs : List Char) : Option Nat :=
  let ds := match cs with
    | '+' :: ds => ds
    | ds => ds
  if ds = [] then none else smallNumber? ds

/-- The port of an address, if it is a host, a colon and a port. -/
def addressPort? (address : String) : Option Nat := do
  let (host, port) ← Text.splitLast? ':' address.toList
  if host = [] then none else port? port

namespace Config

/-- Wants a text that is not blank. -/
def requireText (field text : String) : Except ConfigError Unit :=
  if Text.isBlankText text then .error (.invalid (.blankText field)) else .ok ()

/-- Whether a text begins like a web address. -/
def isHttpUrl (url : String) : Bool :=
  Text.startsWith "http://".toList url.toList || Text.startsWith "https://".toList url.toList

/-- Wants a web address, if there is one. -/
def requireUrl (field : String) : Option String → Except ConfigError Unit
  | none => .ok ()
  | some url => if isHttpUrl url then .ok () else .error (.invalid (.notHttpUrl field))

/-- Checks name and addresses. -/
def validateSite (c : Config) : Except ConfigError Unit := do
  requireText "site_name" c.siteName
  requireUrl "site_url" c.siteUrl
  requireUrl "repo_url" c.repoUrl
  match addressPort? c.devAddr with
  | none => .error (.invalid (.notHostPort c.devAddr))
  | some 0 => .error (.invalid .portZero)
  | some _ => .ok ()

/-- Checks that sources and output are apart. -/
def validatePaths (p : ResolvedPaths) : Except ConfigError Unit :=
  if p.docsDir.same p.configDir then .error (.invalid .docsIsConfigDirectory)
  else if p.siteDir.isWithin p.docsDir then
    .error (.invalid (.siteInsideDocs p.siteDir p.docsDir))
  else if p.docsDir.isWithin p.siteDir then
    .error (.invalid (.docsInsideSite p.docsDir p.siteDir))
  else .ok ()

/-- Checks that each name is recognised and none is among those `seen` or
repeated. -/
def validateNames (kind : IdentifierKind) (field : String) (r : Registry) :
    List String → List NamedEntry → Except ConfigError Unit
  | _, [] => .ok ()
  | seen, e :: rest => do
    r.require kind e.name
    if seen.contains e.name then .error (.invalid (.repeatedName field e.name))
    else validateNames kind field r (e.name :: seen) rest

/-- Checks the options for highlighting code. -/
def validateHighlight (e : NamedEntry) : Except ConfigError Unit :=
  if (e.option? "linenums").any fun v => v.bool?.isNone then
    .error (.invalid .lineNumbersNotBool)
  else if (e.option? "linenums_style").any fun v =>
      !v.text?.any fun s => lineNumberStyles.contains s then
    .error (.invalid .unknownLineNumberStyle)
  else .ok ()

/-- Checks the options of every extension for highlighting code. -/
def validateHighlights : List NamedEntry → Except ConfigError Unit
  | [] => .ok ()
  | e :: rest => do
    if e.name = highlightName then validateHighlight e
    validateHighlights rest

/-- Checks that none of the texts is blank. -/
def validateTexts (field : String) : List String → Except ConfigError Unit
  | [] => .ok ()
  | s :: rest => do
    requireText field s
    validateTexts field rest

/-- Checks a configuration against the recognised identifiers and gives the
warnings for a valid one. -/
def validate (c : Config) (r : Registry) : Except ConfigError (List String) := do
  c.validateSite
  validatePaths c.paths
  r.require .theme c.theme.name
  validateNames .markdownExtension "markdown_extensions" r [] c.markdownExtensions
  validateHighlights c.markdownExtensions
  validateNames .plugin "plugins" r [] c.plugins
  validateTexts "extra_javascript path" (c.extraJavascript.map Script.path)
  validateTexts "extra_css path" c.extraCss
  .ok c.theme.paletteWarnings

end Config
end SitePlan
