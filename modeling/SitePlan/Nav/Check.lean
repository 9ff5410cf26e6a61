/-
# Checking a site

A check resolves the navigation and looks at what it leaves out: pages that a
declared navigation does not list, and local scripts and style sheets that are
not there.

Key definitions: `CheckReport`, `CheckReport.isOk`, `Config.check`.
-/
import SitePlan.Nav.Build

namespace SitePlan

/-- What a check found. -/
structure CheckReport where
  navigation : Navigation
  errors : List NavError
  warnings : List String
  orphans : List String
  deriving Repr, Inhabited

/-- Whether a site may be built. Errors always stand in the way, warnings only
in strict mode. -/
def CheckReport.isOk (report : CheckReport) (strict : Bool) : Bool :=
  report.errors.isEmpty && (!strict || report.warnings.isEmpty)

namespace Config

/-- The pages that a declared navigation does not list. -/
def orphans (c : Config) (source : PageSource) (referenced : List String) :
    Except NavError (List String) :=
  if c.nav.isSome then
    match source.pages with
    | .ok pages => .ok (pages.filter fun page => !referenced.contains page)
    | .error e => .error (.source e)
  else .ok []

/-- The warning for a script or style sheet that is not there. -/
def assetWarning? (source : PageSource) (field path : String) : Option String :=
  if isExternal path then none
  else if source.holds (String.ofList (dropHere path.toList)) then none
  else some (field ++ " file `" ++ path ++ "` not found in docs_dir")

/-- The warnings for scripts and style sheets that are not there. -/
def assetWarnings (c : Config) (source : PageSource) : List String :=
  c.extraJavascript.filterMap (fun s => assetWarning? source "extra_javascript" s.path) ++
    c.extraCss.filterMap (assetWarning? source "extra_css")

/-- Checks a site; fails if its pages cannot be listed. -/
def check (c : Config) (source : PageSource) : Except NavError CheckReport := do
  let resolution ← c.resolveNav source
  let findings := resolution.findings
  let orphans ← c.orphans source findings.referenced
  .ok
    { navigation := resolution.navigation, errors := findings.errors
      warnings := c.warnings ++ findings.warnings ++ c.assetWarnings source, orphans := orphans }

end Config
end SitePlan
