/-
# Building the navigation of a site

The navigation is resolved from the declaration, or generated where there is
none. Building wants it without fault and otherwise gives the first one.

Key definitions: `Resolution`, `Config.resolveNav`, `Config.buildNav`.
-/
import SitePlan.Config.Basic
import SitePlan.Nav.Generate

namespace SitePlan

/-- A navigation with what was found on the way; entries at fault are left
out. -/
structure Resolution where
  navigation : Navigation
  findings : Findings
  deriving Repr, Inhabited

namespace Config

/-- What resolving the navigation of a site needs to know. -/
def resolver (c : Config) (source : PageSource) : Resolver := ⟨source, c.useDirectoryUrls⟩

/-- Resolves the navigation of a site; fails only if pages cannot be listed for a
generated one. -/
def resolveNav (c : Config) (source : PageSource) : Except NavError Resolution :=
  match c.nav with
  | some entries =>
    let (items, findings) := (c.resolver source).entries [] [] entries Findings.empty
    .ok ⟨⟨items, false⟩, findings⟩
  | none =>
    match (c.resolver source).generate with
    | .ok (items, findings) => .ok ⟨⟨items, true⟩, findings⟩
    | .error e => .error (.source e)

/-- The navigation of a site, or its first fault. -/
def buildNav (c : Config) (source : PageSource) : Except NavError Navigation := do
  let resolution ← c.resolveNav source
  match resolution.findings.errors with
  | [] => .ok resolution.navigation
  | e :: _ => .error e

end Config
end SitePlan
