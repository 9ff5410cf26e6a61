/-
# Fonts of a theme

The fonts are those of the theme (`true`, or nothing said), none from the web
(`false`), or given by name for text and code.

Key definitions: `FontConfig`, `FontConfig.read`, `FontConfig.toJson`.
-/
import SitePlan.Json.Basic
import SitePlan.Yaml.Decode

namespace SitePlan

open Yaml (Value DecodeError)
open Yaml.Decode (Reader Check)

/-- Which fonts a theme uses. -/
inductive FontConfig
  | themeDefault
  | disabled
  | custom (text code : Option String)
  deriving DecidableEq, Repr, Inhabited

namespace FontConfig

/-- The tests of the fields. -/
def known (name : String) : Option Check :=
  if name = "text" ∨ name = "code" then
    some (Yaml.Decode.fits (Yaml.Decode.optional Yaml.Decode.text))
  else none

/-- Reads the fields of given fonts. -/
def ofEntries (entries : List (Value × Value)) : Except DecodeError FontConfig := do
  let fs ← Yaml.Decode.fields known (Yaml.Decode.refuseOther ["text", "code"]) [] entries
  let text ← Yaml.Decode.withDefault "text" none (Yaml.Decode.optional Yaml.Decode.text) fs
  let code ← Yaml.Decode.withDefault "code" none (Yaml.Decode.optional Yaml.Decode.text) fs
  .ok (custom text code)

/-- Reads a choice of fonts. -/
def read : Reader FontConfig := fun v => do
  match ← Yaml.Decode.value v with
  | .bool true => .ok themeDefault
  | .bool false => .ok disabled
  | .mapping entries => ofEntries entries
  | _ => .error (.misfit "theme.font must be `false` or a mapping of `text`/`code`")

/-- The JSON form of a choice of fonts. -/
def toJson : FontConfig → Json
  | themeDefault => .string "theme_default"
  | disabled => .string "disabled"
  | custom text code =>
    .object
      [("custom", .object (Json.optionalString "text" text ++ Json.optionalString "code" code))]

end FontConfig
end SitePlan
