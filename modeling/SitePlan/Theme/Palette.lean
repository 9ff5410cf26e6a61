/-
# Palette variants

A palette variant is a colour scheme with optional colours, a media query that
selects it and a toggle that readers use to switch to it. Both records refuse
fields that they do not name.

Key definitions: `ColorScheme`, `PaletteToggle`, `PaletteEntry`,
`PaletteEntry.read`, `PaletteEntry.toJson`.
-/
import SitePlan.Json.Basic
import SitePlan.Yaml.Decode

namespace SitePlan

open Yaml (Value DecodeError)
open Yaml.Decode (Reader Check)

/-- A colour scheme: the light default or the dark slate. -/
inductive ColorScheme
  | light
  | slate
  deriving DecidableEq, Repr, Inhabited

namespace ColorScheme

/-- The scheme as a document writes it. -/
def text : ColorScheme → String
  | light => "default"
  | slate => "slate"

/-- Whether the scheme is dark. -/
def isDark : ColorScheme → Bool
  | light => false
  | slate => true

/-- The scheme with the given name. -/
def ofText? (name : String) : Option ColorScheme :=
  if name = "default" then some light else if name = "slate" then some slate else none

/-- Reads a scheme. -/
def read : Reader ColorScheme := fun v => do
  let name ← Yaml.Decode.text v
  match ofText? name with
  | some scheme => .ok scheme
  | none => .error (.misfit
      ("unknown palette scheme `" ++ name ++ "`, expected `default` or `slate`"))

end ColorScheme

/-- The switch to a palette variant. -/
structure PaletteToggle where
  icon : String
  name : String
  deriving DecidableEq, Repr, Inhabited

namespace PaletteToggle

/-- The tests of the fields. -/
def known (name : String) : Option Check :=
  if name = "icon" ∨ name = "name" then some (Yaml.Decode.fits Yaml.Decode.text) else none

/-- Reads a toggle. -/
def read : Reader PaletteToggle := fun v => do
  let entries ← Yaml.Decode.entries "struct PaletteToggle" v
  let fs ← Yaml.Decode.fields known (Yaml.Decode.refuseOther ["icon", "name"]) [] entries
  let icon ← Yaml.Decode.required "icon" Yaml.Decode.text fs
  let name ← Yaml.Decode.required "name" Yaml.Decode.text fs
  .ok ⟨icon, name⟩

/-- The JSON form of a toggle. -/
def toJson (t : PaletteToggle) : Json :=
  .object [("icon", .string t.icon), ("name", .string t.name)]

end PaletteToggle

/-- A palette variant. -/
structure PaletteEntry where
  scheme : ColorScheme
  primary : Option String
  accent : Option String
  media : Option String
  toggle : Option PaletteToggle
  deriving DecidableEq, Repr, Inhabited

namespace PaletteEntry

/-- The names of the fields. -/
def fieldNames : List String := ["scheme", "primary", "accent", "media", "toggle"]

/-- Reads an optional text. -/
def readText : Reader (Option String) := Yaml.Decode.optional Yaml.Decode.text

/-- Reads an optional toggle. -/
def readToggle : Reader (Option PaletteToggle) := Yaml.Decode.optional PaletteToggle.read

/-- The tests of the fields. -/
def known (name : String) : Option Check :=
  if name = "scheme" then some (Yaml.Decode.fits ColorScheme.read)
  else if name = "toggle" then some (Yaml.Decode.fits readToggle)
  else if fieldNames.contains name then some (Yaml.Decode.fits readText)
  else none

/-- Reads a palette variant. -/
def read : Reader PaletteEntry := fun v => do
  let entries ← Yaml.Decode.entries "struct PaletteEntry" v
  let fs ← Yaml.Decode.fields known (Yaml.Decode.refuseOther fieldNames) [] entries
  let scheme ← Yaml.Decode.withDefault "scheme" .light ColorScheme.read fs
  let primary ← Yaml.Decode.withDefault "primary" none readText fs
  let accent ← Yaml.Decode.withDefault "accent" none readText fs
  let media ← Yaml.Decode.withDefault "media" none readText fs
  let toggle ← Yaml.Decode.withDefault "toggle" none readToggle fs
  .ok ⟨scheme, primary, accent, media, toggle⟩

/-- The JSON form of a palette variant; what is missing is left out. -/
def toJson (p : PaletteEntry) : Json :=
  .object
    ([("scheme", .string p.scheme.text)] ++ Json.optionalString "primary" p.primary ++
      Json.optionalString "accent" p.accent ++ Json.optionalString "media" p.media ++
      Json.optionalField "toggle" (p.toggle.map PaletteToggle.toJson))

end PaletteEntry
end SitePlan
