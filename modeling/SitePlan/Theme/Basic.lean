/-
# Themes

A theme is written as its name alone or as a mapping. The mapping needs a name
or a directory of overrides; it may hold further settings, which are kept. A
palette is one variant or a list of them; a feature counts once, however often
it is listed.

Key definitions: `Theme`, `Theme.read`, `Theme.paletteWarnings`, `Theme.toJson`.
-/
import SitePlan.Config.Script
import SitePlan.Text.Basic
import SitePlan.Theme.Font
import SitePlan.Theme.Palette
import SitePlan.Yaml.Value.Json

namespace SitePlan

open Yaml (Value DecodeError)
open Yaml.Decode (Reader Check)

/-- A theme. -/
structure Theme where
  name : String
  palette : List PaletteEntry
  font : FontConfig
  features : List String
  customDir : Option String
  logo : Option String
  favicon : Option String
  language : Option String
  options : List (String × Value)
  deriving Repr, Inhabited

namespace Theme

/-- The theme of a document that names none. -/
def defaultName : String := "mkdocs"

/-- A theme with default settings. -/
def named (name : String) : Theme :=
  { name := name, palette := [], font := .themeDefault, features := [], customDir := none
    logo := none, favicon := none, language := none, options := [] }

/-- Reads an optional text. -/
def readText : Reader (Option String) := Yaml.Decode.optional Yaml.Decode.text

/-- Reads a list of texts. -/
def readTexts : Reader (List String) := Yaml.Decode.list Yaml.Decode.text

/-- Reads a palette. -/
def readPalette : Reader (List PaletteEntry) := fun v => do
  match ← Yaml.Decode.value v with
  | .null => .ok []
  | .mapping entries => (PaletteEntry.read (.mapping entries)).map fun e => [e]
  | .sequence items => items.mapM PaletteEntry.read
  | _ => .error (.misfit "theme.palette must be a mapping or a list of mappings")

/-- The tests of the fields with a meaning of their own. -/
def known (name : String) : Option Check :=
  if name = "palette" then some (Yaml.Decode.fits readPalette)
  else if name = "font" then some (Yaml.Decode.fits FontConfig.read)
  else if name = "features" then some (Yaml.Decode.fits readTexts)
  else if ["name", "custom_dir", "logo", "favicon", "language"].contains name then
    some (Yaml.Decode.fits readText)
  else none

/-- The test of a further setting: no tag may stand in it. -/
def otherSetting : String → Check := fun _ v =>
  if v.hasTag then .error tagNotAllowed else .ok ()

/-- The further settings in increasing order of names. -/
def settings (fs : List (String × Value)) : List (String × Value) :=
  (fs.filter fun f => (known f.1).isNone).foldl (fun acc f => Text.insertSorted f.1 f.2 acc) []

/-- The name of a theme by its fields. -/
def chooseName : Option String → Option String → Except DecodeError String
  | some name, _ => .ok name
  | none, some _ => .ok defaultName
  | none, none => .error (.misfit "theme requires a `name` or a `custom_dir`")

/-- Reads the fields of a theme. -/
def ofEntries (entries : List (Value × Value)) : Except DecodeError Theme := do
  let fs ← Yaml.Decode.fields known otherSetting [] entries
  let name ← Yaml.Decode.withDefault "name" none readText fs
  let palette ← Yaml.Decode.withDefault "palette" [] readPalette fs
  let font ← Yaml.Decode.withDefault "font" .themeDefault FontConfig.read fs
  let features ← Yaml.Decode.withDefault "features" [] readTexts fs
  let customDir ← Yaml.Decode.withDefault "custom_dir" none readText fs
  let logo ← Yaml.Decode.withDefault "logo" none readText fs
  let favicon ← Yaml.Decode.withDefault "favicon" none readText fs
  let language ← Yaml.Decode.withDefault "language" none readText fs
  let name ← chooseName name customDir
  .ok
    { name := name, palette := palette, font := font, features := Text.sortedNames features
      customDir := customDir, logo := logo, favicon := favicon, language := language
      options := settings fs }

/-- Reads a theme. -/
def read : Reader Theme := fun v => do
  match ← Yaml.Decode.value v with
  | .string name => .ok (named name)
  | .mapping entries => ofEntries entries
  | _ => .error (.misfit "theme must be a name or a mapping")

/-- The warnings for variants that repeat the scheme of the one before; `i` is
the place of the first of them. -/
def repeatWarnings : Nat → List PaletteEntry → List String
  | i, p :: q :: rest =>
    (if p.scheme = q.scheme then
      ["theme.palette[" ++ toString (i + 1) ++ "] repeats scheme `" ++ q.scheme.text ++
        "` of the previous variant"]
    else []) ++ repeatWarnings (i + 1) (q :: rest)
  | _, _ => []

/-- The warnings for variants without a toggle; `i` is the place of the first of
them. -/
def toggleWarnings : Nat → List PaletteEntry → List String
  | i, p :: rest =>
    (if p.toggle.isNone then
      ["theme.palette[" ++ toString i ++ "] has no toggle; users cannot switch to it"]
    else []) ++ toggleWarnings (i + 1) rest
  | _, [] => []

/-- Of two or more variants, neighbours should differ in scheme, and each should
have a toggle. -/
def paletteWarnings (t : Theme) : List String :=
  if t.palette.length < 2 then [] else repeatWarnings 0 t.palette ++ toggleWarnings 0 t.palette

/-- The JSON forms of settings. -/
def settingsToJson : List (String × Value) → Except Yaml.KeyError (List (String × Json))
  | [] => .ok []
  | (name, v) :: rest => do
    let v ← v.toJson
    let rest ← settingsToJson rest
    .ok ((name, v) :: rest)

/-- The JSON form of a theme; what is missing or empty is left out. -/
def toJson (t : Theme) : Except Yaml.KeyError Json := do
  let options ← settingsToJson t.options
  .ok (.object
    ([("name", .string t.name)] ++ Json.listField "palette" (t.palette.map PaletteEntry.toJson) ++
      [("font", t.font.toJson)] ++ Json.listField "features" (t.features.map .string) ++
      Json.optionalString "custom_dir" t.customDir ++ Json.optionalString "logo" t.logo ++
      Json.optionalString "favicon" t.favicon ++ Json.optionalString "language" t.language ++
      (if options.isEmpty then [] else [("options", .object options)])))

end Theme
end SitePlan
