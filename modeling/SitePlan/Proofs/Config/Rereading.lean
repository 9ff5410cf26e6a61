/-
# Scripts and palettes that have been written

A script and a palette variant leave out of their JSON what has its default, and their
readers refuse or ignore what they do not name. What has been written is read again as it
was, whichever fields were left out and whatever their texts; and so are lists of
scripts and of variants, in their order.

Key definitions: `Script.Field.name`.
Key theorems: `Script.exists_fieldsOf?`, `Script.rereads`, `PaletteToggle.rereads`,
`PaletteEntry.rereads`, `Theme.rereads_palette`, `Config.written_assets_reread`.
-/
import SitePlan.Config.Basic
import SitePlan.Proofs.Json.Shape
import SitePlan.Proofs.Yaml.KeyOrder

namespace SitePlan

open Json (Rereads SameShape)
open Yaml (Value)

/-! ### Scripts -/

namespace Script

/-- The name of a field. -/
def Field.name : Field → String
  | path => "path"
  | type => "type"
  | isAsync => "async"
  | isDeferred => "defer"

theorem Field.name_injective {f g : Field} (h : f.name = g.name) : f = g := by
  revert h
  cases f <;> cases g <;> decide

theorem fieldOfKey?_name (field : Field) :
    fieldOfKey? (.string field.name) = some (some field) := by
  cases field <;> rfl

theorem fieldOfKey?_further {s : String} (h : ∀ field : Field, s ≠ field.name) :
    fieldOfKey? (.string s) = some none := by
  unfold fieldOfKey?
  split
  · next heq => exact absurd (Value.string.inj heq) (h .path)
  · next heq => exact absurd (Value.string.inj heq) (h .type)
  · next heq => exact absurd (Value.string.inj heq) (h .isAsync)
  · next heq => exact absurd (Value.string.inj heq) (h .isDeferred)
  · rfl
  · next heq => cases heq
  · next hstring _ => exact absurd rfl (hstring s)

section Fields

variable {key v : Value} {rest : List (Value × Value)} {more : List (Field × Value)}
  {field : Field}

theorem fieldsOf?_cons_field (hkey : fieldOfKey? key = some (some field))
    (hrest : fieldsOf? rest = some more) (hnew : more.lookup field = none) :
    fieldsOf? ((key, v) :: rest) = some ((field, v) :: more) := by
  simp [fieldsOf?, hkey, hrest, hnew]

theorem fieldsOf?_cons_further (hkey : fieldOfKey? key = some none)
    (hrest : fieldsOf? rest = some more) : fieldsOf? ((key, v) :: rest) = some more := by
  simp [fieldsOf?, hkey, hrest]

/-- Where no name repeats, the fields of a script are found under their names. -/
theorem exists_fieldsOf? : ∀ {fs : List (String × Value)}, (fs.map Prod.fst).Nodup →
    ∃ gs, fieldsOf? (fs.map fun f => (.string f.1, f.2)) = some gs ∧
      ∀ field : Field, gs.lookup field = fs.lookup field.name
  | [], _ => ⟨[], rfl, fun _ => rfl⟩
  | (name, v) :: fs, hnodup => by
    obtain ⟨hnot, hnodup⟩ := List.nodup_cons.mp hnodup
    obtain ⟨gs, hgs, hlookup⟩ := exists_fieldsOf? hnodup
    by_cases hname : ∃ field : Field, name = field.name
    · obtain ⟨field, rfl⟩ := hname
      have hnew : gs.lookup field = none := by
        rw [hlookup, List.lookup_eq_none_iff]
        intro f hf
        have hmem : f.1 ∈ fs.map Prod.fst := List.mem_map_of_mem hf
        exact bne_iff_ne.mpr fun heq => hnot (heq ▸ hmem)
      refine ⟨_, fieldsOf?_cons_field (fieldOfKey?_name field) hgs hnew, fun other => ?_⟩
      rw [lookup_cons_eq, List.lookup_cons]
      by_cases hother : other = field
      · rw [hother, beq_self_eq_true, if_pos rfl]
      · have hne : other.name ≠ field.name := fun h => hother (Field.name_injective h)
        rw [beq_false_of_ne hother, if_neg hne, hlookup]
    · have hfurther : ∀ field : Field, name ≠ field.name := fun field h => hname ⟨field, h⟩
      refine ⟨gs, fieldsOf?_cons_further (fieldOfKey?_further hfurther) hgs, fun field => ?_⟩
      rw [lookup_cons_eq, if_neg (hfurther field).symm, hlookup]

end Fields

theorem toJson_eq (s : Script) : s.toJson = .object (Json.present
    [("path", some (.string s.path)), ("type", s.type.map .string),
      ("async", if s.isAsync then some (.bool true) else none),
      ("defer", if s.isDeferred then some (.bool true) else none)]) := by
  obtain ⟨path, type, isAsync, isDeferred⟩ := s
  cases type <;> cases isAsync <;> cases isDeferred <;> rfl

theorem optionalText?_written {text? : Option String} {v? : Option Value}
    (h : Option.Rel SameShape (text?.map .string) v?) : optionalText? v? = some text? := by
  rw [Json.eq_of_rel_text h]
  cases text? <;> rfl

theorem flag?_written {b : Bool} {v? : Option Value}
    (h : Option.Rel SameShape (if b then some (.bool true) else none) v?) :
    flag? v? = some b := by
  cases b with
  | false =>
    rw [Outcome.eq_none_of_rel_none h]
    rfl
  | true =>
    obtain ⟨v, rfl, hv⟩ := Outcome.exists_of_rel_some h
    rw [Json.sameShape_bool.mp hv]
    rfl

/-- **A script that has been written is read again.** -/
theorem rereads : Rereads toJson read := by
  intro s v h
  have htag : v.hasTag = false := h.untagged
  have hnames : ["path", "type", "async", "defer"].Nodup := by decide
  rw [toJson_eq] at h
  obtain ⟨fs, rfl, hnodup, -, hrows⟩ := h.exists_fields hnames
  obtain ⟨gs, hgs, hfields⟩ := exists_fieldsOf? hnodup
  simp only [List.forall_mem_cons] at hrows
  obtain ⟨hpath, htype, hasync, hdefer, -⟩ := hrows
  have hscript : ofEntries? (fs.map fun f => (.string f.1, f.2)) = some s := by
    obtain ⟨path, hpath, hshape⟩ := Outcome.exists_of_rel_some hpath
    rw [Json.sameShape_string.mp hshape] at hpath
    have hpath' : gs.lookup .path = some (.string s.path) := (hfields .path).trans hpath
    have htype' : optionalText? (gs.lookup .type) = some s.type := by
      rw [hfields]
      exact optionalText?_written htype
    have hasync' : flag? (gs.lookup .isAsync) = some s.isAsync := by
      rw [hfields]
      exact flag?_written hasync
    have hdefer' : flag? (gs.lookup .isDeferred) = some s.isDeferred := by
      rw [hfields]
      exact flag?_written hdefer
    simp [ofEntries?, hgs, hpath', htype', hasync', hdefer', text?]
  unfold read
  rw [htag]
  simp only [ofValue?, hscript]
  rfl

end Script

/-! ### Palette variants -/

theorem ColorScheme.rereads : Rereads (fun scheme => .string scheme.text) ColorScheme.read := by
  intro scheme v h
  rw [Json.sameShape_string.mp h]
  cases scheme <;> rfl

/-- **A toggle that has been written is read again.** -/
theorem PaletteToggle.rereads : Rereads toJson read := by
  intro t v h
  have hrows : t.toJson = .object (Json.present
    [("icon", some (.string t.icon)), ("name", some (.string t.name))]) := rfl
  have hnames : ["icon", "name"].Nodup := by decide
  rw [hrows] at h
  have hfields := h.read_fields hnames known (Yaml.Decode.refuseOther ["icon", "name"])
    "struct PaletteToggle"
  simp only [List.forall_mem_cons] at hfields
  obtain ⟨es, fs, hes, hfs, hicon, hname, -⟩ := hfields
    ⟨Json.rereads_text.passes rfl, Json.rereads_text.passes rfl, nofun⟩
  unfold read
  rw [hes, Outcome.ok_bind, hfs, Outcome.ok_bind, Json.rereads_text.required hicon,
    Outcome.ok_bind, Json.rereads_text.required hname, Outcome.ok_bind]

namespace PaletteEntry

theorem toJson_eq (p : PaletteEntry) : p.toJson = .object (Json.present
    [("scheme", some (.string p.scheme.text)), ("primary", p.primary.map .string),
      ("accent", p.accent.map .string), ("media", p.media.map .string),
      ("toggle", p.toggle.map PaletteToggle.toJson)]) := by
  obtain ⟨scheme, primary, accent, media, toggle⟩ := p
  cases primary <;> cases accent <;> cases media <;> cases toggle <;> rfl

/-- **A palette variant that has been written is read again.** -/
theorem rereads : Rereads toJson read := by
  intro p v h
  have htext : ∀ s : String, Json.string s ≠ .null := nofun
  have htoggle : ∀ t : PaletteToggle, t.toJson ≠ .null := nofun
  have hnames : fieldNames.Nodup := by decide
  rw [toJson_eq] at h
  have hfields := h.read_fields hnames known (Yaml.Decode.refuseOther fieldNames)
    "struct PaletteEntry"
  simp only [List.forall_mem_cons] at hfields
  obtain ⟨es, fs, hes, hfs, hscheme, hprimary, haccent, hmedia, hswitch, -⟩ := hfields
    ⟨ColorScheme.rereads.passes rfl, Json.rereads_text.passes_optional htext rfl,
      Json.rereads_text.passes_optional htext rfl, Json.rereads_text.passes_optional htext rfl,
      PaletteToggle.rereads.passes_optional htoggle rfl, nofun⟩
  have hread : ∀ {name : String} {text? : Option String},
      Option.Rel SameShape (text?.map .string) (fs.lookup name) →
      Yaml.Decode.withDefault name none readText fs = .ok text? :=
    fun hrel => Json.rereads_text.withDefault_optional htext hrel
  have hreadToggle : Yaml.Decode.withDefault "toggle" none readToggle fs = .ok p.toggle :=
    PaletteToggle.rereads.withDefault_optional htoggle hswitch
  unfold read
  rw [hes, Outcome.ok_bind, hfs, Outcome.ok_bind, ColorScheme.rereads.withDefault hscheme,
    Outcome.ok_bind, hread hprimary, Outcome.ok_bind, hread haccent, Outcome.ok_bind,
    hread hmedia, Outcome.ok_bind, hreadToggle, Outcome.ok_bind]

end PaletteEntry

namespace Theme

/-- **A palette that has been written is read again**, in its order. -/
theorem rereads_palette :
    Rereads (fun ps => .array (ps.map PaletteEntry.toJson)) readPalette := by
  intro ps v h
  have hvalue : Yaml.Decode.value v = .ok v := Yaml.Decode.value_of_untagged h.untagged
  cases h with
  | array hvs =>
    unfold readPalette
    rw [hvalue]
    exact PaletteEntry.rereads.items hvs

/-- A palette that is one variant is read again as the list of it. -/
theorem readPalette_variant {p : PaletteEntry} {v : Value} (h : p.toJson.SameShape v) :
    readPalette v = .ok [p] := by
  have hvalue : Yaml.Decode.value v = .ok v := Yaml.Decode.value_of_untagged h.untagged
  have hread : PaletteEntry.read v = .ok p := PaletteEntry.rereads p v h
  cases h with
  | object hvs hperm =>
    unfold readPalette
    rw [hvalue, Outcome.ok_bind]
    show (PaletteEntry.read _).map _ = _
    rw [hread]
    rfl

end Theme

/-! ### All that has been written -/

namespace Config

/-- **Scripts and palette variants survive being written as JSON.** Each is read again as it
was from every value of the shape of its JSON, and so are lists of them, in their order. One
variant is read as a palette too. All JSON has such a value. -/
theorem written_assets_reread :
    Rereads Script.toJson Script.read ∧
    Rereads (fun scripts => .array (scripts.map Script.toJson)) readScripts ∧
    Rereads PaletteEntry.toJson PaletteEntry.read ∧
    Rereads (fun variants => .array (variants.map PaletteEntry.toJson))
      (Yaml.Decode.list PaletteEntry.read) ∧
    Rereads (fun variants => .array (variants.map PaletteEntry.toJson)) Theme.readPalette ∧
    (∀ (p : PaletteEntry) (v : Value), p.toJson.SameShape v → Theme.readPalette v = .ok [p]) ∧
    ∀ j : Json, j.SameShape j.toValue :=
  ⟨Script.rereads, Script.rereads.list, PaletteEntry.rereads, PaletteEntry.rereads.list,
    Theme.rereads_palette, fun _ _ => Theme.readPalette_variant, Json.sameShape_toValue⟩

/-- A module script whose fields are read in another order than they were written in, and
a palette of two variants. -/
theorem written_assets_reread_darkPalette :
    let script : Script := ⟨"js/app.mjs", some "module", false, true⟩
    let written : List (String × Value) :=
      [("defer", .bool true), ("path", .string "js/app.mjs"), ("type", .string "module")]
    let palette : List PaletteEntry := [⟨.light, some "indigo", none, none, none⟩,
      ⟨.slate, none, none, some "(prefers-color-scheme: dark)", some ⟨"weather-night", "Dark"⟩⟩]
    script.toJson.SameShape (.mapping (written.map fun f => (.string f.1, f.2))) ∧
      Script.read (.mapping (written.map fun f => (.string f.1, f.2))) = .ok script ∧
      Theme.readPalette (Json.array (palette.map PaletteEntry.toJson)).toValue = .ok palette := by
  intro script written palette
  obtain ⟨hscript, -, -, -, hpalette, -, hvalue⟩ := written_assets_reread
  have hperm : written.Perm [("path", .string "js/app.mjs"), ("type", .string "module"),
      ("defer", .bool true)] := @List.perm_append_comm _ [_] [_, _]
  have hshape : script.toJson.SameShape (.mapping (written.map fun f => (.string f.1, f.2))) :=
    .object (.cons (.string _) (.cons (.string _) (.cons (.bool _) .nil))) hperm
  exact ⟨hshape, hscript _ _ hshape, hpalette _ _ (hvalue _)⟩

end Config
end SitePlan
