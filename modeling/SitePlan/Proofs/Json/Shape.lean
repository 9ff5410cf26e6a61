/-
# Reading what has been written as JSON

JSON can be read as a document: null, truth values, numbers and texts are themselves, an
array is the sequence of its items, and an object is a mapping with its names for keys. The
fields of an object have no order, so they may stand in any. Data survives being written
if its reader gives it back from every value of that shape. For a list this is so if it is
for the items, and for a record if it is for the fields, whichever are left out.

Key definitions: `Json.SameShape`, `Json.toValue`, `Json.present`, `Json.Rereads`.
Key theorems: `Json.sameShape_toValue`, `Json.SameShape.untagged`,
`Json.SameShape.exists_fields`, `Json.SameShape.read_fields`, `Json.Rereads.list`.
-/
import SitePlan.Json.Basic
import SitePlan.Proofs.Yaml.Records

namespace SitePlan

open Yaml (Value)

namespace Json

/-- The value is the JSON as a document has it, the fields of objects in any order. -/
inductive SameShape : Json → Value → Prop
  | null : SameShape .null .null
  | bool (b : Bool) : SameShape (.bool b) (.bool b)
  | int (n : Int) : SameShape (.int n) (.number (.int n))
  | float (x : Float) : SameShape (.float x) (.number (.float x))
  | string (s : String) : SameShape (.string s) (.string s)
  | array {items : List Json} {vs : List Value} : List.Forall₂ SameShape items vs →
      SameShape (.array items) (.sequence vs)
  | object {fields : List (String × Json)} {vs : List Value} {fs : List (String × Value)} :
      List.Forall₂ SameShape (fields.map Prod.snd) vs → fs.Perm ((fields.map Prod.fst).zip vs) →
      SameShape (.object fields) (.mapping (fs.map fun f => (.string f.1, f.2)))

mutual

/-- JSON as a document, with the fields of objects in their order. -/
def toValue : Json → Value
  | null => .null
  | bool b => .bool b
  | int n => .number (.int n)
  | float x => .number (.float x)
  | string s => .string s
  | array items => .sequence (itemsToValues items)
  | object fields => .mapping ((fieldsToValues fields).map fun f => (.string f.1, f.2))

/-- Each item as a document. -/
def itemsToValues : List Json → List Value
  | [] => []
  | j :: js => j.toValue :: itemsToValues js

/-- Each field with its value as a document. -/
def fieldsToValues : List (String × Json) → List (String × Value)
  | [] => []
  | (name, j) :: fields => (name, j.toValue) :: fieldsToValues fields

end

mutual

theorem sameShape_toValue : ∀ j : Json, j.SameShape j.toValue
  | null => .null
  | bool b => .bool b
  | int n => .int n
  | float x => .float x
  | string s => .string s
  | array items => .array (sameShape_itemsToValues items)
  | object fields => by
    obtain ⟨vs, hvs, hzip⟩ := sameShape_fieldsToValues fields
    rw [toValue, hzip]
    exact .object hvs (List.Perm.refl _)

theorem sameShape_itemsToValues : ∀ items : List Json,
    List.Forall₂ SameShape items (itemsToValues items)
  | [] => .nil
  | j :: js => .cons (sameShape_toValue j) (sameShape_itemsToValues js)

theorem sameShape_fieldsToValues : ∀ fields : List (String × Json),
    ∃ vs, List.Forall₂ SameShape (fields.map Prod.snd) vs ∧
      fieldsToValues fields = (fields.map Prod.fst).zip vs
  | [] => ⟨[], .nil, rfl⟩
  | (name, j) :: fields => by
    obtain ⟨vs, hvs, hzip⟩ := sameShape_fieldsToValues fields
    refine ⟨j.toValue :: vs, .cons (sameShape_toValue j) hvs, ?_⟩
    rw [fieldsToValues, hzip]
    rfl

end

@[simp] theorem sameShape_string {s : String} {v : Value} :
    SameShape (.string s) v ↔ v = .string s := by
  constructor
  · rintro ⟨⟩
    rfl
  · rintro rfl
    exact .string s

@[simp] theorem sameShape_bool {b : Bool} {v : Value} : SameShape (.bool b) v ↔ v = .bool b := by
  constructor
  · rintro ⟨⟩
    rfl
  · rintro rfl
    exact .bool b

/-- A text that may be left out is there exactly if its value is. -/
theorem eq_of_rel_text {text? : Option String} {v? : Option Value}
    (h : Option.Rel SameShape (text?.map .string) v?) : v? = text?.map .string := by
  cases text? with
  | none => exact Outcome.eq_none_of_rel_none h
  | some text =>
    obtain ⟨v, rfl, hv⟩ := Outcome.exists_of_rel_some h
    rw [sameShape_string.mp hv]
    rfl

/-! ### No tags -/

mutual

theorem SameShape.untagged : ∀ {v : Value} {j : Json}, j.SameShape v → v.hasTag = false
  | .null, _, _ | .bool _, _, _ | .number _, _, _ | .string _, _, _ => rfl
  | .sequence vs, _, h => by
    have hitems : ∀ v ∈ vs, ∃ j, SameShape j v := by
      intro v hv
      cases h with
      | array h =>
        obtain ⟨j, -, hj⟩ := Outcome.exists_of_mem_forall₂ h hv
        exact ⟨j, hj⟩
    exact items_untagged vs hitems
  | .mapping entries, _, h => by
    have hentries : ∀ e ∈ entries, (∃ name, e.1 = .string name) ∧ ∃ j, SameShape j e.2 := by
      intro e he
      cases h with
      | object h hperm =>
        obtain ⟨f, hf, rfl⟩ := List.mem_map.mp he
        have hv : f.2 ∈ _ := (List.of_mem_zip (hperm.mem_iff.mp hf)).2
        obtain ⟨j, -, hj⟩ := Outcome.exists_of_mem_forall₂ h hv
        exact ⟨⟨f.1, rfl⟩, j, hj⟩
    exact entries_untagged entries hentries
  | .tagged _ _, _, h => nomatch h

theorem items_untagged : ∀ vs : List Value, (∀ v ∈ vs, ∃ j, SameShape j v) →
    Value.itemsHaveTag vs = false
  | [], _ => rfl
  | v :: vs, h => by
    obtain ⟨⟨j, hj⟩, hrest⟩ := List.forall_mem_cons.mp h
    rw [Value.itemsHaveTag, hj.untagged, items_untagged vs hrest, Bool.or_self]

theorem entries_untagged : ∀ entries : List (Value × Value),
    (∀ e ∈ entries, (∃ name, e.1 = .string name) ∧ ∃ j, SameShape j e.2) →
    Value.entriesHaveTag entries = false
  | [], _ => rfl
  | (_, v) :: entries, h => by
    obtain ⟨⟨⟨name, rfl⟩, j, hj⟩, hrest⟩ := List.forall_mem_cons.mp h
    rw [Value.entriesHaveTag, hj.untagged, entries_untagged entries hrest]
    rfl

end

/-! ### Fields -/

section Fields

variable {rows : List (String × Option Json)} {v : Value}

/-- The fields of a row of named values, without those that are left out. -/
def present (rows : List (String × Option Json)) : List (String × Json) :=
  rows.flatMap fun r => optionalField r.1 r.2

theorem mem_present {f : String × Json} : f ∈ present rows ↔ (f.1, some f.2) ∈ rows := by
  have hfield : ∀ r : String × Option Json, f ∈ optionalField r.1 r.2 ↔ r = (f.1, some f.2) := by
    rintro ⟨name, _ | j⟩
    · simp [optionalField]
    · simp [optionalField, Prod.ext_iff, eq_comm]
  simp only [present, List.mem_flatMap, hfield, exists_eq_right]

theorem names_present : ∀ rows : List (String × Option Json),
    ((present rows).map Prod.fst).Sublist (rows.map Prod.fst)
  | [] => List.Sublist.refl _
  | (_, none) :: rows => (names_present rows).cons _
  | (name, some _) :: rows => (names_present rows).cons_cons name

theorem lookup_present (hnodup : (rows.map Prod.fst).Nodup) {r : String × Option Json}
    (hr : r ∈ rows) : (present rows).lookup r.1 = r.2 := by
  refine Option.ext fun j => ?_
  rw [lookup_eq_some_iff_mem (hnodup.sublist (names_present rows)), mem_present]
  constructor
  · intro hj
    have hrow : (r.1, some j) = r := List.inj_on_of_nodup_map hnodup hj hr rfl
    rw [← hrow]
  · intro hj
    rwa [← hj]

theorem lookup_zip (n : String) : ∀ {fields : List (String × Json)} {vs : List Value},
    List.Forall₂ SameShape (fields.map Prod.snd) vs →
    Option.Rel SameShape (fields.lookup n) (((fields.map Prod.fst).zip vs).lookup n)
  | [], _, .nil => .none
  | (name, j) :: fields, v :: vs, .cons hv hvs => by
    have ih := lookup_zip n hvs
    rw [List.map_cons, List.zip_cons_cons, lookup_cons_eq, lookup_cons_eq]
    by_cases hn : n = name
    · rw [if_pos hn, if_pos hn]
      exact .some hv
    · rw [if_neg hn, if_neg hn]
      exact ih

/-- An object is a mapping with a value for each row that is not left out, and no others. -/
theorem SameShape.exists_fields (h : SameShape (.object (present rows)) v)
    (hnodup : (rows.map Prod.fst).Nodup) : ∃ fs : List (String × Value),
      v = .mapping (fs.map fun f => (.string f.1, f.2)) ∧ (fs.map Prod.fst).Nodup ∧
      (∀ f ∈ fs, ∃ j, (f.1, some j) ∈ rows ∧ j.SameShape f.2) ∧
      ∀ r ∈ rows, Option.Rel SameShape r.2 (fs.lookup r.1) := by
  have hnames := hnodup.sublist (names_present rows)
  cases h with
  | @object _ vs fs hvs hperm =>
    have hlength : ((present rows).map Prod.fst).length = vs.length := by
      rw [← hvs.length_eq, List.length_map, List.length_map]
    have hzip : ((((present rows).map Prod.fst).zip vs).map Prod.fst).Nodup := by
      rwa [List.map_fst_zip (Nat.le_of_eq hlength)]
    have hfs : (fs.map Prod.fst).Nodup := (hperm.map Prod.fst).nodup_iff.mpr hzip
    have hlookup : ∀ n, Option.Rel SameShape ((present rows).lookup n) (fs.lookup n) := by
      intro n
      have hsame : fs.lookup n = (((present rows).map Prod.fst).zip vs).lookup n := by
        refine Option.ext fun w => ?_
        rw [lookup_eq_some_iff_mem hfs, lookup_eq_some_iff_mem hzip, hperm.mem_iff]
      rw [hsame]
      exact lookup_zip n hvs
    refine ⟨fs, rfl, hfs, fun f hf => ?_, fun r hr => ?_⟩
    · have hrel := hlookup f.1
      rw [(lookup_eq_some_iff_mem hfs).mpr hf] at hrel
      cases hj : (present rows).lookup f.1 with
      | none => cases Outcome.eq_none_of_rel_none (hj ▸ hrel)
      | some j =>
        obtain ⟨w, hw, hshape⟩ := Outcome.exists_of_rel_some (hj ▸ hrel)
        obtain rfl := Option.some.inj hw
        exact ⟨j, mem_present.mp ((lookup_eq_some_iff_mem hnames).mp hj), hshape⟩
    · rw [← lookup_present hnodup hr]
      exact hlookup r.1

end Fields

/-! ### Readers -/

/-- What has been written is read again as it was. -/
def Rereads {α : Type} (toJson : α → Json) (read : Yaml.Decode.Reader α) : Prop :=
  ∀ a v, (toJson a).SameShape v → read v = .ok a

section Readers

open Yaml.Decode

variable {α : Type} {toJson : α → Json} {read : Reader α}

theorem rereads_text : Rereads .string text := by
  intro s v h
  rw [sameShape_string] at h
  rw [h]
  rfl

/-- A reader for what may be missing reads what is there. -/
theorem Rereads.optional (h : Rereads toJson read) (hnull : ∀ a, toJson a ≠ .null) {a : α}
    {v : Value} (hv : (toJson a).SameShape v) : Yaml.Decode.optional read v = .ok (some a) := by
  have hread : Yaml.Decode.optional read v = (read v).map some := by
    cases v with
    | null =>
      generalize hj : toJson a = j at hv
      cases hv
      exact absurd hj (hnull a)
    | _ => rfl
  rw [hread, h a v hv]
  rfl

theorem Rereads.items (h : Rereads toJson read) {as : List α} {vs : List Value}
    (hvs : List.Forall₂ SameShape (as.map toJson) vs) : vs.mapM read = .ok as := by
  rw [List.forall₂_map_left_iff] at hvs
  have hreads : List.Forall₂ (fun v a => read v = .ok a) vs as :=
    (hvs.imp fun a v => h a v).flip
  exact (Outcome.mapM_eq_ok_iff_forall₂ fun _ _ => Iff.rfl).mpr hreads

/-- **A list survives being written if its items do.** -/
theorem Rereads.list (h : Rereads toJson read) :
    Rereads (fun as => .array (as.map toJson)) (list read) := by
  intro as v hv
  cases hv with
  | array hvs => exact h.items hvs

variable {known : String → Option Check} {other : String → Check} {name : String} {v : Value}

/-- A value that can be read passes the test of its field. -/
theorem passes_of_read (hknown : known name = some (fits read)) {a : α} (h : read v = .ok a) :
    Passes known other (name, v) := by
  unfold Passes
  rw [hknown]
  show fits read v = .ok ()
  rw [fits, h]
  rfl

/-- A row of what has been written passes the test of its field. -/
theorem Rereads.passes (h : Rereads toJson read) (hknown : known name = some (fits read)) {a : α} :
    ∀ j ∈ some (toJson a), ∀ w, j.SameShape w → Passes known other (name, w) := by
  rintro _ ⟨⟩ w hw
  exact passes_of_read hknown (h a w hw)

theorem Rereads.passes_optional (h : Rereads toJson read) (hnull : ∀ a, toJson a ≠ .null)
    (hknown : known name = some (fits (Yaml.Decode.optional read))) {a? : Option α} :
    ∀ j ∈ a?.map toJson, ∀ w, j.SameShape w → Passes known other (name, w) := by
  intro j hj w hw
  obtain ⟨a, -, rfl⟩ := Option.map_eq_some_iff.mp hj
  exact passes_of_read hknown (h.optional hnull hw)

/-- **The fields of a record that has been written are read.** Each of them passes its
test; those left out are missing. -/
theorem SameShape.read_fields {rows : List (String × Option Json)}
    (h : SameShape (.object (present rows)) v) (hnodup : (rows.map Prod.fst).Nodup)
    (known : String → Option Check) (other : String → Check) (expected : String)
    (hpasses : ∀ r ∈ rows, ∀ j ∈ r.2, ∀ w, j.SameShape w → Passes known other (r.1, w)) :
    ∃ es fs, entries expected v = .ok es ∧ fields known other [] es = .ok fs ∧
      ∀ r ∈ rows, Option.Rel SameShape r.2 (fs.lookup r.1) := by
  obtain ⟨fs, rfl, hfs, hrows, hlookup⟩ := h.exists_fields hnodup
  refine ⟨_, fs, rfl, fields_eq_ok.mpr ⟨?_, ?_, ?_, hfs.filter _, fun _ _ => List.not_mem_nil⟩,
    hlookup⟩
  · exact List.forall_mem_map.mpr fun _ _ => rfl
  · rw [List.filterMap_map]
    exact List.filterMap_some.symm
  · intro f hf
    obtain ⟨j, hj, hshape⟩ := hrows f hf
    exact hpasses _ hj j rfl f.2 hshape

variable {fs : List (String × Value)}

theorem Rereads.required (h : Rereads toJson read) {a : α}
    (hrel : Option.Rel SameShape (some (toJson a)) (fs.lookup name)) :
    Yaml.Decode.required name read fs = .ok a := by
  obtain ⟨v, hv, hshape⟩ := Outcome.exists_of_rel_some hrel
  unfold Yaml.Decode.required
  rw [hv]
  exact h a v hshape

/-- A field with a default is read as it was where it is there. -/
theorem Rereads.withDefault (h : Rereads toJson read) {a default : α}
    (hrel : Option.Rel SameShape (some (toJson a)) (fs.lookup name)) :
    Yaml.Decode.withDefault name default read fs = .ok a := by
  obtain ⟨v, hv, hshape⟩ := Outcome.exists_of_rel_some hrel
  unfold Yaml.Decode.withDefault
  rw [hv]
  exact h a v hshape

/-- A field that is left out is read as nothing, and another as it was. -/
theorem Rereads.withDefault_optional (h : Rereads toJson read) (hnull : ∀ a, toJson a ≠ .null)
    {a? : Option α} (hrel : Option.Rel SameShape (a?.map toJson) (fs.lookup name)) :
    Yaml.Decode.withDefault name none (Yaml.Decode.optional read) fs = .ok a? := by
  unfold Yaml.Decode.withDefault
  cases a? with
  | none => rw [Outcome.eq_none_of_rel_none hrel]
  | some a =>
    obtain ⟨v, hv, hshape⟩ := Outcome.exists_of_rel_some hrel
    rw [hv]
    exact h.optional hnull hshape

end Readers

end Json
end SitePlan
