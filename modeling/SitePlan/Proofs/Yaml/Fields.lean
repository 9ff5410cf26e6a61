/-
# Setting a field of a mapping

A value is set in a mapping in the place of the one that the mapping has for the
key, or at the end. Reading the fields of a mapping keeps their order and fails at
the first misfit, so where the value that is set and the one in its place are of
the type of the field, reading the edited mapping fails as reading the mapping
does, and otherwise gives the same fields with the value set.

Key definitions: `Yaml.Value.setField`, `Yaml.Value.BareKeys`, `Yaml.Decode.assign`,
`Yaml.Decode.Replaceable`.
Key theorems: `Yaml.Value.lookup_setField`, `Yaml.Decode.lookup_assignAll_of_mem`,
`Yaml.Decode.fields_checked`, `Yaml.Decode.fields_setField`,
`Yaml.Decode.fields_setFields`, `Yaml.Decode.withDefault_assigned`.
-/
import SitePlan.Proofs.Yaml.Records

namespace SitePlan

/-! ### Entries with a value set -/

namespace Yaml.Value

/-- The entries of a mapping with a value for a string: in the place of the one
that the mapping has for it, or at the end. -/
def setField (key : String) (v : Value) : List (Value × Value) → List (Value × Value)
  | [] => [(string key, v)]
  | (string k, w) :: rest =>
    if k = key then (string k, v) :: rest else (string k, w) :: setField key v rest
  | e :: rest => e :: setField key v rest

/-- The entries with a value set, if there is one to set. -/
def setField? (key : String) (v? : Option Value) (m : List (Value × Value)) :
    List (Value × Value) :=
  match v? with
  | some v => setField key v m
  | none => m

/-- The entries of a mapping with a row of values set, one after the other. -/
def setFields (values : List (String × Option Value)) (m : List (Value × Value)) :
    List (Value × Value) :=
  values.foldl (fun m e => setField? e.1 e.2 m) m

/-- No key of a mapping is tagged. -/
def BareKeys (m : List (Value × Value)) : Prop := ∀ e ∈ m, ∀ tag v, e.1 ≠ tagged tag v

theorem lookup_setField (key : String) (v : Value) (name : String) :
    ∀ m : List (Value × Value), lookup name (setField key v m) =
      if name = key then some v else lookup name m
  | [] => by
    show (if key = name then some v else none) = if name = key then some v else none
    simp only [eq_comm]
  | (string k, w) :: rest => by
    have ih := lookup_setField key v name rest
    by_cases hk : k = key
    · subst hk
      rw [setField, if_pos rfl, lookup, lookup]
      by_cases hname : k = name
      · rw [if_pos hname, if_pos hname.symm]
      · rw [if_neg hname, if_neg hname, if_neg (Ne.symm hname)]
    · rw [setField, if_neg hk, lookup, lookup, ih]
      by_cases hname : k = name
      · rw [if_pos hname, if_pos hname, if_neg (hname ▸ hk)]
      · rw [if_neg hname, if_neg hname]
  | (null, _) :: rest | (bool _, _) :: rest | (number _, _) :: rest | (sequence _, _) :: rest
  | (mapping _, _) :: rest | (tagged _ _, _) :: rest => lookup_setField key v name rest

theorem lookup_setField? (key : String) (v? : Option Value) (name : String)
    (m : List (Value × Value)) : lookup name (setField? key v? m) =
      if name = key then v?.or (lookup name m) else lookup name m := by
  cases v? with
  | some v => exact lookup_setField key v name m
  | none => exact (ite_self _).symm

theorem keys_setField (key : String) (v : Value) : ∀ m : List (Value × Value),
    (setField key v m).map Prod.fst = m.map Prod.fst ∨
      (setField key v m).map Prod.fst = m.map Prod.fst ++ [string key]
  | [] => .inr rfl
  | (k, w) :: rest => by
    have ih := keys_setField key v rest
    have hlater : (((k, w) :: setField key v rest).map Prod.fst = ((k, w) :: rest).map Prod.fst) ∨
        ((k, w) :: setField key v rest).map Prod.fst =
          ((k, w) :: rest).map Prod.fst ++ [string key] := by
      rcases ih with ih | ih
      · exact .inl (congrArg (k :: ·) ih)
      · exact .inr (congrArg (k :: ·) ih)
    cases k with
    | string k =>
      rw [setField]
      by_cases hk : k = key
      · rw [if_pos hk]
        exact .inl rfl
      · rw [if_neg hk]
        exact hlater
    | _ => exact hlater

theorem bareKeys_iff {m : List (Value × Value)} :
    BareKeys m ↔ ∀ k ∈ m.map Prod.fst, ∀ tag v, k ≠ tagged tag v := by
  rw [List.forall_mem_map]
  exact Iff.rfl

theorem bareKeys_setField (key : String) (v : Value) {m : List (Value × Value)}
    (h : BareKeys m) : BareKeys (setField key v m) := by
  rw [bareKeys_iff] at h ⊢
  rcases keys_setField key v m with hkeys | hkeys
  · rw [hkeys]
    exact h
  · rw [hkeys]
    refine List.forall_mem_append.mpr ⟨h, List.forall_mem_singleton.mpr ?_⟩
    exact fun _ _ => nofun

theorem bareKeys_setField? (key : String) (v? : Option Value) {m : List (Value × Value)}
    (h : BareKeys m) : BareKeys (setField? key v? m) := by
  cases v? with
  | some v => exact bareKeys_setField key v h
  | none => exact h

theorem bareKeys_of_untagged : ∀ m : List (Value × Value), entriesHaveTag m = false → BareKeys m
  | [], _ => by simp [BareKeys]
  | (k, w) :: rest, h => by
    rw [entriesHaveTag, Bool.or_eq_false_iff, Bool.or_eq_false_iff] at h
    refine List.forall_mem_cons.mpr ⟨?_, bareKeys_of_untagged rest h.2⟩
    rintro tag v rfl
    cases h.1.1

end Yaml.Value

/-! ### Fields with a value set -/

namespace Yaml.Decode

/-- Fields with a value for a name: in the place of the one that there is, or at
the end. -/
def assign (name : String) (v : Value) : List (String × Value) → List (String × Value)
  | [] => [(name, v)]
  | (n, w) :: rest => if n = name then (n, v) :: rest else (n, w) :: assign name v rest

/-- Fields with a value set, if there is one to set. -/
def assign? (name : String) (v? : Option Value) (fs : List (String × Value)) :
    List (String × Value) :=
  match v? with
  | some v => assign name v fs
  | none => fs

/-- Fields with a row of values set, one after the other. -/
def assignAll (values : List (String × Option Value)) (fs : List (String × Value)) :
    List (String × Value) :=
  values.foldl (fun fs e => assign? e.1 e.2 fs) fs

theorem lookup_assign (name : String) (v : Value) (n : String) :
    ∀ fs : List (String × Value), (assign name v fs).lookup n =
      if n = name then some v else fs.lookup n
  | [] => by
    rw [assign, lookup_cons_eq]
  | (m, w) :: rest => by
    have ih := lookup_assign name v n rest
    by_cases hm : m = name
    · subst hm
      rw [assign, if_pos rfl, lookup_cons_eq, lookup_cons_eq]
      by_cases hn : n = m
      · rw [if_pos hn, if_pos hn]
      · rw [if_neg hn, if_neg hn, if_neg hn]
    · rw [assign, if_neg hm, lookup_cons_eq, lookup_cons_eq, ih]
      by_cases hn : n = m
      · rw [if_pos hn, if_pos hn, if_neg (hn ▸ hm)]
      · rw [if_neg hn, if_neg hn]

theorem lookup_assign? (name : String) (v? : Option Value) (n : String)
    (fs : List (String × Value)) : (assign? name v? fs).lookup n =
      if n = name then v?.or (fs.lookup n) else fs.lookup n := by
  cases v? with
  | some v => exact lookup_assign name v n fs
  | none => exact (ite_self _).symm

theorem lookup_assignAll_of_notMem {n : String} : ∀ (values : List (String × Option Value))
    (fs : List (String × Value)), n ∉ values.map Prod.fst →
    (assignAll values fs).lookup n = fs.lookup n
  | [], _, _ => rfl
  | e :: values, fs, h => by
    rw [List.map_cons, List.mem_cons, not_or] at h
    have ih := lookup_assignAll_of_notMem values (assign? e.1 e.2 fs) h.2
    show (assignAll values (assign? e.1 e.2 fs)).lookup n = _
    rw [ih, lookup_assign?, if_neg h.1]

/-- Where one value is set for a name, it stands before that of the fields. -/
theorem lookup_assignAll_of_mem {n : String} {v? : Option Value} :
    ∀ (values : List (String × Option Value)) (fs : List (String × Value)),
    (values.map Prod.fst).Nodup → (n, v?) ∈ values →
    (assignAll values fs).lookup n = v?.or (fs.lookup n)
  | [], _, _, h => absurd h List.not_mem_nil
  | e :: values, fs, hnodup, h => by
    obtain ⟨hnot, hrest⟩ := List.nodup_cons.mp hnodup
    show (assignAll values (assign? e.1 e.2 fs)).lookup n = _
    rcases List.mem_cons.mp h with rfl | hmem
    · rw [lookup_assignAll_of_notMem values _ hnot, lookup_assign?, if_pos rfl]
    · have hne : n ≠ e.1 := fun he => hnot (he ▸ List.mem_map.mpr ⟨_, hmem, rfl⟩)
      have ih := lookup_assignAll_of_mem values (assign? e.1 e.2 fs) hrest hmem
      rw [ih, lookup_assign?, if_neg hne]

section Fields

variable {known : String → Option Check} {other : String → Check} {check : Check}
  {name : String} {seen : List String}

theorem fields_cons_known (hknown : known name = some check) (hseen : name ∉ seen) (v : Value)
    (rest : List (Value × Value)) : fields known other seen ((.string name, v) :: rest) =
      check v >>= fun _ => (fields known other (name :: seen) rest).map ((name, v) :: ·) := by
  have hname : fieldName (.string name) = .ok name := rfl
  have hnot : ¬ seen.contains name = true := fun h => hseen (List.contains_iff_mem.mp h)
  simp only [fields, hname, Outcome.ok_bind, hknown, if_neg hnot]
  rfl

theorem fields_cons_repeated (hknown : known name = some check) (hseen : name ∈ seen) (v : Value)
    (rest : List (Value × Value)) : fields known other seen ((.string name, v) :: rest) =
      .error (.duplicateField name) := by
  have hname : fieldName (.string name) = .ok name := rfl
  have hcontains : seen.contains name = true := List.contains_iff_mem.mpr hseen
  simp only [fields, hname, Outcome.ok_bind, hknown, if_pos hcontains]

theorem fields_cons_other (hknown : known name = none) (v : Value) (rest : List (Value × Value)) :
    fields known other seen ((.string name, v) :: rest) =
      other name v >>= fun _ => (fields known other seen rest).map ((name, v) :: ·) := by
  have hname : fieldName (.string name) = .ok name := rfl
  simp only [fields, hname, Outcome.ok_bind, hknown]
  rfl

theorem fields_checked (m : List (Value × Value)) (seen : List String)
    (fs : List (String × Value)) (h : fields known other seen m = .ok fs) :
    ∀ e ∈ fs, ∀ check, known e.1 = some check → check e.2 = .ok () := by
  obtain ⟨-, -, hpasses, -⟩ := fields_eq_ok.mp h
  exact fun e he check hknown => (hpasses e he).check hknown

/-- **Reading the fields of an edited mapping is editing the fields read.** The
value that is set and the one in its place pass the test of the field. What
carries the induction is that the field has not been seen. -/
theorem fields_setField {v : Value} (hknown : known name = some check) (hv : check v = .ok ()) :
    ∀ (m : List (Value × Value)) (seen : List String), Value.BareKeys m → name ∉ seen →
    (∀ w, Value.lookup name m = some w → check w = .ok ()) →
    fields known other seen (Value.setField name v m) =
      (fields known other seen m).map (assign name v)
  | [], seen, _, hseen, _ => by
    rw [Value.setField, fields_cons_known hknown hseen, hv]
    rfl
  | (.string k, w) :: rest, seen, hbare, hseen, hfit => by
    have hrest : Value.BareKeys rest := (List.forall_mem_cons.mp hbare).2
    by_cases hk : k = name
    · subst hk
      have hw : check w = .ok () := hfit w (if_pos rfl)
      rw [Value.setField, if_pos rfl, fields_cons_known hknown hseen,
        fields_cons_known hknown hseen, hv, hw]
      show (fields known other (k :: seen) rest).map _ =
        ((fields known other (k :: seen) rest).map _).map _
      cases fields known other (k :: seen) rest with
      | error e => rfl
      | ok more => exact congrArg Except.ok (if_pos rfl).symm
    · have hfit' : ∀ u, Value.lookup name rest = some u → check u = .ok () := by
        intro u hu
        have hlookup : Value.lookup name ((.string k, w) :: rest) = Value.lookup name rest :=
          if_neg hk
        exact hfit u (hlookup.trans hu)
      -- the field is set among those after it
      have hset : ∀ more, (k, w) :: assign name v more = assign name v ((k, w) :: more) :=
        fun more => (if_neg hk).symm
      rw [Value.setField, if_neg hk]
      cases hother : known k with
      | none =>
        have ih := fields_setField hknown hv rest seen hrest hseen hfit'
        rw [fields_cons_other hother, fields_cons_other hother, ih, Outcome.map_bind]
        simp only [Outcome.map_map, Function.comp_def, hset]
      | some check' =>
        by_cases hrepeated : k ∈ seen
        · rw [fields_cons_repeated hother hrepeated, fields_cons_repeated hother hrepeated]
          rfl
        · have hseen' : name ∉ k :: seen := by
            rw [List.mem_cons, not_or]
            exact ⟨Ne.symm hk, hseen⟩
          have ih := fields_setField hknown hv rest (k :: seen) hrest hseen' hfit'
          rw [fields_cons_known hother hrepeated, fields_cons_known hother hrepeated, ih,
            Outcome.map_bind]
          simp only [Outcome.map_map, Function.comp_def, hset]
  | (.tagged tag u, _) :: _, _, hbare, _, _ => absurd rfl (hbare _ List.mem_cons_self tag u)
  | (.null, _) :: _, _, _, _, _ | (.bool _, _) :: _, _, _, _, _ | (.number _, _) :: _, _, _, _, _
  | (.sequence _, _) :: _, _, _, _, _ | (.mapping _, _) :: _, _, _, _, _ => rfl

theorem fields_setField? (hknown : known name = some check) {v? : Option Value}
    (hv : ∀ v ∈ v?, check v = .ok ()) {m : List (Value × Value)} (hbare : Value.BareKeys m)
    (hfit : ∀ w, Value.lookup name m = some w → check w = .ok ()) :
    fields known other [] (Value.setField? name v? m) =
      (fields known other [] m).map (assign? name v?) := by
  cases v? with
  | some v => exact fields_setField hknown (hv v rfl) m [] hbare List.not_mem_nil hfit
  | none =>
    show fields known other [] m = (fields known other [] m).map id
    cases fields known other [] m <;> rfl

/-- The value to be set and the one in its place pass the test of the field. -/
def Replaceable (known : String → Option Check) (m : List (Value × Value))
    (e : String × Option Value) : Prop :=
  ∃ check, known e.1 = some check ∧ (∀ v ∈ e.2, check v = .ok ()) ∧
    ∀ w, Value.lookup e.1 m = some w → check w = .ok ()

/-- What can be replaced can be after another value has been set. -/
theorem Replaceable.setField? {m : List (Value × Value)} {e e' : String × Option Value}
    (he : Replaceable known m e) (he' : Replaceable known m e') :
    Replaceable known (Value.setField? e'.1 e'.2 m) e := by
  obtain ⟨check, hknown, hv, hfit⟩ := he
  obtain ⟨check', hknown', hv', hfit'⟩ := he'
  refine ⟨check, hknown, hv, fun w hw => ?_⟩
  rw [Value.lookup_setField?] at hw
  by_cases hname : e.1 = e'.1
  · rw [if_pos hname] at hw
    have hcheck : check' = check := by
      rw [hname, hknown'] at hknown
      exact Option.some.inj hknown
    cases hset : e'.2 with
    | some v =>
      rw [hset] at hw
      have hvw : v = w := Option.some.inj hw
      rw [← hcheck, ← hvw]
      exact hv' v hset
    | none =>
      rw [hset] at hw
      exact hfit w hw
  · rw [if_neg hname] at hw
    exact hfit w hw

theorem fields_setFields : ∀ (values : List (String × Option Value)) (m : List (Value × Value)),
    Value.BareKeys m → (∀ e ∈ values, Replaceable known m e) →
    fields known other [] (Value.setFields values m) =
      (fields known other [] m).map (assignAll values)
  | [], m, _, _ => by
    show fields known other [] m = (fields known other [] m).map id
    cases fields known other [] m <;> rfl
  | e :: values, m, hbare, h => by
    obtain ⟨he, hvalues⟩ := List.forall_mem_cons.mp h
    have hnext : ∀ e' ∈ values, Replaceable known (Value.setField? e.1 e.2 m) e' :=
      fun e' he' => (hvalues e' he').setField? he
    have ih := fields_setFields values _ (Value.bareKeys_setField? e.1 e.2 hbare) hnext
    obtain ⟨check, hknown, hv, hfit⟩ := he
    show fields known other [] (Value.setFields values (Value.setField? e.1 e.2 m)) = _
    rw [ih, fields_setField? hknown hv hbare hfit, Outcome.map_map]
    rfl

end Fields

section Defaults

variable {α β : Type} {name : String} {default : α} {read : Reader α}
  {known : String → Option Check} {fs fs' : List (String × Value)}

theorem required_congr (h : fs'.lookup name = fs.lookup name) :
    required name read fs' = required name read fs := by
  unfold required
  rw [h]

theorem withDefault_congr (h : fs'.lookup name = fs.lookup name) :
    withDefault name default read fs' = withDefault name default read fs := by
  unfold withDefault
  rw [h]

theorem withDefault_of_checked (hknown : known name = some (fits read))
    (h : ∀ e ∈ fs, ∀ check, known e.1 = some check → check e.2 = .ok ()) :
    ∃ a, withDefault name default read fs = .ok a := by
  unfold withDefault
  cases hlookup : fs.lookup name with
  | none => exact ⟨default, rfl⟩
  | some v =>
    obtain ⟨front, back, rfl, -⟩ := List.lookup_eq_some_iff.mp hlookup
    have hmem : (name, v) ∈ front ++ (name, v) :: back :=
      List.mem_append_right _ List.mem_cons_self
    obtain ⟨a, ha, -⟩ := Outcome.map_eq_ok.mp (h _ hmem _ hknown)
    exact ⟨a, ha⟩

/-- A field that can be read is read with the value that is set, if there is
one. -/
theorem withDefault_assigned {x? : Option β} {value : β → Value} {result : β → α}
    (hlookup : fs'.lookup name = (x?.map value).or (fs.lookup name))
    (hread : ∀ x, read (value x) = .ok (result x))
    (hfs : ∃ a, withDefault name default read fs = .ok a) :
    withDefault name default read fs' =
      (withDefault name default read fs).map fun a => (x?.map result).getD a := by
  obtain ⟨a, ha⟩ := hfs
  cases x? with
  | none =>
    rw [withDefault_congr hlookup, ha]
    rfl
  | some x =>
    have hset : fs'.lookup name = some (value x) := hlookup
    rw [ha]
    unfold withDefault
    rw [hset]
    exact hread x

end Defaults

end Yaml.Decode
end SitePlan
