/-
# Another value for one field

Two mappings that differ in one entry only, where each has another value under the key or
one of them no such entry. Where the two values pass the test of the field alike, reading
the fields of one mapping goes as reading those of the other: both fail with the same
error, or the fields that are read differ in that field and in no other.

Key definitions: `Yaml.Decode.DifferAt`.
Key theorems: `Yaml.Decode.fields_exchange`, `Yaml.Decode.fields_insert`,
`Yaml.Value.entriesRepeatKey_exchange`, `Yaml.Value.entriesRepeatKey_insert`.
-/
import SitePlan.Proofs.Yaml.Fields
import SitePlan.Proofs.Yaml.KeyOrder

namespace SitePlan

/-! ### Tags and repeated keys -/

namespace Yaml.Value

variable {key v w : Value} {pre post : List (Value × Value)}

theorem itemsHaveTag_eq : ∀ vs : List Value, itemsHaveTag vs = vs.any hasTag
  | [] => rfl
  | v :: vs => by
    rw [itemsHaveTag, itemsHaveTag_eq vs, List.any_cons]

theorem entriesBareTags_around : entriesBareTags (pre ++ (key, v) :: post) =
    entriesBareTags pre ++ (key.bareTags, v.bareTags) :: entriesBareTags post := by
  simp only [entriesBareTags_eq, List.map_append, List.map_cons]

theorem entriesBareTags_append : entriesBareTags (pre ++ post) =
    entriesBareTags pre ++ entriesBareTags post := by
  simp only [entriesBareTags_eq, List.map_append]

theorem entriesHaveTag_exchange (h : w.hasTag = v.hasTag) :
    entriesHaveTag (pre ++ (key, w) :: post) = entriesHaveTag (pre ++ (key, v) :: post) := by
  simp only [entriesHaveTag_eq, List.any_append, List.any_cons, h]

theorem entriesHaveTag_insert (hkey : key.hasTag = false) (hw : w.hasTag = false) :
    entriesHaveTag (pre ++ (key, w) :: post) = entriesHaveTag (pre ++ post) := by
  simp only [entriesHaveTag_eq, List.any_append, List.any_cons, hkey, hw, Bool.or_self,
    Bool.false_or]

theorem entriesRepeatKey_exchange (h : w.repeatsKey = v.repeatsKey) :
    ∀ pre : List (Value × Value), entriesRepeatKey (pre ++ (key, w) :: post) =
      entriesRepeatKey (pre ++ (key, v) :: post)
  | [] => by
    simp only [List.nil_append, entriesRepeatKey, h]
  | (k, u) :: pre => by
    have ih := entriesRepeatKey_exchange h pre
    simp only [List.cons_append, entriesRepeatKey, ih, List.any_append, List.any_cons]

/-- A string is the same key as itself only. -/
theorem sameKey_string_eq_false {k : Value} {s : String} (h : k ≠ string s) :
    k.sameKey (string s) = false ∧ (string s).sameKey k = false := by
  cases k with
  | string t =>
    have hne : t ≠ s := fun heq => h (congrArg string heq)
    exact ⟨beq_false_of_ne hne, beq_false_of_ne hne.symm⟩
  | _ => exact ⟨rfl, rfl⟩

/-- A string that is no key of a mapping yet can be put in as one. -/
theorem entriesRepeatKey_insert {s : String} (hw : w.repeatsKey = false)
    (hpost : ∀ e ∈ post, e.1 ≠ string s) : ∀ pre : List (Value × Value),
      (∀ e ∈ pre, e.1 ≠ string s) →
      entriesRepeatKey (pre ++ (string s, w) :: post) = entriesRepeatKey (pre ++ post)
  | [], _ => by
    have hnone : (post.any fun e => (string s).sameKey e.1) = false :=
      List.any_eq_false.mpr fun e he =>
        Bool.eq_false_iff.mp (sameKey_string_eq_false (hpost e he)).2
    simp only [List.nil_append, entriesRepeatKey, hnone, hw, repeatsKey, Bool.or_self,
      Bool.false_or]
  | (k, u) :: pre, hpre => by
    obtain ⟨hk, hpre⟩ := List.forall_mem_cons.mp hpre
    have ih := entriesRepeatKey_insert hw hpost pre hpre
    simp only [List.cons_append, entriesRepeatKey, ih, List.any_append, List.any_cons,
      (sameKey_string_eq_false hk).1, Bool.false_or]

end Yaml.Value

/-! ### The fields -/

namespace Yaml.Decode

open Outcome (Alike)

/-- Fields that differ in one field of the record only, which has these values. -/
structure DifferAt (known : String → Option Check) (name : String) (v? w? : Option Value)
    (fs gs : List (String × Value)) : Prop where
  first : fs.lookup name = v?
  second : gs.lookup name = w?
  others : ∀ n, n ≠ name → gs.lookup n = fs.lookup n
  further : (gs.filter fun f => (known f.1).isNone) = fs.filter fun f => (known f.1).isNone

variable {known : String → Option Check} {other : String → Check} {check : Check}
  {name : String} {key v w : Value} {v? w? : Option Value} {fs gs : List (String × Value)}
  {post m m' : List (Value × Value)}

theorem DifferAt.cons (h : DifferAt known name v? w? fs gs) {n : String} (hn : n ≠ name)
    (u : Value) : DifferAt known name v? w? ((n, u) :: fs) ((n, u) :: gs) where
  first := by rw [lookup_cons_eq, if_neg hn.symm, h.first]
  second := by rw [lookup_cons_eq, if_neg hn.symm, h.second]
  others k hk := by rw [lookup_cons_eq, lookup_cons_eq, h.others k hk]
  further := by rw [List.filter_cons, List.filter_cons, h.further]

/-- Entries before those that make the difference keep it. Nothing is said of the names
among `seen` but what is kept when the names of these entries are added to them. -/
theorem fields_alike_append {P : List String → Prop} (hknown : known name = some check)
    (h : ∀ seen, P seen → Alike (fun fs gs => name ∉ seen ∧ DifferAt known name v? w? fs gs)
      (fields known other seen m) (fields known other seen m')) :
    ∀ pre : List (Value × Value),
      (∀ e ∈ pre, ∀ n, e.1.text? = some n → ∀ seen, P seen → P (n :: seen)) →
      ∀ seen, P seen → Alike (fun fs gs => name ∉ seen ∧ DifferAt known name v? w? fs gs)
        (fields known other seen (pre ++ m)) (fields known other seen (pre ++ m'))
  | [], _, seen, hseen => h seen hseen
  | (k, u) :: pre, hpre, seen, hseen => by
    obtain ⟨hk, hpre⟩ := List.forall_mem_cons.mp hpre
    have ih := fields_alike_append hknown h pre hpre
    cases hname : fieldName k with
    | error e =>
      simp only [List.cons_append, fields, hname]
      exact .error e
    | ok n =>
      simp only [List.cons_append, fields, hname, Outcome.ok_bind]
      cases hn : known n with
      | none =>
        have hne : n ≠ name := by
          rintro rfl
          rw [hn] at hknown
          cases hknown
        refine (Alike.same (other n u)).bind fun _ _ _ => (ih seen hseen).bind fun fs gs hfs => ?_
        exact .ok ⟨hfs.1, hfs.2.cons hne u⟩
      | some test =>
        by_cases hmem : seen.contains n = true
        · simp only [if_pos hmem]
          exact .error _
        · simp only [if_neg hmem]
          have hnext : P (n :: seen) := hk n (fieldName_eq_ok.mp hname) seen hseen
          refine (Alike.same (test u)).bind fun _ _ _ => (ih _ hnext).bind fun fs gs hfs => ?_
          obtain ⟨hnot, hfs⟩ := hfs
          rw [List.mem_cons, not_or] at hnot
          exact .ok ⟨hnot.2, hfs.cons (Ne.symm hnot.1) u⟩

/-- **A value can be changed for another that passes the test of its field alike.** -/
theorem fields_exchange (other : String → Check) (hkey : key.text? = some name)
    (hknown : known name = some check) (hcheck : check w = check v)
    (pre post : List (Value × Value)) :
    Alike (DifferAt known name (some v) (some w))
      (fields known other [] (pre ++ (key, v) :: post))
      (fields known other [] (pre ++ (key, w) :: post)) := by
  have hname : fieldName key = .ok name := fieldName_eq_ok.mpr hkey
  have hbase : ∀ seen, True →
      Alike (fun fs gs => name ∉ seen ∧ DifferAt known name (some v) (some w) fs gs)
        (fields known other seen ((key, v) :: post))
        (fields known other seen ((key, w) :: post)) := by
    intro seen _
    simp only [fields, hname, Outcome.ok_bind, hknown, hcheck]
    by_cases hmem : seen.contains name = true
    · simp only [if_pos hmem]
      exact .error _
    · simp only [if_neg hmem]
      refine (Alike.same (check v)).bind fun _ _ _ => ?_
      refine (Alike.same (fields known other (name :: seen) post)).bind fun fs gs hfs => ?_
      obtain ⟨rfl, -⟩ := hfs
      refine .ok ⟨fun h => hmem (List.contains_iff_mem.mpr h), ?_⟩
      exact
        { first := by rw [lookup_cons_eq, if_pos rfl]
          second := by rw [lookup_cons_eq, if_pos rfl]
          others := fun n hn => by
            rw [lookup_cons_eq, lookup_cons_eq, if_neg hn, if_neg hn]
          further := by simp [hknown] }
  have hall := fields_alike_append hknown hbase pre (fun _ _ _ _ _ => id) [] trivial
  exact hall.imp fun _ _ h => h.2

/-- Names that no key of the entries has do not matter among those `seen`. -/
theorem fields_seen_congr : ∀ (m : List (Value × Value)) {seen seen' : List String},
    (∀ e ∈ m, ∀ n, e.1.text? = some n → (n ∈ seen' ↔ n ∈ seen)) →
    fields known other seen' m = fields known other seen m
  | [], _, _, _ => rfl
  | (k, u) :: m, seen, seen', h => by
    obtain ⟨hk, hm⟩ := List.forall_mem_cons.mp h
    cases hname : fieldName k with
    | error e => simp only [fields, hname]; rfl
    | ok n =>
      have hn : seen'.contains n = seen.contains n := by
        rw [Bool.eq_iff_iff, List.contains_iff_mem, List.contains_iff_mem]
        exact hk n (fieldName_eq_ok.mp hname)
      have hnext : ∀ e ∈ m, ∀ n', e.1.text? = some n' → (n' ∈ n :: seen' ↔ n' ∈ n :: seen) := by
        intro e he n' hn'
        rw [List.mem_cons, List.mem_cons, hm e he n' hn']
      have ih := fields_seen_congr m hm
      have ihnext := fields_seen_congr m hnext
      simp only [fields, hname, Outcome.ok_bind, hn, ih, ihnext]

/-- **A value that passes the test of its field can be put in where no key names the
field.** -/
theorem fields_insert (other : String → Check) (hknown : known name = some check)
    (hcheck : check w = .ok ()) (pre post : List (Value × Value))
    (hpre : ∀ e ∈ pre, e.1.text? ≠ some name) (hpost : ∀ e ∈ post, e.1.text? ≠ some name) :
    Alike (DifferAt known name none (some w)) (fields known other [] (pre ++ post))
      (fields known other [] (pre ++ (.string name, w) :: post)) := by
  have hbase : ∀ seen, name ∉ seen →
      Alike (fun fs gs => name ∉ seen ∧ DifferAt known name none (some w) fs gs)
        (fields known other seen post) (fields known other seen ((.string name, w) :: post)) := by
    intro seen hseen
    have hsame : fields known other (name :: seen) post = fields known other seen post := by
      refine fields_seen_congr post fun e he n hn => ?_
      have hne : n ≠ name := fun heq => hpost e he (heq ▸ hn)
      rw [List.mem_cons, or_iff_right hne]
    rw [fields_cons_known hknown hseen, hcheck, Outcome.ok_bind, hsame]
    cases hfs : fields known other seen post with
    | error e => exact .error e
    | ok fs =>
      have hnone : fs.lookup name = none := by
        refine List.lookup_eq_none_iff.mpr fun f hf => ?_
        obtain ⟨e, he, htext, -⟩ := exists_entry_of_mem_fields hfs hf
        have hne : name ≠ f.1 := by
          rintro rfl
          exact hpost e he htext
        exact bne_iff_ne.mpr hne
      refine .ok ⟨hseen, ?_⟩
      exact
        { first := hnone
          second := by rw [lookup_cons_eq, if_pos rfl]
          others := fun n hn => by rw [lookup_cons_eq, if_neg hn]
          further := by simp [hknown] }
  have hkeep : ∀ e ∈ pre, ∀ n, e.1.text? = some n → ∀ seen, name ∉ seen → name ∉ n :: seen := by
    intro e he n hn seen hseen
    rw [List.mem_cons, not_or]
    exact ⟨fun heq => hpre e he (heq ▸ hn), hseen⟩
  have hall := fields_alike_append hknown hbase pre hkeep [] List.not_mem_nil
  exact hall.imp fun _ _ h => h.2

/-- The value of an entry under a field of the record is the value of the field. -/
theorem lookup_of_entry {m : List (Value × Value)} {fs : List (String × Value)}
    (h : fields known other [] m = .ok fs) {e : Value × Value} (he : e ∈ m)
    (htext : e.1.text? = some name) (hknown : known name = some check) :
    fs.lookup name = some e.2 := by
  obtain ⟨-, rfl, -, hnodup, -⟩ := fields_eq_ok.mp h
  have hmem : (name, e.2) ∈ m.filterMap named? :=
    List.mem_filterMap.mpr ⟨e, he, named?_eq_some.mpr ⟨htext, rfl⟩⟩
  have hfield : (name, e.2) ∈ (m.filterMap named?).filter fun f => (known f.1).isSome :=
    List.mem_filter.mpr ⟨hmem, by simp [hknown]⟩
  rw [← lookup_filter_known hknown]
  refine (lookup_eq_some_iff_mem ?_).mpr hfield
  unfold knownNames at hnodup
  rwa [List.filter_map] at hnodup

end Yaml.Decode
end SitePlan
