/-
# The fields of a record

Reading the fields of a mapping succeeds exactly if every key is a text, every value
passes the test of its field, and no field of the record is named twice. The fields
are then those of the entries, in their order. So the order of the entries decides
neither on success nor, for a field of the record, on its value.

Key definitions: `Yaml.Decode.named?`, `Yaml.Decode.Passes`, `Yaml.Decode.knownNames`.
Key theorems: `Yaml.Decode.fields_eq_ok`, `Yaml.Decode.lookup_eq_of_perm`,
`Yaml.Decode.fields_perm`.
-/
import SitePlan.Proofs.Outcome
import SitePlan.Proofs.Text.Order
import SitePlan.Yaml.Decode

namespace SitePlan
namespace Yaml.Decode

variable {known : String → Option Check} {other : String → Check}

/-- The name and the value that an entry gives to a field, if its key is a text. -/
def named? (e : Value × Value) : Option (String × Value) := e.1.text?.map fun name => (name, e.2)

/-- The value of a field passes its test. -/
def Passes (known : String → Option Check) (other : String → Check) (f : String × Value) : Prop :=
  match known f.1 with
  | some check => check f.2 = .ok ()
  | none => other f.1 f.2 = .ok ()

/-- The names of those fields that belong to the record. -/
def knownNames (known : String → Option Check) (fs : List (String × Value)) : List String :=
  (fs.map Prod.fst).filter fun name => (known name).isSome

theorem named?_eq_some {e : Value × Value} {f : String × Value} :
    named? e = some f ↔ e.1.text? = some f.1 ∧ e.2 = f.2 := by
  unfold named?
  rw [Option.map_eq_some_iff]
  constructor
  · rintro ⟨name, hname, rfl⟩
    exact ⟨hname, rfl⟩
  · rintro ⟨hname, hv⟩
    exact ⟨f.1, hname, Prod.ext rfl hv⟩

theorem named?_isSome {e : Value × Value} : (named? e).isSome = e.1.text?.isSome := by
  simp [named?]

theorem fieldName_eq_ok {key : Value} {name : String} :
    fieldName key = .ok name ↔ key.text? = some name := by
  unfold fieldName Value.text?
  cases key.untagged <;> simp

theorem Passes.check {f : String × Value} {check : Check} (h : Passes known other f)
    (hknown : known f.1 = some check) : check f.2 = .ok () := by
  unfold Passes at h
  rw [hknown] at h
  exact h

/-! ### Reading the fields -/

theorem fields_cons_eq_ok {key v : Value} {rest : List (Value × Value)} {seen : List String}
    {fs : List (String × Value)} : fields known other seen ((key, v) :: rest) = .ok fs ↔
      ∃ name, key.text? = some name ∧ Passes known other (name, v) ∧
        ((known name).isSome = true → name ∉ seen) ∧
        ∃ more, fields known other (if (known name).isSome then name :: seen else seen) rest =
          .ok more ∧ fs = (name, v) :: more := by
  simp only [fields, Outcome.bind_eq_ok, fieldName_eq_ok]
  refine exists_congr fun name => and_congr_right fun _ => ?_
  unfold Passes
  cases known name with
  | none =>
    simp only [Outcome.bind_eq_ok, Except.ok.injEq, Option.isSome_none, Bool.false_eq_true,
      false_implies, true_and, if_false]
    constructor
    · rintro ⟨⟨⟩, h, more, hmore, rfl⟩
      exact ⟨h, more, hmore, rfl⟩
    · rintro ⟨h, more, hmore, rfl⟩
      exact ⟨⟨⟩, h, more, hmore, rfl⟩
  | some check =>
    by_cases hmem : name ∈ seen
    · simp [hmem]
    · simp only [List.contains_iff_mem, hmem, if_false, Outcome.bind_eq_ok, Except.ok.injEq,
        Option.isSome_some, if_true, not_false_eq_true, implies_true, true_and]
      constructor
      · rintro ⟨⟨⟩, h, more, hmore, rfl⟩
        exact ⟨h, more, hmore, rfl⟩
      · rintro ⟨h, more, hmore, rfl⟩
        exact ⟨⟨⟩, h, more, hmore, rfl⟩

theorem knownNames_cons (f : String × Value) (fs : List (String × Value)) :
    knownNames known (f :: fs) =
      if (known f.1).isSome then f.1 :: knownNames known fs else knownNames known fs :=
  List.filter_cons

/-- **The fields of a mapping are its entries, if every key names a field, every value
passes its test and no field of the record is named twice.** What carries the
induction is that no name among those `seen` returns. -/
theorem fields_eq_ok : ∀ {m : List (Value × Value)} {seen : List String}
    {fs : List (String × Value)}, fields known other seen m = .ok fs ↔
      (∀ e ∈ m, (named? e).isSome = true) ∧ fs = m.filterMap named? ∧
        (∀ f ∈ fs, Passes known other f) ∧ (knownNames known fs).Nodup ∧
        ∀ name ∈ knownNames known fs, name ∉ seen
  | [], seen, fs => by
    rw [fields, Except.ok.injEq]
    constructor
    · rintro rfl
      simp [knownNames]
    · rintro ⟨-, rfl, -⟩
      rfl
  | (key, v) :: rest, seen, fs => by
    rw [fields_cons_eq_ok, List.forall_mem_cons, named?_isSome, List.filterMap_cons]
    cases hname : key.text? with
    | none => simp
    | some name =>
      have hnamed : named? (key, v) = some (name, v) := named?_eq_some.mpr ⟨hname, rfl⟩
      simp only [Option.some.injEq, exists_eq_left', Option.isSome_some, true_and, hnamed,
        fields_eq_ok (m := rest)]
      constructor
      · rintro ⟨hpasses, hnew, _, ⟨hrest, rfl, hall, hnodup, hseen⟩, rfl⟩
        refine ⟨hrest, rfl, List.forall_mem_cons.mpr ⟨hpasses, hall⟩, ?_⟩
        rw [knownNames_cons]
        by_cases hknown : (known name).isSome = true
        · rw [if_pos hknown] at hseen ⊢
          have hlater : ∀ n ∈ knownNames known (rest.filterMap named?), n ≠ name ∧ n ∉ seen :=
            fun n hn => not_or.mp fun h => hseen n hn (List.mem_cons.mpr h)
          exact ⟨List.nodup_cons.mpr ⟨fun h => (hlater name h).1 rfl, hnodup⟩,
            List.forall_mem_cons.mpr ⟨hnew hknown, fun n hn => (hlater n hn).2⟩⟩
        · rw [if_neg hknown] at hseen ⊢
          exact ⟨hnodup, hseen⟩
      · rintro ⟨hrest, rfl, hall, hnodup, hseen⟩
        obtain ⟨hpasses, hall⟩ := List.forall_mem_cons.mp hall
        rw [knownNames_cons] at hnodup hseen
        by_cases hknown : (known name).isSome = true
        · rw [if_pos hknown] at hnodup hseen ⊢
          obtain ⟨hnot, hnodup⟩ := List.nodup_cons.mp hnodup
          obtain ⟨hnew, hseen⟩ := List.forall_mem_cons.mp hseen
          refine ⟨hpasses, fun _ => hnew, _, ⟨hrest, rfl, hall, hnodup, fun n hn h => ?_⟩, rfl⟩
          rcases List.mem_cons.mp h with rfl | h
          · exact hnot hn
          · exact hseen n hn h
        · rw [if_neg hknown] at hnodup hseen ⊢
          exact ⟨hpasses, fun h => absurd h hknown, _, ⟨hrest, rfl, hall, hnodup, hseen⟩, rfl⟩

theorem exists_entry_of_mem_fields {m : List (Value × Value)} {fs : List (String × Value)}
    {seen : List String} (h : fields known other seen m = .ok fs) {f : String × Value}
    (hf : f ∈ fs) : ∃ e ∈ m, e.1.text? = some f.1 ∧ e.2 = f.2 := by
  obtain ⟨-, rfl, -⟩ := fields_eq_ok.mp h
  obtain ⟨e, he, hef⟩ := List.mem_filterMap.mp hf
  exact ⟨e, he, named?_eq_some.mp hef⟩

/-! ### Entries in another order -/

/-- A field of the record is found among those of the record. -/
theorem lookup_filter_known {name : String} {check : Check} (hknown : known name = some check) :
    ∀ fs : List (String × Value),
      (fs.filter fun f => (known f.1).isSome).lookup name = fs.lookup name
  | [] => rfl
  | (n, v) :: rest => by
    have ih := lookup_filter_known hknown rest
    rw [lookup_cons_eq]
    by_cases hn : name = n
    · subst hn
      rw [List.filter_cons_of_pos (by simp [hknown]), lookup_cons_eq, if_pos rfl, if_pos rfl]
    · rw [if_neg hn, ← ih]
      rw [List.filter_cons]
      by_cases hsome : (known n).isSome = true
      · rw [if_pos hsome, lookup_cons_eq, if_neg hn]
      · rw [if_neg hsome]

/-- The order of fields does not matter where none of the record is named twice. -/
theorem lookup_eq_of_perm {fs fs' : List (String × Value)} (hperm : fs.Perm fs')
    (hnodup : (knownNames known fs).Nodup) {name : String} {check : Check}
    (hknown : known name = some check) : fs'.lookup name = fs.lookup name := by
  have hnames : ∀ l : List (String × Value),
      (l.filter fun f => (known f.1).isSome).map Prod.fst = knownNames known l := by
    intro l
    unfold knownNames
    rw [List.filter_map]
    rfl
  have hfilter := hperm.filter fun f => (known f.1).isSome
  have hnodup' : (knownNames known fs').Nodup :=
    ((hperm.map Prod.fst).filter _).nodup_iff.mp hnodup
  rw [← lookup_filter_known hknown fs, ← lookup_filter_known hknown fs']
  refine Option.ext fun v => ?_
  rw [lookup_eq_some_iff_mem (by rwa [hnames]), lookup_eq_some_iff_mem (by rwa [hnames]),
    hfilter.mem_iff]

/-- **Entries in another order have the same fields in another order.** Each field of the
record has the same value. -/
theorem fields_perm {m m' : List (Value × Value)} {fs : List (String × Value)}
    (hperm : m.Perm m') (h : fields known other [] m = .ok fs) :
    ∃ fs', fields known other [] m' = .ok fs' ∧ fs.Perm fs' ∧
      ∀ name, (known name).isSome = true → fs'.lookup name = fs.lookup name := by
  obtain ⟨hnamed, rfl, hall, hnodup, -⟩ := fields_eq_ok.mp h
  have hfields : (m.filterMap named?).Perm (m'.filterMap named?) := hperm.filterMap named?
  have hnames : (knownNames known (m.filterMap named?)).Perm
      (knownNames known (m'.filterMap named?)) := (hfields.map Prod.fst).filter _
  refine ⟨_, fields_eq_ok.mpr ⟨fun e he => hnamed e (hperm.mem_iff.mpr he), rfl,
    fun f hf => hall f (hfields.mem_iff.mpr hf), hnames.nodup_iff.mp hnodup, by simp⟩, hfields,
    fun name hknown => ?_⟩
  obtain ⟨check, hcheck⟩ := Option.isSome_iff_exists.mp hknown
  exact lookup_eq_of_perm hfields hnodup hcheck

end Yaml.Decode
end SitePlan
