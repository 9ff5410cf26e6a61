/-
# What resolving replaces

Resolving replaces the outermost tags of a value and leaves all else as it is:
keys keep their places, sequences their lengths, and scalars their values. A tag
gives way to the reading of the first of its variables that is set, which is a
scalar whatever the text of the variable; or, where none is set, to the stand-in
of its argument as it is.

Key definitions: `Yaml.Value.IsScalar`, `Yaml.Value.TagFree`, `Environment.Reads`,
`Environment.Gives`, `Environment.Replaces`, `Environment.Resolves`.
Key theorems: `Environment.readVariable_eq_iff`, `Environment.argument_eq_ok`,
`Environment.value_eq_ok`, `Environment.resolve_eq_ok`,
`Environment.resolve_replaces_tags`.
-/
import Mathlib.Data.List.Forall2
import SitePlan.Config.Environment
import SitePlan.Proofs.Outcome

namespace SitePlan
namespace Yaml.Value

/-- Null, a truth value, a number or a string. -/
inductive IsScalar : Value → Prop
  | null : IsScalar .null
  | bool (b : Bool) : IsScalar (.bool b)
  | number (n : Number) : IsScalar (.number n)
  | string (s : String) : IsScalar (.string s)

/-- No tag stands in a value but perhaps in keys. -/
inductive TagFree : Value → Prop
  | scalar {v : Value} : v.IsScalar → TagFree v
  | sequence {items : List Value} : (∀ v ∈ items, TagFree v) → TagFree (.sequence items)
  | mapping {entries : List (Value × Value)} : (∀ e ∈ entries, TagFree e.2) →
      TagFree (.mapping entries)

@[simp] theorem tagFree_sequence {items : List Value} :
    TagFree (.sequence items) ↔ ∀ v ∈ items, v.TagFree := by
  constructor
  · rintro (⟨⟨⟩⟩ | h)
    exact h
  · exact .sequence

@[simp] theorem tagFree_mapping {entries : List (Value × Value)} :
    TagFree (.mapping entries) ↔ ∀ e ∈ entries, e.2.TagFree := by
  constructor
  · rintro (⟨⟨⟩⟩ | _ | h)
    exact h
  · exact .mapping

@[simp] theorem not_tagFree_tagged (tag : String) (v : Value) :
    ¬ TagFree (.tagged tag v) := by
  rintro ⟨⟨⟩⟩

end Yaml.Value

namespace Environment

open Yaml (Value)

/-- What the text of a variable stands for: the scalar that it is as a document,
or else the text itself. -/
inductive Reads (raw : String) : Value → Prop
  | scalar {v : Value} : raw ≠ "" → Value.ofText raw = .ok v → v.IsScalar → Reads raw v
  | text : (raw ≠ "" → ∀ v, Value.ofText raw = .ok v → ¬ v.IsScalar) → Reads raw (.string raw)

/-- The names of variables and the stand-in that the argument of a tag gives. A
text is a name, and so is the one element of a sequence; of two elements or more
the last is the stand-in. A name may have tags of its own. -/
inductive Gives : Value → List String → Option Value → Prop
  | name {name : String} : Gives (.string name) [name] none
  | single {item : Value} {name : String} : item.text? = some name →
      Gives (.sequence [item]) [name] none
  | several {items : List Value} {names : List String} {standIn : Value} : items ≠ [] →
      items.map Value.text? = names.map some →
      Gives (.sequence (items ++ [standIn])) names (some standIn)

variable (lookup : String → Option String)

/-- The argument of a tag has a stand-in, and none of its variables is set. -/
def StandsIn (arg standIn : Value) : Prop :=
  ∃ names, Gives arg names (some standIn) ∧ ∀ name ∈ names, lookup name = none

/-- What a tag with the given argument gives way to. -/
inductive Replaces : Value → Value → Prop
  | read {arg v : Value} {before after : List String} {name raw : String}
      {standIn : Option Value} : Gives arg (before ++ name :: after) standIn →
      (∀ earlier ∈ before, lookup earlier = none) → lookup name = some raw → Reads raw v →
      Replaces arg v
  | standIn {arg v : Value} : StandsIn lookup arg v → Replaces arg v

/-- The second value is the first with each outermost tag replaced, and the same
at all other places. -/
inductive Resolves : Value → Value → Prop
  | scalar {v : Value} : v.IsScalar → Resolves v v
  | sequence {items items' : List Value} : List.Forall₂ Resolves items items' →
      Resolves (.sequence items) (.sequence items')
  | mapping {entries entries' : List (Value × Value)} :
      entries'.map Prod.fst = entries.map Prod.fst →
      List.Forall₂ Resolves (entries.map Prod.snd) (entries'.map Prod.snd) →
      Resolves (.mapping entries) (.mapping entries')
  | tagged {tag : String} {arg v : Value} : Yaml.bareTag tag = tagName →
      Replaces lookup arg v → Resolves (.tagged tag arg) v

/-! ### The text of a variable -/

theorem readVariable_of_scalar {raw : String} {v : Value} (hne : raw ≠ "")
    (h : Value.ofText raw = .ok v) (hv : v.IsScalar) : readVariable raw = v := by
  unfold readVariable
  rw [if_neg hne, h]
  cases hv <;> rfl

theorem readVariable_of_text {raw : String}
    (h : raw ≠ "" → ∀ v, Value.ofText raw = .ok v → ¬ v.IsScalar) :
    readVariable raw = .string raw := by
  unfold readVariable
  split_ifs with hne
  · rfl
  · split
    · next ht => exact absurd .null (h hne _ ht)
    · next b ht => exact absurd (.bool b) (h hne _ ht)
    · next n ht => exact absurd (.number n) (h hne _ ht)
    · next s ht => exact absurd (.string s) (h hne _ ht)
    · rfl

theorem readVariable_eq_iff {raw : String} {v : Value} :
    readVariable raw = v ↔ Reads raw v := by
  constructor
  · rintro rfl
    by_cases h : raw ≠ "" ∧ ∃ v, Value.ofText raw = .ok v ∧ v.IsScalar
    · obtain ⟨hne, v, ht, hv⟩ := h
      rw [readVariable_of_scalar hne ht hv]
      exact .scalar hne ht hv
    · have htext : raw ≠ "" → ∀ v, Value.ofText raw = .ok v → ¬ v.IsScalar :=
        fun hne v ht hv => h ⟨hne, v, ht, hv⟩
      rw [readVariable_of_text htext]
      exact .text htext
  · rintro (⟨hne, ht, hv⟩ | htext)
    · exact readVariable_of_scalar hne ht hv
    · exact readVariable_of_text htext

theorem Reads.isScalar {raw : String} {v : Value} (h : Reads raw v) : v.IsScalar := by
  cases h with
  | scalar _ _ hv => exact hv
  | text _ => exact .string raw

/-! ### The argument of a tag -/

theorem names_eq_ok : ∀ {items : List Value} {ns : List String},
    names items = .ok ns ↔ items.map Value.text? = ns.map some
  | [], ns => by
    cases ns <;> simp [names]
  | item :: items, ns => by
    rw [names, List.map_cons]
    cases item.text? with
    | none => cases ns <;> simp
    | some name =>
      simp only [Outcome.map_eq_ok, names_eq_ok]
      cases ns <;> simp [and_comm]

theorem names_singleton {item : Value} {ns : List String} :
    names [item] = .ok ns ↔ ∃ name, item.text? = some name ∧ ns = [name] := by
  rw [names_eq_ok]
  cases ns <;> simp

theorem argument_single (item : Value) :
    argument (.sequence [item]) = (names [item]).map fun ns => (ns, none) := rfl

theorem argument_several {items : List Value} (hne : items ≠ []) (standIn : Value) :
    argument (.sequence (items ++ [standIn])) =
      (names items).map fun ns => (ns, some standIn) := by
  obtain ⟨item, rest, rfl⟩ := List.exists_cons_of_ne_nil hne
  have hargument : argument (.sequence (item :: (rest ++ [standIn]))) =
      (names (item :: (rest ++ [standIn])).dropLast).map fun ns =>
        (ns, (item :: (rest ++ [standIn])).getLast?) := by
    cases rest <;> rfl
  rw [List.cons_append, hargument, ← List.cons_append, List.dropLast_concat,
    List.getLast?_concat]

/-- An argument is understood exactly if it gives names. -/
theorem argument_eq_ok {arg : Value} {ns : List String} {standIn : Option Value} :
    argument arg = .ok (ns, standIn) ↔ Gives arg ns standIn := by
  constructor
  · intro h
    cases arg with
    | string name =>
      cases h
      exact .name
    | sequence items =>
      rcases List.eq_nil_or_concat items with rfl | ⟨items, last, rfl⟩
      · cases h
      · rw [List.concat_eq_append] at h ⊢
        -- a single element is a name, and else the last element is the stand-in
        by_cases hne : items = []
        · subst hne
          rw [List.nil_append, argument_single, Outcome.map_eq_ok] at h
          obtain ⟨ns', hns, heq⟩ := h
          cases heq
          obtain ⟨name, hname, rfl⟩ := names_singleton.mp hns
          exact .single hname
        · rw [argument_several hne, Outcome.map_eq_ok] at h
          obtain ⟨ns', hns, heq⟩ := h
          cases heq
          exact .several hne (names_eq_ok.mp hns)
    | _ => cases h
  · rintro (_ | hitem | ⟨hne, hitems⟩)
    · rfl
    · rw [argument_single, names_singleton.mpr ⟨_, hitem, rfl⟩]
      rfl
    · rw [argument_several hne, names_eq_ok.mpr hitems]
      rfl

theorem Gives.unique {arg : Value} {ns ns' : List String} {s s' : Option Value}
    (h : Gives arg ns s) (h' : Gives arg ns' s') : ns = ns' ∧ s = s' := by
  rw [← argument_eq_ok] at h h'
  exact Prod.mk.inj (Except.ok.inj (h.symm.trans h'))

/-- What a tag is replaced by is what its argument says. -/
theorem value_eq_ok {arg v : Value} : value lookup arg = .ok v ↔ Replaces lookup arg v := by
  unfold value
  rw [Outcome.bind_eq_ok]
  constructor
  · rintro ⟨⟨ns, standIn⟩, harg, hv⟩
    rw [argument_eq_ok] at harg
    cases hset : ns.findSome? lookup with
    | some raw =>
      obtain ⟨before, name, after, rfl, hname, hbefore⟩ := List.findSome?_eq_some_iff.mp hset
      simp only [hset] at hv
      cases hv
      exact .read harg hbefore hname (readVariable_eq_iff.mp rfl)
    | none =>
      simp only [hset] at hv
      cases standIn with
      | none => cases hv
      | some s =>
        cases hv
        exact .standIn ⟨ns, harg, List.findSome?_eq_none_iff.mp hset⟩
  · rintro (⟨harg, hbefore, hname, hv⟩ | ⟨ns, harg, hunset⟩)
    · refine ⟨_, argument_eq_ok.mpr harg, ?_⟩
      simp only [List.findSome?_eq_some_iff.mpr ⟨_, _, _, rfl, hname, hbefore⟩,
        readVariable_eq_iff.mpr hv]
    · refine ⟨_, argument_eq_ok.mpr harg, ?_⟩
      simp only [List.findSome?_eq_none_iff.mpr hunset]

/-! ### A whole value -/

variable {lookup}

theorem resolves_sequence {items : List Value} {w : Value} :
    Resolves lookup (.sequence items) w ↔
      ∃ items', List.Forall₂ (Resolves lookup) items items' ∧ .sequence items' = w := by
  constructor
  · rintro (⟨⟨⟩⟩ | h)
    exact ⟨_, h, rfl⟩
  · rintro ⟨items', h, rfl⟩
    exact .sequence h

theorem resolves_mapping {entries : List (Value × Value)} {w : Value} :
    Resolves lookup (.mapping entries) w ↔
      ∃ entries', (entries'.map Prod.fst = entries.map Prod.fst ∧
        List.Forall₂ (Resolves lookup) (entries.map Prod.snd) (entries'.map Prod.snd)) ∧
        .mapping entries' = w := by
  constructor
  · rintro (⟨⟨⟩⟩ | h | ⟨hkeys, h⟩)
    exact ⟨_, ⟨hkeys, h⟩, rfl⟩
  · rintro ⟨entries', ⟨hkeys, h⟩, rfl⟩
    exact .mapping hkeys h

theorem resolves_tagged {tag : String} {arg w : Value} : Resolves lookup (.tagged tag arg) w ↔
    Yaml.bareTag tag = tagName ∧ Replaces lookup arg w := by
  constructor
  · rintro (⟨⟨⟩⟩ | _ | _ | ⟨htag, h⟩)
    exact ⟨htag, h⟩
  · exact fun h => .tagged h.1 h.2

theorem resolves_scalar {v w : Value} (hv : v.IsScalar) : Resolves lookup v w ↔ v = w := by
  constructor
  · intro h
    cases h with
    | scalar _ => rfl
    | _ => cases hv
  · rintro rfl
    exact .scalar hv

mutual

/-- Resolving succeeds with the value that has each outermost tag replaced. -/
theorem resolve_eq_ok : ∀ (v : Value) (field : String) (w : Value),
    resolve lookup field v = .ok w ↔ Resolves lookup v w
  | .tagged tag arg, field, w => by
    rw [resolve, resolves_tagged]
    split_ifs with htag
    · rw [Outcome.mapError_eq_ok, value_eq_ok, and_iff_right htag]
    · simp [htag]
  | .sequence items, field, w => by
    simp only [resolve, Outcome.bind_eq_ok, resolveItems_eq_ok items, resolves_sequence,
      Except.ok.injEq]
  | .mapping entries, field, w => by
    simp only [resolve, Outcome.bind_eq_ok, resolveEntries_eq_ok entries, resolves_mapping,
      Except.ok.injEq]
  | .null, field, w => by
    simp only [resolve, resolves_scalar .null, Except.ok.injEq]
  | .bool b, field, w => by
    simp only [resolve, resolves_scalar (.bool b), Except.ok.injEq]
  | .number n, field, w => by
    simp only [resolve, resolves_scalar (.number n), Except.ok.injEq]
  | .string s, field, w => by
    simp only [resolve, resolves_scalar (.string s), Except.ok.injEq]

theorem resolveItems_eq_ok : ∀ (items : List Value) (field : String) (i : Nat)
    (items' : List Value), resolveItems lookup field i items = .ok items' ↔
      List.Forall₂ (Resolves lookup) items items'
  | [], field, i, items' => by
    rw [resolveItems, Except.ok.injEq, List.forall₂_nil_left_iff, eq_comm]
  | v :: rest, field, i, items' => by
    simp only [resolveItems, Outcome.bind_eq_ok, resolve_eq_ok v, resolveItems_eq_ok rest,
      Except.ok.injEq]
    constructor
    · rintro ⟨v', hv, rest', hrest, rfl⟩
      exact .cons hv hrest
    · rintro (_ | ⟨hv, hrest⟩)
      exact ⟨_, hv, _, hrest, rfl⟩

theorem resolveEntries_eq_ok : ∀ (entries : List (Value × Value)) (field : String)
    (entries' : List (Value × Value)), resolveEntries lookup field entries = .ok entries' ↔
      entries'.map Prod.fst = entries.map Prod.fst ∧
        List.Forall₂ (Resolves lookup) (entries.map Prod.snd) (entries'.map Prod.snd)
  | [], field, entries' => by
    rw [resolveEntries, Except.ok.injEq]
    cases entries' <;> simp
  | (k, v) :: rest, field, entries' => by
    simp only [resolveEntries, Outcome.bind_eq_ok, resolve_eq_ok v, resolveEntries_eq_ok rest,
      Except.ok.injEq]
    constructor
    · rintro ⟨v', hv, rest', ⟨hkeys, hrest⟩, rfl⟩
      exact ⟨congrArg (List.cons k) hkeys, .cons hv hrest⟩
    · rintro ⟨hkeys, h⟩
      cases entries' with
      | nil => cases hkeys
      | cons e rest' =>
        obtain ⟨rfl, hrestKeys⟩ := List.cons.inj hkeys
        obtain ⟨hv, hrest⟩ := List.forall₂_cons.mp h
        exact ⟨e.2, hv, rest', ⟨hrestKeys, hrest⟩, rfl⟩

end

theorem resolves_of_tagFree {v : Value} (h : v.TagFree) : Resolves lookup v v := by
  induction h with
  | scalar hv => exact .scalar hv
  | sequence _ ih => exact .sequence (List.forall₂_same.mpr ih)
  | mapping _ ih =>
    refine .mapping rfl (List.forall₂_same.mpr fun v hv => ?_)
    obtain ⟨e, he, rfl⟩ := List.mem_map.mp hv
    exact ih e he

/-- **Resolving replaces the outermost tags and nothing else, and no variable
puts in a structure.** It succeeds with exactly the value that has each
outermost tag replaced, and a value without tags comes back as it is. The text
of a variable stands for one value, and that is a scalar. -/
theorem resolve_replaces_tags (lookup : String → Option String) (field : String) :
    (∀ v w, resolve lookup field v = .ok w ↔ Resolves lookup v w) ∧
      (∀ v : Value, v.TagFree → resolve lookup field v = .ok v) ∧
      ∀ raw, ∃ s : Value, s.IsScalar ∧ ∀ v, Reads raw v ↔ v = s := by
  refine ⟨fun v w => resolve_eq_ok v field w, fun v hv => ?_, fun raw => ?_⟩
  · exact (resolve_eq_ok v field v).mpr (resolves_of_tagFree hv)
  · refine ⟨readVariable raw, (readVariable_eq_iff.mp rfl).isScalar, fun v => ?_⟩
    rw [← readVariable_eq_iff, eq_comm]

/-- A stand-in is put in, and a variable that holds the text of a sequence. -/
theorem resolve_replaces_tags_settings :
    resolve (fun name => if name = "TAGS" then some "[1]" else none) ""
        (.mapping
          [(.string "lang", .tagged "ENV" (.sequence [.string "LANG", .string "LC", .string "en"])),
            (.string "tags", .sequence [.string "a", .tagged "ENV" (.string "TAGS")])]) =
      .ok (.mapping
        [(.string "lang", .string "en"),
          (.string "tags", .sequence [.string "a", .string "[1]"])]) := by
  refine ((resolve_replaces_tags _ _).1 _ _).mpr (.mapping rfl (.cons ?lang (.cons ?tags .nil)))
  case lang =>
    have hgives : Gives (.sequence ([.string "LANG", .string "LC"] ++ [.string "en"]))
        ["LANG", "LC"] (some (.string "en")) := .several (by simp) rfl
    exact .tagged rfl (.standIn ⟨_, hgives, by decide⟩)
  case tags =>
    have hgives : Gives (.string "TAGS") ([] ++ "TAGS" :: []) none := .name
    have hreads : Reads "[1]" (.string "[1]") := readVariable_eq_iff.mp rfl
    have hvariable : Replaces (fun name => if name = "TAGS" then some "[1]" else none)
        (.string "TAGS") (.string "[1]") := .read hgives (by simp) (by decide) hreads
    exact .sequence (.cons (.scalar (.string "a")) (.cons (.tagged rfl hvariable) .nil))

end Environment
end SitePlan
