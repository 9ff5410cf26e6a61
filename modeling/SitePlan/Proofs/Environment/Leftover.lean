/-
# The tags that resolving leaves

Resolving looks at the outermost tags of a value and not below them. So a tag
can be left in one way only: a stand-in is put in as it is, with the tags that
it has.

Key definitions: `Environment.TagSpot`, `Environment.tagSpots`,
`Environment.PlainStandIn`.
Key theorems: `Environment.replaces_tagFree_iff`, `Environment.resolves_tagFree_iff`,
`Environment.resolve_tagFree_iff`, `Environment.resolve_leaves_tags`.
-/
import SitePlan.Proofs.Environment.Replacement

namespace SitePlan
namespace Environment

open Yaml (Value)

/-- An outermost tag of a value: its field, its name and its argument. -/
structure TagSpot where
  field : String
  tag : String
  argument : Value

mutual

/-- The outermost tags of a value that stands at `field`, in the order of the
document. -/
def tagSpots (field : String) : Value → List TagSpot
  | .tagged tag arg => [⟨field, tag, arg⟩]
  | .mapping entries => tagSpotsOfEntries field entries
  | .sequence items => tagSpotsOfItems field 0 items
  | _ => []

/-- The outermost tags of the values of entries. -/
def tagSpotsOfEntries (field : String) : List (Value × Value) → List TagSpot
  | [] => []
  | (k, v) :: rest => tagSpots (keyField field k) v ++ tagSpotsOfEntries field rest

/-- The outermost tags of items, the first of them at place `i`. -/
def tagSpotsOfItems (field : String) : Nat → List Value → List TagSpot
  | _, [] => []
  | i, v :: rest => tagSpots (itemField field i) v ++ tagSpotsOfItems field (i + 1) rest

end

/-- The stand-in of a tag, if it is put in, has no tags. -/
def PlainStandIn (lookup : String → Option String) (s : TagSpot) : Prop :=
  ∀ standIn, StandsIn lookup s.argument standIn → standIn.TagFree

/-! ### What is left -/

variable {lookup : String → Option String}

/-- What replaces a tag has no tags, unless it is a stand-in with tags. -/
theorem replaces_tagFree_iff (s : TagSpot) {w : Value} (h : Replaces lookup s.argument w) :
    w.TagFree ↔ PlainStandIn lookup s := by
  cases h with
  | read hgives _ hset hreads =>
    refine iff_of_true (.scalar hreads.isScalar) ?_
    -- no stand-in is put in, since one of the names is set
    rintro standIn ⟨names, hgives', hunset⟩
    obtain ⟨rfl, -⟩ := hgives.unique hgives'
    have hnone := hunset _ (List.mem_append_right _ List.mem_cons_self)
    rw [hset] at hnone
    cases hnone
  | standIn hw =>
    constructor
    · rintro hfree standIn ⟨names, hgives, -⟩
      obtain ⟨names', hgives', -⟩ := hw
      obtain ⟨-, heq⟩ := hgives.unique hgives'
      rwa [Option.some.inj heq]
    · exact fun h => h w hw

theorem scalar_tagFree_iff {v : Value} (hv : v.IsScalar) (field : String) {w : Value}
    (h : Resolves lookup v w) : w.TagFree ↔ ∀ s ∈ tagSpots field v, PlainStandIn lookup s := by
  obtain rfl := (resolves_scalar hv).mp h
  have hspots : tagSpots field v = [] := by
    cases hv <;> rfl
  simp [hspots, Value.TagFree.scalar hv]

mutual

/-- What comes out has no tags exactly if no stand-in that was put in has any. -/
theorem resolves_tagFree_iff : ∀ (v : Value) (field : String) (w : Value), Resolves lookup v w →
    (w.TagFree ↔ ∀ s ∈ tagSpots field v, PlainStandIn lookup s)
  | .tagged tag arg, field, w, h => by
    rw [tagSpots, List.forall_mem_singleton]
    exact replaces_tagFree_iff ⟨field, tag, arg⟩ (resolves_tagged.mp h).2
  | .sequence items, field, w, h => by
    obtain ⟨items', hitems, rfl⟩ := resolves_sequence.mp h
    rw [Value.tagFree_sequence, tagSpots]
    exact items_tagFree_iff items field 0 items' hitems
  | .mapping entries, field, w, h => by
    obtain ⟨entries', ⟨-, hvalues⟩, rfl⟩ := resolves_mapping.mp h
    rw [Value.tagFree_mapping, tagSpots, ← entries_tagFree_iff entries field _ hvalues,
      List.forall_mem_map]
  | .null, field, _, h => scalar_tagFree_iff .null field h
  | .bool b, field, _, h => scalar_tagFree_iff (.bool b) field h
  | .number n, field, _, h => scalar_tagFree_iff (.number n) field h
  | .string s, field, _, h => scalar_tagFree_iff (.string s) field h

theorem items_tagFree_iff : ∀ (items : List Value) (field : String) (i : Nat) (ws : List Value),
    List.Forall₂ (Resolves lookup) items ws →
    ((∀ w ∈ ws, w.TagFree) ↔ ∀ s ∈ tagSpotsOfItems field i items, PlainStandIn lookup s)
  | [], field, i, ws, h => by
    cases h
    simp [tagSpotsOfItems]
  | v :: rest, field, i, ws, h => by
    cases h with
    | cons hv hrest =>
      rw [tagSpotsOfItems, List.forall_mem_append, List.forall_mem_cons,
        resolves_tagFree_iff v _ _ hv, items_tagFree_iff rest _ _ _ hrest]

theorem entries_tagFree_iff : ∀ (entries : List (Value × Value)) (field : String)
    (ws : List Value), List.Forall₂ (Resolves lookup) (entries.map Prod.snd) ws →
    ((∀ w ∈ ws, w.TagFree) ↔ ∀ s ∈ tagSpotsOfEntries field entries, PlainStandIn lookup s)
  | [], field, ws, h => by
    cases h
    simp [tagSpotsOfEntries]
  | (k, v) :: rest, field, ws, h => by
    cases h with
    | cons hv hrest =>
      rw [tagSpotsOfEntries, List.forall_mem_append, List.forall_mem_cons,
        resolves_tagFree_iff v _ _ hv, entries_tagFree_iff rest _ _ hrest]

end

/-- **Resolving leaves no tag but those of the stand-ins it puts in.** What
comes out is free of tags exactly if each outermost tag whose variables are all
unset has a stand-in without tags. -/
theorem resolve_tagFree_iff {field : String} {v w : Value}
    (h : resolve lookup field v = .ok w) :
    w.TagFree ↔ ∀ s ∈ tagSpots field v, PlainStandIn lookup s :=
  resolves_tagFree_iff v field w ((resolve_eq_ok v field w).mp h)

/-- Two tags: the stand-in of the first has a tag but its variable is set, and
that of the second is put in and has none. -/
def settledTags : Value :=
  .mapping
    [(.string "tags", .tagged "ENV" (.sequence [.string "TAGS", .tagged "other" (.string "a")])),
      (.string "lang", .tagged "ENV" (.sequence [.string "LANG", .string "en"]))]

theorem resolve_tagFree_iff_settledTags :
    ∃ w, resolve (fun name => if name = "TAGS" then some "[1]" else none) "" settledTags = .ok w ∧
      w.TagFree := by
  have hresolve : resolve (fun name => if name = "TAGS" then some "[1]" else none) "" settledTags =
      .ok (.mapping [(.string "tags", .string "[1]"), (.string "lang", .string "en")]) := rfl
  refine ⟨_, hresolve, (resolve_tagFree_iff hresolve).mpr ?_⟩
  have htags : Gives (.sequence ([.string "TAGS"] ++ [.tagged "other" (.string "a")])) ["TAGS"]
      (some (.tagged "other" (.string "a"))) := .several (by simp) rfl
  have hlang : Gives (.sequence ([.string "LANG"] ++ [.string "en"])) ["LANG"]
      (some (.string "en")) := .several (by simp) rfl
  change ∀ s ∈ [TagSpot.mk _ _ _, ⟨_, _, _⟩], _
  rw [List.forall_mem_cons, List.forall_mem_singleton]
  constructor
  · rintro standIn ⟨names, hgives, hunset⟩
    obtain ⟨rfl, -⟩ := htags.unique hgives
    simp at hunset
  · rintro standIn ⟨names, hgives, -⟩
    obtain ⟨-, heq⟩ := hlang.unique hgives
    rw [← Option.some.inj heq]
    exact .scalar (.string "en")

/-- A document with tags within stand-ins: one that names a variable, and one
that is refused at any other place. -/
def nestedTags : Value :=
  .mapping
    [(.string "site_name", .tagged "ENV" (.sequence [.string "SITE", .tagged "ENV" (.string "NAME")])),
      (.string "extra", .mapping
        [(.string "lang", .tagged "ENV"
          (.sequence [.string "DOCS_LANG", .tagged "other" (.string "en")]))])]

/-- Both tags of `nestedTags` are left, though the variable of the first is set. -/
theorem resolve_leaves_tags :
    ∃ w, resolve (fun name => if name = "NAME" then some "Guide" else none) "" nestedTags = .ok w ∧
      ¬ w.TagFree := by
  have hresolve : resolve (fun name => if name = "NAME" then some "Guide" else none) "" nestedTags =
      .ok (.mapping
        [(.string "site_name", .tagged "ENV" (.string "NAME")),
          (.string "extra", .mapping [(.string "lang", .tagged "other" (.string "en"))])]) := rfl
  refine ⟨_, hresolve, ?_⟩
  simp

end Environment
end SitePlan
