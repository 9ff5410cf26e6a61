/-
# Components of joined paths

A relative path that is joined to a directory adds its steps to the components
of the directory: its segments without those that say nothing. A path that is
spelled plainly, without such segments, is determined by its steps.

Key definitions: `Path.steps`, `Path.Plain`, `Path.Component.isName`,
`Path.Component.segment`.
Key theorems: `Path.join_components`, `Path.steps_eq_filter`,
`Path.steps_injective`.
-/
import Mathlib.Data.List.Basic
import Mathlib.Tactic.SplitIfs
import SitePlan.Files.Path
import SitePlan.Proofs.Text.Split

namespace SitePlan
namespace Path

/-- Whether a component is the name of a file or directory. -/
def Component.isName : Component → Bool
  | .name _ => true
  | .root => false
  | .here => false
  | .up => false

/-- The segment that a component is written as. -/
def Component.segment : Component → List Char
  | .root => []
  | .here => ['.']
  | .up => ['.', '.']
  | .name s => s

/-- The components that a relative text adds to those of a directory. -/
def steps (cs : List Char) : List Component := (Text.splitAt '/' cs).filterMap ofSegment

theorem ofSegment_eq_none {s : List Char} : ofSegment s = none ↔ s = [] ∨ s = ['.'] := by
  unfold ofSegment
  by_cases h : s = [] ∨ s = ['.']
  · rw [if_pos h]
    exact iff_of_true rfl h
  · rw [if_neg h]
    split <;> simp [h]

theorem root_not_mem_filterMap (segments : List (List Char)) :
    .root ∉ segments.filterMap ofSegment := by
  intro h
  obtain ⟨s, -, hs⟩ := List.mem_filterMap.mp h
  unfold ofSegment at hs
  split_ifs at hs <;> cases hs

theorem map_name_segment {xs : List Component} (h : ∀ x ∈ xs, x.isName = true) :
    (xs.map Component.segment).map Component.name = xs := by
  rw [List.map_map]
  refine (List.map_congr_left fun x hx => ?_).trans (List.map_id xs)
  cases x with
  | name s => rfl
  | root => cases h _ hx
  | here => cases h _ hx
  | up => cases h _ hx

/-! ### Joining -/

/-- What stands after a separator adds its steps to what stands before it. -/
theorem componentsOf_append (xs ys : List Char) :
    componentsOf (xs ++ '/' :: ys) = componentsOf (xs ++ ['/']) ++ steps ys := by
  have hys : Text.splitAt '/' ys ≠ [] := Text.splitAt_ne_nil '/' ys
  unfold componentsOf
  rw [Text.splitAt_append, Text.splitAt_append]
  cases hs : Text.splitAt '/' xs with
  | nil => exact absurd hs (Text.splitAt_ne_nil '/' xs)
  | cons first rest =>
    have hnil : Text.splitAt '/' [] = [[]] := rfl
    by_cases hfirst : first = [] <;>
      simp [hfirst, hys, hnil, steps, ofSegment_eq_none, List.filterMap_append]

theorem componentsOf_append_separator {xs : List Char} (h : xs ≠ []) :
    componentsOf (xs ++ ['/']) = componentsOf xs := by
  unfold componentsOf
  rw [Text.splitAt_append]
  cases hs : Text.splitAt '/' xs with
  | nil => exact absurd hs (Text.splitAt_ne_nil '/' xs)
  | cons first rest =>
    have hnil : Text.splitAt '/' [] = [[]] := rfl
    have hnone : ofSegment [] = none := rfl
    -- an empty first segment with none after it would be the empty text
    have hempty : first = [] → rest ≠ [] := by
      rintro rfl rfl
      have hjoined := Text.intercalate_splitAt '/' xs
      rw [hs] at hjoined
      exact h hjoined.symm
    by_cases hfirst : first = []
    · simp [hfirst, hempty hfirst, hnil, hnone, List.filterMap_append]
    · simp [hfirst, hnil, hnone, List.filterMap_append]

/-- A relative path that is joined to a directory adds its steps. -/
theorem join_components {base p : Path} (hbase : base.text ≠ "") (hp : p.isAbsolute = false) :
    (base.join p).components = base.components ++ steps p.chars := by
  have hne : base.chars ≠ [] := fun h => hbase (String.toList_eq_nil_iff.mp h)
  unfold join components
  rw [hp, if_neg Bool.false_ne_true]
  by_cases hlast : base.chars.getLast? = some '/'
  · rw [if_pos (Or.inr hlast)]
    obtain ⟨xs, hxs⟩ := List.getLast?_eq_some_iff.mp hlast
    have hchars : (Path.mk (base.text ++ p.text)).chars = xs ++ '/' :: p.chars := by
      rw [chars, String.toList_append, show base.text.toList = xs ++ ['/'] from hxs,
        List.append_assoc]
      rfl
    rw [hchars, hxs, componentsOf_append]
  · rw [if_neg (not_or.mpr ⟨hne, hlast⟩)]
    have hchars : (Path.mk (base.text ++ "/" ++ p.text)).chars = base.chars ++ '/' :: p.chars := by
      rw [chars, String.toList_append, String.toList_append, List.append_assoc]
      rfl
    rw [hchars, componentsOf_append, componentsOf_append_separator hne]

/-! ### The segments of a relative path -/

/-- A path begins at the root if its first segment is empty and others follow. -/
theorem isAbsolute_iff {p : Path} : p.isAbsolute = true ↔
    ∃ rest, Text.splitAt '/' p.chars = [] :: rest ∧ rest ≠ [] := by
  unfold isAbsolute
  rw [beq_iff_eq]
  cases p.chars with
  | nil => simp [Text.splitAt]
  | cons c cs =>
    rw [List.head?_cons, Option.some.injEq, Text.splitAt]
    by_cases hc : c = '/'
    · simp [hc, Text.splitAt_ne_nil]
    · rw [if_neg hc]
      cases hs : Text.splitAt '/' cs <;> simp [hc]

theorem isAbsolute_eq_false {p : Path} (h : [] ∉ Text.splitAt '/' p.chars) :
    p.isAbsolute = false := by
  rw [Bool.eq_false_iff]
  intro habs
  obtain ⟨rest, hs, -⟩ := isAbsolute_iff.mp habs
  exact h (hs ▸ List.mem_cons_self)

theorem components_absolute {p : Path} (hp : p.isAbsolute = true) :
    ∃ rest, p.components = .root :: rest ∧ .root ∉ rest := by
  obtain ⟨segments, hs, hne⟩ := isAbsolute_iff.mp hp
  refine ⟨segments.filterMap ofSegment, ?_, root_not_mem_filterMap segments⟩
  unfold components componentsOf
  rw [hs]
  exact if_pos ⟨rfl, hne⟩

/-- A relative path has its steps for components, perhaps after a leading `.`. -/
theorem components_relative {p : Path} (hp : p.isAbsolute = false) :
    p.components = steps p.chars ∨
      p.components = .here :: steps p.chars ∧ ['.'] ∈ Text.splitAt '/' p.chars := by
  unfold components componentsOf steps
  cases hs : Text.splitAt '/' p.chars with
  | nil => exact absurd hs (Text.splitAt_ne_nil '/' p.chars)
  | cons first rest =>
    have hrelative : ¬ (first = [] ∧ rest ≠ []) := by
      rintro ⟨rfl, hrest⟩
      rw [isAbsolute_iff.mpr ⟨rest, hs, hrest⟩] at hp
      cases hp
    simp only [if_neg hrelative, ofFirstSegment]
    by_cases hdot : first = ['.']
    · have hnone : ofSegment first = none := ofSegment_eq_none.mpr (.inr hdot)
      right
      rw [if_pos hdot, List.filterMap_cons_none hnone, hdot]
      exact ⟨rfl, List.mem_cons_self⟩
    · left
      rw [if_neg hdot, List.filterMap_cons]
      cases ofSegment first <;> rfl

theorem root_not_mem_components {p : Path} (hp : p.isAbsolute = false) :
    .root ∉ p.components := by
  have hsteps : .root ∉ steps p.chars := root_not_mem_filterMap _
  rcases components_relative hp with h | ⟨h, -⟩
  · rwa [h]
  · rw [h]
    exact List.not_mem_cons_of_ne_of_not_mem (by decide) hsteps

/-- The root is the first component of paths from the root, and no component of
others. -/
theorem head?_components {p : Path} : p.components.head? = some .root ↔ p.isAbsolute = true := by
  cases hp : p.isAbsolute with
  | true =>
    obtain ⟨rest, hrest, -⟩ := components_absolute hp
    simp [hrest]
  | false =>
    have hroot := root_not_mem_components hp
    refine iff_of_false (fun h => hroot (List.mem_of_mem_head? h)) Bool.false_ne_true

theorem ofSegment_eq_up {s : List Char} : ofSegment s = some .up ↔ s = ['.', '.'] := by
  constructor
  · intro h
    unfold ofSegment at h
    split_ifs at h with h1 h2
    · exact h2
    · cases h
  · rintro rfl
    rfl

theorem isName_of_ofSegment {s : List Char} {x : Component} (h : ofSegment s = some x)
    (hs : s ≠ ['.', '.']) : x.isName = true := by
  unfold ofSegment at h
  split_ifs at h
  cases h
  rfl

/-- A text without a `..` has names for steps. -/
theorem isName_of_mem_steps {cs : List Char} (hup : ['.', '.'] ∉ Text.splitAt '/' cs) :
    ∀ x ∈ steps cs, x.isName = true := by
  intro x hx
  obtain ⟨s, hs, hsx⟩ := List.mem_filterMap.mp hx
  exact isName_of_ofSegment hsx fun he => hup (he ▸ hs)

/-- A relative path without `..` adds names to a directory. -/
theorem join_components_names {base p : Path} (hbase : base.text ≠ "") (hp : p.isAbsolute = false)
    (hup : ['.', '.'] ∉ Text.splitAt '/' p.chars) : (base.join p).components =
      base.components ++ ((steps p.chars).map Component.segment).map Component.name := by
  rw [map_name_segment (isName_of_mem_steps hup), join_components hbase hp]

/-- The steps of a relative path that does not lead upwards are the names among
its components. -/
theorem steps_eq_filter {p : Path} (hp : p.isAbsolute = false)
    (hup : ['.', '.'] ∉ Text.splitAt '/' p.chars) :
    steps p.chars = p.components.filter Component.isName := by
  have hsteps : (steps p.chars).filter Component.isName = steps p.chars :=
    List.filter_eq_self.mpr (isName_of_mem_steps hup)
  rcases components_relative hp with h | ⟨h, -⟩
  · rw [h, hsteps]
  · rw [h, List.filter_cons_of_neg (by decide), hsteps]

/-! ### Plain spelling -/

/-- A text in which every segment leads somewhere: none is empty and none is
a `.`. -/
def Plain (cs : List Char) : Prop := ∀ s ∈ Text.splitAt '/' cs, s ≠ [] ∧ s ≠ ['.']

instance (cs : List Char) : Decidable (Plain cs) :=
  inferInstanceAs (Decidable (∀ s ∈ Text.splitAt '/' cs, s ≠ [] ∧ s ≠ ['.']))

/-- The steps of a text that is spelled plainly tell its segments. -/
theorem map_segment_steps {cs : List Char} (h : Plain cs) :
    (steps cs).map Component.segment = Text.splitAt '/' cs := by
  have hsegment : ∀ s ∈ Text.splitAt '/' cs, (ofSegment s).map Component.segment = some s := by
    intro s hs
    unfold ofSegment
    rw [if_neg (not_or.mpr (h s hs))]
    by_cases hup : s = ['.', '.']
    · rw [if_pos hup, hup]
      rfl
    · rw [if_neg hup]
      rfl
  rw [steps, List.map_filterMap, List.filterMap_congr hsegment, List.filterMap_some]

/-- Texts that are spelled plainly and have the same steps are the same. -/
theorem steps_injective {cs ds : List Char} (hc : Plain cs) (hd : Plain ds)
    (h : steps cs = steps ds) : cs = ds := by
  rw [← Text.intercalate_splitAt '/' cs, ← map_segment_steps hc, h, map_segment_steps hd,
    Text.intercalate_splitAt]

/-- A text that is spelled plainly adds its steps to those of any directory. -/
theorem join_components_of_plain (base : Path) {p : Path} (hp : Plain p.chars) :
    (base.join p).components = base.components ++ steps p.chars := by
  have hrelative : p.isAbsolute = false := isAbsolute_eq_false fun h => (hp [] h).1 rfl
  by_cases hbase : base.text = ""
  · -- nothing stands before the path, and it does not begin with a `.`
    have hjoin : (base.join p).components = p.components := by
      unfold join
      rw [hrelative, if_neg Bool.false_ne_true, if_pos (.inl (String.toList_eq_nil_iff.mpr hbase)),
        hbase, String.empty_append]
    have hnone : base.components = [] := by
      rw [components, chars, hbase]
      rfl
    rw [hjoin, hnone, List.nil_append]
    rcases components_relative hrelative with h | ⟨-, hdot⟩
    · exact h
    · exact absurd rfl (hp ['.'] hdot).2
  · exact join_components hbase hrelative

end Path
end SitePlan
