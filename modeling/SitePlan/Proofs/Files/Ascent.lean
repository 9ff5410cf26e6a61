/-
# The directories above a path

A path goes up by dropping its last component with what follows it; a leading `.` is a
component too. The root and the empty path do not go up. So a path leads up through as many
directories as it has components besides the root, each of them with one component less, to
the root if it begins there and to the empty path if not.

Key definitions: `Path.depth`, `Path.above`.
Key theorems: `Path.parent?_components`, `Path.depth_le_length`, `Path.isSome_above_iff`,
`Path.above_components`.
-/
import Mathlib.Data.List.DropRight
import SitePlan.Proofs.Files.Components

namespace SitePlan
namespace Path

/-- How many components can be dropped from a path. -/
def depth (p : Path) : Nat := (p.components.filter fun c => c ≠ .root).length

/-- The path after going up the given number of times, if it can. -/
def above (p : Path) : Nat → Option Path
  | 0 => some p
  | n + 1 => p.parent?.bind fun q => q.above n

/-! ### Segments without the last component -/

/-- Whether a segment stands for no component. -/
def isVoid (s : List Char) : Bool := (ofSegment s).isNone

theorem isVoid_iff {s : List Char} : isVoid s = true ↔ ofSegment s = none :=
  Option.isNone_iff_eq_none

theorem dropEmptyEnd_eq (segments : List (List Char)) :
    dropEmptyEnd segments = segments.rdropWhile isVoid := rfl

theorem filterMap_dropEmptyEnd (segments : List (List Char)) :
    (dropEmptyEnd segments).filterMap ofSegment = segments.filterMap ofSegment := by
  rw [dropEmptyEnd_eq]
  induction segments using List.reverseRecOn with
  | nil => rfl
  | append_singleton init s ih =>
    by_cases hs : isVoid s = true
    · rw [List.rdropWhile_concat_pos _ _ _ hs, ih, List.filterMap_append,
        List.filterMap_cons_none (isVoid_iff.mp hs), List.filterMap_nil, List.append_nil]
    · rw [List.rdropWhile_concat_neg _ _ _ hs]

theorem dropEmptyEnd_eq_nil {segments : List (List Char)} :
    dropEmptyEnd segments = [] ↔ segments.filterMap ofSegment = [] := by
  rw [dropEmptyEnd_eq, List.rdropWhile_eq_nil_iff, List.filterMap_eq_nil_iff]
  simp only [isVoid_iff]

theorem prefix_dropEmptyEnd (segments : List (List Char)) : dropEmptyEnd segments <+: segments :=
  List.rdropWhile_prefix _ segments

/-- The last of the segments that are left is a component. -/
theorem exists_last_component {segments : List (List Char)} (h : dropEmptyEnd segments ≠ []) :
    ∃ c, segments.filterMap ofSegment =
      (dropEmptyEnd (dropEmptyEnd segments).dropLast).filterMap ofSegment ++ [c] := by
  have hlast : ¬ isVoid ((dropEmptyEnd segments).getLast h) = true :=
    List.rdropWhile_last_not isVoid segments h
  obtain ⟨c, hc⟩ := Option.ne_none_iff_exists'.mp fun hnone => hlast (isVoid_iff.mpr hnone)
  refine ⟨c, ?_⟩
  rw [filterMap_dropEmptyEnd]
  calc segments.filterMap ofSegment
      = (dropEmptyEnd segments).filterMap ofSegment := (filterMap_dropEmptyEnd segments).symm
    _ = ((dropEmptyEnd segments).dropLast ++
          [(dropEmptyEnd segments).getLast h]).filterMap ofSegment := by
        rw [List.dropLast_append_getLast]
    _ = (dropEmptyEnd segments).dropLast.filterMap ofSegment ++ [c] := by
        rw [List.filterMap_append]
        exact congrArg _ (List.filterMap_cons_some hc)

/-- Segments lose their last component, if there is one. -/
theorem dropLast?_spec (segments : List (List Char)) :
    (dropLast? false segments = none ∧ segments.filterMap ofSegment = []) ∨
      ∃ body c, dropLast? false segments = some body ∧ body <+: segments ∧ c ≠ .root ∧
        segments.filterMap ofSegment = body.filterMap ofSegment ++ [c] := by
  by_cases h : dropEmptyEnd segments = []
  · left
    refine ⟨?_, dropEmptyEnd_eq_nil.mp h⟩
    simp [dropLast?, h]
  · right
    obtain ⟨c, hc⟩ := exists_last_component h
    refine ⟨dropEmptyEnd (dropEmptyEnd segments).dropLast, c, ?_, ?_, ?_, hc⟩
    · obtain ⟨s, rest, hbody⟩ := List.exists_cons_of_ne_nil h
      simp [dropLast?, hbody]
    · have hinit : (dropEmptyEnd segments).dropLast <+: dropEmptyEnd segments :=
        List.dropLast_prefix _
      exact ((prefix_dropEmptyEnd _).trans hinit).trans (prefix_dropEmptyEnd segments)
    · rintro rfl
      refine root_not_mem_filterMap segments ?_
      rw [hc]
      exact List.mem_append_right _ List.mem_cons_self

theorem dropLast?_relative {segments : List (List Char)} (h : segments.head? ≠ some ['.']) :
    dropLast? true segments = dropLast? false segments := by
  simp [dropLast?, h]

/-- A leading `.` is dropped if nothing else is there. -/
theorem dropLast?_here (rest : List (List Char)) : dropLast? true (['.'] :: rest) =
    some (match dropLast? false rest with
      | some body => ['.'] :: body
      | none => []) := by
  cases h : dropEmptyEnd rest <;> simp [dropLast?, h]

/-! ### The components of what is left -/

theorem componentsOf_root (cs : List Char) :
    componentsOf ('/' :: cs) = .root :: (Text.splitAt '/' cs).filterMap ofSegment := by
  unfold componentsOf
  rw [Text.splitAt, if_pos rfl]
  exact if_pos ⟨rfl, Text.splitAt_ne_nil '/' cs⟩

theorem componentsOf_root_intercalate {segments : List (List Char)}
    (h : ∀ s ∈ segments, '/' ∉ s) :
    componentsOf ('/' :: ['/'].intercalate segments) =
      .root :: segments.filterMap ofSegment := by
  rw [componentsOf_root]
  by_cases hne : segments = []
  · rw [hne]
    rfl
  · rw [Text.splitAt_intercalate '/' hne h]

theorem componentsOf_here {cs : List Char} {rest : List (List Char)}
    (h : Text.splitAt '/' cs = ['.'] :: rest) :
    componentsOf cs = .here :: rest.filterMap ofSegment := by
  unfold componentsOf
  rw [h]
  rfl

/-- Only a text from the root has an empty first segment with others after it. -/
theorem segments_relative {cs first : List Char} {rest : List (List Char)}
    (hroot : cs.head? ≠ some '/') (hs : Text.splitAt '/' cs = first :: rest) :
    ¬ (first = [] ∧ rest ≠ []) := by
  rintro ⟨rfl, hne⟩
  have hcs := Text.intercalate_splitAt '/' cs
  rw [hs, Text.intercalate_cons '/' hne] at hcs
  exact hroot (hcs ▸ rfl)

/-- The components of a text that begins neither at the root nor with a `.`. -/
theorem componentsOf_names {cs : List Char} (hroot : cs.head? ≠ some '/')
    (hhere : (Text.splitAt '/' cs).head? ≠ some ['.']) :
    componentsOf cs = (Text.splitAt '/' cs).filterMap ofSegment := by
  unfold componentsOf
  cases hs : Text.splitAt '/' cs with
  | nil => rfl
  | cons first rest =>
    have hrelative := segments_relative hroot hs
    have hfirst : first ≠ ['.'] := fun h => hhere (by rw [hs, h]; rfl)
    have hsegment : ofFirstSegment first = ofSegment first := if_neg hfirst
    simp only [if_neg hrelative, hsegment]
    cases hc : ofSegment first with
    | none => rw [List.filterMap_cons_none hc]; rfl
    | some c => rw [List.filterMap_cons_some hc]; rfl

theorem prefix_head?_eq_some {α : Type} {a : α} {l l' : List α} (h : l <+: l')
    (ha : l.head? = some a) : l'.head? = some a := by
  obtain ⟨more, rfl⟩ := h
  rw [List.head?_append, ha]
  rfl

/-- The first segments of a text are a beginning of it. -/
theorem prefix_intercalate {cs : List Char} {body : List (List Char)}
    (h : body <+: Text.splitAt '/' cs) : ['/'].intercalate body <+: cs := by
  obtain ⟨more, hmore⟩ := h
  have hcs := Text.intercalate_splitAt '/' cs
  rw [← hmore] at hcs
  by_cases hbody : body = []
  · rw [hbody]
    exact List.nil_prefix
  · by_cases hnil : more = []
    · rw [hnil, List.append_nil] at hcs
      exact ⟨[], by rw [List.append_nil, hcs]⟩
    · rw [Text.intercalate_append '/' hnil hbody] at hcs
      exact ⟨_, hcs⟩

/-- How a path begins, with the components that it has accordingly. -/
inductive Spelled (p : Path) : Prop
  | root {cs : List Char} : p.chars = '/' :: cs →
      p.components = .root :: (Text.splitAt '/' cs).filterMap ofSegment → Spelled p
  | here {rest : List (List Char)} : p.chars.head? ≠ some '/' →
      Text.splitAt '/' p.chars = ['.'] :: rest →
      p.components = .here :: rest.filterMap ofSegment → Spelled p
  | names : p.chars.head? ≠ some '/' → (Text.splitAt '/' p.chars).head? ≠ some ['.'] →
      p.components = (Text.splitAt '/' p.chars).filterMap ofSegment → Spelled p

theorem spelled (p : Path) : Spelled p := by
  by_cases hroot : p.chars.head? = some '/'
  · obtain ⟨cs, hcs⟩ := List.head?_eq_some_iff.mp hroot
    exact .root hcs (by rw [components, hcs, componentsOf_root])
  · by_cases hhere : (Text.splitAt '/' p.chars).head? = some ['.']
    · obtain ⟨rest, hrest⟩ := List.head?_eq_some_iff.mp hhere
      exact .here hroot hrest (componentsOf_here hrest)
    · exact .names hroot hhere (componentsOf_names hroot hhere)

/-! ### Going up -/

variable {p q : Path}

theorem parent?_root {cs : List Char} (h : p.chars = '/' :: cs) :
    p.parent? = (dropLast? false (Text.splitAt '/' cs)).map fun body =>
      ⟨String.ofList ('/' :: ['/'].intercalate body)⟩ := by
  unfold parent?
  rw [h, Text.splitAt, if_pos rfl]
  exact if_pos ⟨rfl, Text.splitAt_ne_nil '/' cs⟩

theorem parent?_relative (h : p.chars.head? ≠ some '/') :
    p.parent? = (dropLast? true (Text.splitAt '/' p.chars)).map fun body =>
      ⟨String.ofList (['/'].intercalate body)⟩ := by
  unfold parent?
  cases hs : Text.splitAt '/' p.chars with
  | nil => exact absurd hs (Text.splitAt_ne_nil '/' p.chars)
  | cons first rest => exact if_neg (segments_relative h hs)

/-- What a step up leaves and what it drops. -/
inductive Rises (p : Path) : Option Path → Prop
  | stays : p.depth = 0 → Rises p none
  | up {q : Path} {c : Component} : c ≠ .root → p.components = q.components ++ [c] →
      Rises p (some q)

theorem rises_root {cs : List Char} (h : p.chars = '/' :: cs)
    (hcomponents : p.components = .root :: (Text.splitAt '/' cs).filterMap ofSegment) :
    Rises p p.parent? := by
  rw [parent?_root h]
  rcases dropLast?_spec (Text.splitAt '/' cs) with
    ⟨hnone, hnames⟩ | ⟨body, c, hbody, hpre, hc, hnames⟩
  · rw [hnone]
    refine .stays ?_
    rw [depth, hcomponents, hnames]
    rfl
  · have hslash : ∀ s ∈ body, '/' ∉ s := fun s hs =>
      Text.not_mem_of_mem_splitAt '/' cs s (hpre.subset hs)
    rw [hbody]
    refine .up hc ?_
    rw [hcomponents, hnames, components, chars, String.toList_ofList,
      componentsOf_root_intercalate hslash, List.cons_append]

theorem rises_here {rest : List (List Char)} (h : p.chars.head? ≠ some '/')
    (hs : Text.splitAt '/' p.chars = ['.'] :: rest)
    (hcomponents : p.components = .here :: rest.filterMap ofSegment) : Rises p p.parent? := by
  rw [parent?_relative h, hs, dropLast?_here]
  rcases dropLast?_spec rest with ⟨hnone, hnames⟩ | ⟨body, c, hbody, hpre, hc, hnames⟩
  · rw [hnone]
    have hhere : p.components = (Path.mk "").components ++ [.here] := by
      rw [hcomponents, hnames]
      rfl
    exact .up (by decide) hhere
  · have hslash : ∀ s ∈ ['.'] :: body, '/' ∉ s := by
      intro s hmem
      refine Text.not_mem_of_mem_splitAt '/' p.chars s ?_
      rw [hs]
      exact ((List.prefix_cons_inj ['.']).mpr hpre).subset hmem
    have hsegments := Text.splitAt_intercalate '/' (List.cons_ne_nil ['.'] body) hslash
    rw [hbody]
    refine .up hc ?_
    rw [hcomponents, hnames, components, chars, String.toList_ofList,
      componentsOf_here hsegments, List.cons_append]

theorem rises_names (h : p.chars.head? ≠ some '/')
    (hs : (Text.splitAt '/' p.chars).head? ≠ some ['.'])
    (hcomponents : p.components = (Text.splitAt '/' p.chars).filterMap ofSegment) :
    Rises p p.parent? := by
  rw [parent?_relative h, dropLast?_relative hs]
  rcases dropLast?_spec (Text.splitAt '/' p.chars) with
    ⟨hnone, hnames⟩ | ⟨body, c, hbody, hpre, hc, hnames⟩
  · rw [hnone]
    refine .stays ?_
    rw [depth, hcomponents, hnames]
    rfl
  · have hslash : ∀ s ∈ body, '/' ∉ s := fun s hmem =>
      Text.not_mem_of_mem_splitAt '/' p.chars s (hpre.subset hmem)
    have hjoined : componentsOf (['/'].intercalate body) = body.filterMap ofSegment := by
      by_cases hnil : body = []
      · rw [hnil]
        rfl
      · have hsegments := Text.splitAt_intercalate '/' hnil hslash
        have hhead : (['/'].intercalate body).head? ≠ some '/' := fun hroot =>
          h (prefix_head?_eq_some (prefix_intercalate hpre) hroot)
        have hfirst : (Text.splitAt '/' (['/'].intercalate body)).head? ≠ some ['.'] := by
          rw [hsegments]
          exact fun hdot => hs (prefix_head?_eq_some hpre hdot)
        rw [componentsOf_names hhead hfirst, hsegments]
    rw [hbody]
    refine .up hc ?_
    rw [hcomponents, hnames, components, chars, String.toList_ofList, hjoined]

/-- **A path goes up by its last component.** It does not go up exactly if it has no
component besides the root. -/
theorem rises_parent? (p : Path) : Rises p p.parent? := by
  cases p.spelled with
  | root h hcomponents => exact rises_root h hcomponents
  | here h hs hcomponents => exact rises_here h hs hcomponents
  | names h hs hcomponents => exact rises_names h hs hcomponents

theorem parent?_components (h : p.parent? = some q) :
    ∃ c, c ≠ .root ∧ p.components = q.components ++ [c] := by
  have hrises := rises_parent? p
  rw [h] at hrises
  cases hrises with
  | up hc hcomponents => exact ⟨_, hc, hcomponents⟩

/-- Each step up is one less that is left. -/
theorem depth_parent? (h : p.parent? = some q) : p.depth = q.depth + 1 := by
  obtain ⟨c, hc, hcomponents⟩ := parent?_components h
  have hkept : [c].filter (fun c => decide (c ≠ .root)) = [c] :=
    List.filter_cons_of_pos (decide_eq_true hc)
  rw [depth, depth, hcomponents, List.filter_append, hkept, List.length_append]
  rfl

theorem depth_of_parent?_eq_none (h : p.parent? = none) : p.depth = 0 := by
  have hrises := rises_parent? p
  rw [h] at hrises
  cases hrises with
  | stays hdepth => exact hdepth

theorem above_succ (h : p.parent? = some q) (n : Nat) : p.above (n + 1) = q.above n := by
  rw [above, h, Option.bind_some]

/-- One can go up as often as there are components besides the root. -/
theorem isSome_above_iff : ∀ {n : Nat} {p : Path}, (p.above n).isSome = true ↔ n ≤ p.depth
  | 0, p => by simp [above]
  | n + 1, p => by
    cases hp : p.parent? with
    | none => simp [above, hp, depth_of_parent?_eq_none hp]
    | some q =>
      rw [above_succ hp, isSome_above_iff, depth_parent? hp, Nat.add_le_add_iff_right]

/-- Going up drops as many components from the end. -/
theorem above_components : ∀ {n : Nat} {p q : Path}, p.above n = some q →
    ∃ dropped, dropped.length = n ∧ p.components = q.components ++ dropped
  | 0, p, q, h => by
    cases h
    exact ⟨[], rfl, (List.append_nil _).symm⟩
  | n + 1, p, q, h => by
    obtain ⟨r, hr, hq⟩ := Option.bind_eq_some_iff.mp h
    obtain ⟨c, -, hc⟩ := parent?_components hr
    obtain ⟨dropped, hlength, hdropped⟩ := above_components hq
    refine ⟨dropped ++ [c], ?_, ?_⟩
    · rw [List.length_append, hlength]
      rfl
    · rw [hc, hdropped, List.append_assoc]

/-! ### A path has no more components than characters -/

/-- Segments have the characters of the text but for the slashes between them. -/
theorem length_splitAt : ∀ cs : List Char,
    (Text.splitAt '/' cs).flatten.length + (Text.splitAt '/' cs).length = cs.length + 1
  | [] => rfl
  | c :: cs => by
    have ih := length_splitAt cs
    rw [Text.splitAt]
    split
    · rw [List.flatten_cons, List.nil_append, List.length_cons, List.length_cons]
      omega
    · cases hs : Text.splitAt '/' cs with
      | nil => exact absurd hs (Text.splitAt_ne_nil '/' cs)
      | cons piece pieces =>
        rw [hs, List.flatten_cons, List.length_append, List.length_cons] at ih
        simp only [List.flatten_cons, List.length_append, List.length_cons]
        omega

theorem length_ofSegment (s : List Char) : (ofSegment s).toList.length ≤ s.length := by
  unfold ofSegment
  split_ifs with hvoid hup
  · exact Nat.zero_le _
  · rw [hup]
    decide
  · have hpos := List.length_pos_of_ne_nil fun h => hvoid (.inl h)
    exact hpos

theorem length_filterMap_ofSegment : ∀ segments : List (List Char),
    (segments.filterMap ofSegment).length ≤ segments.flatten.length
  | [] => Nat.le_refl 0
  | s :: segments => by
    have hlength : ((s :: segments).filterMap ofSegment).length =
        (ofSegment s).toList.length + (segments.filterMap ofSegment).length := by
      rw [List.filterMap_cons]
      cases ofSegment s with
      | none => exact (Nat.zero_add _).symm
      | some c => exact Nat.add_comm _ _
    rw [hlength, List.flatten_cons, List.length_append]
    exact Nat.add_le_add (length_ofSegment s) (length_filterMap_ofSegment segments)

theorem length_components (p : Path) : p.components.length ≤ p.chars.length := by
  cases p.spelled with
  | @root cs h hcomponents =>
    have hlength := length_splitAt cs
    have hnames := length_filterMap_ofSegment (Text.splitAt '/' cs)
    have hpos := List.length_pos_of_ne_nil (Text.splitAt_ne_nil '/' cs)
    rw [hcomponents, h, List.length_cons, List.length_cons]
    omega
  | @here rest _ hs hcomponents =>
    have hlength := length_splitAt p.chars
    have hnames := length_filterMap_ofSegment rest
    rw [hs, List.flatten_cons, List.length_append, List.length_singleton,
      List.length_cons] at hlength
    rw [hcomponents, List.length_cons]
    omega
  | names _ _ hcomponents =>
    have hlength := length_splitAt p.chars
    have hnames := length_filterMap_ofSegment (Text.splitAt '/' p.chars)
    have hpos := List.length_pos_of_ne_nil (Text.splitAt_ne_nil '/' p.chars)
    rw [hcomponents]
    omega

theorem depth_le_length (p : Path) : p.depth ≤ p.chars.length :=
  (List.length_filter_le _ _).trans p.length_components

end Path
end SitePlan
