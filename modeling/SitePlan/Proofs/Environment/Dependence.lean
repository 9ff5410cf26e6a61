/-
# The variables that matter

An outermost tag of a document names variables: by the text that is its argument, by
the one element of a sequence, or by all elements of a longer one but the last.
Loading a text looks up these variables and no others. So in two environments that
agree on them it gives the same configuration with the same warnings, or fails with
the same error, wherever in the text the tags stand.

Key definitions: `Environment.TagSpot.Names`, `Environment.TextNames`.
Key theorems: `Environment.mem_namesIn`, `Environment.mem_namesInText`,
`Environment.resolve_congr`, `Config.ofText_named_variables`.
-/
import SitePlan.Config.Load
import SitePlan.Proofs.Environment.Leftover

namespace SitePlan
namespace Environment

open Yaml (Value)

/-- A tag names a variable: its argument gives the name as one to look up. -/
def TagSpot.Names (s : TagSpot) (name : String) : Prop :=
  Yaml.bareTag s.tag = tagName ∧ ∃ names standIn, Gives s.argument names standIn ∧ name ∈ names

/-- A text names a variable: an outermost tag of its document does. -/
def TextNames (text name : String) : Prop :=
  ∃ v, Value.ofText text = .ok v ∧ ∃ s ∈ tagSpots "" v, s.Names name

/-! ### The names in a value -/

theorem mem_namesIn_tagged (field tag : String) (arg : Value) (name : String) :
    name ∈ namesIn (.tagged tag arg) ↔ (TagSpot.mk field tag arg).Names name := by
  unfold TagSpot.Names
  rw [namesIn]
  by_cases htag : Yaml.bareTag tag = tagName
  · rw [if_pos htag, and_iff_right htag]
    constructor
    · intro hname
      cases harg : argument arg with
      | ok given =>
        rw [harg] at hname
        exact ⟨given.1, given.2, argument_eq_ok.mp harg, hname⟩
      | error fault =>
        rw [harg] at hname
        exact absurd hname List.not_mem_nil
    · rintro ⟨names, standIn, hgives, hname⟩
      rw [argument_eq_ok.mpr hgives]
      exact hname
  · rw [if_neg htag]
    exact iff_of_false List.not_mem_nil fun h => htag h.1

mutual

theorem mem_namesIn (name : String) : ∀ (v : Value) (field : String),
    name ∈ namesIn v ↔ ∃ s ∈ tagSpots field v, s.Names name
  | .tagged tag arg, field => by
    rw [mem_namesIn_tagged field, tagSpots]
    simp
  | .mapping entries, field => by
    rw [namesIn, tagSpots]
    exact mem_namesInEntries name entries field
  | .sequence items, field => by
    rw [namesIn, tagSpots]
    exact mem_namesInItems name items field 0
  | .null, _ | .bool _, _ | .number _, _ | .string _, _ => by simp [namesIn, tagSpots]

theorem mem_namesInEntries (name : String) : ∀ (entries : List (Value × Value)) (field : String),
    name ∈ namesInEntries entries ↔ ∃ s ∈ tagSpotsOfEntries field entries, s.Names name
  | [], _ => by simp [namesInEntries, tagSpotsOfEntries]
  | (k, v) :: rest, field => by
    simp only [namesInEntries, tagSpotsOfEntries, List.mem_append,
      mem_namesIn name v (keyField field k), mem_namesInEntries name rest field, or_and_right,
      exists_or]

theorem mem_namesInItems (name : String) : ∀ (items : List Value) (field : String) (i : Nat),
    name ∈ namesInItems items ↔ ∃ s ∈ tagSpotsOfItems field i items, s.Names name
  | [], _, _ => by simp [namesInItems, tagSpotsOfItems]
  | v :: rest, field, i => by
    simp only [namesInItems, tagSpotsOfItems, List.mem_append,
      mem_namesIn name v (itemField field i), mem_namesInItems name rest field (i + 1),
      or_and_right, exists_or]

end

theorem mem_namesInText {text name : String} : name ∈ namesInText text ↔ TextNames text name := by
  unfold namesInText TextNames
  cases Value.ofText text with
  | ok v => simp [mem_namesIn name v ""]
  | error e => simp

/-! ### Two environments -/

variable {lookup lookup' : String → Option String}

theorem findSome?_congr : ∀ {names : List String}, (∀ name ∈ names, lookup name = lookup' name) →
    names.findSome? lookup = names.findSome? lookup'
  | [], _ => rfl
  | name :: names, h => by
    obtain ⟨hname, hnames⟩ := List.forall_mem_cons.mp h
    rw [List.findSome?_cons, List.findSome?_cons, hname, findSome?_congr hnames]

/-- A tag is replaced by the same in environments that agree on its names. -/
theorem value_congr {arg : Value} (h : ∀ names standIn, argument arg = .ok (names, standIn) →
    ∀ name ∈ names, lookup name = lookup' name) : value lookup arg = value lookup' arg := by
  unfold value
  cases harg : argument arg with
  | error fault => rfl
  | ok given =>
    simp only [Outcome.ok_bind, findSome?_congr (h given.1 given.2 harg)]

mutual

/-- **Resolving looks up the names in a value and no others.** Where a tag is at
fault, the fault is the same too. -/
theorem resolve_congr : ∀ (v : Value) (field : String),
    (∀ name ∈ namesIn v, lookup name = lookup' name) →
    resolve lookup field v = resolve lookup' field v
  | .tagged tag arg, field, h => by
    rw [resolve, resolve]
    by_cases htag : Yaml.bareTag tag = tagName
    · have hnames : ∀ names standIn, argument arg = .ok (names, standIn) →
          ∀ name ∈ names, lookup name = lookup' name := by
        intro names standIn harg name hname
        refine h name ?_
        rw [namesIn, if_pos htag, harg]
        exact hname
      rw [if_pos htag, if_pos htag, value_congr hnames]
    · rw [if_neg htag, if_neg htag]
  | .mapping entries, field, h => by
    rw [namesIn] at h
    rw [resolve, resolve, resolveEntries_congr entries field h]
  | .sequence items, field, h => by
    rw [namesIn] at h
    rw [resolve, resolve, resolveItems_congr items field 0 h]
  | .null, _, _ | .bool _, _, _ | .number _, _, _ | .string _, _, _ => rfl

theorem resolveEntries_congr : ∀ (entries : List (Value × Value)) (field : String),
    (∀ name ∈ namesInEntries entries, lookup name = lookup' name) →
    resolveEntries lookup field entries = resolveEntries lookup' field entries
  | [], _, _ => rfl
  | (k, v) :: rest, field, h => by
    rw [namesInEntries, List.forall_mem_append] at h
    rw [resolveEntries, resolveEntries, resolve_congr v (keyField field k) h.1,
      resolveEntries_congr rest field h.2]

theorem resolveItems_congr : ∀ (items : List Value) (field : String) (i : Nat),
    (∀ name ∈ namesInItems items, lookup name = lookup' name) →
    resolveItems lookup field i items = resolveItems lookup' field i items
  | [], _, _, _ => rfl
  | v :: rest, field, i, h => by
    rw [namesInItems, List.forall_mem_append] at h
    rw [resolveItems, resolveItems, resolve_congr v (itemField field i) h.1,
      resolveItems_congr rest field (i + 1) h.2]

end

end Environment

namespace Config

open Environment (TextNames mem_namesInText namesInText)
open Yaml (Value)

variable {lookup lookup' : String → Option String} {text : String}

/-- The document of a text depends on the variables that it names. -/
theorem documentEntries_congr (h : ∀ name ∈ namesInText text, lookup name = lookup' name) :
    documentEntries lookup text = documentEntries lookup' text := by
  unfold documentEntries
  unfold namesInText at h
  cases hv : Value.ofText text with
  | error e => rfl
  | ok v =>
    rw [hv] at h
    simp only [Environment.resolve_congr v "" h]

/-- **Only the variables that a text names matter.** In environments that agree on
these, it loads to the same configuration with the same warnings, or fails with the
same error. -/
theorem ofText_named_variables (h : ∀ name, TextNames text name → lookup name = lookup' name)
    (dir : Path) (s : Settings) : ofText lookup dir s text = ofText lookup' dir s text := by
  have hnamed : ∀ name ∈ namesInText text, lookup name = lookup' name :=
    fun name hname => h name (mem_namesInText.mp hname)
  unfold ofText
  rw [documentEntries_congr hnamed]

/-- A document with two tags, one of which has a stand-in and another tag below it. -/
def taggedDocument : String :=
  "site_name: !ENV [SITE, NAME, !ENV LANG]\nextra:\n  langs: [en, !ENV [LOCALE]]\n"

/-- The document loads alike in two environments that agree on `SITE`, `NAME` and
`LOCALE` but not on `LANG`; where they do not agree on `NAME` it does not. -/
theorem ofText_named_variables_taggedDocument :
    (∀ name, TextNames taggedDocument name ↔ name ∈ ["SITE", "NAME", "LOCALE"]) ∧
      ofText (fun name => [("NAME", "Guide"), ("LOCALE", "de")].lookup name) ⟨"/srv"⟩ .empty
          taggedDocument =
        ofText (fun name => [("LANG", "fr"), ("NAME", "Guide"), ("LOCALE", "de")].lookup name)
          ⟨"/srv"⟩ .empty taggedDocument ∧
      (ofText (fun name => [("NAME", "Guide"), ("LOCALE", "de")].lookup name) ⟨"/srv"⟩ .empty
          taggedDocument).toOption.map Config.siteName = some "Guide" ∧
      (ofText (fun name => [("NAME", "Notes"), ("LOCALE", "de")].lookup name) ⟨"/srv"⟩ .empty
          taggedDocument).toOption.map Config.siteName = some "Notes" := by
  have hnames : namesInText taggedDocument = ["SITE", "NAME", "LOCALE"] := by decide +kernel
  have hnamed : ∀ name, TextNames taggedDocument name ↔ name ∈ ["SITE", "NAME", "LOCALE"] := by
    intro name
    rw [← mem_namesInText, hnames]
  refine ⟨hnamed, ofText_named_variables ?agree ⟨"/srv"⟩ .empty, by decide +kernel,
    by decide +kernel⟩
  case agree =>
    intro name hname
    have hmem := (hnamed name).mp hname
    simp only [List.mem_cons, List.not_mem_nil, or_false] at hmem
    rcases hmem with rfl | rfl | rfl <;> rfl

end Config
end SitePlan
