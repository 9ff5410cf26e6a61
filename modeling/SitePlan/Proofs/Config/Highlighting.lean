/-
# Options for highlighting code

The options of the extension for highlighting code have types that validation
checks. The extension is recognised in two spellings, by its name and by the name
with the beginning that extensions may carry, but options are checked under the
name alone. So in a valid configuration the options of an entry with any other
name can be replaced by any others, and those for highlighting are sure to be
well formed exactly if every entry recognised as the extension is named without
the beginning.

Key definitions: `NamedEntry.reequip`, `Config.reequip`.
Key theorems: `Enforces.unique`, `Config.rules_reequip`, `Config.validate_reequip`,
`Config.validate_highlighting`.
-/
import SitePlan.Proofs.Config.Identifiers

namespace SitePlan

open Yaml (Value)

/-- Two checks that enforce the same rules and have the same result are one. -/
theorem Enforces.unique {α : Type} {check other : Except ConfigError α} {result : α}
    {rules : List Rule} (h : Enforces check result rules) (hother : Enforces other result rules) :
    check = other := by
  rcases all_hold_or_firstBroken rules with hall | ⟨e, he⟩
  · rw [h.passes hall, hother.passes hall]
  · rw [h.fails e he, hother.fails e he]

variable (options : NamedEntry → List (Value × Value))

namespace NamedEntry

/-- The entry with other options, unless it has the name under which options are
checked. -/
def reequip (e : NamedEntry) : NamedEntry :=
  if e.name = highlightName then e else { e with options := options e }

theorem reequip_eq_self {e : NamedEntry} (h : e.name = highlightName) : e.reequip options = e :=
  if_pos h

theorem reequip_of_ne {e : NamedEntry} (h : e.name ≠ highlightName) :
    e.reequip options = { e with options := options e } :=
  if_neg h

@[simp] theorem reequip_name (e : NamedEntry) : (e.reequip options).name = e.name := by
  unfold reequip
  split <;> rfl

end NamedEntry

namespace Config

/-- The configuration with other options for its extensions, but for those under
whose name options are checked. -/
def reequip (c : Config) : Config :=
  { c with markdownExtensions := c.markdownExtensions.map (NamedEntry.reequip options) }

variable {c : Config} {r : Registry}

/-- The rules of a configuration say nothing of options under other names. -/
theorem rules_reequip (c : Config) (r : Registry) : (c.reequip options).rules r = c.rules r := by
  have hnames : (c.reequip options).markdownExtensions.map NamedEntry.name =
      c.markdownExtensions.map NamedEntry.name := by
    show (c.markdownExtensions.map (NamedEntry.reequip options)).map NamedEntry.name = _
    rw [List.map_map]
    exact List.map_congr_left fun e _ => e.reequip_name options
  have hchecked : (c.reequip options).markdownExtensions.filter (fun e => e.name = highlightName) =
      c.markdownExtensions.filter fun e => e.name = highlightName := by
    show (c.markdownExtensions.map (NamedEntry.reequip options)).filter _ = _
    rw [List.filter_map]
    simp only [Function.comp_def, NamedEntry.reequip_name]
    calc
      _ = (c.markdownExtensions.filter fun e => e.name = highlightName).map id := by
        apply List.map_congr_left
        intro e he
        have hname : e.name = highlightName := of_decide_eq_true (List.mem_filter.mp he).2
        exact e.reequip_eq_self options hname
      _ = _ := List.map_id _
  unfold rules
  rw [hnames, hchecked]
  rfl

theorem validate_reequip (c : Config) (r : Registry) :
    (c.reequip options).validate r = c.validate r := by
  have h := (c.reequip options).validate_enforces r
  rw [rules_reequip] at h
  exact h.unique (c.validate_enforces r)

/-- **Options are checked under the extension's own name.** In a valid
configuration they are well formed there. Under every other name they can be
replaced by any options, with the same outcome. So the options of the entries
recognised as the extension are well formed whatever they are replaced by exactly
if each of these entries has the extension's own name. -/
theorem validate_highlighting {warnings : List String} (h : c.validate r = .ok warnings) :
    (∀ e ∈ c.markdownExtensions, e.name = highlightName → e.HighlightsWell) ∧
      (∀ options, (c.reequip options).validate r = .ok warnings) ∧
      ((∀ options, ∀ e ∈ (c.reequip options).markdownExtensions,
          r.recognise? .markdownExtension e.name = some highlightName → e.HighlightsWell) ↔
        ∀ e ∈ c.markdownExtensions, r.recognise? .markdownExtension e.name = some highlightName →
          e.name = highlightName) := by
  have hvalid : c.Valid r := (c.validate_exact r).1.mp ⟨warnings, h⟩
  have hsame : ∀ options, (c.reequip options).validate r = .ok warnings :=
    fun options => (c.validate_reequip options r).trans h
  refine ⟨hvalid.highlight, hsame, ?_, ?_⟩
  · intro hall e he hrecognised
    by_contra hname
    -- line numbers that are neither on nor off
    let numbers : NamedEntry → List (Value × Value) := fun _ => [(.string "linenums", .null)]
    have hmem : e.reequip numbers ∈ (c.reequip numbers).markdownExtensions :=
      List.mem_map_of_mem he
    have hwell := hall numbers _ hmem (by rwa [NamedEntry.reequip_name])
    rw [NamedEntry.reequip_of_ne numbers hname] at hwell
    obtain ⟨b, hb⟩ := hwell.1 .null rfl
    cases hb
  · intro hspelled options e he hrecognised
    obtain ⟨e', he', rfl⟩ := List.mem_map.mp he
    rw [NamedEntry.reequip_name] at hrecognised
    have hname : e'.name = highlightName := hspelled e' he' hrecognised
    rw [e'.reequip_eq_self options hname]
    exact hvalid.highlight e' he' hname

/-- A site with the extension for highlighting code in both spellings, with
options for each. -/
def highlightedSite (own long : List (Value × Value)) : Config :=
  { equippedSite [] [] with
    markdownExtensions :=
      [⟨highlightName, own⟩, ⟨"markdown.extensions.pymdownx.highlight", long⟩] }

/-- Line numbers in a table. -/
def tableNumbers : List (Value × Value) :=
  [(.string "linenums", .bool true), (.string "linenums_style", .string "table")]

/-- The options of the first entry are well formed, and those of the second can be
any. -/
theorem validate_highlighting_bothSpellings :
    (highlightedSite tableNumbers []).validate .builtin = .ok [] ∧
      NamedEntry.HighlightsWell ⟨highlightName, tableNumbers⟩ ∧
      (∀ long, (highlightedSite tableNumbers long).validate .builtin = .ok []) ∧
      ¬ ∀ options, ∀ e ∈ ((highlightedSite tableNumbers []).reequip options).markdownExtensions,
        Registry.builtin.recognise? .markdownExtension e.name = some highlightName →
          e.HighlightsWell := by
  have hvalid : (highlightedSite tableNumbers []).validate .builtin = .ok [] := rfl
  obtain ⟨hwell, hsame, hspelled⟩ := validate_highlighting hvalid
  refine ⟨hvalid, hwell _ List.mem_cons_self rfl, fun long => hsame fun _ => long, ?_⟩
  rw [hspelled]
  intro hall
  have hlong := hall _ (List.mem_cons_of_mem _ List.mem_cons_self) rfl
  exact absurd hlong (by decide)

/-- A site is valid with line numbers that are neither on nor off in an entry that
is recognised as the extension. -/
theorem validate_accepts_lineNumbers :
    (highlightedSite [] [(.string "linenums", .number (.int 3))]).validate .builtin = .ok [] ∧
      Registry.builtin.recognise? .markdownExtension "markdown.extensions.pymdownx.highlight" =
        some highlightName ∧
      ¬ NamedEntry.HighlightsWell
        ⟨"markdown.extensions.pymdownx.highlight", [(.string "linenums", .number (.int 3))]⟩ := by
  refine ⟨rfl, rfl, fun hwell => ?_⟩
  obtain ⟨b, hb⟩ := hwell.1 _ rfl
  cases hb

end Config
end SitePlan
