/-
# Identifiers that are named twice

A name is recognised as a registered identifier: as itself, or without the
beginning that its kind allows. Validation refuses a name that is listed twice,
as it is spelled. So an identifier can be named at most twice among the
extensions or the plugins of a valid configuration, once in each of its two
spellings, and there is none that is exactly if no registered name is listed
both with and without the beginning.

Key definitions: `Config.namesOf`.
Key theorems: `Registry.spellings_of_same`, `Config.valid_names`,
`Config.validate_identifiers`.
-/
import Mathlib.Data.List.Nodup
import Mathlib.Tactic.ByContra
import SitePlan.Proofs.Config.Rules

namespace SitePlan

/-- Two names of one identifier are its two spellings. -/
theorem Registry.spellings_of_same {r : Registry} {kind : IdentifierKind} {a b id : String}
    (ha : r.recognise? kind a = some id) (hb : r.recognise? kind b = some id) (hne : a ≠ b) :
    ∃ start, kind.namespaceText? = some start ∧
      (a = id ∧ b = start ++ id ∨ a = start ++ id ∧ b = id) := by
  obtain ⟨-, hname | ⟨-, start, hstart, hname⟩⟩ := recognise?_eq_some.mp ha
  · obtain ⟨-, hname' | ⟨-, start, hstart, hname'⟩⟩ := recognise?_eq_some.mp hb
    · exact absurd (hname.trans hname'.symm) hne
    · exact ⟨start, hstart, .inl ⟨hname, hname'⟩⟩
  · obtain ⟨-, hname' | ⟨-, start', hstart', hname'⟩⟩ := recognise?_eq_some.mp hb
    · exact ⟨start, hstart, .inr ⟨hname, hname'⟩⟩
    · -- a kind allows one beginning
      have hsame : start = start' := Option.some.inj (hstart.symm.trans hstart')
      rw [hname, hname', hsame] at hne
      exact absurd rfl hne

namespace Config

/-- The names of a kind that a configuration lists. -/
def namesOf (c : Config) : IdentifierKind → List String
  | .theme => [c.theme.name]
  | .markdownExtension => c.markdownExtensions.map NamedEntry.name
  | .plugin => c.plugins.map NamedEntry.name

variable {c : Config} {r : Registry}

/-- The names that a valid configuration lists are recognised and distinct. -/
theorem valid_names (h : c.Valid r) (kind : IdentifierKind) :
    (∀ name ∈ c.namesOf kind, r.Recognises kind name) ∧ (c.namesOf kind).Nodup := by
  cases kind with
  | theme => exact ⟨List.forall_mem_singleton.mpr h.theme, List.nodup_singleton _⟩
  | markdownExtension => exact ⟨List.forall_mem_map.mpr h.extensions, h.extensions_nodup⟩
  | plugin => exact ⟨List.forall_mem_map.mpr h.plugins, h.plugins_nodup⟩

/-- **An identifier is named once in each spelling.** In a valid configuration
every name is recognised, and two names of one identifier are this and the
beginning with it. So no identifier is named twice exactly if no registered name
is listed both with and without the beginning, the former not being registered
itself. -/
theorem validate_identifiers {warnings : List String} (h : c.validate r = .ok warnings)
    (kind : IdentifierKind) :
    (∀ name ∈ c.namesOf kind, ∃ id, r.recognise? kind name = some id) ∧
      (c.namesOf kind).Pairwise (fun a b => ∀ id, r.recognise? kind a = some id →
        r.recognise? kind b = some id → ∃ start, kind.namespaceText? = some start ∧
          (a = id ∧ b = start ++ id ∨ a = start ++ id ∧ b = id)) ∧
      (((c.namesOf kind).map (r.recognise? kind)).Nodup ↔
        ∀ start, kind.namespaceText? = some start → ∀ id ∈ r.names kind, id ∈ c.namesOf kind →
          start ++ id ∈ c.namesOf kind → start ++ id ∈ r.names kind) := by
  have hvalid : c.Valid r := by
    rw [valid_iff_rules, ← (c.validate_enforces r).ok_iff, ← (c.validate_enforces r).eq_of_ok h]
    exact h
  obtain ⟨hrecognised, hnodup⟩ := valid_names hvalid kind
  have hsome : ∀ name ∈ c.namesOf kind, ∃ id, r.recognise? kind name = some id := by
    intro name hname
    have hcontains := Registry.contains_iff.mpr (hrecognised name hname)
    exact Option.isSome_iff_exists.mp hcontains
  refine ⟨hsome, hnodup.imp fun hne id ha hb => Registry.spellings_of_same ha hb hne, ?_⟩
  constructor
  · intro hdistinct start hstart id hid hbare hlong
    by_contra hnot
    -- both spellings would be recognised as `id`
    have hsame : r.recognise? kind id = r.recognise? kind (start ++ id) := by
      rw [Registry.recognise?_eq_some.mpr ⟨hid, .inl rfl⟩,
        Registry.recognise?_eq_some.mpr ⟨hid, .inr ⟨hnot, start, hstart, rfl⟩⟩]
    have hspelling := List.inj_on_of_nodup_map hdistinct hbare hlong hsame
    exact hnot (hspelling ▸ hid)
  · intro hclosed
    refine hnodup.map_on fun a ha b hb hsame => ?_
    by_contra hne
    obtain ⟨id, ha'⟩ := hsome a ha
    have hb' : r.recognise? kind b = some id := hsame ▸ ha'
    -- the longer spelling is registered, so it is recognised as itself
    have hlonger : ∀ start, kind.namespaceText? = some start → id ∈ c.namesOf kind →
        start ++ id ∈ c.namesOf kind → r.recognise? kind (start ++ id) = some (start ++ id) := by
      intro start hstart hbare hlong
      have hid := (Registry.recognise?_eq_some.mp ha').1
      exact Registry.recognise?_eq_some.mpr ⟨hclosed start hstart id hid hbare hlong, .inl rfl⟩
    obtain ⟨start, hstart, ⟨rfl, rfl⟩ | ⟨rfl, rfl⟩⟩ := Registry.spellings_of_same ha' hb' hne
    · have hself := hlonger start hstart ha hb
      exact hne (Option.some.inj (hb'.symm.trans hself))
    · have hself := hlonger start hstart hb ha
      exact hne (Option.some.inj (ha'.symm.trans hself)).symm

/-- A site with the given extensions and plugins. -/
def equippedSite (extensions plugins : List String) : Config :=
  { (default : Config) with
    siteName := "Docs", devAddr := "127.0.0.1:8000"
    theme := Theme.named Theme.defaultName, paths := ⟨⟨"."⟩, ⟨"docs"⟩, ⟨"site"⟩⟩
    markdownExtensions := extensions.map .plain, plugins := plugins.map .plain }

/-- Where the name with the beginning is registered too, it is an identifier of
its own. -/
theorem validate_identifiers_ownSearch :
    (equippedSite [] ["search", "material/search"]).validate
        (Registry.builtin.add .plugin "material/search") = .ok [] ∧
      ((["search", "material/search"] : List String).map
        ((Registry.builtin.add .plugin "material/search").recognise? .plugin)).Nodup := by
  have hvalid : (equippedSite [] ["search", "material/search"]).validate
      (Registry.builtin.add .plugin "material/search") = .ok [] := rfl
  obtain ⟨-, -, hnodup⟩ := validate_identifiers hvalid .plugin
  refine ⟨hvalid, hnodup.mpr fun start hstart id _ hbare hlong => ?_⟩
  cases hstart
  have hid : id ∈ (["search", "material/search"] : List String) := hbare
  have hlong : "material/" ++ id ∈ (["search", "material/search"] : List String) := hlong
  rcases List.mem_pair.mp hid with rfl | rfl
  · decide
  · exact absurd hlong (by decide)

/-- An extension and a plugin are named twice, and the site is valid. -/
theorem validate_accepts_aliases :
    (equippedSite ["toc", "markdown.extensions.toc"] ["search", "material/search"]).validate
        .builtin = .ok [] ∧
      Registry.builtin.recognise? .markdownExtension "toc" = some "toc" ∧
      Registry.builtin.recognise? .markdownExtension "markdown.extensions.toc" = some "toc" ∧
      Registry.builtin.recognise? .plugin "search" = some "search" ∧
      Registry.builtin.recognise? .plugin "material/search" = some "search" :=
  ⟨rfl, rfl, rfl, rfl, rfl⟩

end Config
end SitePlan
