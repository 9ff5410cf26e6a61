/-
# How often a page is listed

The pages noted are the sources of the page items, each noted once. Of the
items of a declared navigation that have one source, all but the first give a
warning, wherever in the tree they stand; so the warnings and the pages noted
are together as many as the page items. An entry that is left out is no item,
and a page that only such entries lead to is not listed at all.

Key definitions: `listedBefore`.
Key theorems: `repeatsAfter_nil`, `count_repeatsAfter`, `repeats_append_dedup_perm`,
`Resolver.entries_nodup`, `Config.resolveNav_repeats`.
-/
import Mathlib.Data.List.Count
import Mathlib.Data.List.Dedup
import SitePlan.Proofs.Nav.Repeats

namespace SitePlan

/-! ### Repeats in a list, counted -/

/-- The members of a list at those places before which they stand already, in
order. -/
def listedBefore (ps : List String) : List String :=
  (ps.zipIdx.filter fun x => x.1 ∈ ps.take x.2).map Prod.fst

/-- What stands among `seen` or before in a list, place by place in the list of
both. -/
theorem repeatsAfter_eq : ∀ seen ps : List String, repeatsAfter seen ps =
    ((ps.zipIdx seen.length).filter fun x => x.1 ∈ (seen ++ ps).take x.2).map Prod.fst
  | seen, [] => rfl
  | seen, p :: ps => by
    have ih := repeatsAfter_eq (seen ++ [p]) ps
    rw [List.length_append, List.length_singleton, ← List.append_cons] at ih
    have hhead : (seen ++ p :: ps).take seen.length = seen := List.take_left
    rw [repeatsAfter, ih, List.zipIdx_cons]
    by_cases hp : p ∈ seen
    · rw [if_pos hp, List.filter_cons_of_pos (by simpa [hhead] using hp)]
      rfl
    · rw [if_neg hp, List.filter_cons_of_neg (by simpa [hhead] using hp)]
      rfl

theorem repeatsAfter_nil (ps : List String) : repeatsAfter [] ps = listedBefore ps :=
  repeatsAfter_eq [] ps

/-- Each occurrence of a member is a repeat, but for the first if it is not
among `seen`. -/
theorem count_repeatsAfter (p : String) : ∀ seen ps : List String,
    (repeatsAfter seen ps).count p = if p ∈ seen then ps.count p else ps.count p - 1
  | seen, [] => by simp [repeatsAfter]
  | seen, q :: ps => by
    have ih := count_repeatsAfter p (seen ++ [q]) ps
    rw [repeatsAfter, List.count_append, ih, List.count_cons]
    by_cases hq : q = p
    · subst hq
      by_cases hseen : q ∈ seen
      · simp [hseen, Nat.add_comm]
      · simp [hseen]
    · have hmem : p ∈ seen ++ [q] ↔ p ∈ seen := by simp [Ne.symm hq]
      have hhead : (if q ∈ seen then [q] else []).count p = 0 := by
        split_ifs <;> simp [hq]
      simp only [hmem, hhead, beq_eq_false_iff_ne.mpr hq, Nat.zero_add, Bool.false_eq_true,
        ↓reduceIte, Nat.add_zero]

/-- The repeats of a list and its members, each once, are together the list. -/
theorem repeats_append_dedup_perm (ps : List String) :
    (repeatsAfter [] ps ++ ps.dedup).Perm ps := by
  refine List.perm_iff_count.mpr fun p => ?_
  rw [List.count_append, count_repeatsAfter, List.count_dedup, if_neg List.not_mem_nil]
  split_ifs with hp
  · have hpos := List.count_pos_iff.mpr hp
    omega
  · rw [List.count_eq_zero_of_not_mem hp]

/-! ### Each page is noted once -/

theorem Findings.reference_nodup {f : Findings} (p : String) (h : f.referenced.Nodup) :
    (f.reference p).referenced.Nodup := by
  unfold reference
  split_ifs with hp
  · exact h
  · rw [List.contains_iff_mem] at hp
    exact List.concat_eq_append ▸ h.concat hp

theorem Findings.repeatWarning_injective : Function.Injective repeatWarning := by
  intro p q h
  unfold repeatWarning at h
  rwa [String.append_left_inj, String.append_right_inj] at h

namespace Resolver

variable (r : Resolver)

mutual

theorem entry_nodup (trail : List String) : ∀ (e : NavEntry) (f : Findings),
    f.referenced.Nodup → (r.entry trail e f).2.referenced.Nodup
  | .page title path, f, hf => by
    rw [entry]
    cases h : (NavEntry.page title path).fault? r.source with
    | some x =>
      rw [page_of_fault r h]
      exact hf
    | none =>
      obtain ⟨s, hs, hmd, hholds⟩ := fault?_page_eq_none.mp h
      rw [page_of_target r hs hmd hholds]
      exact Findings.reference_nodup s hf
  | .link title url, f, hf => by
    rw [entry]
    exact hf
  | .group title [], f, hf => by
    rw [entry]
    exact hf
  | .group title (child :: rest), f, hf => by
    rw [entry]
    exact entries_nodup (trail ++ [title]) (child :: rest) [] f hf

theorem entries_nodup (trail : List String) :
    ∀ (es : List NavEntry) (seen : List String) (f : Findings),
    f.referenced.Nodup → (r.entries trail seen es f).2.referenced.Nodup
  | [], seen, f, hf => by
    rw [entries]
    exact hf
  | e :: rest, seen, f, hf => by
    rw [entries]
    refine entries_nodup trail rest _ _ (entry_nodup trail e _ ?_)
    rwa [noteLabel_referenced]

end

end Resolver

namespace Config

variable {c : Config} {source : PageSource} {entries : List NavEntry} {res : Resolution}

theorem resolveNav_nodup (h : c.resolveNav source = .ok res) :
    res.findings.referenced.Nodup := by
  cases hnav : c.nav with
  | some entries =>
    rw [resolveNav_declared hnav] at h
    cases h
    exact (c.resolver source).entries_nodup [] entries [] Findings.empty List.nodup_nil
  | none =>
    obtain ⟨ps, hps⟩ := pages_ok_of_resolveNav hnav h
    rw [resolveNav_none source hnav hps] at h
    cases h
    exact ((c.resolver source).directoryItems_visited (PageTree.ofPaths ps)
      Findings.empty).nodup List.nodup_nil

/-- The pages noted are the sources of the page items without their repeats. -/
theorem referenced_perm (h : c.resolveNav source = .ok res) :
    res.findings.referenced.Perm res.navigation.sources.dedup := by
  refine (List.perm_ext_iff_of_nodup (resolveNav_nodup h) (List.nodup_dedup _)).mpr fun p => ?_
  rw [resolveNav_referenced h, List.mem_dedup]
  exact NavItem.mem_sources.symm

/-- **Repeats are tracked exactly.** The pages noted are the sources of the page
items, each once. The page items of a declaration are those of its entries
without fault, and there is one warning for each of them whose source an item
before it has: for each source one less than it has items, and in all as many as
there are page items less the pages noted. -/
theorem resolveNav_repeats (h : c.resolveNav source = .ok res) :
    res.findings.referenced.Nodup ∧
      (∀ p, p ∈ res.findings.referenced ↔ ∃ item ∈ res.navigation.pages, item.source = some p) ∧
      ∀ entries, c.nav = some entries →
        (res.navigation.pages.map fun i => i.source) = res.navigation.sources.map some ∧
        res.navigation.sources =
          ((NavEntry.spots entries).filterMap fun s => s.entry.reached? source) ∧
        res.findings.warnings =
          (listedBefore res.navigation.sources).map Findings.repeatWarning ∧
        (∀ p, res.findings.warnings.count (Findings.repeatWarning p) =
          (res.navigation.pages.countP fun i => i.source = some p) - 1) ∧
        res.findings.warnings.length + res.findings.referenced.length =
          res.navigation.pages.length := by
  refine ⟨resolveNav_nodup h, resolveNav_referenced h, fun entries hnav => ?_⟩
  have hpages := declared_pages hnav h
  have hsources := sources_eq hpages
  rw [← hsources] at hpages
  have hwarnings := declared_warnings hnav h
  refine ⟨hpages, hsources, repeatsAfter_nil _ ▸ hwarnings, fun p => ?count, ?total⟩
  case count =>
    have hcount : (res.navigation.pages.countP fun i => i.source = some p) =
        res.navigation.sources.count p := by
      rw [← List.count_map_of_injective _ some (fun _ _ => Option.some.inj), ← hpages,
        List.count_eq_countP, List.countP_map]
      exact List.countP_congr fun i _ => by simp
    rw [hwarnings, List.count_map_of_injective _ _ Findings.repeatWarning_injective,
      count_repeatsAfter, if_neg List.not_mem_nil, hcount]
  case total =>
    have hlength := congrArg List.length hpages
    have htogether := (repeats_append_dedup_perm res.navigation.sources).length_eq
    rw [List.length_map, List.length_map] at hlength
    rw [List.length_append] at htogether
    rw [hwarnings, List.length_map, (referenced_perm h).length_eq, htogether, hlength]

/-- A declaration that lists one page three times, at different depths and in
different spellings, one page once, and a missing page twice. -/
def relistedSite : Config :=
  { (default : Config) with
    nav := some
      [.page (some "A") "a.md", .page (some "Gone") "gone.md",
        .group "More" [.page none "./a.md", .page (some "Gone") "gone.md",
          .group "Still more" [.page (some "B") "b.md", .page (some "A") " a.md"]]] }

/-- The two repeats of `a.md` in `relistedSite` give the two warnings, and two pages
are noted; the missing page counts for nothing. -/
theorem resolveNav_repeats_relistedSite :
    ∃ res, relistedSite.resolveNav (MemoryPages.addPages ["a.md", "b.md"] .empty).source = .ok res ∧
      res.navigation.sources = ["a.md", "a.md", "b.md", "a.md"] ∧
      res.findings.warnings =
        ["page `a.md` is listed in nav more than once",
          "page `a.md` is listed in nav more than once"] ∧
      res.findings.referenced.length = 2 := by
  refine ⟨_, resolveNav_declared rfl, ?_⟩
  obtain ⟨-, -, hdeclared⟩ := resolveNav_repeats
    (show relistedSite.resolveNav (MemoryPages.addPages ["a.md", "b.md"] .empty).source = _
      from resolveNav_declared rfl)
  obtain ⟨hpages, hsources, hwarnings, -, htotal⟩ := hdeclared _ rfl
  have hlisted := hsources.trans
    (show _ = ["a.md", "a.md", "b.md", "a.md"] by decide)
  have hwarned := hwarnings.trans (congrArg (fun ps => (listedBefore ps).map _) hlisted)
  have hlength := congrArg List.length hpages
  rw [List.length_map, List.length_map, hlisted] at hlength
  rw [hwarned, hlength] at htotal
  exact ⟨hlisted, hwarned, Nat.add_left_cancel (show 2 + _ = 2 + 2 from htotal)⟩

end Config
end SitePlan
