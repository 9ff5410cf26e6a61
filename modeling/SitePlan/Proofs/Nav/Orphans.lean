/-
# Orphans are what the navigation leaves out

The pages noted while a navigation is built are the sources of its page items,
with or without a declaration. So the orphans that a check reports are the pages
of the source that no page item shows, in their order: every page is in the
navigation or an orphan, and never both.

Key definitions: `NavItem.Shown`.
Key theorems: `Resolver.entries_referenced`, `Config.resolveNav_referenced`,
`Config.check_orphans`.
-/
import SitePlan.Nav.Check
import SitePlan.Proofs.Nav.Faults
import SitePlan.Proofs.Nav.Generated

namespace SitePlan

/-- A page item at or below the items has the source `p`. -/
def NavItem.Shown (items : List NavItem) (p : String) : Prop :=
  ∃ item ∈ NavItem.pagesOf items, item.source = some p

namespace NavItem

variable {p : String}

theorem shown_iff_mem {items : List NavItem} :
    Shown items p ↔ some p ∈ (pagesOf items).map fun i => i.source := List.mem_map.symm

instance (items : List NavItem) (p : String) : Decidable (Shown items p) :=
  decidable_of_iff _ shown_iff_mem.symm

theorem shown_append {is js : List NavItem} :
    Shown (is ++ js) p ↔ Shown is p ∨ Shown js p := by
  unfold Shown
  rw [pagesOf_append]
  simp only [List.mem_append, or_and_right, exists_or]

theorem not_shown_nil : ¬ Shown [] p := by
  simp [Shown, pagesOf]

end NavItem

/-! ### The declared navigation -/

@[simp] theorem Findings.fault_referenced (e : NavError) (f : Findings) :
    (f.fault e).referenced = f.referenced := rfl

theorem Findings.mem_reference {p s : String} {f : Findings} :
    p ∈ (f.reference s).referenced ↔ p ∈ f.referenced ∨ p = s := by
  unfold reference
  split_ifs with hs
  · rw [List.contains_iff_mem] at hs
    exact ⟨.inl, fun h => h.elim id fun h => h ▸ hs⟩
  · simp

namespace Resolver

variable (r : Resolver) {p : String}

theorem noteLabel_referenced (trail seen : List String) (label : Option String) (f : Findings) :
    (noteLabel trail seen label f).referenced = f.referenced := by
  unfold noteLabel
  split
  · split_ifs <;> rfl
  · rfl

theorem shown_pageItem (title : Option String) (s : String) :
    NavItem.Shown [r.pageItem title s] p ↔ p = s := by
  simp [NavItem.Shown, NavItem.pagesOf, NavItem.pages, pageItem, NavItem.page, eq_comm]

mutual

theorem entry_referenced (trail : List String) : ∀ (e : NavEntry) (f : Findings),
    p ∈ (r.entry trail e f).2.referenced ↔
      p ∈ f.referenced ∨ NavItem.Shown (r.entry trail e f).1.toList p
  | .page title path, f => by
    rw [entry]
    cases h : (NavEntry.page title path).fault? r.source with
    | some x =>
      rw [page_of_fault r h]
      simp [NavItem.not_shown_nil]
    | none =>
      obtain ⟨s, hs, hmd, hf⟩ := fault?_page_eq_none.mp h
      rw [page_of_target r hs hmd hf, Option.toList_some, shown_pageItem,
        Findings.mem_reference]
  | .link title url, f => by
    rw [entry]
    simp [NavItem.Shown, NavItem.pagesOf, NavItem.pages, NavItem.link]
  | .group title [], f => by
    rw [entry]
    simp [NavItem.not_shown_nil]
  | .group title (child :: rest), f => by
    rw [entry]
    have ih := entries_referenced (trail ++ [title]) (child :: rest) [] f
    simpa [NavItem.Shown, NavItem.pagesOf] using ih

/-- Entries add the sources of the pages that they become. -/
theorem entries_referenced (trail : List String) :
    ∀ (es : List NavEntry) (seen : List String) (f : Findings),
    p ∈ (r.entries trail seen es f).2.referenced ↔
      p ∈ f.referenced ∨ NavItem.Shown (r.entries trail seen es f).1 p
  | [], seen, f => by
    rw [entries]
    simp [NavItem.not_shown_nil]
  | e :: rest, seen, f => by
    have he := entry_referenced trail e (noteLabel trail seen e.label? f)
    have hrest := entries_referenced trail rest (e.label?.toList ++ seen)
      (r.entry trail e (noteLabel trail seen e.label? f)).2
    simp only [entries, NavItem.shown_append, hrest, he, noteLabel_referenced, or_assoc]

end

end Resolver

namespace Config

variable {c : Config} {source : PageSource} {ps : List String} {res : Resolution}

/-! ### The generated navigation -/

theorem pages_ok_of_resolveNav (hnav : c.nav = none) (h : c.resolveNav source = .ok res) :
    ∃ ps, source.pages = .ok ps := by
  cases hps : source.pages with
  | ok ps => exact ⟨ps, rfl⟩
  | error e =>
    have hg : (c.resolver source).generate = .error e := by
      unfold Resolver.generate
      rw [show (c.resolver source).source.pages = .error e from hps]
      rfl
    rw [resolveNav, hnav] at h
    simp [hg] at h

/-- A generated navigation shows and notes the pages of the source. -/
theorem generated_pages (hnav : c.nav = none) (hps : source.pages = .ok ps)
    (h : c.resolveNav source = .ok res) (p : String) :
    (NavItem.Shown res.navigation.items p ↔ p ∈ ps) ∧ (p ∈ res.findings.referenced ↔ p ∈ ps) := by
  rw [resolveNav_none source hnav hps] at h
  cases h
  have hpaths := PageTree.ofPaths_paths ps
  have hsources := ((c.resolver source).directoryItems_sources (PageTree.ofPaths ps)
    Findings.empty).trans (hpaths.map some)
  have hvisited := (c.resolver source).directoryItems_visited (PageTree.ofPaths ps) Findings.empty
  constructor
  · rw [NavItem.shown_iff_mem, hsources.mem_iff]
    simp
  · rw [hvisited.mem, hpaths.mem_iff]
    exact or_iff_right List.not_mem_nil

/-! ### Orphans -/

/-- The pages noted are the sources of the page items, with a declaration or
without. -/
theorem resolveNav_referenced (h : c.resolveNav source = .ok res) (p : String) :
    p ∈ res.findings.referenced ↔ NavItem.Shown res.navigation.items p := by
  cases hnav : c.nav with
  | some entries =>
    rw [resolveNav_declared hnav] at h
    cases h
    rw [(c.resolver source).entries_referenced [] entries [] Findings.empty]
    exact or_iff_right List.not_mem_nil
  | none =>
    obtain ⟨ps, hps⟩ := pages_ok_of_resolveNav hnav h
    obtain ⟨hshown, hnoted⟩ := generated_pages hnav hps h p
    rw [hshown, hnoted]

theorem resolveNav_ok (hps : source.pages = .ok ps) : ∃ res, c.resolveNav source = .ok res := by
  cases hnav : c.nav with
  | some entries => exact ⟨_, resolveNav_declared hnav⟩
  | none => exact ⟨_, resolveNav_none source hnav hps⟩

/-- The orphans are the pages that no page item shows. -/
theorem orphans_eq (hps : source.pages = .ok ps) (h : c.resolveNav source = .ok res) :
    c.orphans source res.findings.referenced =
      .ok (ps.filter fun p => ¬ NavItem.Shown res.navigation.items p) := by
  unfold orphans
  cases hnav : c.nav with
  | some entries =>
    simp only [Option.isSome_some, ↓reduceIte, hps]
    refine congrArg Except.ok (List.filter_congr fun p _ => ?_)
    rw [Bool.eq_iff_iff]
    simp [resolveNav_referenced h]
  | none =>
    -- nothing is listed here, and the navigation shows every page
    have hall : ∀ p ∈ ps, NavItem.Shown res.navigation.items p :=
      fun p hp => (generated_pages hnav hps h p).1.mpr hp
    simp only [Option.isSome_none, Bool.false_eq_true, ↓reduceIte]
    refine congrArg Except.ok (List.filter_eq_nil_iff.mpr fun p hp => ?_).symm
    simpa using hall p hp

/-- **Orphan reporting is a partition.** Where the pages of the source can be
listed, a check succeeds and reports those that no page item has for its source,
in their order, and nothing else. -/
theorem check_orphans (c : Config) (hps : source.pages = .ok ps) :
    ∃ report, c.check source = .ok report ∧
      (∀ p ∈ ps, p ∈ report.orphans ↔
        ¬ ∃ item ∈ report.navigation.pages, item.source = some p) ∧
      report.orphans = ps.filter fun p => ¬ NavItem.Shown report.navigation.items p := by
  obtain ⟨res, hres⟩ := resolveNav_ok (c := c) hps
  have hcheck : c.check source = .ok
      { navigation := res.navigation, errors := res.findings.errors
        warnings := c.warnings ++ res.findings.warnings ++ c.assetWarnings source
        orphans := ps.filter fun p => ¬ NavItem.Shown res.navigation.items p } := by
    unfold check
    rw [hres]
    simp only [bind, Except.bind, orphans_eq hps hres]
  refine ⟨_, hcheck, fun p hp => ?_, rfl⟩
  rw [List.mem_filter, decide_eq_true_eq, and_iff_right hp]
  rfl

/-- A declaration that shows one of three pages. Another is declared by a path
that leads out of the source. -/
def draftSite : Config :=
  { (default : Config) with
    nav := some
      [.group "Guides" [.page (some "A") "./a.md", .link "B" "//b.example"],
        .page (some "B") "../b.md"] }

/-- The pages for `draftSite`. -/
def draftPages : MemoryPages := MemoryPages.addPages ["c/d.md", "b.md", "a.md"] .empty

/-- Two of the pages for `draftSite` are orphans. -/
theorem check_orphans_draftSite :
    draftPages.source.pages.toOption = some ["a.md", "b.md", "c/d.md"] ∧
      ∃ report, draftSite.check draftPages.source = .ok report ∧
        report.orphans = ["b.md", "c/d.md"] := by
  have hps : draftPages.source.pages = .ok ["a.md", "b.md", "c/d.md"] :=
    congrArg Except.ok (by decide)
  obtain ⟨report, hreport, -, horphans⟩ := check_orphans draftSite hps
  have hitems : report.navigation.items =
      [.group "Guides" [.page "A" "a.md" "a.html", .link "B" "//b.example"]] := by
    have h : (draftSite.check draftPages.source).map (fun r => r.navigation.items) =
        .ok [.group "Guides" [.page "A" "a.md" "a.html", .link "B" "//b.example"]] := rfl
    rw [hreport] at h
    exact Except.ok.inj h
  refine ⟨by rw [hps]; rfl, report, hreport, ?_⟩
  rw [horphans, hitems]
  decide

end Config
end SitePlan
