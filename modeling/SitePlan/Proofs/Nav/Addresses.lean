/-
# The addresses in a navigation

Every page item, declared or generated, has a source and the address of that page, and
nothing on the way to it changes either. So the addresses of a navigation over relative
paths are relative, but for the pages with an empty stem: where pages have directories of
their own, these have an address with an empty segment in it or before it.

Key theorems: `Resolver.entries_pageItems`, `Resolver.directoryItems_pageItems`,
`Config.resolveNav_pageItems`, `Config.resolveNav_relativeUrls`.
-/
import SitePlan.Proofs.Nav.Orphans
import SitePlan.Proofs.Page.Address

namespace SitePlan

/-! ### Page items -/

namespace Resolver

variable (r : Resolver)

theorem pagesOf_singleton_pageItem (title : Option String) (p : String) :
    NavItem.pagesOf [r.pageItem title p] = [r.pageItem title p] := rfl

mutual

theorem entry_pageItems (trail : List String) : ∀ (e : NavEntry) (f : Findings),
    ∀ item ∈ NavItem.pagesOf (r.entry trail e f).1.toList, ∃ title p, item = r.pageItem title p
  | .page title path, f => by
    rw [entry]
    cases h : (NavEntry.page title path).fault? r.source with
    | some x => simp [page_of_fault r h, NavItem.pagesOf]
    | none =>
      obtain ⟨p, hp, hmd, hf⟩ := fault?_page_eq_none.mp h
      rw [page_of_target r hp hmd hf, Option.toList_some, pagesOf_singleton_pageItem]
      exact List.forall_mem_singleton.mpr ⟨title, p, rfl⟩
  | .link title url, f => by
    rw [entry]
    simp [NavItem.pagesOf, NavItem.pages, NavItem.link]
  | .group title [], f => by
    rw [entry]
    simp [NavItem.pagesOf]
  | .group title (child :: rest), f => by
    have ih := entries_pageItems (trail ++ [title]) (child :: rest) [] f
    simpa [entry, NavItem.pagesOf] using ih

theorem entries_pageItems (trail : List String) :
    ∀ (es : List NavEntry) (seen : List String) (f : Findings),
    ∀ item ∈ NavItem.pagesOf (r.entries trail seen es f).1, ∃ title p, item = r.pageItem title p
  | [], seen, f => by
    rw [entries]
    simp [NavItem.pagesOf]
  | e :: rest, seen, f => by
    rw [entries, NavItem.pagesOf_append, List.forall_mem_append]
    exact ⟨entry_pageItems trail e _, entries_pageItems trail rest _ _⟩

end

theorem pagesOf_map_pageItem : ∀ ps : List String,
    NavItem.pagesOf (ps.map (r.pageItem none)) = ps.map (r.pageItem none)
  | [] => rfl
  | p :: ps => congrArg (r.pageItem none p :: ·) (pagesOf_map_pageItem ps)

mutual

theorem directoryItems_pageItems : ∀ (t : PageTree) (f : Findings),
    ∀ item ∈ NavItem.pagesOf (r.directoryItems t f).1, ∃ p, item = r.pageItem none p
  | ⟨files, ds⟩, f => by
    rw [directoryItems, NavItem.pagesOf_append, pagesOf_map_pageItem, List.forall_mem_append]
    refine ⟨fun item hitem => ?_, groupItems_pageItems ds _⟩
    obtain ⟨p, -, rfl⟩ := List.mem_map.mp hitem
    exact ⟨p, rfl⟩

theorem groupItems_pageItems : ∀ (ds : List (String × PageTree)) (f : Findings),
    ∀ item ∈ NavItem.pagesOf (r.groupItems ds f).1, ∃ p, item = r.pageItem none p
  | [], f => by
    rw [groupItems]
    simp [NavItem.pagesOf]
  | (name, t) :: rest, f => by
    have ht := directoryItems_pageItems t f
    have hrest := groupItems_pageItems rest (r.directoryItems t f).2
    rw [groupItems_cons]
    split_ifs
    · exact hrest
    · rw [NavItem.pagesOf, NavItem.pages_group, List.forall_mem_append]
      exact ⟨ht, hrest⟩

end

end Resolver

/-! ### The navigation -/

namespace Config

variable {c : Config} {source : PageSource} {res : Resolution}

/-- Every page item is made of its source. -/
theorem resolveNav_pageItems (h : c.resolveNav source = .ok res) :
    ∀ item ∈ res.navigation.pages, ∃ title p, item = (c.resolver source).pageItem title p := by
  cases hnav : c.nav with
  | some entries =>
    rw [resolveNav_declared hnav] at h
    cases h
    exact (c.resolver source).entries_pageItems [] entries [] Findings.empty
  | none =>
    obtain ⟨ps, hps⟩ := pages_ok_of_resolveNav hnav h
    rw [resolveNav_none source hnav hps] at h
    cases h
    intro item hitem
    obtain ⟨p, hp⟩ :=
      (c.resolver source).directoryItems_pageItems (PageTree.ofPaths ps) Findings.empty item hitem
    exact ⟨none, p, hp⟩

/-- **The addresses over relative paths are relative, but for pages with an empty stem.**
Every page item has a source and the address of it. If the source is a path that neither
begins with a slash nor holds two in a row, then so is the address, unless pages have
directories of their own and the stem of this one is empty. -/
theorem resolveNav_relativeUrls (h : c.resolveNav source = .ok res) :
    ∀ item ∈ res.navigation.pages, ∃ p url, item.source = some p ∧ item.url = some url ∧
      url = Page.url p c.useDirectoryUrls ∧
      (Page.Relative p → (Page.Relative url ↔
        ¬ (c.useDirectoryUrls = true ∧ Page.fileStem p = []))) := by
  intro item hitem
  obtain ⟨title, p, rfl⟩ := resolveNav_pageItems h item hitem
  exact ⟨p, _, rfl, rfl, rfl, fun hp => Page.url_relative_iff hp c.useDirectoryUrls⟩

/-- A site whose pages have directories of their own, with three declared pages of which
two have no stem. -/
def stemlessSite : Config :=
  { (default : Config) with
    nav := some
      [.page (some "Start") "start.md", .page (some "Dot") ".md",
        .group "More" [.page (some "Notes") "more/.md"]]
    useDirectoryUrls := true }

/-- The pages for `stemlessSite`. -/
def stemlessPages : MemoryPages :=
  MemoryPages.addPages ["start.md", ".md", "more/.md"] .empty

/-- The first page of `stemlessSite` has a relative address. -/
theorem resolveNav_relativeUrls_stemlessSite :
    ∃ res, stemlessSite.resolveNav stemlessPages.source = .ok res ∧
      ∃ item ∈ res.navigation.pages, item.source = some "start.md" ∧
        Page.Relative "start.md" ∧ item.url = some "start/" ∧ Page.Relative "start/" := by
  obtain ⟨res, hres, hpages⟩ : ∃ res, stemlessSite.resolveNav stemlessPages.source = .ok res ∧
      res.navigation.pages = [.page "Start" "start.md" "start/", .page "Dot" ".md" "/",
        .page "Notes" "more/.md" "more//"] := ⟨_, resolveNav_declared rfl, rfl⟩
  have hitem : .page "Start" "start.md" "start/" ∈ res.navigation.pages := by
    rw [hpages]
    exact List.mem_cons_self
  have hp : Page.Relative "start.md" := by decide
  obtain ⟨p, url, hsource, hurl, -, hrelative⟩ := resolveNav_relativeUrls hres _ hitem
  cases hsource
  cases hurl
  exact ⟨res, hres, _, hitem, rfl, hp, rfl, (hrelative hp).mpr (by decide)⟩

/-- The other two have addresses that begin with a slash or hold two in a row. -/
theorem resolveNav_shows_stemlessUrls :
    ∃ res, stemlessSite.resolveNav stemlessPages.source = .ok res ∧
      (res.navigation.pages.map fun i => (i.source, i.url)) =
        [(some "start.md", some "start/"), (some ".md", some "/"),
          (some "more/.md", some "more//")] ∧
      Page.Relative ".md" ∧ ¬ Page.Relative "/" ∧
      Page.Relative "more/.md" ∧ ¬ Page.Relative "more//" :=
  ⟨_, resolveNav_declared rfl, by decide, by decide, by decide, by decide, by decide⟩

end Config
end SitePlan
