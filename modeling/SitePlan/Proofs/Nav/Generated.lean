/-
# The generated navigation follows the directories

Without a declaration, the navigation holds every page of the source once and
groups them by directory: a page stands below one group for each directory on
its path, and every directory with a page at some depth has one group and no
other has any. No group is empty, and nothing is noted but the pages.

Key definitions: `Findings.Visited`, `Lays`, `GroupsByDirectory`,
`NavItem.pagesUnderOf`.
Key theorems: `Resolver.directoryItems_visited`, `Resolver.directoryItems_sources`,
`PageTree.Placed.lays`, `Lays.trail`, `Config.resolveNav_generated`.
-/
import SitePlan.Nav.Build
import SitePlan.Page.Memory
import SitePlan.Proofs.Nav.PageTree

namespace SitePlan

/-! ### What is noted -/

namespace Findings

/-- `g` is `f` with these pages listed besides. -/
structure Visited (ps : List String) (f g : Findings) : Prop where
  errors : g.errors = f.errors
  warnings : g.warnings = f.warnings
  mem : ∀ p, p ∈ g.referenced ↔ p ∈ f.referenced ∨ p ∈ ps
  nodup : f.referenced.Nodup → g.referenced.Nodup

variable {f g h : Findings} {ps qs : List String}

theorem Visited.refl (f : Findings) : Visited [] f f :=
  ⟨rfl, rfl, by simp, id⟩

theorem Visited.trans (hf : Visited ps f g) (hg : Visited qs g h) : Visited (ps ++ qs) f h where
  errors := hg.errors.trans hf.errors
  warnings := hg.warnings.trans hf.warnings
  mem p := by rw [hg.mem, hf.mem, List.mem_append, or_assoc]
  nodup hn := hg.nodup (hf.nodup hn)

theorem Visited.perm (hf : Visited ps f g) (hp : ps.Perm qs) : Visited qs f g :=
  { hf with mem := fun p => by rw [hf.mem, hp.mem_iff] }

theorem visit_visited (p : String) (f : Findings) : Visited [p] f (f.visit p) := by
  unfold visit
  split_ifs with hp
  · rw [List.contains_iff_mem] at hp
    refine ⟨rfl, rfl, fun q => ?_, id⟩
    rw [List.mem_singleton]
    exact ⟨.inl, fun hq => hq.elim id fun hq => hq ▸ hp⟩
  · rw [List.contains_iff_mem] at hp
    refine ⟨rfl, rfl, fun q => List.mem_append, fun hn => ?_⟩
    rw [← List.concat_eq_append]
    exact hn.concat hp

theorem foldl_visited : ∀ (ps : List String) (f : Findings),
    Visited ps f (ps.foldl (fun f p => f.visit p) f)
  | [], f => .refl f
  | p :: ps, f => (visit_visited p f).trans (foldl_visited ps (f.visit p))

end Findings

namespace Resolver

open PageTree (paths pathsIn)

variable (r : Resolver)

theorem groupItems_cons (name : String) (t : PageTree) (rest : List (String × PageTree))
    (f : Findings) : r.groupItems ((name, t) :: rest) f =
      (if (r.directoryItems t f).1.isEmpty then (r.groupItems rest (r.directoryItems t f).2).1
        else NavItem.group (Page.titleFromName name.toList) (r.directoryItems t f).1 ::
          (r.groupItems rest (r.directoryItems t f).2).1,
        (r.groupItems rest (r.directoryItems t f).2).2) := by
  rw [groupItems]

theorem sortPages_perm (ps : List String) : (sortPages ps).Perm ps := List.mergeSort_perm ps _

mutual

/-- Walking through a tree lists its pages and notes nothing else. -/
theorem directoryItems_visited : ∀ (t : PageTree) (f : Findings),
    Findings.Visited t.paths f (r.directoryItems t f).2
  | ⟨files, ds⟩, f => by
    rw [directoryItems, paths]
    have hfiles := (Findings.foldl_visited (sortPages files) f).perm (sortPages_perm files)
    exact hfiles.trans (groupItems_visited ds _)

theorem groupItems_visited : ∀ (ds : List (String × PageTree)) (f : Findings),
    Findings.Visited (pathsIn ds) f (r.groupItems ds f).2
  | [], f => by
    rw [groupItems, pathsIn]
    exact .refl f
  | (name, t) :: rest, f => by
    rw [groupItems_cons, pathsIn]
    exact (directoryItems_visited t f).trans (groupItems_visited rest _)

end

end Resolver

/-! ### Which pages the tree holds -/

namespace NavItem

theorem pagesOf_append : ∀ is js : List NavItem, pagesOf (is ++ js) = pagesOf is ++ pagesOf js
  | [], js => by rw [pagesOf, List.nil_append, List.nil_append]
  | i :: is, js => by
    rw [List.cons_append, pagesOf, pagesOf, pagesOf_append is js, List.append_assoc]

@[simp] theorem pages_group (title : String) (children : List NavItem) :
    pages (group title children) = pagesOf children := by
  simp [group, pages]

end NavItem

namespace Resolver

open PageTree (paths pathsIn)

variable (r : Resolver)

theorem pagesOf_pageItem (ps : List String) :
    (NavItem.pagesOf (ps.map (r.pageItem none))).map (fun i => i.source) = ps.map some := by
  induction ps with
  | nil => rfl
  | cons p ps ih =>
    rw [List.map_cons, NavItem.pagesOf, List.map_append, ih]
    rfl

mutual

theorem directoryItems_sources : ∀ (t : PageTree) (f : Findings),
    ((NavItem.pagesOf (r.directoryItems t f).1).map fun i => i.source).Perm (t.paths.map some)
  | ⟨files, ds⟩, f => by
    rw [directoryItems, paths, NavItem.pagesOf_append, List.map_append, List.map_append,
      pagesOf_pageItem]
    exact ((sortPages_perm files).map some).append (groupItems_sources ds _)

theorem groupItems_sources : ∀ (ds : List (String × PageTree)) (f : Findings),
    ((NavItem.pagesOf (r.groupItems ds f).1).map fun i => i.source).Perm ((pathsIn ds).map some)
  | [], f => by
    rw [groupItems, pathsIn]
    exact .nil
  | (name, t) :: rest, f => by
    have ht := directoryItems_sources t f
    have hrest := groupItems_sources rest (r.directoryItems t f).2
    rw [groupItems_cons, pathsIn, List.map_append]
    split_ifs with hc
    · rw [List.isEmpty_iff.mp hc] at ht
      exact ht.append hrest
    · rw [NavItem.pagesOf, NavItem.pages_group, List.map_append]
      exact ht.append hrest

end

theorem directoryItems_ne_nil {t : PageTree} (h : t.paths ≠ []) (f : Findings) :
    (r.directoryItems t f).1 ≠ [] := fun hnil => by
  have hp := r.directoryItems_sources t f
  rw [hnil] at hp
  exact h (List.map_eq_nil_iff.mp hp.nil_eq.symm)

end Resolver

/-! ### Where they stand -/

/-- The title of the group for a directory, by its name. -/
def directoryTitle (name : String) : String := Page.titleFromName name.toList

/-- The items are the content of the directory `dir`: pages that lie there, and
groups that stand for directories in it and are never empty. The directories of
all groups are given besides, depth first. -/
inductive Lays : List String → List NavItem → List (List String) → Prop
  | nil {dir : List String} : Lays dir [] []
  | page {dir : List String} {title p url : String} {items : List NavItem}
      {groups : List (List String)} : LiesIn dir p → Lays dir items groups →
      Lays dir (⟨title, .page, some url, some p, []⟩ :: items) groups
  | group {dir : List String} {name : String} {children items : List NavItem}
      {inner groups : List (List String)} : children ≠ [] →
      Lays (dir ++ [name]) children inner → Lays dir items groups →
      Lays dir (⟨directoryTitle name, .group, none, none, children⟩ :: items)
        ((dir ++ [name]) :: (inner ++ groups))

/-- The items group the pages by directory: the directories of the groups are
those with a page at some depth, each once. -/
def GroupsByDirectory (ps : List String) (items : List NavItem) : Prop :=
  ∃ groups, Lays [] items groups ∧ groups.Nodup ∧
    ∀ dir, dir ∈ groups ↔ dir ≠ [] ∧ ∃ p ∈ ps, ∃ more, LiesIn (dir ++ more) p

section Lays

variable (r : Resolver) {dir : List String}

theorem lays_pages {items : List NavItem} {groups : List (List String)}
    (h : Lays dir items groups) : ∀ ps : List String, (∀ p ∈ ps, PageTree.directoriesOf p = dir) →
      Lays dir (ps.map (r.pageItem none) ++ items) groups
  | [], _ => h
  | p :: ps, hps => by
    obtain ⟨hp, hps⟩ := List.forall_mem_cons.mp hps
    exact .page (liesIn_iff.mpr hp) (lays_pages h ps hps)

theorem lays_groups : ∀ ds : List (String × PageTree), (∀ d ∈ ds, d.2.paths ≠ []) →
    (∀ d ∈ ds, ∀ f, Lays (dir ++ [d.1]) (r.directoryItems d.2 f).1
      (PageTree.subdirectories (dir ++ [d.1]) d.2)) →
    ∀ f, Lays dir (r.groupItems ds f).1 (PageTree.subdirectoriesIn dir ds)
  | [], _, _, f => by
    rw [Resolver.groupItems, PageTree.subdirectoriesIn]
    exact .nil
  | (name, t) :: rest, hne, hds, f => by
    obtain ⟨ht, hrest⟩ := List.forall_mem_cons.mp hne
    obtain ⟨hl, hls⟩ := List.forall_mem_cons.mp hds
    have hitems := r.directoryItems_ne_nil ht f
    rw [Resolver.groupItems_cons, PageTree.subdirectoriesIn, if_neg (by simpa using hitems)]
    exact .group hitems (hl f) (lays_groups rest hrest hls _)

/-- The items of a placed tree are the content of its directory. -/
theorem PageTree.Placed.lays {t : PageTree} (h : t.Placed dir) :
    ∀ f, Lays dir (r.directoryItems t f).1 (t.subdirectories dir) := by
  induction h with
  | @intro dir files ds hfiles _ hne _ ih =>
    intro f
    rw [Resolver.directoryItems, PageTree.subdirectories]
    refine lays_pages r (lays_groups r ds hne ih _) _ fun p hp => ?_
    exact hfiles p ((Resolver.sortPages_perm files).mem_iff.mp hp)

end Lays

namespace NavItem

mutual

/-- The pages at and below an item, each with the titles of the groups around
it, outermost first. -/
def pagesUnder (trail : List String) : NavItem → List (List String × NavItem)
  | ⟨title, kind, url, source, children⟩ =>
    (if kind = .page then [(trail, ⟨title, kind, url, source, children⟩)] else []) ++
      pagesUnderOf (trail ++ [title]) children

/-- The pages at and below items, each with the titles of the groups around it. -/
def pagesUnderOf (trail : List String) : List NavItem → List (List String × NavItem)
  | [] => []
  | item :: rest => pagesUnder trail item ++ pagesUnderOf trail rest

end

mutual

theorem pagesUnder_pages (trail : List String) : ∀ item : NavItem,
    (pagesUnder trail item).map (fun x => x.2) = pages item
  | ⟨title, kind, url, source, children⟩ => by
    rw [pagesUnder, pages, List.map_append, pagesUnderOf_pagesOf (trail ++ [title]) children]
    split_ifs <;> rfl

/-- The pages are all there, in their order. -/
theorem pagesUnderOf_pagesOf (trail : List String) : ∀ items : List NavItem,
    (pagesUnderOf trail items).map (fun x => x.2) = pagesOf items
  | [] => by
    rw [pagesUnderOf, pagesOf, List.map_nil]
  | item :: rest => by
    rw [pagesUnderOf, pagesOf, List.map_append, pagesUnder_pages trail item,
      pagesUnderOf_pagesOf trail rest]

end

end NavItem

/-- A page stands below one group for each directory on its path, and these
carry the titles of the directories. -/
theorem Lays.trail {dir : List String} {items : List NavItem} {groups : List (List String)}
    (h : Lays dir items groups) : ∀ x ∈ NavItem.pagesUnderOf (dir.map directoryTitle) items,
      ∃ p names, x.2.source = some p ∧ LiesIn names p ∧ x.1 = names.map directoryTitle := by
  induction h with
  | nil => simp [NavItem.pagesUnderOf]
  | page hp _ ih =>
    intro x hx
    simp only [NavItem.pagesUnderOf, NavItem.pagesUnder, ↓reduceIte, List.append_nil,
      List.singleton_append, List.mem_cons] at hx
    rcases hx with rfl | hx
    · exact ⟨_, _, rfl, hp, rfl⟩
    · exact ih x hx
  | group _ _ _ ihc ih =>
    intro x hx
    simp only [NavItem.pagesUnderOf, NavItem.pagesUnder, reduceCtorEq, ↓reduceIte, List.nil_append,
      List.mem_append] at hx
    rcases hx with hx | hx
    · refine ihc x ?_
      rwa [List.map_append, List.map_singleton]
    · exact ih x hx

/-! ### The generated navigation -/

namespace Config

variable {c : Config} {ps : List String}

theorem resolveNav_none (source : PageSource) (hnav : c.nav = none)
    (hps : source.pages = .ok ps) : c.resolveNav source =
      .ok ⟨⟨((c.resolver source).directoryItems (PageTree.ofPaths ps) Findings.empty).1, true⟩,
        ((c.resolver source).directoryItems (PageTree.ofPaths ps) Findings.empty).2⟩ := by
  have hg : (c.resolver source).generate =
      .ok ((c.resolver source).directoryItems (PageTree.ofPaths ps) Findings.empty) := by
    unfold Resolver.generate
    rw [show (c.resolver source).source.pages = .ok ps from hps]
    rfl
  rw [resolveNav, hnav]
  simp only [hg]

/-- **The generated navigation loses and adds no page and groups the pages by
directory.** Resolving succeeds without a finding but the pages; each page is
there once, below one group for each directory on its path. -/
theorem resolveNav_generated (source : PageSource) (hnav : c.nav = none)
    (hps : source.pages = .ok ps) :
    ∃ res, c.resolveNav source = .ok res ∧ res.navigation.generated = true ∧
      res.findings.errors = [] ∧ res.findings.warnings = [] ∧
      (res.navigation.pages.map fun i => i.source).Perm (ps.map some) ∧
      res.findings.referenced.Nodup ∧ (∀ p, p ∈ res.findings.referenced ↔ p ∈ ps) ∧
      GroupsByDirectory ps res.navigation.items ∧
      (NavItem.pagesUnderOf [] res.navigation.items).map (fun x => x.2) = res.navigation.pages ∧
      ∀ x ∈ NavItem.pagesUnderOf [] res.navigation.items,
        ∃ p names, x.2.source = some p ∧ LiesIn names p ∧ x.1 = names.map directoryTitle := by
  have hplaced := PageTree.ofPaths_placed ps
  have hpaths := PageTree.ofPaths_paths ps
  have hvis := (c.resolver source).directoryItems_visited (PageTree.ofPaths ps) Findings.empty
  have hlays := hplaced.lays (c.resolver source) Findings.empty
  refine ⟨_, resolveNav_none source hnav hps, rfl, hvis.errors, hvis.warnings, ?_,
    hvis.nodup List.nodup_nil, fun p => ?_, ?_, NavItem.pagesUnderOf_pagesOf [] _, hlays.trail⟩
  · exact ((c.resolver source).directoryItems_sources _ _).trans (hpaths.map some)
  · rw [hvis.mem, hpaths.mem_iff]
    exact or_iff_right List.not_mem_nil
  · exact ⟨_, hlays, hplaced.subdirectories_nodup, fun dir => PageTree.mem_subdirectories_ofPaths⟩

/-- Five pages in four directories below one another and side by side. -/
def nestedPages : MemoryPages :=
  MemoryPages.addPages
    ["user-guide/zeta.md", "index.md", "api/v1/README.md", "about.md", "api/v1/auth/keys.md"]
    MemoryPages.empty

/-- The pages of `nestedPages` are all in the navigation, by directory. -/
theorem resolveNav_generated_nestedPages :
    (default : Config).nav.isNone ∧
      nestedPages.source.pages.toOption = some
        ["about.md", "api/v1/README.md", "api/v1/auth/keys.md", "index.md", "user-guide/zeta.md"] ∧
      ∃ res, (default : Config).resolveNav nestedPages.source = .ok res ∧
        (res.navigation.pages.map fun i => i.source).Perm
          [some "about.md", some "api/v1/README.md", some "api/v1/auth/keys.md", some "index.md",
            some "user-guide/zeta.md"] ∧
        GroupsByDirectory
          ["about.md", "api/v1/README.md", "api/v1/auth/keys.md", "index.md", "user-guide/zeta.md"]
          res.navigation.items := by
  have hps : nestedPages.source.pages = .ok
      ["about.md", "api/v1/README.md", "api/v1/auth/keys.md", "index.md", "user-guide/zeta.md"] :=
    congrArg Except.ok (by decide)
  obtain ⟨res, hres, -, -, -, hperm, -, -, hgroups, -⟩ :=
    resolveNav_generated nestedPages.source (c := default) rfl hps
  exact ⟨rfl, by rw [hps]; rfl, res, hres, hperm, hgroups⟩

end Config
end SitePlan
