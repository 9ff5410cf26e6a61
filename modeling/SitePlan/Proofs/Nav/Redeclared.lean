/-
# A generated navigation, declared

The items of a generated navigation can be declared as they stand: a group by its
title and children, a page by its source alone. What such a declaration resolves
to is the same navigation again, provided that sibling groups differ in title,
that the path of every listed page is one that a declaration may name, and that
every listed page is there. Pages in memory are. A page in a directory of regular
files and directories, all of them readable, is there exactly if its path is
within the limits of the host, and a directory can be named at such length that
its pages are listed and are not there.

Key definitions: `NavItem.declaration`, `NavItem.DistinctGroups`, `NavItem.Laid`,
`PageSource.Stored`, `Config.declaring`.
Key theorems: `NavItem.Laid.shows`, `NavItem.Laid.sound_iff`,
`Resolver.directoryItems_laid`, `Resolver.directoryItems_distinct`,
`PageSource.Stored.holds_iff`, `Config.resolveNav_redeclared`.
-/
import SitePlan.Proofs.Nav.Mirror
import SitePlan.Proofs.Nav.Verdict
import SitePlan.Proofs.Page.Confinement

namespace SitePlan
namespace NavItem

mutual

/-- The entry that declares an item: a group by its title and children, a page by
its source. -/
def declaration : NavItem → NavEntry
  | ⟨title, .group, _, _, children⟩ => .group title (declarations children)
  | ⟨_, .page, _, source, _⟩ => .page none (source.getD "")
  | ⟨title, .link, url, _, _⟩ => .link title (url.getD "")

/-- The entries that declare items. -/
def declarations : List NavItem → List NavEntry
  | [] => []
  | item :: rest => declaration item :: declarations rest

end

/-- The titles of the groups among items. -/
def groupTitles (items : List NavItem) : List String :=
  (items.filter fun i => i.kind = .group).map fun i => i.title

/-- No two groups next to each other have the same title, at any depth. -/
inductive DistinctGroups : List NavItem → Prop
  | intro {items : List NavItem} : (groupTitles items).Nodup →
      (∀ i ∈ items, DistinctGroups i.children) → DistinctGroups items

/-- An item of a navigation that is generated from some pages. -/
inductive Laid (r : Resolver) (ps : List String) : NavItem → Prop
  | page {p : String} : p ∈ ps → Laid r ps (r.pageItem none p)
  | group {title : String} {children : List NavItem} : children ≠ [] →
      (∀ i ∈ children, Laid r ps i) → Laid r ps (.group title children)

theorem declarations_eq (items : List NavItem) : declarations items = items.map declaration := by
  induction items with
  | nil => rfl
  | cons item rest ih => rw [declarations, ih, List.map_cons]

@[simp] theorem declaration_group (title : String) (children : List NavItem) :
    (group title children).declaration = .group title (declarations children) := rfl

@[simp] theorem declaration_pageItem (r : Resolver) (title : Option String) (p : String) :
    (r.pageItem title p).declaration = .page none p := rfl

/-! ### The declaration of an item becomes the item -/

variable {r : Resolver} {ps : List String} {item : NavItem} {items : List NavItem}

theorem Laid.label? (h : Laid r ps item) :
    item.declaration.label? = if item.kind = .group then some item.title else none := by
  cases h <;> rfl

theorem labels_declarations : ∀ {items : List NavItem}, (∀ i ∈ items, Laid r ps i) →
    NavEntry.labels (declarations items) = groupTitles items
  | [], _ => rfl
  | item :: rest, h => by
    obtain ⟨hitem, hrest⟩ := List.forall_mem_cons.mp h
    have ih := labels_declarations hrest
    unfold NavEntry.labels groupTitles at ih ⊢
    rw [declarations, List.filterMap_cons, hitem.label?, ih]
    by_cases hkind : item.kind = .group <;> simp [hkind]

theorem declarations_ne_nil (h : items ≠ []) : declarations items ≠ [] := by
  rw [declarations_eq, Ne, List.map_eq_nil_iff]
  exact h

theorem mirrors_declarations (h : ∀ i ∈ items,
    i.declaration.isKept r.source = true ∧ Shows r i.declaration i) :
    Mirrors r (declarations items) items := by
  have hkept : (declarations items).filter (NavEntry.isKept r.source) = declarations items := by
    rw [declarations_eq, List.filter_eq_self, List.forall_mem_map]
    exact fun i hi => (h i hi).1
  unfold Mirrors
  rw [hkept, declarations_eq, List.forall₂_map_left_iff, List.forall₂_same]
  exact fun i hi => (h i hi).2

/-- Where every page is there, an item is what its declaration becomes. -/
theorem Laid.shows (hps : ∀ p ∈ ps, normalizePath? p = some p ∧ Page.isMarkdown p = true ∧
    r.source.holds p = true) (h : Laid r ps item) :
    item.declaration.isKept r.source = true ∧ Shows r item.declaration item := by
  induction h with
  | @page p hp =>
    obtain ⟨hnormal, hmd, hholds⟩ := hps p hp
    have hfault : (NavEntry.page none p).fault? r.source = none :=
      Resolver.fault?_page_eq_none.mpr ⟨p, hnormal, hmd, hholds⟩
    rw [declaration_pageItem, NavEntry.isKept, hfault]
    exact ⟨rfl, Resolver.shows_pageItem none hnormal hmd hholds⟩
  | @group title children hne _ ih =>
    have hentries := declarations_ne_nil hne
    rw [declaration_group]
    refine ⟨?_, .group hentries (mirrors_declarations ih)⟩
    obtain ⟨child, rest, hchildren⟩ := List.exists_cons_of_ne_nil hentries
    rw [hchildren]
    rfl

/-! ### When the declaration is sound -/

theorem mem_sources_iff {p : String} : p ∈ sources items ↔ ∃ i ∈ items, p ∈ sources [i] := by
  induction items with
  | nil => simp
  | cons item rest ih =>
    have happend : sources (item :: rest) = sources [item] ++ sources rest :=
      sources_append [item] rest
    rw [happend, List.mem_append, ih]
    simp

theorem forall_sound_iff {source : PageSource} (h : ∀ i ∈ items,
    (NavEntry.Sound source i.declaration ↔ ∀ p ∈ sources [i], source.holds p = true)) :
    (∀ e ∈ declarations items, NavEntry.Sound source e) ↔
      ∀ p ∈ sources items, source.holds p = true := by
  rw [declarations_eq, List.forall_mem_map]
  constructor
  · intro hsound p hp
    obtain ⟨i, hi, hp⟩ := mem_sources_iff.mp hp
    exact (h i hi).mp (hsound i hi) p hp
  · intro hholds i hi
    exact (h i hi).mpr fun p hp => hholds p (mem_sources_iff.mpr ⟨i, hi, hp⟩)

/-- The declaration of an item is sound exactly if its pages are there. -/
theorem Laid.sound_iff (hps : ∀ p ∈ ps, normalizePath? p = some p ∧ Page.isMarkdown p = true)
    (h : Laid r ps item) : DistinctGroups item.children →
      (NavEntry.Sound r.source item.declaration ↔
        ∀ p ∈ sources [item], r.source.holds p = true) := by
  induction h with
  | @page p hp =>
    intro _
    obtain ⟨hnormal, hmd⟩ := hps p hp
    rw [declaration_pageItem, sources_pageItem, List.forall_mem_singleton]
    constructor
    · intro hsound
      cases hsound with
      | page hpath _ hholds =>
        rw [hnormal] at hpath
        cases hpath
        exact hholds
    · exact fun hholds => .page hnormal hmd hholds
  | @group title children hne hlaid ih =>
    rintro ⟨hdistinct, hbelow⟩
    have hlabels : (NavEntry.labels (declarations children)).Nodup := by
      rw [labels_declarations hlaid]
      exact hdistinct
    rw [declaration_group, sources_group, ← forall_sound_iff fun i hi => ih i hi (hbelow i hi)]
    constructor
    · intro hsound
      cases hsound with
      | group _ _ hsound => exact hsound
    · exact fun hsound => .group (declarations_ne_nil hne) hlabels hsound

/-- Where sibling groups differ in title, declarations are sound exactly if the
pages of the items are there. -/
theorem soundLevel_declarations (hps : ∀ p ∈ ps, normalizePath? p = some p ∧
    Page.isMarkdown p = true) (h : ∀ i ∈ items, Laid r ps i) (hdistinct : DistinctGroups items) :
    NavEntry.SoundLevel r.source (declarations items) ↔
      ∀ p ∈ sources items, r.source.holds p = true := by
  obtain ⟨htitles, hbelow⟩ := hdistinct
  rw [NavEntry.SoundLevel, labels_declarations h, and_iff_right htitles]
  exact forall_sound_iff fun i hi => (h i hi).sound_iff hps (hbelow i hi)

end NavItem

/-! ### Generated items -/

/-- No two directories next to each other make the same title, at any depth. -/
inductive PageTree.DistinctTitles : PageTree → Prop
  | intro {files : List String} {ds : List (String × PageTree)} :
      (ds.map fun d => directoryTitle d.1).Nodup → (∀ d ∈ ds, DistinctTitles d.2) →
      DistinctTitles ⟨files, ds⟩

namespace Resolver

variable (r : Resolver) {ps : List String}

mutual

theorem directoryItems_laid : ∀ (t : PageTree) (f : Findings), (∀ p ∈ t.paths, p ∈ ps) →
    ∀ i ∈ (r.directoryItems t f).1, NavItem.Laid r ps i
  | ⟨files, ds⟩, f, h => by
    rw [PageTree.paths, List.forall_mem_append] at h
    rw [directoryItems, List.forall_mem_append, List.forall_mem_map]
    exact ⟨fun p hp => .page (h.1 p ((sortPages_perm files).mem_iff.mp hp)),
      groupItems_laid ds _ h.2⟩

theorem groupItems_laid : ∀ (ds : List (String × PageTree)) (f : Findings),
    (∀ p ∈ PageTree.pathsIn ds, p ∈ ps) → ∀ i ∈ (r.groupItems ds f).1, NavItem.Laid r ps i
  | [], f, _ => by
    rw [groupItems]
    exact List.forall_mem_nil _
  | (name, t) :: rest, f, h => by
    rw [PageTree.pathsIn, List.forall_mem_append] at h
    have hrest := groupItems_laid rest (r.directoryItems t f).2 h.2
    rw [groupItems_cons]
    split_ifs with hempty
    · exact hrest
    · refine List.forall_mem_cons.mpr ⟨.group ?_ (directoryItems_laid t f h.1), hrest⟩
      exact fun hnil => hempty (List.isEmpty_iff.mpr hnil)

end

theorem groupTitles_pageItems (ps : List String) (items : List NavItem) :
    NavItem.groupTitles (ps.map (r.pageItem none) ++ items) = NavItem.groupTitles items := by
  have hnone : (ps.map (r.pageItem none)).filter (fun i => i.kind = .group) = [] := by
    rw [List.filter_eq_nil_iff, List.forall_mem_map]
    exact fun p _ => Bool.false_ne_true
  unfold NavItem.groupTitles
  rw [List.filter_append, hnone, List.nil_append]

theorem groupItems_titles (ds : List (String × PageTree)) (f : Findings) :
    (NavItem.groupTitles (r.groupItems ds f).1).Sublist (ds.map fun d => directoryTitle d.1) := by
  induction ds generalizing f with
  | nil =>
    rw [groupItems]
    exact List.Sublist.refl _
  | cons d rest ih =>
    have hrest := ih (r.directoryItems d.2 f).2
    rw [groupItems_cons, List.map_cons]
    split_ifs
    · exact hrest.cons _
    · exact hrest.cons_cons _

mutual

/-- Where directories make different titles, groups have different titles. -/
theorem directoryItems_distinct : ∀ (t : PageTree) (f : Findings), t.DistinctTitles →
    NavItem.DistinctGroups (r.directoryItems t f).1
  | ⟨files, ds⟩, f, .intro htitles hds => by
    rw [directoryItems]
    refine .intro ?_ (List.forall_mem_append.mpr ⟨?_, groupItems_distinct ds _ hds⟩)
    · rw [groupTitles_pageItems]
      exact htitles.sublist (r.groupItems_titles ds _)
    · rw [List.forall_mem_map]
      exact fun p _ => .intro List.nodup_nil (List.forall_mem_nil _)

theorem groupItems_distinct : ∀ (ds : List (String × PageTree)) (f : Findings),
    (∀ d ∈ ds, d.2.DistinctTitles) →
    ∀ i ∈ (r.groupItems ds f).1, NavItem.DistinctGroups i.children
  | [], f, _ => by
    rw [groupItems]
    exact List.forall_mem_nil _
  | (name, t) :: rest, f, h => by
    obtain ⟨ht, hrest⟩ := List.forall_mem_cons.mp h
    have ih := groupItems_distinct rest (r.directoryItems t f).2 hrest
    rw [groupItems_cons]
    split_ifs
    · exact ih
    · exact List.forall_mem_cons.mpr ⟨directoryItems_distinct t f ht, ih⟩

end

end Resolver

/-! ### Sources that list what they store -/

/-- Pages in memory, in increasing order of paths, or in a directory of a tree of
regular files and directories, all readable, in which names are distinct texts
without a slash, and what paths are limited to: in memory nothing, in a directory
what the host admits. -/
inductive PageSource.Stored : PageSource → (String → Prop) → Prop
  | memory {m : MemoryPages} : m.files.Pairwise (fun a b => a.1 < b.1) →
      Stored m.source fun _ => True
  | directory {d : PageDirectory} : d.host.tree.WellNamed → d.host.tree.Distinct →
      Stored d.source fun p => Host.Admits d.docsDir ⟨p⟩

theorem MemoryPages.addPages_sorted : ∀ (paths : List String) {m : MemoryPages},
    m.files.Pairwise (fun a b => a.1 < b.1) →
      (m.addPages paths).files.Pairwise fun a b => a.1 < b.1
  | [], _, h => h
  | path :: paths, m, h => by
    have hadd : (m.add path "").files.Pairwise fun a b => a.1 < b.1 :=
      Text.insertSorted_sorted path "" h
    exact addPages_sorted paths hadd

theorem MemoryPages.holds_of_mem_pages {m : MemoryPages} {p : String} (hp : p ∈ m.pages) :
    m.source.holds p = true := by
  obtain ⟨e, he, rfl⟩ := List.mem_map.mp (List.mem_filter.mp hp).1
  exact List.lookup_isSome_iff.mpr ⟨e, he, beq_self_eq_true e.1⟩

/-- A listed page of a directory is there exactly if its path is within the
limits of the host. -/
theorem PageDirectory.holds_of_mem_pages_iff {d : PageDirectory} {ps : List String} {p : String}
    (htree : d.host.tree.WellNamed) (hdistinct : d.host.tree.Distinct) (hps : d.pages = .ok ps)
    (hp : p ∈ ps) : d.source.holds p = true ↔ Host.Admits d.docsDir ⟨p⟩ := by
  obtain ⟨-, entries, hfind, l, hl, rfl, hvisible⟩ := exists_leaf_of_mem_pages hps hp
  exact holds_leaf_iff hfind (Host.find_closed FileTree.distinct_closed hdistinct hfind)
    (Host.find_closed FileTree.wellNamed_closed htree hfind) hl hvisible

namespace PageSource

variable {source : PageSource} {admits : String → Prop} {ps : List String}

theorem Stored.pages (h : source.Stored admits) (hps : source.pages = .ok ps) :
    ps.Nodup ∧ ∀ p ∈ ps, Page.isMarkdown p = true := by
  cases h with
  | @memory m hsorted =>
    cases hps
    have hkeys : (m.files.map fun e => e.1).Nodup :=
      List.pairwise_map.mpr (hsorted.imp fun hlt => String.ne_of_lt hlt)
    exact ⟨hkeys.filter _, fun p hp => (List.mem_filter.mp hp).2⟩
  | @directory d htree hdistinct =>
    have hps : d.pages = .ok ps := hps
    exact ⟨PageDirectory.pages_nodup htree hdistinct hps,
      fun p hp => (PageDirectory.exists_leaf_of_mem_pages hps hp).1⟩

theorem Stored.holds_iff (h : source.Stored admits) (hps : source.pages = .ok ps) {p : String}
    (hp : p ∈ ps) : source.holds p = true ↔ admits p := by
  cases h with
  | memory =>
    cases hps
    exact iff_of_true (MemoryPages.holds_of_mem_pages hp) trivial
  | directory htree hdistinct =>
    exact PageDirectory.holds_of_mem_pages_iff htree hdistinct hps hp

end PageSource

/-! ### The declared navigation -/

namespace Config

variable {c : Config} {source : PageSource} {ps : List String} {res : Resolution}

/-- The configuration with the declaration of some items. -/
def declaring (c : Config) (items : List NavItem) : Config :=
  { c with nav := some (NavItem.declarations items) }

theorem generated_sources (hnav : c.nav = none) (hps : source.pages = .ok ps)
    (hres : c.resolveNav source = .ok res) : (NavItem.sources res.navigation.items).Perm ps := by
  rw [resolveNav_none source hnav hps] at hres
  cases hres
  have hsources := ((c.resolver source).directoryItems_sources (PageTree.ofPaths ps)
    Findings.empty).trans ((PageTree.ofPaths_paths ps).map some)
  have hself : (ps.map some).filterMap id = ps := by
    rw [List.filterMap_map]
    exact List.filterMap_some
  have hperm := hsources.filterMap id
  rwa [List.filterMap_map, hself] at hperm

theorem generated_laid (hnav : c.nav = none) (hps : source.pages = .ok ps)
    (hres : c.resolveNav source = .ok res) :
    ∀ i ∈ res.navigation.items, NavItem.Laid (c.resolver source) ps i := by
  rw [resolveNav_none source hnav hps] at hres
  cases hres
  exact (c.resolver source).directoryItems_laid _ _ fun p hp =>
    (PageTree.ofPaths_paths ps).mem_iff.mp hp

/-- Declared, items of listed pages are sound exactly if every page is there. -/
theorem declaring_sound_iff {items : List NavItem}
    (hpages : ∀ p ∈ ps, normalizePath? p = some p ∧ Page.isMarkdown p = true)
    (hlaid : ∀ i ∈ items, NavItem.Laid (c.resolver source) ps i)
    (hgroups : NavItem.DistinctGroups items) (hsources : (NavItem.sources items).Perm ps) :
    (c.declaring items).SoundNav source ↔ ∀ p ∈ ps, source.holds p = true := by
  have hlevel : NavEntry.SoundLevel source (NavItem.declarations items) ↔
      ∀ p ∈ NavItem.sources items, source.holds p = true :=
    NavItem.soundLevel_declarations hpages hlaid hgroups
  have hthere : (∀ p ∈ NavItem.sources items, source.holds p = true) ↔
      ∀ p ∈ ps, source.holds p = true := forall_congr' fun p => imp_congr_left hsources.mem_iff
  rw [← hthere, ← hlevel]
  simp [SoundNav, declaring]

/-- Declared, items of pages that are there are the same items. -/
theorem declaring_items {items : List NavItem} {res : Resolution}
    (hpages : ∀ p ∈ ps, normalizePath? p = some p ∧ Page.isMarkdown p = true ∧
      source.holds p = true)
    (hlaid : ∀ i ∈ items, NavItem.Laid (c.resolver source) ps i)
    (h : (c.declaring items).resolveNav source = .ok res) : res.navigation.items = items := by
  have hnav : (c.declaring items).nav = some (NavItem.declarations items) := rfl
  rw [resolveNav_declared hnav] at h
  cases h
  have hmirrors := Resolver.entries_mirrors (r := c.resolver source) []
    (NavItem.declarations items) [] Findings.empty
  exact hmirrors.unique (NavItem.mirrors_declarations fun i hi => (hlaid i hi).shows hpages)

/-- **Generated and declared navigation agree.** Where listed pages have paths that
a declaration may name and sibling groups differ in title, declaring a generated
navigation has no fault exactly if the paths of all pages are within the limits of
the source. Then the declaration gives the same items at every level, notes the
same pages, gives no warning and leaves no orphan. -/
theorem resolveNav_redeclared {admits : String → Prop} (hsource : source.Stored admits)
    (hnav : c.nav = none) (hps : source.pages = .ok ps)
    (hnormal : ∀ p ∈ ps, normalizePath? p = some p) (hres : c.resolveNav source = .ok res)
    (hgroups : NavItem.DistinctGroups res.navigation.items) :
    ∃ res', (c.declaring res.navigation.items).resolveNav source = .ok res' ∧
      res.navigation.generated = true ∧ res'.navigation.generated = false ∧
      (res'.findings.errors = [] ↔ ∀ p ∈ ps, admits p) ∧
      ((∀ p ∈ ps, admits p) →
        res'.navigation.items = res.navigation.items ∧
        (∀ p, p ∈ res'.findings.referenced ↔ p ∈ res.findings.referenced) ∧
        res'.findings.warnings = [] ∧
        ∃ report, (c.declaring res.navigation.items).check source = .ok report ∧
          report.orphans = []) := by
  obtain ⟨hnodup, hmarkdown⟩ := hsource.pages hps
  have hsources := generated_sources hnav hps hres
  have hlaid := generated_laid hnav hps hres
  have hgenerated : res.navigation.generated = true := by
    rw [resolveNav_none source hnav hps] at hres
    cases hres
    rfl
  have hdeclared : (c.declaring res.navigation.items).nav =
      some (NavItem.declarations res.navigation.items) := rfl
  obtain ⟨res', hres', hdeclares⟩ : ∃ res', (c.declaring res.navigation.items).resolveNav source =
      .ok res' ∧ res'.navigation.generated = false := ⟨_, resolveNav_declared hdeclared, rfl⟩
  have hsound := declaring_sound_iff (fun p hp => ⟨hnormal p hp, hmarkdown p hp⟩) hlaid hgroups
    hsources
  have hthere : (∀ p ∈ ps, source.holds p = true) ↔ ∀ p ∈ ps, admits p :=
    forall₂_congr fun p hp => hsource.holds_iff hps hp
  refine ⟨res', hres', hgenerated, hdeclares,
    (resolveNav_errors_eq_nil hres').trans (hsound.trans hthere), fun hadmits => ?_⟩
  have hholds := hthere.mpr hadmits
  have hitems := declaring_items (fun p hp => ⟨hnormal p hp, hmarkdown p hp, hholds p hp⟩) hlaid
    hres'
  refine ⟨hitems, fun p => ?_, ?_, ?_⟩
  · rw [resolveNav_referenced hres', resolveNav_referenced hres, hitems]
  · -- no page is listed twice, so no item is
    have hdistinct := hsources.nodup_iff.mpr hnodup
    rw [declared_warnings hdeclared hres', List.map_eq_nil_iff, repeatsAfter_eq_nil,
      Navigation.sources, hitems]
    exact ⟨hdistinct, fun p _ => List.not_mem_nil⟩
  · obtain ⟨report, hreport, -, horphans⟩ := check_orphans (c.declaring res.navigation.items) hps
    obtain ⟨res'', hres'', hnavigation, -⟩ := check_eq_ok hreport
    cases hres'.symm.trans hres''
    refine ⟨report, hreport, ?_⟩
    rw [horphans, hnavigation, hitems, List.filter_eq_nil_iff]
    intro p hp
    have hshown := NavItem.mem_sources.mp (hsources.mem_iff.mpr hp)
    simpa using hshown

/-- Four pages, two of them next to each other in one of two directories. -/
def branchedPages : MemoryPages :=
  MemoryPages.addPages ["index.md", "guides/b.md", "guides/deep/a.md", "api/README.md"] .empty

theorem branchedPages_pages : branchedPages.pages =
    ["api/README.md", "guides/b.md", "guides/deep/a.md", "index.md"] := by decide

theorem branchedPages_distinctTitles : (PageTree.ofPaths branchedPages.pages).DistinctTitles := by
  have htree : PageTree.ofPaths branchedPages.pages = ⟨["index.md"],
      [("api", ⟨["api/README.md"], []⟩),
        ("guides", ⟨["guides/b.md"], [("deep", ⟨["guides/deep/a.md"], []⟩)]⟩)]⟩ := by
    have hindex : PageTree.directoriesOf "index.md" = [] := by decide
    have hapi : PageTree.directoriesOf "api/README.md" = ["api"] := by decide
    have hguides : PageTree.directoriesOf "guides/b.md" = ["guides"] := by decide
    have hdeep : PageTree.directoriesOf "guides/deep/a.md" = ["guides", "deep"] := by decide
    have hafter : ¬ "guides" < "api" ∧ ¬ "guides" = "api" ∧ ¬ "guides" < "guides" := by decide
    rw [branchedPages_pages]
    simp only [PageTree.ofPaths, List.foldl_cons, List.foldl_nil, hindex, hapi, hguides, hdeep,
      PageTree.insert, PageTree.insertInto, PageTree.empty, if_neg hafter.1, if_neg hafter.2.1,
      if_neg hafter.2.2, if_true, List.nil_append]
  have hleaf : ∀ files, (PageTree.mk files []).DistinctTitles :=
    fun _ => .intro List.nodup_nil (List.forall_mem_nil _)
  rw [htree]
  refine .intro (by decide) (List.forall_mem_cons.mpr ⟨hleaf _, ?_⟩)
  refine List.forall_mem_singleton.mpr (.intro (by decide) ?_)
  exact List.forall_mem_singleton.mpr (hleaf _)

theorem branchedPages_normal : ∀ p ∈ branchedPages.pages, normalizePath? p = some p := by
  rw [branchedPages_pages]
  decide

/-- The pages of `branchedPages` as files in a directory `docs`. -/
def branchedDirectory : PageDirectory where
  host :=
    { tree := .directory [("docs", .directory
        [("api", .directory [("README.md", .file ⟨#[]⟩)]),
          ("guides", .directory
            [("b.md", .file ⟨#[]⟩), ("deep", .directory [("a.md", .file ⟨#[]⟩)])]),
          ("index.md", .file ⟨#[]⟩)])]
      workingDirectory := ⟨"/"⟩
      environment := [] }
  docsDir := ⟨"docs"⟩

theorem branchedDirectory_stored : branchedDirectory.source.Stored fun p =>
    Host.Admits branchedDirectory.docsDir ⟨p⟩ := by
  refine .directory ?_ ?_
  -- names are texts without a slash, and distinct, by the same walk through the tree
  all_goals
    refine .directory (by decide) (List.forall_mem_singleton.mpr (.directory (by decide) ?_))
    refine List.forall_mem_cons.mpr ⟨?_, List.forall_mem_cons.mpr ⟨?_, ?_⟩⟩
    · exact .directory (by decide) (List.forall_mem_singleton.mpr .file)
    · refine .directory (by decide) (List.forall_mem_cons.mpr ⟨.file, ?_⟩)
      refine List.forall_mem_singleton.mpr ?_
      exact .directory (by decide) (List.forall_mem_singleton.mpr .file)
    · exact List.forall_mem_singleton.mpr .file

theorem branchedDirectory_pages : branchedDirectory.source.pages = .ok branchedPages.pages := by
  have hsorted : branchedPages.pages.mergeSort (fun a b => decide (a ≤ b)) =
      branchedPages.pages := by
    rw [branchedPages_pages]
    exact List.mergeSort_of_pairwise (by decide)
  exact congrArg Except.ok hsorted

theorem branchedDirectory_admits :
    ∀ p ∈ branchedPages.pages, Host.Admits branchedDirectory.docsDir ⟨p⟩ := by
  have hlimits : ∀ p ∈ branchedPages.pages,
      '\x00' ∉ (branchedDirectory.docsDir.join ⟨p⟩).chars ∧
        (branchedDirectory.docsDir.join ⟨p⟩).text.utf8ByteSize ≤ Host.maxPathBytes ∧
        ∀ s ∈ Text.splitAt '/' (Path.mk p).chars, (String.ofList s).utf8ByteSize ≤ 255 := by
    rw [branchedPages_pages]
    decide
  intro p hp
  obtain ⟨hnul, hpath, hnames⟩ := hlimits p hp
  exact ⟨hnul, hpath, hnames⟩

theorem resolveNav_branched {source : PageSource} (hps : source.pages = .ok branchedPages.pages) :
    ∃ res, (default : Config).resolveNav source = .ok res ∧
      NavItem.DistinctGroups res.navigation.items :=
  ⟨_, resolveNav_none (c := default) source rfl hps,
    ((default : Config).resolver source).directoryItems_distinct
      (PageTree.ofPaths branchedPages.pages) Findings.empty branchedPages_distinctTitles⟩

/-- The navigation of `branchedPages` can be declared, in memory and in a directory. -/
theorem resolveNav_redeclared_branched :
    (default : Config).nav.isNone ∧
      branchedPages.pages = ["api/README.md", "guides/b.md", "guides/deep/a.md", "index.md"] ∧
      (∀ p ∈ branchedPages.pages, normalizePath? p = some p) ∧
      ((branchedPages.source.Stored fun _ => True) ∧
        branchedPages.source.pages = .ok branchedPages.pages ∧
        ∃ res, (default : Config).resolveNav branchedPages.source = .ok res ∧
          NavItem.DistinctGroups res.navigation.items ∧
          ∃ res', ((default : Config).declaring res.navigation.items).resolveNav
              branchedPages.source = .ok res' ∧
            res'.navigation.items = res.navigation.items ∧ res'.findings.errors = [] ∧
            res'.findings.warnings = []) ∧
      (branchedDirectory.source.Stored fun p => Host.Admits branchedDirectory.docsDir ⟨p⟩) ∧
        branchedDirectory.source.pages = .ok branchedPages.pages ∧
        (∀ p ∈ branchedPages.pages, Host.Admits branchedDirectory.docsDir ⟨p⟩) ∧
        ∃ res, (default : Config).resolveNav branchedDirectory.source = .ok res ∧
          NavItem.DistinctGroups res.navigation.items ∧
          ∃ res', ((default : Config).declaring res.navigation.items).resolveNav
              branchedDirectory.source = .ok res' ∧
            res'.navigation.items = res.navigation.items ∧ res'.findings.errors = [] ∧
            res'.findings.warnings = [] := by
  refine ⟨rfl, branchedPages_pages, branchedPages_normal, ?memory, ?directory⟩
  case memory =>
    have hstored : branchedPages.source.Stored fun _ => True :=
      .memory (MemoryPages.addPages_sorted _ .nil)
    have hps : branchedPages.source.pages = .ok branchedPages.pages := rfl
    obtain ⟨res, hres, hgroups⟩ := resolveNav_branched hps
    obtain ⟨res', hres', -, -, herrors, hagree⟩ :=
      resolveNav_redeclared hstored rfl hps branchedPages_normal hres hgroups
    obtain ⟨hitems, -, hwarnings, -⟩ := hagree fun _ _ => trivial
    exact ⟨hstored, hps, res, hres, hgroups, res', hres', hitems,
      herrors.mpr fun _ _ => trivial, hwarnings⟩
  case directory =>
    obtain ⟨res, hres, hgroups⟩ := resolveNav_branched branchedDirectory_pages
    obtain ⟨res', hres', -, -, herrors, hagree⟩ := resolveNav_redeclared branchedDirectory_stored
      rfl branchedDirectory_pages branchedPages_normal hres hgroups
    obtain ⟨hitems, -, hwarnings, -⟩ := hagree branchedDirectory_admits
    exact ⟨branchedDirectory_stored, branchedDirectory_pages, branchedDirectory_admits, res, hres,
      hgroups, res', hres', hitems, herrors.mpr branchedDirectory_admits, hwarnings⟩

end Config

/-! ### A directory that is named at length -/

/-- A directory with one page, named with slashes at the end. -/
def farDirectory (slashes : Nat) : PageDirectory where
  host :=
    { tree := .directory [("docs", .directory [("guide.md", .file "# Guide\n".toUTF8)])]
      workingDirectory := ⟨"/"⟩
      environment := [] }
  docsDir := ⟨"docs" ++ String.ofList (List.replicate slashes '/')⟩

theorem farDirectory_stored (slashes : Nat) : (farDirectory slashes).source.Stored fun p =>
    Host.Admits (farDirectory slashes).docsDir ⟨p⟩ := by
  refine .directory ?_ ?_
  all_goals
    refine .directory (by decide) (List.forall_mem_singleton.mpr ?_)
    exact .directory (by decide) (List.forall_mem_singleton.mpr .file)

theorem farDirectory_chars (slashes : Nat) : (farDirectory slashes).docsDir.chars =
    "docs".toList ++ List.replicate slashes '/' :=
  String.toList_append.trans (congrArg ("docs".toList ++ ·) String.toList_ofList)

theorem slashes_bytes (n : Nat) : (String.ofList (List.replicate n '/')).utf8ByteSize = n := by
  induction n with
  | zero => rfl
  | succ n ih =>
    have hcons : String.ofList (List.replicate (n + 1) '/') =
        String.ofList ['/'] ++ String.ofList (List.replicate n '/') := by
      rw [← String.ofList_append]
      rfl
    have hslash : (String.ofList ['/']).utf8ByteSize = 1 := by decide
    rw [hcons, String.utf8ByteSize_append, ih, hslash, Nat.add_comm]

theorem farDirectory_bytes (slashes : Nat) :
    (farDirectory slashes).docsDir.text.utf8ByteSize = slashes + 4 := by
  have hdocs : "docs".utf8ByteSize = 4 := by decide
  show ("docs" ++ String.ofList (List.replicate slashes '/')).utf8ByteSize = _
  rw [String.utf8ByteSize_append, slashes_bytes, hdocs, Nat.add_comm]

theorem farDirectory_pages {slashes : Nat} (h : slashes + 4 ≤ Host.maxPathBytes) :
    (farDirectory slashes).pages = .ok ["guide.md"] := by
  have hsegments : Text.splitAt '/'
      ((farDirectory slashes).host.workingDirectory.join (farDirectory slashes).docsDir).chars =
        [[], "docs".toList] ++ List.replicate slashes [] := by
    have hrelative : (farDirectory slashes).docsDir.isAbsolute = false := by
      rw [Path.isAbsolute, farDirectory_chars]
      rfl
    have hgap : (farDirectory slashes).host.workingDirectory.gap = [] :=
      if_pos (.inr (show (Path.mk "/").chars.getLast? = some '/' by decide))
    have hroot : (farDirectory slashes).host.workingDirectory.chars = ['/'] :=
      show (Path.mk "/").chars = _ by decide
    have hdocs : Text.splitAt '/' ('/' :: "docs".toList) = [[], "docs".toList] := by decide
    rw [Path.join_chars hrelative, farDirectory_chars, hgap, hroot, ← hdocs]
    exact Text.splitAt_append_replicate '/' ('/' :: "docs".toList) slashes
  have hfind : (farDirectory slashes).host.find (farDirectory slashes).docsDir =
      .ok (.directory [("guide.md", .file "# Guide\n".toUTF8)]) := by
    rw [Host.find_eq_ok_iff, farDirectory_bytes, hsegments]
    refine ⟨?_, fun hempty => ?_, h, ?_⟩
    · rw [farDirectory_chars]
      simp
    · have hbytes := farDirectory_bytes slashes
      rw [hempty] at hbytes
      exact absurd hbytes (by simp)
    · rw [FileTree.follow_append (by simp)]
      exact FileTree.follow_replicate_nil slashes
  have hlisting : PageDirectory.pagesIn "" [("guide.md", .file "# Guide\n".toUTF8)] =
      ["guide.md"] := by decide
  rw [PageDirectory.pages_of_near hfind rfl, hlisting, List.mergeSort_singleton]

theorem farDirectory_holds {slashes : Nat} (h : Host.maxPathBytes < slashes + 12) :
    (farDirectory slashes).source.holds "guide.md" = false := by
  have hnamed : Path.Named "guide.md".toList := by decide
  rw [Bool.eq_false_iff]
  intro hholds
  obtain ⟨bytes, hfind⟩ := (PageDirectory.holds_iff hnamed).mp hholds
  obtain ⟨-, -, hshort, -⟩ := Host.find_eq_ok_iff.mp hfind
  have hlong := (farDirectory slashes).docsDir.le_join_bytes
    (show (Path.mk "guide.md").isAbsolute = false from rfl)
  have hguide : "guide.md".utf8ByteSize = 8 := by decide
  rw [farDirectory_bytes] at hlong
  simp only [hguide] at hlong
  omega

/-- Where one page is listed and not there, its declaration finds it missing. -/
theorem Config.redeclared_missing {source : PageSource} (hps : source.pages = .ok ["guide.md"])
    (hholds : source.holds "guide.md" = false) :
    ∃ res res', (default : Config).resolveNav source = .ok res ∧
      NavItem.DistinctGroups res.navigation.items ∧
      res.navigation.items.map (fun i => i.source) = [some "guide.md"] ∧
      ((default : Config).declaring res.navigation.items).resolveNav source = .ok res' ∧
      res'.navigation.items = [] ∧
      res'.findings.errors = [.missingPage "guide.md" "guide.md"] := by
  have hnormal : normalizePath? "guide.md" = some "guide.md" := by decide
  have hmarkdown : Page.isMarkdown "guide.md" = true := by decide
  have htree : PageTree.ofPaths ["guide.md"] = ⟨["guide.md"], []⟩ := by
    have hdir : PageTree.directoriesOf "guide.md" = [] := by decide
    simp [PageTree.ofPaths, hdir, PageTree.insert, PageTree.empty]
  have hitems : ∀ r : Resolver, (r.directoryItems (PageTree.ofPaths ["guide.md"])
      Findings.empty).1 = [r.pageItem none "guide.md"] := by
    intro r
    rw [htree]
    simp [Resolver.directoryItems, Resolver.groupItems, Resolver.sortPages]
  have hentries : ∀ r : Resolver, r.source = source →
      r.entries [] [] [.page none "guide.md"] Findings.empty =
        ([], ⟨[.missingPage "guide.md" "guide.md"], [], []⟩) := by
    rintro r rfl
    simp [Resolver.entries, Resolver.entry, Resolver.page, Resolver.noteLabel, NavEntry.label?,
      hnormal, hmarkdown, hholds, Findings.fault, Findings.empty]
  have hres := resolveNav_none (c := default) source rfl hps
  obtain ⟨res, hres, hshown⟩ : ∃ res, (default : Config).resolveNav source = .ok res ∧
      res.navigation.items = [((default : Config).resolver source).pageItem none "guide.md"] :=
    ⟨_, hres, hitems _⟩
  have hnav : ((default : Config).declaring res.navigation.items).nav =
      some [.page none "guide.md"] := by
    rw [hshown]
    rfl
  have hres' : ((default : Config).declaring res.navigation.items).resolveNav source = _ :=
    resolveNav_declared hnav
  rw [hentries _ rfl] at hres'
  refine ⟨res, _, hres, ?_, ?_, hres', rfl, rfl⟩
  · rw [hshown]
    exact .intro List.nodup_nil (List.forall_mem_singleton.mpr
      (.intro List.nodup_nil (List.forall_mem_nil _)))
  · rw [hshown]
    rfl

/-- A navigation whose declaration has a fault. -/
theorem Config.redeclared_misses_far {slashes : Nat} (hlisted : slashes + 4 ≤ Host.maxPathBytes)
    (hfar : Host.maxPathBytes < slashes + 12) :
    ((farDirectory slashes).source.Stored fun p =>
        Host.Admits (farDirectory slashes).docsDir ⟨p⟩) ∧
      (farDirectory slashes).source.pages = .ok ["guide.md"] ∧
      normalizePath? "guide.md" = some "guide.md" ∧
      ∃ res res', (default : Config).resolveNav (farDirectory slashes).source = .ok res ∧
        NavItem.DistinctGroups res.navigation.items ∧
        res.navigation.items.map (fun i => i.source) = [some "guide.md"] ∧
        ((default : Config).declaring res.navigation.items).resolveNav
          (farDirectory slashes).source = .ok res' ∧
        res'.navigation.items = [] ∧
        res'.findings.errors = [.missingPage "guide.md" "guide.md"] := by
  have hps : (farDirectory slashes).source.pages = .ok ["guide.md"] := farDirectory_pages hlisted
  have hmissing := redeclared_missing hps (farDirectory_holds hfar)
  exact ⟨farDirectory_stored slashes, hps, by decide, hmissing⟩

/-- A navigation whose declaration has a fault, over a directory of 4090 bytes. -/
theorem Config.redeclared_misses_farDirectory :
    ((farDirectory 4086).source.Stored fun p => Host.Admits (farDirectory 4086).docsDir ⟨p⟩) ∧
      (farDirectory 4086).source.pages = .ok ["guide.md"] ∧
      normalizePath? "guide.md" = some "guide.md" ∧
      ∃ res res', (default : Config).resolveNav (farDirectory 4086).source = .ok res ∧
        NavItem.DistinctGroups res.navigation.items ∧
        res.navigation.items.map (fun i => i.source) = [some "guide.md"] ∧
        ((default : Config).declaring res.navigation.items).resolveNav
          (farDirectory 4086).source = .ok res' ∧
        res'.navigation.items = [] ∧
        res'.findings.errors = [.missingPage "guide.md" "guide.md"] :=
  redeclared_misses_far (by unfold Host.maxPathBytes; omega) (by unfold Host.maxPathBytes; omega)

end SitePlan
