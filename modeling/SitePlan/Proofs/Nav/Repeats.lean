/-
# Pages that are listed again

A page that is listed a second time gives a warning, wherever in the tree the
two stand. The warnings of a declared navigation are therefore those of its page
items in display order: an item gives one if an item before it has its source.
An entry at fault becomes no item and counts for nothing.

Key definitions: `NavItem.sources`, `repeatsAfter`, `Findings.repeatWarning`,
`NavEntry.reached?`.
Key theorems: `repeatsAfter_append`, `Resolver.entries_warnings`,
`Resolver.entries_pages`, `Config.declared_warnings`, `Config.declared_pages`.
-/
import SitePlan.Proofs.Nav.Acceptance
import SitePlan.Proofs.Nav.Orphans

namespace SitePlan

/-! ### Repeats in a list -/

/-- The members of a list that stand among `seen` or before in the list, in
order. -/
def repeatsAfter (seen : List String) : List String → List String
  | [] => []
  | p :: ps => (if p ∈ seen then [p] else []) ++ repeatsAfter (seen ++ [p]) ps

theorem repeatsAfter_append : ∀ seen ps qs : List String,
    repeatsAfter seen (ps ++ qs) = repeatsAfter seen ps ++ repeatsAfter (seen ++ ps) qs
  | seen, [], qs => by simp [repeatsAfter]
  | seen, p :: ps, qs => by
    have ih := repeatsAfter_append (seen ++ [p]) ps qs
    simp only [List.cons_append, repeatsAfter, ih, List.append_assoc, List.nil_append]

/-- Only what is among `seen` matters, not how often or in which order. -/
theorem repeatsAfter_congr : ∀ {seen seen' : List String} (ps : List String),
    (∀ p, p ∈ seen ↔ p ∈ seen') → repeatsAfter seen ps = repeatsAfter seen' ps
  | _, _, [], _ => rfl
  | seen, seen', p :: ps, h => by
    have h' : ∀ q, q ∈ seen ++ [p] ↔ q ∈ seen' ++ [p] := by
      intro q
      rw [List.mem_append, List.mem_append, h q]
    simp only [repeatsAfter, h p, repeatsAfter_congr ps h']

theorem repeatsAfter_eq_nil : ∀ seen ps : List String,
    repeatsAfter seen ps = [] ↔ ps.Nodup ∧ ∀ p ∈ ps, p ∉ seen
  | seen, [] => by simp [repeatsAfter]
  | seen, p :: ps => by
    have ih := repeatsAfter_eq_nil (seen ++ [p]) ps
    have hhead : (if p ∈ seen then [p] else []) = [] ↔ p ∉ seen := by
      split_ifs with hp <;> simp [hp]
    rw [repeatsAfter, List.append_eq_nil_iff, hhead, ih, List.nodup_cons, List.forall_mem_cons]
    simp only [List.mem_append, List.mem_singleton, not_or]
    constructor
    · rintro ⟨hp, hn, hps⟩
      exact ⟨⟨fun h => (hps p h).2 rfl, hn⟩, hp, fun q hq => (hps q hq).1⟩
    · rintro ⟨⟨hnot, hn⟩, hp, hps⟩
      exact ⟨hp, hn, fun q hq => ⟨hps q hq, fun h => hnot (h ▸ hq)⟩⟩

/-! ### Sources of items -/

/-- The sources of the pages at and below items, in display order. -/
def NavItem.sources (items : List NavItem) : List String :=
  (NavItem.pagesOf items).filterMap fun i => i.source

/-- The sources of all pages, in display order. -/
def Navigation.sources (n : Navigation) : List String := NavItem.sources n.items

namespace NavItem

theorem mem_sources {items : List NavItem} {p : String} : p ∈ sources items ↔ Shown items p := by
  unfold sources Shown
  rw [List.mem_filterMap]

@[simp] theorem sources_nil : sources [] = [] := rfl

theorem sources_append (is js : List NavItem) :
    sources (is ++ js) = sources is ++ sources js := by
  rw [sources, pagesOf_append, List.filterMap_append]
  rfl

@[simp] theorem sources_group (title : String) (children : List NavItem) :
    sources [group title children] = sources children := by
  simp [sources, pagesOf]

@[simp] theorem sources_link (title url : String) : sources [link title url] = [] := rfl

@[simp] theorem sources_pageItem (r : Resolver) (title : Option String) (s : String) :
    sources [r.pageItem title s] = [s] := rfl

end NavItem

/-! ### The warnings of a declaration -/

namespace Findings

/-- The warning for a page that is listed again. -/
def repeatWarning (source : String) : String :=
  "page `" ++ source ++ "` is listed in nav more than once"

@[simp] theorem fault_warnings (e : NavError) (f : Findings) :
    (f.fault e).warnings = f.warnings := rfl

theorem reference_warnings (p : String) (f : Findings) :
    (f.reference p).warnings = f.warnings ++ (repeatsAfter f.referenced [p]).map repeatWarning := by
  unfold reference
  by_cases hp : p ∈ f.referenced <;> simp [hp, repeatsAfter, repeatWarning]

end Findings

namespace Resolver

variable (r : Resolver)

theorem noteLabel_warnings (trail seen : List String) (label : Option String) (f : Findings) :
    (noteLabel trail seen label f).warnings = f.warnings := by
  unfold noteLabel
  split
  · split_ifs <;> rfl
  · rfl

mutual

theorem entry_warnings (trail : List String) : ∀ (e : NavEntry) (f : Findings),
    (r.entry trail e f).2.warnings = f.warnings ++
      (repeatsAfter f.referenced (NavItem.sources (r.entry trail e f).1.toList)).map
        Findings.repeatWarning
  | .page title path, f => by
    rw [entry]
    cases h : (NavEntry.page title path).fault? r.source with
    | some x =>
      rw [page_of_fault r h]
      simp [repeatsAfter]
    | none =>
      obtain ⟨s, hs, hmd, hf⟩ := fault?_page_eq_none.mp h
      rw [page_of_target r hs hmd hf, Option.toList_some, NavItem.sources_pageItem,
        Findings.reference_warnings]
  | .link title url, f => by
    rw [entry]
    simp [repeatsAfter]
  | .group title [], f => by
    rw [entry]
    simp [repeatsAfter]
  | .group title (child :: rest), f => by
    have ih := entries_warnings (trail ++ [title]) (child :: rest) [] f
    simpa [entry] using ih

/-- Entries add the warnings of the pages that they become. What carries the
induction is that the pages noted are those of the items before. -/
theorem entries_warnings (trail : List String) :
    ∀ (es : List NavEntry) (seen : List String) (f : Findings),
    (r.entries trail seen es f).2.warnings = f.warnings ++
      (repeatsAfter f.referenced (NavItem.sources (r.entries trail seen es f).1)).map
        Findings.repeatWarning
  | [], seen, f => by
    rw [entries]
    simp [repeatsAfter]
  | e :: rest, seen, f => by
    have he := entry_warnings trail e (noteLabel trail seen e.label? f)
    have hrest := entries_warnings trail rest (e.label?.toList ++ seen)
      (r.entry trail e (noteLabel trail seen e.label? f)).2
    have hnoted : ∀ p, p ∈ (r.entry trail e (noteLabel trail seen e.label? f)).2.referenced ↔
        p ∈ f.referenced ++
          NavItem.sources (r.entry trail e (noteLabel trail seen e.label? f)).1.toList := by
      intro p
      rw [entry_referenced, noteLabel_referenced, List.mem_append, NavItem.mem_sources]
    rw [noteLabel_warnings, noteLabel_referenced] at he
    rw [repeatsAfter_congr _ hnoted] at hrest
    simp only [entries, hrest, he, NavItem.sources_append, repeatsAfter_append, List.map_append,
      List.append_assoc]

end

end Resolver

/-! ### Items and entries -/

/-- The file that an entry leads to if it is a page without fault. -/
def NavEntry.reached? (source : PageSource) (e : NavEntry) : Option String :=
  if e.fault? source = none then e.target? else none

theorem NavEntry.reached?_eq_some {source : PageSource} {e : NavEntry} {p : String} :
    e.reached? source = some p → ∃ path, normalizePath? path = some p ∧
      Page.isMarkdown p = true ∧ source.holds p = true := by
  intro h
  unfold reached? at h
  split_ifs at h with hfault
  cases e with
  | page title path =>
    obtain ⟨s, hs, hmd, hf⟩ := Resolver.fault?_page_eq_none.mp hfault
    rw [target?, hs] at h
    cases h
    exact ⟨path, hs, hmd, hf⟩
  | link title url => cases h
  | group title children => cases h

namespace Resolver

variable (r : Resolver)

mutual

theorem entry_pages (trail : List String) : ∀ (e : NavEntry) (f : Findings),
    (NavItem.pagesOf (r.entry trail e f).1.toList).map (fun i => i.source) =
      ((e.reached? r.source).toList ++
        (e.spotsBelow trail).filterMap fun s => s.entry.reached? r.source).map some
  | .page title path, f => by
    rw [entry, NavEntry.spotsBelow, NavEntry.reached?]
    cases h : (NavEntry.page title path).fault? r.source with
    | some x => simp [page_of_fault r h, NavItem.pagesOf]
    | none =>
      obtain ⟨s, hs, hmd, hf⟩ := fault?_page_eq_none.mp h
      simp [page_of_target r hs hmd hf, NavEntry.target?, hs, NavItem.pagesOf, NavItem.pages,
        pageItem, NavItem.page]
  | .link title url, f => by
    rw [entry, NavEntry.spotsBelow]
    simp [NavEntry.reached?, NavEntry.target?, NavItem.pagesOf, NavItem.pages, NavItem.link]
  | .group title [], f => by
    rw [entry, NavEntry.spotsBelow, NavEntry.spotsAfter]
    simp [NavEntry.reached?, NavEntry.target?, NavItem.pagesOf]
  | .group title (child :: rest), f => by
    have ih := entries_pages (trail ++ [title]) (child :: rest) [] [] f
    simpa [entry, NavEntry.spotsBelow, NavEntry.reached?, NavEntry.target?, NavItem.pagesOf]
      using ih

/-- The pages that entries become are those of the spots without fault, each
with its file for source. -/
theorem entries_pages (trail : List String) :
    ∀ (es earlier : List NavEntry) (seen : List String) (f : Findings),
    (NavItem.pagesOf (r.entries trail seen es f).1).map (fun i => i.source) =
      ((NavEntry.spotsAfter trail earlier es).filterMap fun s => s.entry.reached? r.source).map some
  | [], earlier, seen, f => by
    rw [entries, NavEntry.spotsAfter]
    rfl
  | e :: rest, earlier, seen, f => by
    have he := entry_pages trail e (noteLabel trail seen e.label? f)
    have hrest := entries_pages trail rest (earlier ++ [e]) (e.label?.toList ++ seen)
      (r.entry trail e (noteLabel trail seen e.label? f)).2
    rw [NavEntry.spotsAfter, entries, NavItem.pagesOf_append, List.map_append, he, hrest,
      List.filterMap_cons]
    cases e.reached? r.source <;> simp

end

end Resolver

namespace Config

variable {c : Config} {source : PageSource} {entries : List NavEntry} {res : Resolution}

/-- The warnings of a declared navigation: one for each page item whose source
an item before it has, in display order. -/
theorem declared_warnings (hnav : c.nav = some entries) (h : c.resolveNav source = .ok res) :
    res.findings.warnings =
      (repeatsAfter [] res.navigation.sources).map Findings.repeatWarning := by
  rw [resolveNav_declared hnav] at h
  cases h
  exact ((c.resolver source).entries_warnings [] entries [] Findings.empty).trans
    (List.nil_append _)

theorem declared_pages (hnav : c.nav = some entries) (h : c.resolveNav source = .ok res) :
    (res.navigation.pages.map fun i => i.source) =
      ((NavEntry.spots entries).filterMap fun s => s.entry.reached? source).map some := by
  rw [resolveNav_declared hnav] at h
  cases h
  exact (c.resolver source).entries_pages [] entries [] [] Findings.empty

theorem sources_eq {n : Navigation} {ps : List String}
    (h : (n.pages.map fun i => i.source) = ps.map some) : n.sources = ps :=
  calc n.sources = (n.pages.map fun i => i.source).filterMap id := by
        rw [List.filterMap_map]
        rfl
    _ = ps := by
        rw [h, List.filterMap_map]
        exact List.filterMap_some

/-- Without a fault, the sources of the navigation are the files that the entries
lead to. -/
theorem declared_sources (hnav : c.nav = some entries) (h : c.resolveNav source = .ok res)
    (hsound : NavEntry.SoundLevel source entries) :
    res.navigation.sources = NavEntry.targets entries := by
  have hreached : ∀ s ∈ NavEntry.spots entries, s.entry.reached? source = s.entry.target? := by
    intro s hs
    have hd := (NavEntry.soundLevel_iff_spots entries).mp hsound s hs
    rw [NavEntry.diagnosis_eq_nil] at hd
    exact if_pos hd.2
  rw [sources_eq (declared_pages hnav h), List.filterMap_congr hreached]
  rfl

/-- Every page item has a source: the file of a declared page, or a page of the
source where the navigation is generated. -/
theorem exists_source (h : c.resolveNav source = .ok res) {item : NavItem}
    (hitem : item ∈ res.navigation.pages) : ∃ p, item.source = some p ∧
      ((∃ path, normalizePath? path = some p ∧ Page.isMarkdown p = true ∧ source.holds p = true) ∨
        c.nav = none ∧ ∃ ps, source.pages = .ok ps ∧ p ∈ ps) := by
  have hmem : item.source ∈ res.navigation.pages.map fun i => i.source :=
    List.mem_map_of_mem hitem
  cases hnav : c.nav with
  | some entries =>
    rw [declared_pages hnav h] at hmem
    obtain ⟨p, hp, hsource⟩ := List.mem_map.mp hmem
    obtain ⟨s, -, hs⟩ := List.mem_filterMap.mp hp
    exact ⟨p, hsource.symm, .inl (NavEntry.reached?_eq_some hs)⟩
  | none =>
    obtain ⟨ps, hps⟩ := pages_ok_of_resolveNav hnav h
    rw [resolveNav_none source hnav hps] at h
    cases h
    have hperm := ((c.resolver source).directoryItems_sources (PageTree.ofPaths ps)
      Findings.empty).trans ((PageTree.ofPaths_paths ps).map some)
    obtain ⟨p, hp, hsource⟩ := List.mem_map.mp (hperm.mem_iff.mp hmem)
    exact ⟨p, hsource.symm, .inr ⟨rfl, ps, hps, hp⟩⟩

end Config
end SitePlan
