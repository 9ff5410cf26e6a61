/-
# Titles among siblings

An entry whose label stands at an earlier sibling is noted as a fault, but it is not
left out for it: it becomes an item as if its label were new. So two sibling items of
labelled entries have the same title exactly where an entry without another fault
repeats the label of an earlier sibling without another fault, and every such entry is
among the errors. Where no label is noted as repeated, the titles at every level are
distinct.

Key definitions: `NavItem.labelledTitles`, `NavItem.TitlesApart`, `Spot.ShownAgain`.
Key theorems: `NavItem.labelledTitles_of_mirrors`, `NavItem.titlesApart_iff_spots`,
`Spot.shownAgain_mem_errors`, `Config.resolveNav_titlesApart`.
-/
import SitePlan.Proofs.Nav.Mirror
import SitePlan.Proofs.Nav.Verdict

namespace SitePlan

/-- The titles of those among sibling items that come from entries with a label. -/
def NavItem.labelledTitles (source : PageSource) (es : List NavEntry) (items : List NavItem) :
    List String :=
  (((es.filter (NavEntry.isKept source)).zip items).filter fun p => p.1.label?.isSome).map
    fun p => p.2.title

/-- Among the items of siblings, and among those of the children of each group below
them, no two that come from entries with a label have the same title. -/
inductive NavItem.TitlesApart (source : PageSource) : List NavEntry → List NavItem → Prop
  | level {es : List NavEntry} {items : List NavItem} :
      (NavItem.labelledTitles source es items).Nodup →
      (∀ title children item,
        (.group title children, item) ∈ (es.filter (NavEntry.isKept source)).zip items →
        TitlesApart source children item.children) →
      TitlesApart source es items

/-- An entry repeats the label of an earlier sibling, and nothing else keeps either of
them out. -/
def Spot.ShownAgain (source : PageSource) (s : Spot) : Prop :=
  s.entry.isKept source = true ∧
    ∃ l, s.entry.label? = some l ∧ ∃ e ∈ s.earlier, e.isKept source = true ∧ e.label? = some l

/-! ### One level -/

namespace NavItem

variable {r : Resolver}

theorem titlesApart_iff {source : PageSource} {es : List NavEntry} {items : List NavItem} :
    TitlesApart source es items ↔ (labelledTitles source es items).Nodup ∧
      ∀ title children item,
        (.group title children, item) ∈ (es.filter (NavEntry.isKept source)).zip items →
        TitlesApart source children item.children := by
  constructor
  · rintro ⟨htitles, hbelow⟩
    exact ⟨htitles, hbelow⟩
  · exact fun h => .level h.1 h.2

theorem title_of_shows {e : NavEntry} {i : NavItem} (h : Shows r e i) {l : String}
    (hl : e.label? = some l) : i.title = l := by
  cases h <;> cases hl <;> rfl

theorem titles_of_shows : ∀ {es : List NavEntry} {items : List NavItem},
    List.Forall₂ (Shows r) es items →
    ((es.zip items).filter fun p => p.1.label?.isSome).map (fun p => p.2.title) =
      NavEntry.labels es
  | _, _, .nil => rfl
  | e :: es, i :: items, .cons he hes => by
    have ih := titles_of_shows hes
    unfold NavEntry.labels at ih ⊢
    rw [List.zip_cons_cons, List.filter_cons, List.filterMap_cons]
    cases hl : e.label? with
    | none => exact ih
    | some l => exact congrArg₂ List.cons (title_of_shows he hl) ih

/-- The titles of sibling items from entries with a label are the labels of the kept
entries. -/
theorem labelledTitles_of_mirrors {es : List NavEntry} {items : List NavItem}
    (h : Mirrors r es items) : labelledTitles r.source es items =
      NavEntry.labels (es.filter (NavEntry.isKept r.source)) :=
  titles_of_shows h

end NavItem

/-! ### All levels -/

namespace Spot

variable {source : PageSource}

/-- A label is shown again if it repeats that of an earlier sibling in the tree. -/
theorem shownAgain_iff (s : Spot) : s.ShownAgain source ↔ s.entry.isKept source = true ∧
    { s with earlier := s.earlier.filter (NavEntry.isKept source) }.repeated? ≠ none := by
  unfold ShownAgain repeated?
  cases hl : s.entry.label? with
  | none => simp
  | some l => simp [List.mem_filter, and_assoc]

theorem shownAgain_mem_errors (c : Config) {entries : List NavEntry} {s : Spot}
    (hs : s ∈ NavEntry.spots entries) (h : s.ShownAgain source) :
    ∃ l, s.entry.label? = some l ∧ .duplicateLabel l s.place ∈
      ((c.resolver source).entries [] [] entries Findings.empty).2.errors := by
  obtain ⟨-, l, hl, e, he, -, hle⟩ := h
  refine ⟨l, hl, ?_⟩
  have hrepeated : s.repeated? = some (.duplicateLabel l s.place) := by
    unfold repeated?
    rw [hl]
    exact if_pos ⟨e, he, hle⟩
  rw [Config.declared_errors, List.mem_flatMap]
  exact ⟨s, hs, by simp [diagnosis, hrepeated]⟩

end Spot

namespace NavItem

variable {r : Resolver}

theorem spotsBelow_of_fault {e : NavEntry} (h : e.isKept r.source = false) (trail : List String) :
    e.spotsBelow trail = [] := by
  cases e with
  | page title path => rfl
  | link title url => rfl
  | group title children =>
    cases children with
    | nil => rfl
    | cons child rest => cases h

mutual

/-- Below an entry the titles are distinct if no label is shown again there. -/
theorem below_iff_spots (trail : List String) : ∀ (e : NavEntry) (i : NavItem), Shows r e i →
    ((∀ s ∈ e.spotsBelow trail, ¬ s.ShownAgain r.source) ↔
      ∀ title children, e = .group title children → TitlesApart r.source children i.children)
  | .page title path, i, _ => by simp [NavEntry.spotsBelow]
  | .link title url, i, _ => by simp [NavEntry.spotsBelow]
  | .group title children, _, .group _ hitems => by
    have hlevel := level_iff_spots (trail ++ [title]) children [] _ List.nodup_nil hitems
    rw [NavEntry.spotsBelow, hlevel, List.filter_nil, List.nil_append,
      ← labelledTitles_of_mirrors hitems, ← titlesApart_iff]
    simp

/-- The titles of siblings and below them are distinct if no label is shown again.
What carries the induction is that the labels of the earlier siblings in the tree are
distinct. -/
theorem level_iff_spots (trail : List String) : ∀ (es earlier : List NavEntry)
    (items : List NavItem),
    (NavEntry.labels (earlier.filter (NavEntry.isKept r.source))).Nodup → Mirrors r es items →
    ((∀ s ∈ NavEntry.spotsAfter trail earlier es, ¬ s.ShownAgain r.source) ↔
      (NavEntry.labels (earlier.filter (NavEntry.isKept r.source) ++
        es.filter (NavEntry.isKept r.source))).Nodup ∧
      ∀ title children item,
        (.group title children, item) ∈ (es.filter (NavEntry.isKept r.source)).zip items →
        TitlesApart r.source children item.children)
  | [], earlier, items, hearlier, _ => by simpa [NavEntry.spotsAfter] using hearlier
  | e :: rest, earlier, items, hearlier, h => by
    unfold Mirrors at h
    rw [NavEntry.spotsAfter, List.forall_mem_cons, List.forall_mem_append]
    cases hk : e.isKept r.source with
    | false =>
      -- an entry that is left out shows nothing, and nothing is below it
      rw [List.filter_cons_of_neg (by simp [hk])] at h ⊢
      have hnot : ¬ (Spot.mk trail earlier e).ShownAgain r.source := fun hs => by
        have hkept := hs.1
        rw [hk] at hkept
        cases hkept
      have hnext : (earlier ++ [e]).filter (NavEntry.isKept r.source) =
          earlier.filter (NavEntry.isKept r.source) := by
        rw [List.filter_append, List.filter_cons_of_neg (by simp [hk]), List.filter_nil,
          List.append_nil]
      have ih := level_iff_spots trail rest (earlier ++ [e]) items (by rwa [hnext]) h
      rw [hnext] at ih
      rw [and_iff_right hnot, spotsBelow_of_fault hk, ih]
      simp
    | true =>
      rw [List.filter_cons_of_pos hk] at h ⊢
      cases h with
      | @cons _ i _ items he hrest =>
        have hnext : (earlier ++ [e]).filter (NavEntry.isKept r.source) =
            earlier.filter (NavEntry.isKept r.source) ++ [e] := by
          rw [List.filter_append, List.filter_cons_of_pos hk, List.filter_nil]
        have hhead : ¬ (Spot.mk trail earlier e).ShownAgain r.source ↔
            (NavEntry.labels (earlier.filter (NavEntry.isKept r.source) ++ [e])).Nodup := by
          rw [← NavEntry.repeated?_eq_none trail hearlier e, Spot.shownAgain_iff,
            and_iff_right hk, not_not]
        have hbelow := below_iff_spots trail e i he
        rw [hhead, hbelow, List.zip_cons_cons,
          List.append_cons (earlier.filter (NavEntry.isKept r.source)) e
            (rest.filter (NavEntry.isKept r.source))]
        simp only [List.mem_cons, Prod.mk.injEq, or_imp, forall_and]
        by_cases hn : (NavEntry.labels (earlier.filter (NavEntry.isKept r.source) ++ [e])).Nodup
        · rw [and_iff_right hn, level_iff_spots trail rest (earlier ++ [e]) items
            (by rwa [hnext]) hrest, hnext, and_left_comm]
          refine and_congr_right fun _ => and_congr_left fun _ => ?_
          constructor
          · rintro hgroup title children _ ⟨rfl, rfl⟩
            exact hgroup title children rfl
          · rintro hgroup title children rfl
            exact hgroup title children i ⟨rfl, rfl⟩
        · exact iff_of_false (fun hl => hn hl.1)
            fun hr => hn (NavEntry.nodup_labels_of_append hr.1)

end

/-- The titles of a tree are distinct at every level exactly if no label is shown
again. -/
theorem titlesApart_iff_spots {entries : List NavEntry} {items : List NavItem}
    (h : Mirrors r entries items) : TitlesApart r.source entries items ↔
      ∀ s ∈ NavEntry.spots entries, ¬ s.ShownAgain r.source := by
  have hlevel := level_iff_spots [] entries [] items List.nodup_nil h
  rw [List.filter_nil, List.nil_append, ← labelledTitles_of_mirrors h, ← titlesApart_iff] at hlevel
  exact hlevel.symm

end NavItem

/-! ### The declaration -/

namespace Config

variable {c : Config} {entries : List NavEntry}

/-- **Sibling items share a title only where a repeated label is noted and shown all
the same.** The tree that resolving gives, and a check reports, has distinct titles
among the items of labelled siblings at every level exactly if no entry repeats the
label of an earlier sibling while both are without another fault. Every such entry is
noted as a repeated label; so where none is noted, the titles are distinct. -/
theorem resolveNav_titlesApart (source : PageSource) (h : c.nav = some entries) :
    ∃ res, c.resolveNav source = .ok res ∧
      (∀ report, c.check source = .ok report → report.navigation = res.navigation) ∧
      (NavItem.TitlesApart source entries res.navigation.items ↔
        ∀ s ∈ NavEntry.spots entries, ¬ s.ShownAgain source) ∧
      (∀ s ∈ NavEntry.spots entries, s.ShownAgain source →
        ∃ l, s.entry.label? = some l ∧ .duplicateLabel l s.place ∈ res.findings.errors) ∧
      ((∀ l place, .duplicateLabel l place ∉ res.findings.errors) →
        NavItem.TitlesApart source entries res.navigation.items) := by
  have hmirrors : Mirrors (c.resolver source) entries
      ((c.resolver source).entries [] [] entries Findings.empty).1 :=
    Resolver.entries_mirrors [] entries [] Findings.empty
  have hapart := NavItem.titlesApart_iff_spots hmirrors
  refine ⟨_, resolveNav_declared h, fun report hreport => ?_, hapart,
    fun s hs => Spot.shownAgain_mem_errors c hs, fun hnone => hapart.mpr fun s hs hagain => ?_⟩
  · obtain ⟨res, hres, hnavigation, -⟩ := check_eq_ok hreport
    rw [resolveNav_declared h] at hres
    cases hres
    exact hnavigation
  · obtain ⟨l, -, hmem⟩ := Spot.shownAgain_mem_errors c hs hagain
    exact hnone l s.place hmem

/-- A declaration that repeats labels: of an entry that is left out, by one that is
left out, and below another group. -/
def repeatedLabels : List NavEntry :=
  [.page (some "A") "gone.md", .page (some "A") "a.md", .page (some "A") "up/gone.md",
    .group "B" [.page (some "A") "b.md"]]

/-- The tree of `repeatedLabels` has distinct titles, though two labels are noted as
repeated. -/
theorem resolveNav_titlesApart_repeatedLabels :
    { (default : Config) with nav := some repeatedLabels }.nav = some repeatedLabels ∧
      ∃ res, { (default : Config) with nav := some repeatedLabels }.resolveNav
          (MemoryPages.addPages ["a.md", "b.md"] .empty).source = .ok res ∧
        NavItem.TitlesApart (MemoryPages.addPages ["a.md", "b.md"] .empty).source repeatedLabels
          res.navigation.items := by
  obtain ⟨res, hres, -, hapart, -⟩ :=
    resolveNav_titlesApart (MemoryPages.addPages ["a.md", "b.md"] .empty).source
      (show { (default : Config) with nav := some repeatedLabels }.nav = some repeatedLabels
        from rfl)
  refine ⟨rfl, res, hres, hapart.mpr ?_⟩
  have hspots : ∀ s ∈ NavEntry.spots repeatedLabels,
      { s with earlier := s.earlier.filter (NavEntry.isKept
        (MemoryPages.addPages ["a.md", "b.md"] .empty).source) }.repeated? = none ∨
      s.entry.isKept (MemoryPages.addPages ["a.md", "b.md"] .empty).source = false := by
    decide
  intro s hs hagain
  obtain ⟨hkept, hrepeated⟩ := s.shownAgain_iff.mp hagain
  rcases hspots s hs with hnone | hleft
  · exact hrepeated hnone
  · rw [hkept] at hleft
    cases hleft

/-- A page and a link under one label. -/
def twinLabels : List NavEntry := [.page (some "A") "a.md", .link "A" "https://docs"]

/-- The label is noted as repeated, and both entries are in the tree under it. -/
theorem resolveNav_shows_twinLabels :
    ∃ res, { (default : Config) with nav := some twinLabels }.resolveNav
        (MemoryPages.addPages ["a.md"] .empty).source = .ok res ∧
      res.findings.errors = [.duplicateLabel "A" "the top level"] ∧
      res.navigation.titles = ["A", "A"] ∧
      ¬ NavItem.TitlesApart (MemoryPages.addPages ["a.md"] .empty).source twinLabels
        res.navigation.items := by
  refine ⟨_, resolveNav_declared rfl, by decide, by decide, fun h => ?_⟩
  have hnodup := (NavItem.titlesApart_iff.mp h).1
  revert hnodup
  decide

end Config
end SitePlan
