/-
# Sources that cannot be told apart

Resolving and checking ask a source for its pages, whether it holds a file, and
for a text to find a title in. So sources with the same pages that tell the same
of every file that is asked for give the same navigation and the same report.
Asked for are the files that a declaration leads to, or the listed pages where
there is none, and local scripts and style sheets.

Key definitions: `PageSource.AgreesWhere`, `Config.AsksOnly`.
Key theorems: `Resolver.directoryItems_congr`, `Config.resolveNav_congr`,
`Config.check_congr`.
-/
import SitePlan.Proofs.Nav.Acceptance
import SitePlan.Proofs.Nav.Generated
import SitePlan.Nav.Check

namespace SitePlan

/-- Two sources have the same pages and tell the same of all files with paths of
some kind. -/
structure PageSource.AgreesWhere (kind : String → Prop) (other source : PageSource) : Prop where
  pages : other.pages = source.pages
  files : ∀ p, kind p → other.TellsSame source p

namespace Resolver

variable (r : Resolver) {other : PageSource}

theorem pageItem_congr (title : Option String) {p : String} (h : other.TellsSame r.source p) :
    { r with source := other }.pageItem title p = r.pageItem title p := by
  unfold pageItem
  rw [r.pageTitle_congr h.text]

mutual

theorem directoryItems_congr : ∀ (t : PageTree) (f : Findings),
    (∀ p ∈ t.paths, other.TellsSame r.source p) →
    { r with source := other }.directoryItems t f = r.directoryItems t f
  | ⟨files, directories⟩, f, h => by
    rw [PageTree.paths, List.forall_mem_append] at h
    obtain ⟨hfiles, hdirectories⟩ := h
    have hpages : (sortPages files).map ({ r with source := other }.pageItem none) =
        (sortPages files).map (r.pageItem none) :=
      List.map_congr_left fun p hp =>
        r.pageItem_congr none (hfiles p ((sortPages_perm files).mem_iff.mp hp))
    rw [directoryItems, directoryItems, hpages, groupItems_congr directories _ hdirectories]

theorem groupItems_congr : ∀ (ds : List (String × PageTree)) (f : Findings),
    (∀ p ∈ PageTree.pathsIn ds, other.TellsSame r.source p) →
    { r with source := other }.groupItems ds f = r.groupItems ds f
  | [], f, _ => by
    rw [groupItems, groupItems]
  | (name, t) :: rest, f, h => by
    rw [PageTree.pathsIn, List.forall_mem_append] at h
    rw [groupItems_cons, groupItems_cons, directoryItems_congr t f h.1,
      groupItems_congr rest _ h.2]

end

end Resolver

namespace Config

variable {c : Config} {source other : PageSource} {kind : String → Prop}

/-- The navigation of a site asks only for files with paths of some kind. -/
structure AsksOnly (kind : String → Prop) (c : Config) (source : PageSource) : Prop where
  declared : ∀ entries, c.nav = some entries → ∀ p ∈ NavEntry.targets entries, kind p
  listed : c.nav = none → ∀ ps, source.pages = .ok ps → ∀ p ∈ ps, kind p

/-- The navigation of a site is the same for sources that agree on what it asks
for. -/
theorem resolveNav_congr (h : other.AgreesWhere kind source) (hasks : c.AsksOnly kind source) :
    c.resolveNav other = c.resolveNav source := by
  cases hnav : c.nav with
  | some entries =>
    have hspots : ∀ s ∈ NavEntry.spots entries, ∀ p, s.entry.target? = some p →
        other.TellsSame source p := by
      intro s hs p hp
      exact h.files p (hasks.declared entries hnav p (List.mem_filterMap.mpr ⟨s, hs, hp⟩))
    have hentries : (c.resolver other).entries [] [] entries Findings.empty =
        (c.resolver source).entries [] [] entries Findings.empty :=
      (c.resolver source).entries_congr_tells [] entries [] [] Findings.empty hspots
    rw [resolveNav_declared hnav, resolveNav_declared hnav, hentries]
  | none =>
    have hpages := h.pages
    cases hps : source.pages with
    | error e =>
      rw [hps] at hpages
      have hfails : ∀ s : PageSource, s.pages = .error e → (c.resolver s).generate = .error e := by
        intro s hs
        unfold Resolver.generate
        rw [show (c.resolver s).source.pages = .error e from hs]
        rfl
      unfold resolveNav
      rw [hnav, hfails source hps, hfails other hpages]
    | ok ps =>
      rw [hps] at hpages
      have hpaths : ∀ p ∈ (PageTree.ofPaths ps).paths, other.TellsSame source p := by
        intro p hp
        exact h.files p (hasks.listed hnav ps hps p ((PageTree.ofPaths_paths ps).mem_iff.mp hp))
      have hitems : (c.resolver other).directoryItems (PageTree.ofPaths ps) Findings.empty =
          (c.resolver source).directoryItems (PageTree.ofPaths ps) Findings.empty :=
        (c.resolver source).directoryItems_congr _ _ hpaths
      rw [resolveNav_none other hnav hpages, resolveNav_none source hnav hps, hitems]

theorem orphans_congr (h : other.pages = source.pages) (referenced : List String) :
    c.orphans other referenced = c.orphans source referenced := by
  unfold orphans
  rw [h]

theorem assetWarning?_congr (field : String) {path : String}
    (h : isExternal path = false → other.holds (String.ofList (dropHere path.toList)) =
      source.holds (String.ofList (dropHere path.toList))) :
    assetWarning? other field path = assetWarning? source field path := by
  unfold assetWarning?
  cases hexternal : isExternal path with
  | true => rfl
  | false => rw [h hexternal]

/-- The report on a site is the same for sources that agree on what the
navigation asks for and on the local assets. -/
theorem check_congr (h : other.AgreesWhere kind source) (hasks : c.AsksOnly kind source)
    (hassets : ∀ path ∈ c.extraJavascript.map Script.path ++ c.extraCss,
      isExternal path = false → kind (String.ofList (dropHere path.toList))) :
    c.check other = c.check source := by
  have hholds : ∀ path ∈ c.extraJavascript.map Script.path ++ c.extraCss, ∀ field,
      assetWarning? other field path = assetWarning? source field path :=
    fun path hpath field => assetWarning?_congr field fun hexternal =>
      (h.files _ (hassets path hpath hexternal)).holds
  have hwarnings : c.assetWarnings other = c.assetWarnings source := by
    rw [List.forall_mem_append, List.forall_mem_map] at hholds
    unfold assetWarnings
    rw [List.filterMap_congr fun s hs => hholds.1 s hs "extra_javascript",
      List.filterMap_congr fun path hpath => hholds.2 path hpath "extra_css"]
  unfold check
  simp only [resolveNav_congr h hasks, orphans_congr h.pages, hwarnings]

end Config
end SitePlan
