/-
# When a site passes its check

A check passes if the navigation has no fault, and in strict mode if besides
there is no warning. Warnings come from loading, from pages that are listed
again and from local scripts and style sheets that are not there. So strict
success says that a declared navigation is sound and lists no file twice, that
loading gave no warning, and that every asset is external or there. Which pages
the source lists besides has no part in it.

Key definitions: `Config.SoundNav`, `Config.AssetsThere`.
Key theorems: `Config.check_eq_ok`, `Config.resolveNav_errors_eq_nil`,
`Config.resolveNav_warnings_eq_nil`, `Config.exists_verdict`,
`Config.check_isOk_iff`.
-/
import SitePlan.Proofs.Nav.Repeats
import SitePlan.Proofs.Outcome

namespace SitePlan

theorem CheckReport.isOk_iff {report : CheckReport} {strict : Bool} :
    report.isOk strict = true ↔
      report.errors = [] ∧ (strict = true → report.warnings = []) := by
  cases strict <;> simp [isOk]

/-- Whether a declaration is sound depends on which files there are only. -/
theorem NavEntry.soundLevel_congr {source other : PageSource} (h : other.holds = source.holds)
    (entries : List NavEntry) : SoundLevel other entries ↔ SoundLevel source entries := by
  have hfault : ∀ e : NavEntry, e.fault? other = e.fault? source := by
    intro e
    cases e with
    | page title path => simp only [fault?, h]
    | link title url => rfl
    | group title children => cases children <;> rfl
  rw [soundLevel_iff_spots, soundLevel_iff_spots]
  simp only [Spot.diagnosis, hfault]

namespace Config

variable {c : Config} {source : PageSource} {ps : List String} {res : Resolution}

/-- The navigation is generated, or its declaration is sound. -/
def SoundNav (c : Config) (source : PageSource) : Prop :=
  ∀ entries ∈ c.nav, NavEntry.SoundLevel source entries

/-- No two pages of the declaration lead to one file. -/
def DistinctTargets (c : Config) : Prop :=
  ∀ entries ∈ c.nav, (NavEntry.targets entries).Nodup

/-- Every script and style sheet is external or there. -/
def AssetsThere (c : Config) (source : PageSource) : Prop :=
  ∀ path ∈ c.extraJavascript.map Script.path ++ c.extraCss,
    isExternal path = true ∨ source.holds (String.ofList (dropHere path.toList)) = true

/-! ### What a check reports -/

theorem check_eq_ok {report : CheckReport} (h : c.check source = .ok report) :
    ∃ res, c.resolveNav source = .ok res ∧ report.navigation = res.navigation ∧
      report.errors = res.findings.errors ∧
      report.warnings = c.warnings ++ res.findings.warnings ++ c.assetWarnings source ∧
      c.orphans source res.findings.referenced = .ok report.orphans := by
  unfold check at h
  obtain ⟨res, hres, h⟩ := Outcome.bind_eq_ok.mp h
  obtain ⟨orphans, horphans, h⟩ := Outcome.bind_eq_ok.mp h
  cases h
  exact ⟨res, hres, rfl, rfl, rfl, horphans⟩

theorem check_ok (c : Config) (hps : source.pages = .ok ps) :
    ∃ report, c.check source = .ok report := by
  obtain ⟨res, hres⟩ := resolveNav_ok (c := c) hps
  exact ⟨_, Outcome.bind_eq_ok.mpr ⟨res, hres,
    Outcome.bind_eq_ok.mpr ⟨_, orphans_eq hps hres, rfl⟩⟩⟩

/-! ### Faults and warnings, source by source -/

/-- Resolving a generated navigation finds pages and nothing else. -/
theorem generated_findings (hnav : c.nav = none) (h : c.resolveNav source = .ok res) :
    res.findings.errors = [] ∧ res.findings.warnings = [] := by
  obtain ⟨ps, hps⟩ := pages_ok_of_resolveNav hnav h
  rw [resolveNav_none source hnav hps] at h
  cases h
  have hvisited := (c.resolver source).directoryItems_visited (PageTree.ofPaths ps) Findings.empty
  exact ⟨hvisited.errors, hvisited.warnings⟩

/-- Resolving finds no fault exactly if the navigation is sound. -/
theorem resolveNav_errors_eq_nil (h : c.resolveNav source = .ok res) :
    res.findings.errors = [] ↔ c.SoundNav source := by
  unfold SoundNav
  cases hnav : c.nav with
  | none => simp [(generated_findings hnav h).1]
  | some entries =>
    rw [resolveNav_declared hnav] at h
    cases h
    rw [declared_errors, List.flatMap_eq_nil_iff, ← NavEntry.soundLevel_iff_spots]
    simp

/-- A sound navigation gives no warning exactly if no file is listed twice. -/
theorem resolveNav_warnings_eq_nil (h : c.resolveNav source = .ok res)
    (hsound : c.SoundNav source) : res.findings.warnings = [] ↔ c.DistinctTargets := by
  unfold DistinctTargets
  cases hnav : c.nav with
  | none => simp [(generated_findings hnav h).2]
  | some entries =>
    have hlevel := hsound entries hnav
    rw [declared_warnings hnav h, List.map_eq_nil_iff, repeatsAfter_eq_nil,
      declared_sources hnav h hlevel]
    simp

theorem assetWarning?_eq_none {field path : String} : assetWarning? source field path = none ↔
    isExternal path = true ∨ source.holds (String.ofList (dropHere path.toList)) = true := by
  unfold assetWarning?
  split_ifs with hext hthere <;> simp_all

theorem assetWarnings_eq_nil : c.assetWarnings source = [] ↔ c.AssetsThere source := by
  unfold assetWarnings AssetsThere
  simp only [List.append_eq_nil_iff, List.filterMap_eq_nil_iff, assetWarning?_eq_none,
    List.forall_mem_append, List.forall_mem_map]

/-! ### The verdict -/

theorem exists_verdict (c : Config) (hps : source.pages = .ok ps) :
    ∃ report, c.check source = .ok report ∧
      (report.isOk true = true ↔
        c.warnings = [] ∧ c.SoundNav source ∧ c.DistinctTargets ∧ c.AssetsThere source) ∧
      (report.isOk false = true ↔ c.SoundNav source) := by
  obtain ⟨report, hreport⟩ := c.check_ok hps
  obtain ⟨res, hres, -, herrors, hwarnings, -⟩ := check_eq_ok hreport
  have hsound := resolveNav_errors_eq_nil hres
  refine ⟨report, hreport, ?_, ?_⟩
  · rw [CheckReport.isOk_iff, herrors, hwarnings, hsound, List.append_eq_nil_iff,
      List.append_eq_nil_iff, assetWarnings_eq_nil]
    constructor
    · rintro ⟨hs, hw⟩
      obtain ⟨⟨hc, hr⟩, ha⟩ := hw rfl
      exact ⟨hc, hs, (resolveNav_warnings_eq_nil hres hs).mp hr, ha⟩
    · rintro ⟨hc, hs, hd, ha⟩
      exact ⟨hs, fun _ => ⟨⟨hc, (resolveNav_warnings_eq_nil hres hs).mpr hd⟩, ha⟩⟩
  · rw [CheckReport.isOk_iff, herrors, hsound]
    simp

/-- **Success of a check.** Where pages can be listed, a check passes exactly if
the navigation is sound; in strict mode there must also be no warning from
loading, no file that is listed twice, and no local asset missing. Two sources
with the same files give the same verdict, whichever pages they list. -/
theorem check_isOk_iff (c : Config) (hps : source.pages = .ok ps) :
    ∃ report, c.check source = .ok report ∧
      (report.isOk true = true ↔ c.warnings = [] ∧ c.SoundNav source ∧ c.DistinctTargets ∧
        c.AssetsThere source) ∧
      (report.isOk false = true ↔ c.SoundNav source) ∧
      ∀ (other : PageSource) (qs : List String), other.pages = .ok qs →
        other.holds = source.holds →
        ∃ report', c.check other = .ok report' ∧
          ∀ strict, report'.isOk strict = report.isOk strict := by
  obtain ⟨report, hreport, hstrict, hlenient⟩ := c.exists_verdict hps
  refine ⟨report, hreport, hstrict, hlenient, fun other qs hqs hholds => ?_⟩
  obtain ⟨report', hreport', hstrict', hlenient'⟩ := c.exists_verdict hqs
  have hsame : c.SoundNav other ↔ c.SoundNav source :=
    forall₂_congr fun entries _ => NavEntry.soundLevel_congr hholds entries
  refine ⟨report', hreport', fun strict => ?_⟩
  cases strict with
  | false => rw [Bool.eq_iff_iff, hlenient', hlenient, hsame]
  | true =>
    rw [Bool.eq_iff_iff, hstrict', hstrict, hsame]
    unfold AssetsThere
    rw [hholds]

/-- A site with two pages, the second one in a group, and a style sheet. -/
def pairedSite (second : String) : Config :=
  { (default : Config) with
    nav := some
      [.page (some "First") "a.md",
        .group "More" [.page none second, .link "First" "//first.example"]]
    extraCss := ["././site.css", "https://cdn.example/x.css"] }

/-- The files for `pairedSite`, and a page that it does not list. -/
def pairedPages : MemoryPages :=
  (MemoryPages.addPages ["draft.md", "b.md", "a.md"] .empty).add "site.css" ""

/-- A site passes in strict mode with two pages, and no longer if the second is
the first one spelled otherwise. -/
theorem check_isOk_pairedSite :
    pairedPages.source.pages.toOption = some ["a.md", "b.md", "draft.md"] ∧
      (∃ report, (pairedSite "b.md").check pairedPages.source = .ok report ∧
        report.isOk true = true) ∧
      ∃ report, (pairedSite "./a.md").check pairedPages.source = .ok report ∧
        report.isOk false = true ∧ report.isOk true = false := by
  have hps : pairedPages.source.pages = .ok ["a.md", "b.md", "draft.md"] :=
    congrArg Except.ok (by decide)
  have hassets : ∀ second, (pairedSite second).AssetsThere pairedPages.source := by
    intro second
    have h : ∀ path ∈ ["././site.css", "https://cdn.example/x.css"], isExternal path = true ∨
        pairedPages.source.holds (String.ofList (dropHere path.toList)) = true := by decide
    exact h
  obtain ⟨paired, hpaired, hstrict, -, -⟩ := check_isOk_iff (pairedSite "b.md") hps
  obtain ⟨twice, htwice, hstrict', hlenient', -⟩ := check_isOk_iff (pairedSite "./a.md") hps
  refine ⟨by rw [hps]; rfl, ⟨paired, hpaired, hstrict.mpr ⟨rfl, ?_, ?_, hassets _⟩⟩,
    twice, htwice, hlenient'.mpr ?_, ?_⟩
  · rintro entries ⟨⟩
    decide
  · rintro entries ⟨⟩
    decide
  · rintro entries ⟨⟩
    decide
  · rw [Bool.eq_false_iff, Ne, hstrict']
    rintro ⟨-, -, hdistinct, -⟩
    exact absurd (hdistinct _ rfl) (by decide)

end Config
end SitePlan
