/-
# Which spellings of a file are told to be the same

Over a directory of pages, two paths name the same file if the places that the
directory gives for them have the same components. A declared navigation and a
check compare paths as they are spelled. On plain spelling, without empty and
`.` segments, that comes to the same, and listed pages are spelled plainly. So
a page item spelled plainly gives a warning exactly if a plainly spelled item
before it names its file, and a listed page is an orphan exactly if no plainly
spelled item names its file. An item with a detour in its path counts for
another file.

Key definitions: `PageDirectory.place`.
Key theorems: `PageDirectory.place_injective`, `Config.mem_orphans_iff`,
`Config.check_spelling`.
-/
import SitePlan.Proofs.Nav.Verdict
import SitePlan.Proofs.Page.Confinement

namespace SitePlan

/-! ### Plain spelling names one file -/

namespace PageDirectory

variable {d : PageDirectory}

/-- The components of the place of a path below the directory. -/
def place (d : PageDirectory) (p : String) : List Path.Component :=
  (d.docsDir.join ⟨p⟩).components

theorem place_of_plain {p : String} (hp : Path.Plain p.toList) :
    d.place p = d.docsDir.components ++ Path.steps p.toList :=
  Path.join_components_of_plain d.docsDir (p := ⟨p⟩) hp

/-- Plainly spelled paths of one file are the same. -/
theorem place_injective {p q : String} (hp : Path.Plain p.toList) (hq : Path.Plain q.toList)
    (h : d.place p = d.place q) : p = q := by
  rw [place_of_plain hp, place_of_plain hq] at h
  have hsteps : Path.steps p.toList = Path.steps q.toList := List.append_cancel_left h
  exact String.toList_inj.mp (Path.steps_injective hp hq hsteps)

theorem plain_of_mem_pages {ps : List String} {p : String} (htree : d.host.tree.WellNamed)
    (hps : d.pages = .ok ps) (hp : p ∈ ps) : Path.Plain p.toList := by
  intro s hs
  obtain ⟨hne, -, hpoint⟩ := (segments_of_mem_pages htree hps hp).2 s hs
  refine ⟨hne, ?_⟩
  rintro rfl
  exact hpoint rfl

/-- Among paths, a plainly spelled one stands exactly if one of its plainly
spelled namesakes does. -/
theorem mem_iff_place {q : String} (hq : Path.Plain q.toList) (ps : List String) :
    q ∈ ps ↔ ∃ p ∈ ps, Path.Plain p.toList ∧ d.place p = d.place q := by
  constructor
  · exact fun h => ⟨q, h, hq, rfl⟩
  · rintro ⟨p, hmem, hp, hplace⟩
    rw [← place_injective hp hq hplace]
    exact hmem

end PageDirectory

namespace Config

variable {c : Config} {source : PageSource} {ps : List String} {entries : List NavEntry}

/-- An orphan is a listed page that no item has for its source. -/
theorem mem_orphans_iff {report : CheckReport} (hps : source.pages = .ok ps)
    (h : c.check source = .ok report) {p : String} (hp : p ∈ ps) :
    p ∈ report.orphans ↔ p ∉ report.navigation.sources := by
  obtain ⟨res, hres, hnavigation, -, -, horphans⟩ := check_eq_ok h
  rw [orphans_eq hps hres] at horphans
  rw [← Except.ok.inj horphans, List.mem_filter, decide_eq_true_eq, and_iff_right hp, hnavigation]
  exact not_congr NavItem.mem_sources.symm

/-- **Spelling decides.** A check over a directory warns of a plainly spelled
item, in its turn, exactly if a plainly spelled item before it names its file;
and a listed page is an orphan exactly if every item that names its file takes a
detour. -/
theorem check_spelling {d : PageDirectory} (hnav : c.nav = some entries)
    (htree : d.host.tree.WellNamed) (hps : d.pages = .ok ps) :
    ∃ report, c.check d.source = .ok report ∧
      report.warnings = c.warnings ++
        (repeatsAfter [] report.navigation.sources).map Findings.repeatWarning ++
        c.assetWarnings d.source ∧
      (∀ before q after, report.navigation.sources = before ++ q :: after →
        Path.Plain q.toList → repeatsAfter [] report.navigation.sources =
          repeatsAfter [] before ++
            (if ∃ p ∈ before, Path.Plain p.toList ∧ d.place p = d.place q then [q] else []) ++
            repeatsAfter (before ++ [q]) after) ∧
      ∀ l ∈ ps, l ∈ report.orphans ↔
        ∀ p ∈ report.navigation.sources, d.place p = d.place l → ¬ Path.Plain p.toList := by
  have hpages : d.source.pages = .ok ps := hps
  obtain ⟨report, hreport⟩ := c.check_ok hpages
  obtain ⟨res, hres, hnavigation, -, hwarnings, -⟩ := check_eq_ok hreport
  refine ⟨report, hreport, ?_, fun before q after hsources hq => ?_, fun l hl => ?_⟩
  · rw [hwarnings, declared_warnings hnav hres, hnavigation]
  · have hmem := PageDirectory.mem_iff_place (d := d) hq before
    rw [hsources, repeatsAfter_append, List.nil_append, repeatsAfter, List.append_assoc]
    simp only [hmem]
  · have hplain := PageDirectory.plain_of_mem_pages htree hps hl
    rw [mem_orphans_iff hpages hreport hl, PageDirectory.mem_iff_place (d := d) hplain]
    constructor
    · exact fun h p hp hplace hpl => h ⟨p, hp, hpl, hplace⟩
    · rintro h ⟨p, hp, hpl, hplace⟩
      exact h p hp hplace hpl

/-- A directory `docs` with the pages `b/c.md` and `guides/a.md`. -/
def twoPages : PageDirectory where
  host :=
    { tree := .directory [("docs", .directory
        [("b", .directory [("c.md", .file ⟨#[]⟩)]),
          ("guides", .directory [("a.md", .file ⟨#[]⟩)])])]
      workingDirectory := ⟨"/"⟩
      environment := [] }
  docsDir := ⟨"docs"⟩

theorem twoPages_wellNamed : twoPages.host.tree.WellNamed := by
  refine .directory (by decide) (List.forall_mem_singleton.mpr ?_)
  refine .directory (by decide) (List.forall_mem_cons.mpr ⟨?_, List.forall_mem_singleton.mpr ?_⟩)
  · exact .directory (by decide) (List.forall_mem_singleton.mpr .file)
  · exact .directory (by decide) (List.forall_mem_singleton.mpr .file)

theorem twoPages_pages : twoPages.pages = .ok ["b/c.md", "guides/a.md"] := by
  have hfound : PageDirectory.pagesIn "" [("b", .directory [("c.md", .file ⟨#[]⟩)]),
      ("guides", .directory [("a.md", .file ⟨#[]⟩)])] = ["b/c.md", "guides/a.md"] := by decide
  show Except.ok (List.mergeSort (PageDirectory.pagesIn "" _) _) = _
  rw [hfound]
  exact congrArg Except.ok (List.mergeSort_of_pairwise (by decide))

/-- A declaration that names the first file with a detour and then plainly, the
second with a detour, and then `more`. -/
def detourSite (more : List NavEntry) : Config :=
  { (default : Config) with
    nav := some
      ([.page (some "One") "guides//a.md", .page (some "Two") "guides/a.md",
        .page (some "Three") "b/./c.md"] ++ more) }

/-- With `./guides/a.md` in a group, the last of four items is warned of, since
the second names its file plainly; the second file is an orphan. -/
theorem check_spelling_detourSite :
    twoPages.host.tree.WellNamed ∧
      twoPages.pages.toOption = some ["b/c.md", "guides/a.md"] ∧
      ∃ report, (detourSite [.group "More" [.page (some "Four") "./guides/a.md"]]).check
          twoPages.source = .ok report ∧
        report.navigation.sources = ["guides//a.md", "guides/a.md", "b/./c.md", "guides/a.md"] ∧
        report.warnings = ["page `guides/a.md` is listed in nav more than once"] ∧
        "b/c.md" ∈ report.orphans ∧ "guides/a.md" ∉ report.orphans := by
  obtain ⟨report, hreport, hwarnings, hitems, horphans⟩ :=
    check_spelling (c := detourSite [.group "More" [.page (some "Four") "./guides/a.md"]]) rfl
      twoPages_wellNamed twoPages_pages
  have hsources : report.navigation.sources =
      ["guides//a.md", "guides/a.md", "b/./c.md", "guides/a.md"] := by
    obtain ⟨res, hres, hnavigation, -⟩ := check_eq_ok hreport
    rw [resolveNav_declared rfl] at hres
    cases hres
    rw [hnavigation]
    decide
  have hlast := hitems ["guides//a.md", "guides/a.md", "b/./c.md"] "guides/a.md" [] hsources
    (by decide)
  rw [if_pos (by decide)] at hlast
  refine ⟨twoPages_wellNamed, by rw [twoPages_pages]; rfl, report, hreport, hsources, ?_, ?_, ?_⟩
  · rw [hwarnings, hlast]
    decide
  · rw [horphans _ (by simp), hsources]
    decide
  · rw [horphans _ (by simp), hsources]
    decide

/-- A check neither warns of a file that is named a second time nor knows a file
that is named, if a detour is in its path. -/
theorem check_misses_detours :
    twoPages.place "guides//a.md" = twoPages.place "guides/a.md" ∧
      twoPages.place "b/./c.md" = twoPages.place "b/c.md" ∧
      ∃ report, (detourSite []).check twoPages.source = .ok report ∧ report.errors = [] ∧
        report.navigation.sources = ["guides//a.md", "guides/a.md", "b/./c.md"] ∧
        report.warnings = [] ∧ report.orphans = ["b/c.md"] := by
  refine ⟨by decide, by decide, ?_⟩
  have hpages : twoPages.source.pages = .ok ["b/c.md", "guides/a.md"] := twoPages_pages
  obtain ⟨report, hreport⟩ := (detourSite []).check_ok hpages
  obtain ⟨res, hres, hnavigation, herrors, hwarnings, horphans⟩ := check_eq_ok hreport
  rw [orphans_eq hpages hres] at horphans
  rw [resolveNav_declared rfl] at hres
  cases hres
  refine ⟨report, hreport, ?_, ?_, ?_, ?_⟩
  · rw [herrors]
    decide
  · rw [hnavigation]
    decide
  · rw [hwarnings]
    decide
  · rw [← Except.ok.inj horphans]
    decide

end Config
end SitePlan
