/-
# Pages stay below the source directory

A path is looked at twice: as a declaration writes it, by its segments, and by a
directory of pages, by its components. Whatever the first look lets through, the
second does too, and the place that the directory gives for it is that of the
directory followed by names. So every page item of a navigation over a directory
lies below it. What the second look refuses is not there and cannot be read.

Key theorems: `PageDirectory.fullPath_eq_ok`, `PageDirectory.fullPath_components`,
`normalizePath?_eq_some_iff`, `normalizePath?_eq_some`, `Page.steps_ne_nil_of_isMarkdown`,
`PageDirectory.paths_stay_below`.
-/
import SitePlan.Proofs.Files.Components
import SitePlan.Proofs.Nav.Repeats
import SitePlan.Proofs.Page.Listing

namespace SitePlan

/-! ### The look at a declared path -/

/-- A path that a declaration may lead to is what is left of it, and nothing is against that. -/
theorem normalizePath?_eq_some_iff {path p : String} : normalizePath? path = some p ↔
    dropHere (Text.trimChars path.toList) = p.toList ∧
      p.toList ≠ [] ∧ p.toList.head? ≠ some '/' ∧ '\\' ∉ p.toList ∧
      ['.', '.'] ∉ Text.splitAt '/' p.toList := by
  unfold normalizePath?
  simp only
  constructor
  · intro h
    split_ifs at h with hbad
    cases h
    rw [String.toList_ofList]
    exact ⟨rfl, fun h => hbad (.inl h), fun h => hbad (.inr (.inl h)),
      fun h => hbad (.inr (.inr (.inl h))), fun h => hbad (.inr (.inr (.inr h)))⟩
  · rintro ⟨hleft, hne, hroot, hback, hup⟩
    rw [hleft, if_neg (by simp [hne, hroot, hback, hup]), String.ofList_toList]

theorem normalizePath?_eq_some {path p : String} (h : normalizePath? path = some p) :
    p.toList ≠ [] ∧ p.toList.head? ≠ some '/' ∧ '\\' ∉ p.toList ∧
      ['.', '.'] ∉ Text.splitAt '/' p.toList :=
  (normalizePath?_eq_some_iff.mp h).2

/-! ### The look of a directory -/

namespace PageDirectory

/-- The components of a path stay within a directory exactly if the path is
relative and has no `..`. -/
theorem all_staysWithin_iff {p : Path} : p.components.all staysWithin = true ↔
    p.isAbsolute = false ∧ ['.', '.'] ∉ Text.splitAt '/' p.chars := by
  have hsteps : (Path.steps p.chars).all staysWithin = true ↔
      ['.', '.'] ∉ Text.splitAt '/' p.chars := by
    constructor
    · intro h hup
      have hmem : .up ∈ Path.steps p.chars :=
        List.mem_filterMap.mpr ⟨_, hup, Path.ofSegment_eq_up.mpr rfl⟩
      exact Bool.false_ne_true (List.all_eq_true.mp h _ hmem)
    · intro hup
      rw [List.all_eq_true]
      intro x hx
      have hname := Path.isName_of_mem_steps hup x hx
      cases x with
      | name s => rfl
      | root => cases hname
      | here => rfl
      | up => cases hname
  cases habs : p.isAbsolute with
  | true =>
    obtain ⟨rest, hroot, -⟩ := Path.components_absolute habs
    simp [hroot, staysWithin]
  | false =>
    rw [← hsteps]
    rcases Path.components_relative habs with h | ⟨h, -⟩
    · simp [h]
    · simp [h, staysWithin]

variable {d : PageDirectory}

theorem fullPath_eq_ok {path : String} {full : Path} : d.fullPath path = .ok full ↔
    (path ≠ "" ∧ (Path.mk path).isAbsolute = false ∧
      ['.', '.'] ∉ Text.splitAt '/' path.toList) ∧ d.docsDir.join ⟨path⟩ = full := by
  have hall := all_staysWithin_iff (p := ⟨path⟩)
  rw [show (Path.mk path).chars = path.toList from rfl] at hall
  rw [← hall]
  unfold fullPath
  split_ifs with h
  · simp only [false_iff]
    rintro ⟨⟨hne, hwithin⟩, -⟩
    simp [hne, hwithin] at h
  · simp only [Except.ok.injEq]
    refine (and_iff_right ?_).symm
    simpa using h

theorem fullPath_eq_error {path : String} {e : SourceError} (h : d.fullPath path = .error e) :
    e = .invalidPath path := by
  unfold fullPath at h
  split_ifs at h
  cases h
  rfl

/-- The place of a path is that of the directory and the names of the path. -/
theorem fullPath_components {path : String} {full : Path} (hdocs : d.docsDir.text ≠ "")
    (h : d.fullPath path = .ok full) : full.components = d.docsDir.components ++
      (Path.mk path).components.filter Path.Component.isName := by
  obtain ⟨⟨-, hrelative, hup⟩, rfl⟩ := fullPath_eq_ok.mp h
  rw [Path.join_components hdocs hrelative, Path.steps_eq_filter hrelative hup]

theorem holds_of_fullPath {path : String} {full : Path} (h : d.fullPath path = .ok full) :
    d.holds path = d.host.isFile full := by
  unfold holds
  rw [h]

/-- What is refused is not there and cannot be read. -/
theorem source_of_fullPath_error {path : String} {e : SourceError}
    (h : d.fullPath path = .error e) :
    d.source.holds path = false ∧ d.source.read path = .error (.invalidPath path) := by
  have he := fullPath_eq_error h
  constructor
  · show d.holds path = false
    unfold holds
    rw [h]
  · show d.read path = _
    unfold read
    rw [h, he]
    rfl

theorem fullPath_of_normalizePath? {path p : String} (h : normalizePath? path = some p) :
    d.fullPath p = .ok (d.docsDir.join ⟨p⟩) := by
  obtain ⟨hne, hroot, -, hup⟩ := normalizePath?_eq_some h
  refine fullPath_eq_ok.mpr ⟨⟨fun h0 => hne (h0 ▸ rfl), ?_, hup⟩, rfl⟩
  rw [Bool.eq_false_iff]
  intro habs
  exact hroot (eq_of_beq habs)

theorem fullPath_of_named {p : String} (h : Path.Named p.toList) :
    d.fullPath p = .ok (d.docsDir.join ⟨p⟩) :=
  fullPath_eq_ok.mpr
    ⟨⟨Path.Named.text_ne (p := ⟨p⟩) h, Path.Named.relative (p := ⟨p⟩) h, h.not_up⟩, rfl⟩

/-- What is found at a path of names is a file of the directory. -/
theorem find_file_iff {entries : List (String × FileTree)} {p : String} {bytes : ByteArray}
    (hfind : d.host.find d.docsDir = .ok (.directory entries))
    (hdistinct : (FileTree.directory entries).Distinct) (h : Path.Named p.toList) :
    d.host.find (d.docsDir.join ⟨p⟩) = .ok (.file bytes) ↔
      Host.Admits d.docsDir ⟨p⟩ ∧ (Path.namesOf p.toList, bytes) ∈ FileTree.leavesIn entries :=
  Host.find_file_iff hfind hdistinct h

theorem holds_iff {p : String} (h : Path.Named p.toList) :
    d.holds p = true ↔ ∃ bytes, d.host.find (d.docsDir.join ⟨p⟩) = .ok (.file bytes) := by
  rw [holds_of_fullPath (fullPath_of_named h), Host.isFile_iff]

/-- A file that no hidden name leads to is there exactly if its path is within the limits of
the host. -/
theorem holds_leaf_iff {entries : List (String × FileTree)} {l : List String × ByteArray}
    (hfind : d.host.find d.docsDir = .ok (.directory entries))
    (hdistinct : (FileTree.directory entries).Distinct)
    (hnamed : (FileTree.directory entries).WellNamed) (hl : l ∈ FileTree.leavesIn entries)
    (hvisible : ∀ n ∈ l.1, isHidden n = false) :
    d.holds (Page.pathOf l.1) = true ↔ Host.Admits d.docsDir ⟨Page.pathOf l.1⟩ := by
  have hpath := named_of_visible (visible_of_leaf hnamed hl hvisible)
  rw [holds_iff hpath]
  simp only [find_file_iff hfind hdistinct hpath, FileTree.namesOf_leaf hnamed l hl]
  constructor
  · rintro ⟨bytes, hadmits, -⟩
    exact hadmits
  · exact fun hadmits => ⟨l.2, hadmits, hl⟩

theorem fullPath_of_mem_pages {ps : List String} {p : String} (htree : d.host.tree.WellNamed)
    (hps : d.pages = .ok ps) (hp : p ∈ ps) : d.fullPath p = .ok (d.docsDir.join ⟨p⟩) :=
  fullPath_of_named (named_of_visible (segments_of_mem_pages htree hps hp).2)

end PageDirectory

/-- A markdown page has a name: the letters of its ending stand in one. -/
theorem Page.steps_ne_nil_of_isMarkdown {p : String} (h : Page.isMarkdown p = true) :
    Path.steps p.toList ≠ [] := by
  unfold isMarkdown at h
  simp only [Bool.or_eq_true, Text.endsWith_iff] at h
  have hm : 'm' ∈ Text.lowerAscii p.toList := by
    rcases h with h | h
    · exact h.subset (by decide)
    · exact h.subset (by decide)
  obtain ⟨c, hc, hlower⟩ := List.mem_map.mp hm
  have hslash : c ≠ '/' := by
    rintro rfl
    exact absurd hlower (by decide)
  obtain ⟨s, hs, hcs⟩ := Text.exists_piece_of_mem '/' hc hslash
  intro hnil
  have hnone := List.filterMap_eq_nil_iff.mp hnil s hs
  rcases Path.ofSegment_eq_none.mp hnone with rfl | rfl
  · cases hcs
  · rw [List.mem_singleton] at hcs
    subst hcs
    exact absurd hlower (by decide)

namespace PageDirectory

variable {d : PageDirectory}

/-- The place of a markdown page is that of the directory and some names. -/
theorem exists_names {p : String} {full : Path} (hdocs : d.docsDir.text ≠ "")
    (h : d.fullPath p = .ok full) (hmd : Page.isMarkdown p = true) : ∃ names, names ≠ [] ∧
      full.components = d.docsDir.components ++ names.map Path.Component.name := by
  obtain ⟨⟨-, hrelative, hup⟩, rfl⟩ := fullPath_eq_ok.mp h
  refine ⟨_, ?_, Path.join_components_names hdocs hrelative hup⟩
  rw [Ne, List.map_eq_nil_iff]
  exact Page.steps_ne_nil_of_isMarkdown hmd

/-- **Pages stay below the source directory.** A path that a declaration may lead
to is relative and never leads upwards; the directory accepts it and adds only
its names to its own components. Every page item over the directory is a file
lexically below it. What the directory refuses is not there, and reading it
fails for that reason. -/
theorem paths_stay_below (hdocs : d.docsDir.text ≠ "") :
    (∀ path p, normalizePath? path = some p →
      p ≠ "" ∧ p.toList.head? ≠ some '/' ∧ '\\' ∉ p.toList ∧
      ['.', '.'] ∉ Text.splitAt '/' p.toList ∧
      ∃ full, d.fullPath p = .ok full ∧ full.components = d.docsDir.components ++
        (Path.mk p).components.filter Path.Component.isName) ∧
    (∀ (c : Config) (res : Resolution), (c.nav = none → d.host.tree.WellNamed) →
      c.resolveNav d.source = .ok res → ∀ item ∈ res.navigation.pages,
      ∃ p full names, item.source = some p ∧ d.fullPath p = .ok full ∧
        (c.nav ≠ none → d.host.isFile full = true) ∧ names ≠ [] ∧
        full.components = d.docsDir.components ++ names.map Path.Component.name) ∧
    ∀ path e, d.fullPath path = .error e →
      d.source.holds path = false ∧ d.source.read path = .error (.invalidPath path) := by
  refine ⟨fun path p h => ?_, fun c res htree h item hitem => ?_,
    fun path e h => source_of_fullPath_error h⟩
  · obtain ⟨hne, hroot, hback, hup⟩ := normalizePath?_eq_some h
    have hfull := fullPath_of_normalizePath? (d := d) h
    exact ⟨fun h0 => hne (h0 ▸ rfl), hroot, hback, hup, _, hfull, fullPath_components hdocs hfull⟩
  · obtain ⟨p, hsource, hpage⟩ := Config.exists_source h hitem
    -- declared pages went through both looks, listed ones are rows of visible names
    have hplace : d.fullPath p = .ok (d.docsDir.join ⟨p⟩) ∧ Page.isMarkdown p = true ∧
        (c.nav ≠ none → d.host.isFile (d.docsDir.join ⟨p⟩) = true) := by
      rcases hpage with ⟨path, hpath, hmd, hholds⟩ | ⟨hnav, ps, hps, hp⟩
      · have hfull := fullPath_of_normalizePath? (d := d) hpath
        exact ⟨hfull, hmd, fun _ => (holds_of_fullPath hfull).symm.trans hholds⟩
      · exact ⟨fullPath_of_mem_pages (htree hnav) hps hp,
          (segments_of_mem_pages (htree hnav) hps hp).1, fun hne => absurd hnav hne⟩
    obtain ⟨hfull, hmd, hfile⟩ := hplace
    obtain ⟨names, hnames, hcomponents⟩ := exists_names hdocs hfull hmd
    exact ⟨p, _, names, hsource, hfull, hfile, hnames, hcomponents⟩

/-- A host with one page below the directory `docs` of a site. -/
def guideDirectory : PageDirectory where
  host :=
    { tree := .directory [("site", .directory [("docs", .directory
        [("guides", .directory [("a.md", .file ⟨#[]⟩)])])])]
      workingDirectory := ⟨"/site"⟩
      environment := [] }
  docsDir := ⟨"docs"⟩

/-- A declaration of the page of `guideDirectory`, spelled with detours. -/
def guideSite : Config :=
  { (default : Config) with nav := some [.page (some "A") " ././guides//./a.md "] }

/-- The page of `guideSite` is found below `docs`, and paths that lead upwards or
begin at the root are refused. -/
theorem paths_stay_below_guideDirectory :
    guideDirectory.docsDir.text ≠ "" ∧
      (∃ full, normalizePath? " ././guides//./a.md " = some "guides//./a.md" ∧
        guideDirectory.fullPath "guides//./a.md" = .ok full ∧ full.components =
          [.name "docs".toList, .name "guides".toList, .name "a.md".toList]) ∧
      (∃ res, guideSite.resolveNav guideDirectory.source = .ok res ∧
        res.navigation.sources = ["guides//./a.md"] ∧ ∀ item ∈ res.navigation.pages,
        ∃ full, guideDirectory.host.isFile full = true ∧
          [.name "docs".toList] <+: full.components) ∧
      ∀ path ∈ ["guides/../a.md", "/site/docs/guides/a.md"],
        guideDirectory.source.holds path = false ∧
          guideDirectory.source.read path = .error (.invalidPath path) := by
  have hdocs : guideDirectory.docsDir.text ≠ "" := by decide
  obtain ⟨hpaths, hitems, hrefused⟩ := paths_stay_below (d := guideDirectory) hdocs
  have hnormal : normalizePath? " ././guides//./a.md " = some "guides//./a.md" := by decide
  refine ⟨hdocs, ?_, ?_, ?_⟩
  · obtain ⟨-, -, -, -, full, hfull, hcomponents⟩ := hpaths _ _ hnormal
    exact ⟨full, hnormal, hfull, hcomponents.trans (by decide)⟩
  · refine ⟨_, Config.resolveNav_declared rfl, by decide, fun item hitem => ?_⟩
    obtain ⟨p, full, names, -, -, hfile, -, hcomponents⟩ :=
      hitems guideSite _ (fun h => by cases h) (Config.resolveNav_declared rfl) item hitem
    refine ⟨full, hfile (by simp [guideSite]), names.map .name, ?_⟩
    rw [hcomponents]
    rfl
  · simp only [List.forall_mem_cons]
    exact ⟨hrefused _ _ rfl, hrefused _ _ rfl, by simp⟩

end PageDirectory
end SitePlan
