/-
# Pages in memory for those in a directory

A directory of documents is a tree whose names are visible, each once in its
directory, and whose files are texts. Held in memory, every file under the row of
its names with slashes between them, it lists the same pages, and at every path
whose segments are all names there is the same file with the same text. A path
with an empty segment, a `.` or a `..` may lead to a file of the directory, but
in memory there is none at it. So whatever asks for such plain paths only cannot
tell the two sources apart: generated navigations, declared ones, and checks of
local assets.

Key definitions: `FileTree.Documents`, `MemoryPages.ofTree`,
`PageDirectory.Readable`.
Key theorems: `MemoryPages.lookup_ofTree`, `PageDirectory.pages_ofTree`,
`PageDirectory.tellsSame_ofTree`, `PageDirectory.replica_faithful`.
-/
import SitePlan.Page.Memory
import SitePlan.Proofs.Files.Descent
import SitePlan.Proofs.Nav.Agreement
import SitePlan.Proofs.Outcome
import SitePlan.Proofs.Page.Confinement

namespace SitePlan

/-- Files are texts, and names are visible and no two in a directory the same. -/
inductive FileTree.Documents : FileTree → Prop
  | file {bytes : ByteArray} {text : String} : String.fromUTF8? bytes = some text →
      Documents (.file bytes)
  | directory {entries : List (String × FileTree)} : (entries.map Prod.fst).Nodup →
      (∀ e ∈ entries, PageDirectory.IsVisible e.1.toList) → (∀ e ∈ entries, Documents e.2) →
      Documents (.directory entries)

/-- The text of a file. -/
def FileTree.textOf (bytes : ByteArray) : String := (String.fromUTF8? bytes).getD ""

/-- The files of a tree in memory, each under the path that its names make. -/
def MemoryPages.ofTree (node : FileTree) : MemoryPages :=
  node.leaves.foldl (fun m l => m.add (Page.pathOf l.1) (FileTree.textOf l.2)) .empty

/-! ### What is known of documents -/

namespace FileTree

theorem Documents.distinct {node : FileTree} (h : node.Documents) : node.Distinct := by
  induction h with
  | file => exact .file
  | directory hnames _ _ ih => exact .directory hnames ih

theorem Documents.leaf {node : FileTree} (h : node.Documents) : ∀ l ∈ node.leaves,
    (∀ n ∈ l.1, PageDirectory.IsVisible n.toList) ∧ ∃ text, String.fromUTF8? l.2 = some text := by
  induction h with
  | @file bytes text htext =>
    intro l hl
    rw [leaves, List.mem_singleton] at hl
    subst hl
    exact ⟨by simp, text, htext⟩
  | @directory entries _ hvisible _ ih =>
    rintro ⟨names, bytes⟩ hl
    rw [leaves, mem_leavesIn] at hl
    obtain ⟨e, he, rest, rfl, hrest⟩ := hl
    obtain ⟨hnames, htext⟩ := ih e he _ hrest
    exact ⟨List.forall_mem_cons.mpr ⟨hvisible e he, hnames⟩, htext⟩

theorem Documents.wellNamed {node : FileTree} (h : node.Documents) : node.WellNamed := by
  induction h with
  | file => exact .file
  | directory _ hvisible _ ih =>
    refine .directory (fun e he => ?_) ih
    obtain ⟨hne, hslash, -⟩ := hvisible e he
    exact ⟨fun h0 => hne (h0 ▸ rfl), hslash⟩

end FileTree

theorem Page.named_pathOf {names : List String} (hne : names ≠ [])
    (h : ∀ n ∈ names, PageDirectory.IsVisible n.toList) : Path.Named (pathOf names).toList := by
  refine PageDirectory.named_of_visible ?_
  rw [splitAt_pathOf hne fun n hn => (h n hn).2.1, List.forall_mem_map]
  exact h

/-! ### Documents in memory -/

namespace MemoryPages

theorem read_eq_ok_iff {m : MemoryPages} {p text : String} :
    m.read p = .ok text ↔ m.files.lookup p = some text := by
  unfold read
  cases m.files.lookup p <;> simp

variable {entries : List (String × FileTree)}

/-- What is held in memory for a tree, in the order of the tree. -/
def rowsOf (node : FileTree) : List (String × String) :=
  node.leaves.map fun l => (Page.pathOf l.1, FileTree.textOf l.2)

theorem files_ofTree (node : FileTree) : (ofTree node).files =
    (rowsOf node).foldl (fun l e => Text.insertSorted e.1 e.2 l) [] := by
  have hfold : ∀ (ls : List (List String × ByteArray)) (m : MemoryPages),
      (ls.foldl (fun m l => m.add (Page.pathOf l.1) (FileTree.textOf l.2)) m).files =
        (ls.map fun l => (Page.pathOf l.1, FileTree.textOf l.2)).foldl
          (fun l e => Text.insertSorted e.1 e.2 l) m.files := by
    intro ls
    induction ls with
    | nil => exact fun _ => rfl
    | cons l ls ih => exact fun m => ih _
  exact hfold node.leaves .empty

theorem sorted_ofTree (node : FileTree) :
    (ofTree node).files.Pairwise fun a b => a.1 < b.1 := by
  rw [files_ofTree]
  exact Text.foldl_insertSorted_sorted _ .nil

theorem rowsOf_keys (node : FileTree) :
    (rowsOf node).map Prod.fst = node.leaves.map fun l => Page.pathOf l.1 := by
  unfold rowsOf
  rw [List.map_map]
  rfl

theorem rowsOf_keys_nodup (h : (FileTree.directory entries).Documents) :
    ((rowsOf (.directory entries)).map Prod.fst).Nodup := by
  rw [rowsOf_keys]
  exact FileTree.paths_nodup h.wellNamed h.distinct

theorem files_ofTree_perm (h : (FileTree.directory entries).Documents) :
    (ofTree (.directory entries)).files.Perm (rowsOf (.directory entries)) := by
  have hkeys : ((rowsOf (.directory entries) ++ []).map Prod.fst).Nodup := by
    rw [List.append_nil]
    exact rowsOf_keys_nodup h
  have hperm := Text.foldl_insertSorted_perm hkeys
  rwa [List.append_nil, ← files_ofTree] at hperm

/-- At a path is the text of the file with the names of the path. -/
theorem lookup_ofTree (h : (FileTree.directory entries).Documents) {p text : String} :
    (ofTree (.directory entries)).files.lookup p = some text ↔
      ∃ bytes, (Path.namesOf p.toList, bytes) ∈ FileTree.leavesIn entries ∧
        FileTree.textOf bytes = text := by
  have hperm := files_ofTree_perm h
  have hkeys := (hperm.map Prod.fst).nodup_iff.mpr (rowsOf_keys_nodup h)
  rw [lookup_eq_some_iff_mem hkeys, hperm.mem_iff]
  constructor
  · intro hmem
    obtain ⟨l, hl, heq⟩ := List.mem_map.mp hmem
    obtain ⟨rfl, rfl⟩ := Prod.mk.inj heq
    rw [FileTree.namesOf_leaf h.wellNamed l hl]
    exact ⟨l.2, hl, rfl⟩
  · rintro ⟨bytes, hl, rfl⟩
    refine List.mem_map.mpr ⟨_, hl, ?_⟩
    rw [Page.pathOf_namesOf]

end MemoryPages

/-! ### The two sources -/

namespace PageDirectory

open FileTree (leaves leavesIn)

variable {d : PageDirectory} {entries : List (String × FileTree)}

/-- Every file and directory among the entries of the directory is within the
limits of the host. -/
structure Readable (d : PageDirectory) (entries : List (String × FileTree)) : Prop where
  files : ∀ l ∈ leavesIn entries, Host.Admits d.docsDir ⟨Page.pathOf l.1⟩
  directories : tooFarIn d.docsDir entries = none

theorem read_eq_ok_iff {p text : String} {full : Path} (h : d.fullPath p = .ok full) :
    d.read p = .ok text ↔ d.host.readText full = .ok text := by
  unfold read
  simp only [h, bind, Except.bind]
  cases d.host.readText full with
  | ok text' => simp
  | error e => cases e <;> simp

section Agreement

variable (hfind : d.host.find d.docsDir = .ok (.directory entries))
  (htree : (FileTree.directory entries).Documents)

include hfind htree

theorem pages_ofTree (hnear : tooFarIn d.docsDir entries = none) :
    d.pages = .ok (MemoryPages.ofTree (.directory entries)).pages := by
  have hlisted : (leavesIn entries).filter isListed = leavesIn entries := by
    refine List.filter_eq_self.mpr fun l hl => List.all_eq_true.mpr fun n hn => ?_
    have hvisible := isHidden_eq_false.mpr ((htree.leaf l hl).1 n hn).2.2
    rw [hvisible]
    rfl
  have hperm : (pagesIn "" entries).Perm (MemoryPages.ofTree (.directory entries)).pages := by
    have hkeys := (MemoryPages.files_ofTree_perm htree).map Prod.fst
    rw [MemoryPages.rowsOf_keys] at hkeys
    rw [pagesIn_eq entries "", hlisted]
    simp only [String.empty_append]
    exact (hkeys.filter Page.isMarkdown).symm
  have hsorted : (MemoryPages.ofTree (.directory entries)).pages.Pairwise (· < ·) :=
    (List.pairwise_map.mpr (MemoryPages.sorted_ofTree _)).filter _
  rw [pages_of_near hfind hnear]
  exact congrArg Except.ok (Text.mergeSort_eq_of_perm hperm hsorted)

/-- The two sources tell the same of every path of names. -/
theorem tellsSame_ofTree (hreadable : d.Readable entries) {p : String}
    (hp : Path.Named p.toList) :
    d.source.TellsSame (MemoryPages.ofTree (.directory entries)).source p := by
  have hfile : ∀ bytes, d.host.find (d.docsDir.join ⟨p⟩) = .ok (.file bytes) ↔
      (Path.namesOf p.toList, bytes) ∈ leavesIn entries := by
    intro bytes
    rw [find_file_iff hfind htree.distinct hp]
    refine and_iff_right_of_imp fun hmem => ?_
    have hadmitted := hreadable.files _ hmem
    rwa [Page.pathOf_namesOf] at hadmitted
  have hlookup : ∀ text, (MemoryPages.ofTree (.directory entries)).files.lookup p = some text ↔
      ∃ bytes, (Path.namesOf p.toList, bytes) ∈ leavesIn entries ∧
        FileTree.textOf bytes = text := fun _ => MemoryPages.lookup_ofTree htree
  constructor
  · show d.holds p = ((MemoryPages.ofTree (.directory entries)).files.lookup p).isSome
    rw [Bool.eq_iff_iff, holds_iff hp, Option.isSome_iff_exists]
    simp only [hfile, hlookup]
    constructor
    · rintro ⟨bytes, hmem⟩
      exact ⟨_, bytes, hmem, rfl⟩
    · rintro ⟨text, bytes, hmem, -⟩
      exact ⟨bytes, hmem⟩
  · refine Option.ext fun text => ?_
    rw [Outcome.toOption_eq_some, Outcome.toOption_eq_some]
    show d.read p = .ok text ↔ (MemoryPages.ofTree (.directory entries)).read p = .ok text
    rw [read_eq_ok_iff (fullPath_of_named hp), Host.readText_eq_ok_iff,
      MemoryPages.read_eq_ok_iff, hlookup]
    refine exists_congr fun bytes => ?_
    rw [hfile]
    refine and_congr_right fun hmem => ?_
    obtain ⟨text', htext⟩ := (htree.leaf _ hmem).2
    rw [FileTree.textOf, htext, Option.some.injEq, Option.getD_some]

end Agreement

/-- **Pages in memory are faithful.** Over a directory of documents that can all be
read, the same files in memory have the same pages and, at
every path of names, tell the same: whether there is a file, and its text. So a
site resolves alike over both if its declaration, where it has one, leads to
paths of names, and a check reports alike if local assets have such paths too. -/
theorem replica_faithful (hfind : d.host.find d.docsDir = .ok (.directory entries))
    (htree : (FileTree.directory entries).Documents) (hreadable : d.Readable entries) :
    d.source.pages = (MemoryPages.ofTree (.directory entries)).source.pages ∧
      (∀ p, Path.Named p.toList →
        d.source.holds p = (MemoryPages.ofTree (.directory entries)).source.holds p ∧
          (d.source.read p).toOption =
            ((MemoryPages.ofTree (.directory entries)).source.read p).toOption) ∧
      ∀ c : Config, (∀ es, c.nav = some es → ∀ p ∈ NavEntry.targets es, Path.Named p.toList) →
        c.resolveNav d.source = c.resolveNav (MemoryPages.ofTree (.directory entries)).source ∧
          ((∀ path ∈ c.extraJavascript.map Script.path ++ c.extraCss, isExternal path = false →
              Path.Named (dropHere path.toList)) →
            c.check d.source = c.check (MemoryPages.ofTree (.directory entries)).source) := by
  have hpages := pages_ofTree hfind htree hreadable.directories
  have hsame : ∀ p, Path.Named p.toList →
      d.source.TellsSame (MemoryPages.ofTree (.directory entries)).source p :=
    fun p hp => tellsSame_ofTree hfind htree hreadable hp
  have hagrees : d.source.AgreesWhere (fun p => Path.Named p.toList)
      (MemoryPages.ofTree (.directory entries)).source := ⟨hpages, hsame⟩
  -- the pages are files of the tree
  have hlisted : ∀ p ∈ (MemoryPages.ofTree (.directory entries)).pages, Path.Named p.toList := by
    intro p hp
    obtain ⟨row, hrow, rfl⟩ := List.mem_map.mp (List.mem_filter.mp hp).1
    obtain ⟨l, hl, rfl⟩ := List.mem_map.mp ((MemoryPages.files_ofTree_perm htree).mem_iff.mp hrow)
    exact Page.named_pathOf (FileTree.ne_nil_of_mem_leavesIn l hl) (htree.leaf l hl).1
  refine ⟨hpages, fun p hp => ⟨(hsame p hp).holds, (hsame p hp).text⟩, fun c hnav => ?_⟩
  have hasks : c.AsksOnly (fun p => Path.Named p.toList)
      (MemoryPages.ofTree (.directory entries)).source := by
    refine ⟨hnav, fun _ ps hps p hp => hlisted p ?_⟩
    cases hps
    exact hp
  refine ⟨Config.resolveNav_congr hagrees hasks, fun hassets => ?_⟩
  refine Config.check_congr hagrees hasks fun path hpath hexternal => ?_
  rw [String.toList_ofList]
  exact hassets path hpath hexternal

/-- A directory of two pages, one of them in a subdirectory, and a style sheet. -/
def handbook : List (String × FileTree) :=
  [("index.md", .file "# Handbook\n".toUTF8), ("theme.css", .file ⟨#[]⟩),
    ("guides", .directory [("a.md", .file "Text".toUTF8)])]

/-- A host with `handbook` below `docs` of a site. -/
def handbookDirectory : PageDirectory where
  host :=
    { tree := .directory [("site", .directory [("docs", .directory handbook)])]
      workingDirectory := ⟨"/site"⟩
      environment := [] }
  docsDir := ⟨"./docs/"⟩

/-- A site with a page of the handbook, one that is missing, and two style
sheets, one of them elsewhere. -/
def handbookSite : Config :=
  { (default : Config) with
    nav := some [.group "Guides" [.page none "./guides/a.md", .page none "guides/gone.md"]]
    extraCss := ["./theme.css", "//cdn.example/../base.css"] }

theorem handbook_documents : (FileTree.directory handbook).Documents := by
  have hguides : (FileTree.directory [("a.md", .file "Text".toUTF8)]).Documents :=
    .directory (by decide) (by decide)
      (List.forall_mem_singleton.mpr (.file (show String.fromUTF8? _ = some "Text" by decide)))
  refine .directory (by decide) (by decide) (List.forall_mem_cons.mpr ⟨?_, ?_⟩)
  · exact .file (show String.fromUTF8? _ = some "# Handbook\n" by decide)
  · refine List.forall_mem_cons.mpr ⟨?_, List.forall_mem_singleton.mpr hguides⟩
    exact .file (show String.fromUTF8? _ = some "" by decide)

/-- A site with the handbook resolves and checks over the directory as it does
over its files in memory. -/
theorem replica_faithful_handbook :
    handbookDirectory.host.find handbookDirectory.docsDir = .ok (.directory handbook) ∧
      (FileTree.directory handbook).Documents ∧
      handbookDirectory.Readable handbook ∧
      handbookDirectory.source.pages.toOption = some ["guides/a.md", "index.md"] ∧
      (handbookDirectory.source.read "index.md").toOption = some "# Handbook\n" ∧
      (∀ es, handbookSite.nav = some es → ∀ p ∈ NavEntry.targets es, Path.Named p.toList) ∧
      handbookSite.check handbookDirectory.source =
        handbookSite.check (MemoryPages.ofTree (.directory handbook)).source := by
  have hfind : handbookDirectory.host.find handbookDirectory.docsDir =
      .ok (.directory handbook) := rfl
  have hreadable : handbookDirectory.Readable handbook := by
    have hall : ∀ l ∈ leavesIn handbook,
        '\x00' ∉ (handbookDirectory.docsDir.join ⟨Page.pathOf l.1⟩).chars ∧
          (handbookDirectory.docsDir.join ⟨Page.pathOf l.1⟩).text.utf8ByteSize ≤
            Host.maxPathBytes ∧
          ∀ s ∈ Text.splitAt '/' (Path.mk (Page.pathOf l.1)).chars,
            (String.ofList s).utf8ByteSize ≤ 255 := by decide
    exact ⟨fun l hl => ⟨(hall l hl).1, (hall l hl).2.1, (hall l hl).2.2⟩, by decide⟩
  obtain ⟨hpages, hfiles, hsites⟩ := replica_faithful hfind handbook_documents hreadable
  have htargets : ∀ es, handbookSite.nav = some es → ∀ p ∈ NavEntry.targets es,
      Path.Named p.toList := by
    intro es hes
    cases hes
    decide
  refine ⟨hfind, handbook_documents, hreadable, ?_, ?_, htargets, ?_⟩
  · rw [hpages]
    decide
  · rw [(hfiles "index.md" (by decide)).2]
    decide
  · exact (hsites handbookSite htargets).2 (by decide)

end PageDirectory
end SitePlan
