/-
# A listing does not depend on enumeration

A directory gives its entries in some order, and so does every directory below it. Two
trees that differ in these orders only have the same files at the end of the same names.
The listing of a directory holds the paths of the markdown files that no hidden name leads
to, in the order of their octets; a directory is never listed, whatever it is called, but
what is below it is. So the listing is the same in whichever order entries are enumerated,
and where every file can be opened, each listed page is there.

Key definitions: `FileTree.Reordered`.
Key theorems: `FileTree.Reordered.descend?`, `FileTree.WellNamed.descend?`,
`PageDirectory.mem_pages_iff`, `PageDirectory.pages_sorted`, `PageDirectory.pages_reordered`,
`PageDirectory.pages_exact`.
-/
import SitePlan.Proofs.Page.Replica
import SitePlan.Proofs.Text.Octets

namespace SitePlan

namespace FileTree

/-- The tree with the entries of each directory in another order. -/
inductive Reordered : FileTree → FileTree → Prop
  | file {bytes : ByteArray} : Reordered (.file bytes) (.file bytes)
  | directory {entries entries' : List (String × FileTree)} :
      (entries.map Prod.fst).Perm (entries'.map Prod.fst) →
      (∀ name node node', (name, node) ∈ entries → (name, node') ∈ entries' →
        Reordered node node') →
      Reordered (.directory entries) (.directory entries')

/-! ### Trees in another order -/

section

variable {tree tree' : FileTree}

theorem Reordered.symm (h : tree.Reordered tree') : tree'.Reordered tree := by
  induction h with
  | file => exact .file
  | directory hnames _ ih =>
    exact .directory hnames.symm fun name node node' hnode hnode' => ih name node' node hnode' hnode

/-- An entry stands for one of the same name in the other order. -/
theorem Reordered.exists_entry {entries entries' : List (String × FileTree)}
    (h : (FileTree.directory entries).Reordered (.directory entries')) {name : String}
    {node : FileTree} (hnode : (name, node) ∈ entries) :
    ∃ node', (name, node') ∈ entries' ∧ node.Reordered node' := by
  cases h with
  | directory hnames hnodes =>
    have hname : name ∈ entries'.map Prod.fst :=
      hnames.mem_iff.mp (List.mem_map.mpr ⟨(name, node), hnode, rfl⟩)
    obtain ⟨⟨name', node'⟩, hnode', rfl⟩ := List.mem_map.mp hname
    exact ⟨node', hnode', hnodes name' node node' hnode hnode'⟩

theorem Reordered.distinct (h : tree.Reordered tree') (hdistinct : tree.Distinct) :
    tree'.Distinct := by
  induction h with
  | file => exact .file
  | @directory entries entries' hnames hnodes ih =>
    cases hdistinct with
    | directory hnodup hbelow =>
      refine .directory (hnames.nodup_iff.mp hnodup) fun e he => ?_
      obtain ⟨node, hnode, -⟩ := (Reordered.directory hnames hnodes).symm.exists_entry he
      exact ih e.1 node e.2 hnode he (hbelow _ hnode)

theorem Reordered.wellNamed (h : tree.Reordered tree') (hnamed : tree.WellNamed) :
    tree'.WellNamed := by
  induction h with
  | file => exact .file
  | @directory entries entries' hnames hnodes ih =>
    cases hnamed with
    | directory hentries hbelow =>
      have hback := (Reordered.directory hnames hnodes).symm
      refine .directory (fun e he => ?_) fun e he => ?_
      · obtain ⟨node, hnode, -⟩ := hback.exists_entry he
        exact hentries (e.1, node) hnode
      · obtain ⟨node, hnode, -⟩ := hback.exists_entry he
        exact ih e.1 node e.2 hnode he (hbelow _ hnode)

theorem Reordered.descend? (h : tree.Reordered tree') (hdistinct : tree.Distinct) :
    ∀ {names : List String} {node : FileTree}, tree.descend? names = some node →
      ∃ node', tree'.descend? names = some node' ∧ node.Reordered node' := by
  intro names
  induction names generalizing tree tree' with
  | nil =>
    intro node hnode
    cases hnode
    exact ⟨tree', rfl, h⟩
  | cons name rest ih =>
    intro node hnode
    have hentries := h
    cases h with
    | file => cases hnode
    | @directory entries entries' hnames hnodes =>
      have hdistinct' := hentries.distinct hdistinct
      cases hdistinct with
      | directory hnodup hbelow =>
        cases hdistinct' with
        | directory hnodup' _ =>
          obtain ⟨next, hnext, hrest⟩ := Option.bind_eq_some_iff.mp hnode
          have hmem := (lookup_eq_some_iff_mem hnodup).mp hnext
          obtain ⟨next', hmem', hreordered⟩ := hentries.exists_entry hmem
          obtain ⟨node', hnode', hsame⟩ := ih hreordered (hbelow _ hmem) hrest
          have hnext' : entries'.lookup name = some next' :=
            (lookup_eq_some_iff_mem hnodup').mpr hmem'
          exact ⟨node', Option.bind_eq_some_iff.mpr ⟨next', hnext', hnode'⟩, hsame⟩

/-- Names lead to the same files in either order. -/
theorem Reordered.descend?_file_iff (h : tree.Reordered tree') (hdistinct : tree.Distinct)
    {names : List String} {bytes : ByteArray} :
    tree'.descend? names = some (.file bytes) ↔ tree.descend? names = some (.file bytes) := by
  constructor
  · intro hfile
    obtain ⟨node, hnode, hsame⟩ := h.symm.descend? (h.distinct hdistinct) hfile
    cases hsame
    exact hnode
  · intro hfile
    obtain ⟨node, hnode, hsame⟩ := h.descend? hdistinct hfile
    cases hsame
    exact hnode

/-- Names that lead somewhere are texts without a slash. -/
theorem WellNamed.descend? (h : tree.WellNamed) : ∀ {names : List String} {node : FileTree},
    tree.descend? names = some node → ∀ n ∈ names, n ≠ "" ∧ '/' ∉ n.toList := by
  intro names
  induction names generalizing tree with
  | nil => exact fun _ n hn => absurd hn List.not_mem_nil
  | cons name rest ih =>
    intro node hnode
    cases h with
    | file => cases hnode
    | @directory entries hentries hbelow =>
      obtain ⟨next, hnext, hrest⟩ := Option.bind_eq_some_iff.mp hnode
      obtain ⟨before, after, heq, -⟩ := List.lookup_eq_some_iff.mp hnext
      have hmem : (name, next) ∈ entries := by
        rw [heq]
        exact List.mem_append_right before List.mem_cons_self
      exact List.forall_mem_cons.mpr ⟨hentries _ hmem, ih (hbelow _ hmem) hrest⟩

theorem descend?_append (more : List String) : ∀ (names : List String) (node : FileTree),
    node.descend? (names ++ more) = (node.descend? names).bind (FileTree.descend? more)
  | [], _ => rfl
  | name :: rest, node => by
    rw [List.cons_append, FileTree.descend?, FileTree.descend?]
    cases hnext : node.entry? name with
    | none => rfl
    | some next => exact descend?_append more rest next

end

end FileTree

namespace PageDirectory

open FileTree (leaves leavesIn)

variable {d : PageDirectory} {entries entries' : List (String × FileTree)}

/-! ### What is listed -/

theorem tooFarAt_directory {full : Path} : tooFarAt full (.directory entries) = none ↔
    full.text.utf8ByteSize ≤ Host.maxPathBytes ∧ tooFarIn full entries = none := by
  rw [tooFarAt]
  by_cases hlong : Host.maxPathBytes < full.text.utf8ByteSize
  · simp [hlong, Nat.not_le.mpr hlong]
  · simp [hlong, Nat.not_lt.mp hlong]

theorem tooFarIn_eq_none {dir : Path} : ∀ {entries : List (String × FileTree)},
    tooFarIn dir entries = none ↔
      ∀ e ∈ entries, isHidden e.1 = false → tooFarAt (dir.join ⟨e.1⟩) e.2 = none
  | [] => by simp [tooFarIn]
  | (name, node) :: rest => by
    have ih : tooFarIn dir rest = none ↔
        ∀ e ∈ rest, isHidden e.1 = false → tooFarAt (dir.join ⟨e.1⟩) e.2 = none := tooFarIn_eq_none
    rw [tooFarIn, Option.or_eq_none_iff, ih, List.forall_mem_cons]
    cases isHidden name <;> simp

/-- Directories that can be opened can be opened in any order. -/
theorem tooFarAt_reordered {node node' : FileTree} (h : node.Reordered node') :
    ∀ {full : Path}, tooFarAt full node = none → tooFarAt full node' = none := by
  induction h with
  | file => exact id
  | @directory entries entries' hnames hnodes ih =>
    intro full hnear
    rw [tooFarAt_directory, tooFarIn_eq_none] at hnear ⊢
    refine ⟨hnear.1, fun e he hvisible => ?_⟩
    have hback := (FileTree.Reordered.directory hnames hnodes).symm
    obtain ⟨node, hnode, -⟩ := hback.exists_entry he
    exact ih e.1 node e.2 hnode he (hnear.2 _ hnode hvisible)

theorem tooFarIn_reordered (h : (FileTree.directory entries).Reordered (.directory entries'))
    {dir : Path} (hnear : tooFarIn dir entries = none) : tooFarIn dir entries' = none := by
  rw [tooFarIn_eq_none] at hnear ⊢
  intro e he hvisible
  obtain ⟨node, hnode, hback⟩ := h.symm.exists_entry he
  exact tooFarAt_reordered hback.symm (hnear _ hnode hvisible)

section Listing

variable {ps : List String} (hfind : d.host.find d.docsDir = .ok (.directory entries))
  (hdistinct : (FileTree.directory entries).Distinct) (hps : d.pages = .ok ps)

include hfind hps

theorem pages_perm : ps.Perm ((((leavesIn entries).filter isListed).map
    fun l => Page.pathOf l.1).filter Page.isMarkdown) := by
  obtain ⟨entries', hfind', hperm⟩ := pages_eq_ok hps
  cases hfind.symm.trans hfind'
  exact hperm

include hdistinct

/-- The listed paths are those of the markdown files that no hidden name leads to. -/
theorem mem_pages_iff {p : String} : p ∈ ps ↔ Page.isMarkdown p = true ∧
    ∃ names bytes, (FileTree.directory entries).descend? names = some (.file bytes) ∧
      p = Page.pathOf names ∧ ∀ n ∈ names, n.toList.head? ≠ some '.' := by
  have hvisible : ∀ l : List String × ByteArray, isListed l = true ↔
      ∀ n ∈ l.1, n.toList.head? ≠ some '.' := by
    intro l
    simp only [isListed, List.all_eq_true, Bool.not_eq_true', isHidden_eq_false]
  have hfile : ∀ names bytes, (names, bytes) ∈ leavesIn entries ↔
      (FileTree.directory entries).descend? names = some (.file bytes) := fun names bytes =>
    FileTree.mem_leaves_iff hdistinct
  rw [(pages_perm hfind hps).mem_iff, List.mem_filter, List.mem_map, and_comm]
  refine and_congr_right fun _ => ?_
  constructor
  · rintro ⟨l, hl, rfl⟩
    obtain ⟨hmem, hlisted⟩ := List.mem_filter.mp hl
    exact ⟨l.1, l.2, (hfile l.1 l.2).mp hmem, rfl, (hvisible l).mp hlisted⟩
  · rintro ⟨names, bytes, hmem, rfl, hnames⟩
    exact ⟨(names, bytes),
      List.mem_filter.mpr ⟨(hfile names bytes).mpr hmem, (hvisible _).mpr hnames⟩, rfl⟩

variable (hnamed : (FileTree.directory entries).WellNamed)

include hnamed

theorem pages_sorted : ps.Pairwise (· < ·) := by
  have hpages := hps
  unfold pages at hpages
  rw [hfind] at hpages
  simp only at hpages
  split at hpages
  · cases hpages
  · cases hpages
    refine Text.mergeSort_sorted ?_
    have hnodup := (FileTree.paths_nodup hnamed hdistinct).sublist
      (List.filter_sublist (p := isListed).map _)
    have hlisting := pagesIn_eq entries ""
    simp only [String.empty_append] at hlisting
    rw [hlisting]
    exact hnodup.filter _

/-- A listed path is there if it is within the limits of the host. -/
theorem holds_of_mem_pages (hreadable : d.Readable entries) {p : String} (hp : p ∈ ps) :
    d.holds p = true := by
  obtain ⟨hmem, -⟩ := List.mem_filter.mp ((pages_perm hfind hps).mem_iff.mp hp)
  obtain ⟨l, hl, rfl⟩ := List.mem_map.mp hmem
  obtain ⟨hl, hlisted⟩ := List.mem_filter.mp hl
  have hvisible : ∀ n ∈ l.1, isHidden n = false := fun n hn => by
    simpa using List.all_eq_true.mp hlisted n hn
  exact (holds_leaf_iff hfind hdistinct hnamed hl hvisible).mpr (hreadable.files l hl)

theorem directory_not_mem_pages {names : List String} {children : List (String × FileTree)}
    (hnode : (FileTree.directory entries).descend? names = some (.directory children)) :
    Page.pathOf names ∉ ps := by
  intro hp
  obtain ⟨hmd, names', bytes, hfile, hpath, -⟩ := (mem_pages_iff hfind hdistinct hps).mp hp
  have hne : names ≠ [] := by
    rintro rfl
    exact absurd hmd (by decide)
  have hne' : names' ≠ [] := by
    rintro rfl
    cases hfile
  -- a path tells its names, and these lead to one place
  have hnames : names = names' := by
    rw [← Page.namesOf_pathOf hne fun n hn => (hnamed.descend? hnode n hn).2,
      ← Page.namesOf_pathOf hne' fun n hn => (hnamed.descend? hfile n hn).2, hpath]
  rw [hnames, hfile] at hnode
  cases hnode

end Listing

/-- A directory that can be listed can be listed, and all its files opened, in any order of
enumeration. -/
theorem Readable.reordered {d' : PageDirectory} (hdocs : d'.docsDir = d.docsDir)
    (h : (FileTree.directory entries).Reordered (.directory entries'))
    (hdistinct : (FileTree.directory entries).Distinct) (hreadable : d.Readable entries) :
    d'.Readable entries' := by
  constructor
  · rintro ⟨names, bytes⟩ hl
    have hl' := (FileTree.mem_leaves_iff (h.distinct hdistinct)).mp hl
    have hleaf := (FileTree.mem_leaves_iff hdistinct).mpr ((h.descend?_file_iff hdistinct).mp hl')
    rw [hdocs]
    exact hreadable.files _ hleaf
  · rw [hdocs]
    exact tooFarIn_reordered h hreadable.directories

theorem exists_pages (hfind : d.host.find d.docsDir = .ok (.directory entries))
    (hreadable : d.Readable entries) : ∃ ps, d.pages = .ok ps :=
  ⟨_, pages_of_near hfind hreadable.directories⟩

/-- The listing is the same in any order of enumeration. -/
theorem pages_reordered {d' : PageDirectory} {ps ps' : List String}
    (hfind : d.host.find d.docsDir = .ok (.directory entries))
    (hfind' : d'.host.find d'.docsDir = .ok (.directory entries'))
    (h : (FileTree.directory entries).Reordered (.directory entries'))
    (hdistinct : (FileTree.directory entries).Distinct)
    (hnamed : (FileTree.directory entries).WellNamed) (hps : d.pages = .ok ps)
    (hps' : d'.pages = .ok ps') : ps' = ps := by
  have hdistinct' := h.distinct hdistinct
  refine Text.eq_of_sorted (pages_sorted hfind' hdistinct' hps' (h.wellNamed hnamed))
    (pages_sorted hfind hdistinct hps hnamed) fun p => ?_
  rw [mem_pages_iff hfind' hdistinct' hps', mem_pages_iff hfind hdistinct hps]
  simp only [h.descend?_file_iff hdistinct]

/-- **A listing is exact, whatever the order of enumeration.** Of a directory whose files
can all be opened it has, in strictly increasing order of their octets, the paths of the
markdown files that no hidden name leads to, and no others. Each of them is there. A
directory is not listed, whatever its name, but what is below it is. A directory of pages
with the same entries in other orders has the same listing. -/
theorem pages_exact (hfind : d.host.find d.docsDir = .ok (.directory entries))
    (hdistinct : (FileTree.directory entries).Distinct)
    (hnamed : (FileTree.directory entries).WellNamed) (hreadable : d.Readable entries) :
    ∃ ps, d.pages = .ok ps ∧ (ps.Pairwise fun p q => Text.octets p < Text.octets q) ∧
      (∀ p, p ∈ ps ↔ Page.isMarkdown p = true ∧
        ∃ names bytes, (FileTree.directory entries).descend? names = some (.file bytes) ∧
          p = Page.pathOf names ∧ ∀ n ∈ names, n.toList.head? ≠ some '.') ∧
      (∀ p ∈ ps, d.holds p = true) ∧
      (∀ names children,
        (FileTree.directory entries).descend? names = some (.directory children) →
        Page.pathOf names ∉ ps ∧ ∀ more bytes,
          (FileTree.directory children).descend? more = some (.file bytes) →
          (∀ n ∈ names ++ more, n.toList.head? ≠ some '.') →
          Page.isMarkdown (Page.pathOf (names ++ more)) = true →
          Page.pathOf (names ++ more) ∈ ps) ∧
      ∀ (d' : PageDirectory) (entries' : List (String × FileTree)), d'.docsDir = d.docsDir →
        d'.host.find d'.docsDir = .ok (.directory entries') →
        (FileTree.directory entries).Reordered (.directory entries') →
        d'.pages = .ok ps ∧ ∀ p ∈ ps, d'.holds p = true := by
  obtain ⟨ps, hps⟩ := exists_pages hfind hreadable
  have hmem : ∀ p, p ∈ ps ↔ _ := fun p => mem_pages_iff hfind hdistinct hps
  refine ⟨ps, hps, ?_, hmem, fun p hp => ?_, fun names children hnode => ⟨?_, ?_⟩, ?_⟩
  · exact (pages_sorted hfind hdistinct hps hnamed).imp Text.octets_lt_iff.mpr
  · exact holds_of_mem_pages hfind hdistinct hps hnamed hreadable hp
  · exact directory_not_mem_pages hfind hdistinct hps hnamed hnode
  · intro more bytes hfile hvisible hmd
    have hwhole : (FileTree.directory entries).descend? (names ++ more) = some (.file bytes) := by
      rw [FileTree.descend?_append, hnode, Option.bind_some, hfile]
    exact (hmem _).mpr ⟨hmd, names ++ more, bytes, hwhole, rfl, hvisible⟩
  · intro d' entries' hdocs hfind' hreordered
    have hreadable' := Readable.reordered hdocs hreordered hdistinct hreadable
    obtain ⟨ps', hps'⟩ := exists_pages hfind' hreadable'
    have hsame := pages_reordered hfind hfind' hreordered hdistinct hnamed hps hps'
    subst hsame
    exact ⟨hps', fun p hp => holds_of_mem_pages hfind' (hreordered.distinct hdistinct) hps'
      (hreordered.wellNamed hnamed) hreadable' hp⟩

/-- A directory of one page. -/
def leaflet : FileTree := .directory [("b.md", .file ⟨#[]⟩)]

/-- A page between directories, of which one is hidden and one is called like a page. -/
def shelf : List (String × FileTree) :=
  [("a-b.md", .file ⟨#[]⟩), ("a", leaflet), (".git", leaflet), ("notes.md", leaflet)]

/-- The same entries in another order. -/
def shuffledShelf : List (String × FileTree) :=
  [("notes.md", leaflet), ("a", leaflet), ("a-b.md", .file ⟨#[]⟩), (".git", leaflet)]

/-- A directory of pages with the given entries. -/
def shelfDirectory (entries : List (String × FileTree)) : PageDirectory where
  host := { tree := .directory [("docs", .directory entries)], workingDirectory := ⟨"/"⟩
            environment := [] }
  docsDir := ⟨"docs"⟩

theorem shelf_distinct : (FileTree.directory shelf).Distinct := by
  have hleaflet : leaflet.Distinct := .directory (by decide) (List.forall_mem_singleton.mpr .file)
  exact .directory (by decide) (by simp [shelf, hleaflet, FileTree.Distinct.file])

theorem shelf_wellNamed : (FileTree.directory shelf).WellNamed := by
  have hleaflet : leaflet.WellNamed := .directory (by decide) (List.forall_mem_singleton.mpr .file)
  exact .directory (by decide) (by simp [shelf, hleaflet, FileTree.WellNamed.file])

theorem shelf_reordered : (FileTree.directory shelf).Reordered (.directory shuffledShelf) := by
  have hleaflet : leaflet.Reordered leaflet := by
    refine .directory (.refl _) fun name node node' h h' => ?_
    cases List.mem_singleton.mp h
    cases List.mem_singleton.mp h'
    exact .file
  refine .directory (by decide) fun name node node' h h' => ?_
  simp only [shelf, shuffledShelf, List.mem_cons, List.not_mem_nil, or_false,
    Prod.mk.injEq] at h h'
  rcases h with ⟨rfl, rfl⟩ | ⟨rfl, rfl⟩ | ⟨rfl, rfl⟩ | ⟨rfl, rfl⟩ <;>
    rcases h' with ⟨hname, rfl⟩ | ⟨hname, rfl⟩ | ⟨hname, rfl⟩ | ⟨hname, rfl⟩ <;>
    first | exact hleaflet | exact .file | exact absurd hname (by decide)

theorem shelf_readable : (shelfDirectory shelf).Readable shelf := by
  have hall : ∀ l ∈ leavesIn shelf,
      '\x00' ∉ ((shelfDirectory shelf).docsDir.join ⟨Page.pathOf l.1⟩).chars ∧
        ((shelfDirectory shelf).docsDir.join ⟨Page.pathOf l.1⟩).text.utf8ByteSize ≤
          Host.maxPathBytes ∧
        ∀ s ∈ Text.splitAt '/' (Path.mk (Page.pathOf l.1)).chars,
          (String.ofList s).utf8ByteSize ≤ 255 := by decide
  exact ⟨fun l hl => ⟨(hall l hl).1, (hall l hl).2.1, (hall l hl).2.2⟩, by decide⟩

/-- The shelf has three pages, in the order of their paths and not in that of the entries of
one directory after the other, and the same ones when it is shuffled. -/
theorem pages_exact_shelf :
    (shelfDirectory shelf).host.find (shelfDirectory shelf).docsDir = .ok (.directory shelf) ∧
      (FileTree.directory shelf).Distinct ∧ (FileTree.directory shelf).WellNamed ∧
      (shelfDirectory shelf).Readable shelf ∧
      (FileTree.directory shelf).Reordered (.directory shuffledShelf) ∧
      (shelfDirectory shelf).pages = .ok ["a-b.md", "a/b.md", "notes.md/b.md"] ∧
      (shelfDirectory shuffledShelf).pages = .ok ["a-b.md", "a/b.md", "notes.md/b.md"] ∧
      (shelfDirectory shuffledShelf).holds "notes.md/b.md" = true := by
  have hfind : (shelfDirectory shelf).host.find (shelfDirectory shelf).docsDir =
      .ok (.directory shelf) := rfl
  obtain ⟨ps, hps, -, -, -, -, hshuffled⟩ :=
    pages_exact hfind shelf_distinct shelf_wellNamed shelf_readable
  have hlisting : (shelfDirectory shelf).pages = .ok ["a-b.md", "a/b.md", "notes.md/b.md"] :=
    congrArg Except.ok (List.mergeSort_of_pairwise (by decide))
  cases hps.symm.trans hlisting
  obtain ⟨hpages, hthere⟩ :=
    hshuffled (shelfDirectory shuffledShelf) shuffledShelf rfl rfl shelf_reordered
  exact ⟨hfind, shelf_distinct, shelf_wellNamed, shelf_readable, shelf_reordered, hlisting, hpages,
    hthere _ (by decide)⟩

end PageDirectory
end SitePlan
