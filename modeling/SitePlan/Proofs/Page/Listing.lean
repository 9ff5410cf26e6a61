/-
# What a listing of pages holds

In a tree of files every name is some text without a slash. The files of such a
tree have different paths, and each path tells the names on its way. A listing
descends along the names and passes over those that begin with a point, so it has
the paths of the markdown files that no hidden name leads to. The path of a
listed page is therefore a row of visible names with slashes between them, and no
page is listed twice.

Key definitions: `FileTree.WellNamed`, `PageDirectory.IsVisible`, `Page.pathOf`.
Key theorems: `Host.find_closed`, `Page.namesOf_pathOf`, `PageDirectory.pagesIn_eq`,
`PageDirectory.pages_eq_ok`, `PageDirectory.segments_of_mem_pages`,
`PageDirectory.pages_nodup`.
-/
import SitePlan.Page.Directory
import SitePlan.Proofs.Files.Descent

namespace SitePlan

/-! ### Names in a tree -/

/-- Every name in the tree is some text without a slash. -/
inductive FileTree.WellNamed : FileTree → Prop
  | file {bytes : ByteArray} : WellNamed (.file bytes)
  | directory {entries : List (String × FileTree)} :
      (∀ e ∈ entries, e.1 ≠ "" ∧ '/' ∉ e.1.toList) → (∀ e ∈ entries, WellNamed e.2) →
      WellNamed (.directory entries)

namespace FileTree

/-- What holds of a tree and of the entries of whatever it holds of. -/
def Closed (P : FileTree → Prop) : Prop :=
  ∀ tree, P tree → ∀ name node, tree.entry? name = some node → P node

theorem wellNamed_closed : Closed WellNamed := by
  intro tree h name node hentry
  cases h with
  | file => cases hentry
  | directory _ hnodes =>
    obtain ⟨before, after, rfl, -⟩ := List.lookup_eq_some_iff.mp hentry
    exact hnodes (name, node) (by simp)

theorem distinct_closed : Closed Distinct := by
  intro tree h name node hentry
  cases h with
  | file => cases hentry
  | directory hnames hnodes =>
    exact hnodes (name, node) ((lookup_eq_some_iff_mem hnames).mp hentry)

/-- Following segments leads to a part of the tree. What carries the induction is
that the directories above are parts of it too. -/
theorem follow_closed {P : FileTree → Prop} (hP : Closed P) : ∀ {segments : List (List Char)}
    {above : List FileTree} {here node : FileTree}, (∀ t ∈ above, P t) → P here →
    follow above here segments = .ok node → P node
  | [], above, here, node, _, hhere, h => by
    rw [follow] at h
    cases h
    exact hhere
  | segment :: rest, above, here, node, habove, hhere, h => by
    rw [follow_cons] at h
    split_ifs at h
    · exact follow_closed hP habove hhere h
    · refine follow_closed hP (fun t ht => habove t (List.mem_of_mem_tail ht)) ?_ h
      cases above with
      | nil => exact hhere
      | cons parent above => exact habove parent List.mem_cons_self
    · cases hentry : here.entry? (String.ofList segment) with
      | none =>
        rw [hentry] at h
        cases h
      | some next =>
        rw [hentry] at h
        have hnext := hP here hhere _ next hentry
        exact follow_closed hP (List.forall_mem_cons.mpr ⟨hhere, habove⟩) hnext h

end FileTree

theorem Host.find_closed {P : FileTree → Prop} (hP : FileTree.Closed P) {h : Host} {p : Path}
    {node : FileTree} (htree : P h.tree) (hfind : h.find p = .ok node) : P node := by
  obtain ⟨-, -, -, hfollow⟩ := find_eq_ok_iff.mp hfind
  exact FileTree.follow_closed hP (by simp) htree hfollow

/-! ### Paths of names -/

namespace Page

/-- The path that a row of names makes. -/
def pathOf (names : List String) : String := "/".intercalate names

theorem pathOf_toList (names : List String) :
    (pathOf names).toList = ['/'].intercalate (names.map String.toList) :=
  String.toList_intercalate

/-- The segments of a path are the names that it is made of. -/
theorem splitAt_pathOf {names : List String} (hne : names ≠ []) (h : ∀ n ∈ names, '/' ∉ n.toList) :
    Text.splitAt '/' (pathOf names).toList = names.map String.toList := by
  have hmap : names.map String.toList ≠ [] := fun h0 => hne (List.map_eq_nil_iff.mp h0)
  rw [pathOf_toList, Text.splitAt_intercalate '/' hmap (List.forall_mem_map.mpr h)]

theorem namesOf_pathOf {names : List String} (hne : names ≠ [])
    (h : ∀ n ∈ names, '/' ∉ n.toList) : Path.namesOf (pathOf names).toList = names := by
  unfold Path.namesOf
  rw [splitAt_pathOf hne h, List.map_map]
  simp

theorem pathOf_namesOf (p : String) : pathOf (Path.namesOf p.toList) = p := by
  have hmap : (Path.namesOf p.toList).map String.toList = Text.splitAt '/' p.toList := by
    unfold Path.namesOf
    simp
  rw [← String.toList_inj, pathOf_toList, hmap, Text.intercalate_splitAt]

theorem pathOf_cons (path : String) {names : List String} (hne : names ≠ []) :
    pathOf (path :: names) = path ++ "/" ++ pathOf names := by
  obtain ⟨first, rest, rfl⟩ := List.exists_cons_of_ne_nil hne
  rw [← String.toList_inj, pathOf_toList, List.map_cons, List.map_cons,
    List.intercalate_cons_cons, String.toList_append, String.toList_append, pathOf_toList]
  simp

theorem pathOf_append (start name : String) (names : List String) :
    pathOf ((start ++ name) :: names) = start ++ pathOf (name :: names) := by
  cases names with
  | nil =>
    rw [← String.toList_inj, String.toList_append, pathOf_toList, pathOf_toList]
    simp
  | cons first rest =>
    rw [pathOf_cons _ (List.cons_ne_nil first rest), pathOf_cons _ (List.cons_ne_nil first rest),
      String.append_assoc, String.append_assoc, String.append_assoc]

end Page

namespace FileTree

variable {entries : List (String × FileTree)}

theorem ne_nil_of_mem_leavesIn : ∀ l ∈ leavesIn entries, l.1 ≠ [] := by
  rintro ⟨names, bytes⟩ hl
  obtain ⟨e, -, rest, rfl, -⟩ := mem_leavesIn.mp hl
  exact List.cons_ne_nil _ _

theorem WellNamed.leaf {node : FileTree} (h : node.WellNamed) :
    ∀ l ∈ node.leaves, ∀ n ∈ l.1, n ≠ "" ∧ '/' ∉ n.toList := by
  induction h with
  | file =>
    intro l hl
    rw [leaves, List.mem_singleton] at hl
    subst hl
    simp
  | @directory entries hnames _ ih =>
    rintro ⟨names, bytes⟩ hl
    rw [leaves, mem_leavesIn] at hl
    obtain ⟨e, he, rest, rfl, hrest⟩ := hl
    exact List.forall_mem_cons.mpr ⟨hnames e he, ih e he _ hrest⟩

theorem namesOf_leaf (h : (directory entries).WellNamed) :
    ∀ l ∈ leavesIn entries, Path.namesOf (Page.pathOf l.1).toList = l.1 := by
  intro l hl
  exact Page.namesOf_pathOf (ne_nil_of_mem_leavesIn l hl) fun n hn => (h.leaf l hl n hn).2

theorem paths_nodup (h : (directory entries).WellNamed) (hd : (directory entries).Distinct) :
    ((leavesIn entries).map fun l => Page.pathOf l.1).Nodup := by
  have hpaths : ((leavesIn entries).map fun l => Page.pathOf l.1) =
      ((directory entries).leaves.map Prod.fst).map Page.pathOf := by
    rw [leaves, List.map_map]
    rfl
  rw [hpaths]
  refine (leaves_nodup hd).map_on fun x hx y hy hxy => ?_
  obtain ⟨l, hl, rfl⟩ := List.mem_map.mp hx
  obtain ⟨l', hl', rfl⟩ := List.mem_map.mp hy
  rw [← namesOf_leaf h l hl, ← namesOf_leaf h l' hl', hxy]

end FileTree

/-! ### Paths in a listing -/

namespace PageDirectory

open FileTree (leaves leavesIn)

/-- A name that a listing does not pass over. -/
def IsVisible (name : List Char) : Prop := name ≠ [] ∧ '/' ∉ name ∧ name.head? ≠ some '.'

instance (name : List Char) : Decidable (IsVisible name) :=
  inferInstanceAs (Decidable (name ≠ [] ∧ '/' ∉ name ∧ name.head? ≠ some '.'))

theorem named_of_visible {cs : List Char} (h : ∀ s ∈ Text.splitAt '/' cs, IsVisible s) :
    Path.Named cs := by
  intro s hs
  obtain ⟨hne, -, hpoint⟩ := h s hs
  refine ⟨hne, ?_, ?_⟩
  · rintro rfl
    exact hpoint rfl
  · rintro rfl
    exact hpoint rfl

theorem isHidden_eq_false {name : String} :
    isHidden name = false ↔ name.toList.head? ≠ some '.' := by
  unfold isHidden
  exact beq_eq_false_iff_ne

/-- Whether no hidden name leads to a file. -/
def isListed (l : List String × ByteArray) : Bool := l.1.all fun name => !isHidden name

mutual

theorem pagesAt_eq : ∀ (node : FileTree) (path : String), pagesAt path node =
    (((leaves node).filter isListed).map fun l => Page.pathOf (path :: l.1)).filter Page.isMarkdown
  | .file bytes, path => by
    have hpath : Page.pathOf [path] = path := String.toList_inj.mp (by simp [Page.pathOf_toList])
    rw [pagesAt, leaves, List.filter_singleton, isListed, List.all_nil, cond_true,
      List.map_singleton, hpath, List.filter_singleton]
    cases Page.isMarkdown path <;> rfl
  | .directory entries, path => by
    rw [pagesAt, leaves, pagesIn_eq entries (path ++ "/")]
    congr 1
    refine List.map_congr_left fun l hl => ?_
    have hne := FileTree.ne_nil_of_mem_leavesIn l (List.mem_filter.mp hl).1
    exact (Page.pathOf_cons path hne).symm

/-- A listing has the paths of the markdown files that no hidden name leads to. -/
theorem pagesIn_eq : ∀ (entries : List (String × FileTree)) (start : String),
    pagesIn start entries =
      (((leavesIn entries).filter isListed).map fun l => start ++ Page.pathOf l.1).filter
        Page.isMarkdown
  | [], start => rfl
  | (name, node) :: rest, start => by
    have hlisted : ((leaves node).map fun l => (name :: l.1, l.2)).filter isListed =
        if isHidden name then [] else ((leaves node).filter isListed).map fun l =>
          (name :: l.1, l.2) := by
      rw [List.filter_map]
      cases hhidden : isHidden name with
      | true => simp [isListed, hhidden, Function.comp_def]
      | false =>
        have hsame : (isListed ∘ fun l : List String × ByteArray => (name :: l.1, l.2)) =
            isListed := by
          funext l
          simp [isListed, hhidden]
        rw [hsame]
        rfl
    rw [pagesIn, leavesIn, List.filter_append, List.map_append, List.filter_append, hlisted,
      pagesAt_eq node (start ++ name), pagesIn_eq rest start]
    congr 1
    split_ifs
    · rfl
    · simp only [List.map_map, Page.pathOf_append]
      rfl

end

/-- A listing of directories that can be opened has what `pagesIn` has, sorted. -/
theorem pages_of_near {d : PageDirectory} {entries : List (String × FileTree)}
    (hfind : d.host.find d.docsDir = .ok (.directory entries))
    (hnear : tooFarIn d.docsDir entries = none) :
    d.pages = .ok ((pagesIn "" entries).mergeSort fun a b => decide (a ≤ b)) := by
  unfold pages
  rw [hfind]
  simp only [hnear]

theorem pages_eq_ok {d : PageDirectory} {ps : List String} (h : d.pages = .ok ps) :
    ∃ entries, d.host.find d.docsDir = .ok (.directory entries) ∧
      ps.Perm ((((leavesIn entries).filter isListed).map fun l => Page.pathOf l.1).filter
        Page.isMarkdown) := by
  unfold pages at h
  split at h
  · rename_i entries hfind
    split at h
    · cases h
    · cases h
      have hlisting := pagesIn_eq entries ""
      simp only [String.empty_append] at hlisting
      exact ⟨entries, hfind, hlisting ▸ List.mergeSort_perm _ _⟩
  · cases h

/-- A listed page is a file of the directory, and its names are visible. -/
theorem exists_leaf_of_mem_pages {d : PageDirectory} {ps : List String} {p : String}
    (hps : d.pages = .ok ps) (hp : p ∈ ps) : Page.isMarkdown p = true ∧
      ∃ entries, d.host.find d.docsDir = .ok (.directory entries) ∧
        ∃ l ∈ leavesIn entries, p = Page.pathOf l.1 ∧ ∀ n ∈ l.1, isHidden n = false := by
  obtain ⟨entries, hfind, hperm⟩ := pages_eq_ok hps
  obtain ⟨hmem, hmd⟩ := List.mem_filter.mp (hperm.mem_iff.mp hp)
  obtain ⟨l, hl, rfl⟩ := List.mem_map.mp hmem
  obtain ⟨hl, hlisted⟩ := List.mem_filter.mp hl
  refine ⟨hmd, entries, hfind, l, hl, rfl, fun n hn => ?_⟩
  simpa using List.all_eq_true.mp hlisted n hn

/-- The segments of the path of a file are the names on its way, visible ones where none is
hidden. -/
theorem visible_of_leaf {entries : List (String × FileTree)} {l : List String × ByteArray}
    (hnamed : (FileTree.directory entries).WellNamed) (hl : l ∈ leavesIn entries)
    (hvisible : ∀ n ∈ l.1, isHidden n = false) :
    ∀ s ∈ Text.splitAt '/' (Page.pathOf l.1).toList, IsVisible s := by
  have hnames := hnamed.leaf l hl
  intro s hs
  rw [Page.splitAt_pathOf (FileTree.ne_nil_of_mem_leavesIn l hl) fun n hn => (hnames n hn).2] at hs
  obtain ⟨n, hn, rfl⟩ := List.mem_map.mp hs
  exact ⟨fun h0 => (hnames n hn).1 (String.toList_eq_nil_iff.mp h0), (hnames n hn).2,
    isHidden_eq_false.mp (hvisible n hn)⟩

/-- The segments of a listed page are visible names, and the page is markdown. -/
theorem segments_of_mem_pages {d : PageDirectory} {ps : List String} {p : String}
    (htree : d.host.tree.WellNamed) (hps : d.pages = .ok ps) (hp : p ∈ ps) :
    Page.isMarkdown p = true ∧ ∀ s ∈ Text.splitAt '/' p.toList, IsVisible s := by
  obtain ⟨hmd, entries, hfind, l, hl, rfl, hvisible⟩ := exists_leaf_of_mem_pages hps hp
  have hnamed := Host.find_closed FileTree.wellNamed_closed htree hfind
  exact ⟨hmd, visible_of_leaf hnamed hl hvisible⟩

theorem pages_nodup {d : PageDirectory} {ps : List String} (htree : d.host.tree.WellNamed)
    (hdistinct : d.host.tree.Distinct) (hps : d.pages = .ok ps) : ps.Nodup := by
  obtain ⟨entries, hfind, hperm⟩ := pages_eq_ok hps
  have hnodup := FileTree.paths_nodup (Host.find_closed FileTree.wellNamed_closed htree hfind)
    (Host.find_closed FileTree.distinct_closed hdistinct hfind)
  have hlisted := hnodup.sublist (List.filter_sublist (p := isListed).map _)
  exact hperm.nodup_iff.mpr (hlisted.filter _)

end PageDirectory
end SitePlan
