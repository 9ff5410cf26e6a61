/-
# The tree of directories

Putting pages one after the other into the tree loses none and adds none, and
whatever their order, it keeps the tree placed: a page stands in the directory
that its path names, the subdirectories of a directory stand in strictly
increasing order of names, and each holds a page at some depth. So the
directories of the tree are exactly those with a page at some depth, each once.

Key definitions: `LiesIn`, `PageTree.paths`, `PageTree.subdirectories`, `PageTree.Placed`.
Key theorems: `liesIn_iff`, `PageTree.insert_paths`, `PageTree.insert_placed`,
`PageTree.ofPaths_paths`, `PageTree.ofPaths_placed`,
`PageTree.mem_subdirectories_ofPaths`, `PageTree.Placed.subdirectories_nodup`.
-/
import Mathlib.Data.List.Nodup
import Mathlib.Tactic.SplitIfs
import SitePlan.Nav.Generate
import SitePlan.Proofs.Text.Split

namespace SitePlan

/-- A page lies in the directory with the given names if its path is these names
and that of a file, with slashes between them. -/
def LiesIn (dir : List String) (path : String) : Prop :=
  ∃ file : String, path = "/".intercalate (dir ++ [file]) ∧
    ∀ name ∈ dir ++ [file], '/' ∉ name.toList

/-- Every page lies in exactly one directory, the one that splitting its path
gives. -/
theorem liesIn_iff {dir : List String} {path : String} :
    LiesIn dir path ↔ PageTree.directoriesOf path = dir := by
  unfold PageTree.directoriesOf
  constructor
  · rintro ⟨file, rfl, hname⟩
    have hpieces : ∀ piece ∈ (dir ++ [file]).map String.toList, '/' ∉ piece := by
      intro piece hp
      obtain ⟨name, hn, rfl⟩ := List.mem_map.mp hp
      exact hname name hn
    have hsplit : Text.splitAt '/' ("/".intercalate (dir ++ [file])).toList =
        (dir ++ [file]).map String.toList := by
      rw [Text.splitAt_eq_splitOn, String.toList_intercalate]
      exact List.splitOn_intercalate '/' hpieces (by simp)
    rw [hsplit]
    simp
  · intro h
    have hne := Text.splitAt_ne_nil '/' path.toList
    have hdir : dir ++ [String.ofList ((Text.splitAt '/' path.toList).getLast hne)] =
        (Text.splitAt '/' path.toList).map String.ofList := by
      rw [← h, ← List.map_singleton, ← List.map_append, List.dropLast_concat_getLast]
    refine ⟨String.ofList ((Text.splitAt '/' path.toList).getLast hne), ?_, ?_⟩
    · rw [hdir, ← String.toList_inj, String.toList_intercalate, Text.splitAt_eq_splitOn]
      simp [Function.comp_def]
    · rw [hdir]
      intro name hn
      obtain ⟨piece, hp, rfl⟩ := List.mem_map.mp hn
      rw [String.toList_ofList]
      exact Text.not_mem_of_mem_splitAt '/' path.toList piece hp

namespace PageTree

/-! ### Pages and directories of a tree -/

mutual

/-- The pages of a tree, at every depth. -/
def paths : PageTree → List String
  | ⟨files, directories⟩ => files ++ pathsIn directories

/-- The pages of some directories, at every depth. -/
def pathsIn : List (String × PageTree) → List String
  | [] => []
  | (_, t) :: rest => paths t ++ pathsIn rest

end

mutual

/-- The directories below `dir`, depth first, each as the names on the way to
it. -/
def subdirectories (dir : List String) : PageTree → List (List String)
  | ⟨_, directories⟩ => subdirectoriesIn dir directories

/-- The given directories within `dir` and those below them. -/
def subdirectoriesIn (dir : List String) : List (String × PageTree) → List (List String)
  | [] => []
  | (name, t) :: rest =>
    (dir ++ [name]) :: (subdirectories (dir ++ [name]) t ++ subdirectoriesIn dir rest)

end

/-- The tree stands for the directory `dir`: its own pages lie there, and its
subdirectories are in order, each with a page at some depth. -/
inductive Placed : List String → PageTree → Prop
  | intro {dir files : List String} {ds : List (String × PageTree)} :
      (∀ p ∈ files, directoriesOf p = dir) → ds.Pairwise (fun a b => a.1 < b.1) →
      (∀ d ∈ ds, d.2.paths ≠ []) → (∀ d ∈ ds, Placed (dir ++ [d.1]) d.2) → Placed dir ⟨files, ds⟩

theorem pathsIn_eq : ∀ ds, pathsIn ds = ds.flatMap fun d => d.2.paths
  | [] => rfl
  | (_, t) :: rest => by rw [pathsIn, pathsIn_eq rest, List.flatMap_cons]

theorem mem_paths {p : String} {files : List String} {ds : List (String × PageTree)} :
    p ∈ paths ⟨files, ds⟩ ↔ p ∈ files ∨ ∃ d ∈ ds, p ∈ d.2.paths := by
  rw [paths, pathsIn_eq, List.mem_append, List.mem_flatMap]

theorem subdirectories_eq (dir files : List String) : ∀ ds, subdirectories dir ⟨files, ds⟩ =
    ds.flatMap fun d => (dir ++ [d.1]) :: subdirectories (dir ++ [d.1]) d.2
  | [] => rfl
  | (name, t) :: rest => by
    have ih := subdirectories_eq dir files rest
    rw [subdirectories] at ih
    rw [subdirectories, subdirectoriesIn, ih, List.flatMap_cons, List.cons_append]

theorem mem_subdirectories {x dir files : List String} {ds : List (String × PageTree)} :
    x ∈ subdirectories dir ⟨files, ds⟩ ↔
      ∃ d ∈ ds, x = dir ++ [d.1] ∨ x ∈ subdirectories (dir ++ [d.1]) d.2 := by
  rw [subdirectories_eq, List.mem_flatMap]
  simp only [List.mem_cons]

/-! ### Putting a page in -/

variable {path name : String} {rest : List String}

theorem insertInto_paths (ih : ∀ t, (insert path rest t).paths.Perm (path :: t.paths)) :
    ∀ ds, (pathsIn (insertInto path name rest ds)).Perm (path :: pathsIn ds)
  | [] => by
    simpa [insertInto, pathsIn, paths, empty] using ih empty
  | (n, t) :: more => by
    rw [insertInto]
    split_ifs with hlt heq
    · exact (ih empty).append_right (pathsIn ((n, t) :: more))
    · exact (ih t).append_right (pathsIn more)
    · exact ((insertInto_paths ih more).append_left t.paths).trans List.perm_middle

theorem insert_paths (path : String) : ∀ (names : List String) (t : PageTree),
    (insert path names t).paths.Perm (path :: t.paths)
  | [], ⟨files, directories⟩ => by
    simp only [insert, paths]
    exact (List.perm_append_singleton path files).append_right (pathsIn directories)
  | name :: rest, ⟨files, directories⟩ => by
    simp only [insert, paths]
    exact ((insertInto_paths (insert_paths path rest) directories).append_left files).trans
      List.perm_middle

theorem insert_paths_ne_nil (path : String) (names : List String) (t : PageTree) :
    (insert path names t).paths ≠ [] := fun h => by
  have hp := insert_paths path names t
  rw [h] at hp
  exact List.cons_ne_nil _ _ hp.nil_eq.symm

theorem mem_insertInto : ∀ (ds : List (String × PageTree)), ∀ d ∈ insertInto path name rest ds,
    d ∈ ds ∨ ∃ t, d = (name, insert path rest t) ∧ (t = empty ∨ (name, t) ∈ ds)
  | [], d, hd => by
    rw [insertInto, List.mem_singleton] at hd
    exact .inr ⟨empty, hd, .inl rfl⟩
  | (n, t) :: more, d, hd => by
    rw [insertInto] at hd
    split_ifs at hd with hlt heq
    · rcases List.mem_cons.mp hd with rfl | hd
      · exact .inr ⟨empty, rfl, .inl rfl⟩
      · exact .inl hd
    · subst heq
      rcases List.mem_cons.mp hd with rfl | hd
      · exact .inr ⟨t, rfl, .inr List.mem_cons_self⟩
      · exact .inl (List.mem_cons_of_mem _ hd)
    · rcases List.mem_cons.mp hd with rfl | hd
      · exact .inl List.mem_cons_self
      · rcases mem_insertInto more d hd with h | ⟨t', h, ht⟩
        · exact .inl (List.mem_cons_of_mem _ h)
        · exact .inr ⟨t', h, ht.imp_right (List.mem_cons_of_mem _)⟩

theorem insertInto_sorted : ∀ ds : List (String × PageTree), ds.Pairwise (fun a b => a.1 < b.1) →
    (insertInto path name rest ds).Pairwise fun a b => a.1 < b.1
  | [], _ => by
    rw [insertInto]
    exact List.pairwise_singleton _ _
  | (n, t) :: more, h => by
    obtain ⟨hlt, hmore⟩ := List.pairwise_cons.mp h
    rw [insertInto]
    split_ifs with hname heq
    · refine List.pairwise_cons.mpr ⟨fun d hd => ?_, h⟩
      rcases List.mem_cons.mp hd with rfl | hd
      · exact hname
      · exact String.lt_trans hname (hlt d hd)
    · exact List.pairwise_cons.mpr ⟨hlt, hmore⟩
    · refine List.pairwise_cons.mpr ⟨fun d hd => ?_, insertInto_sorted more hmore⟩
      rcases mem_insertInto more d hd with hd | ⟨t', rfl, -⟩
      · exact hlt d hd
      · exact Std.lt_of_le_of_ne (String.not_lt.mp hname) (Ne.symm heq)

theorem empty_placed (dir : List String) : Placed dir empty :=
  .intro (by simp) .nil (by simp) (by simp)

theorem insert_placed (path : String) : ∀ (names dir : List String) (t : PageTree),
    directoriesOf path = dir ++ names → Placed dir t → Placed dir (insert path names t)
  | [], dir, _, hpath, .intro hfiles hsorted hne hds => by
    rw [insert]
    rw [List.append_nil] at hpath
    refine .intro (fun p hp => ?_) hsorted hne hds
    rcases List.mem_append.mp hp with hp | hp
    · exact hfiles p hp
    · rw [List.mem_singleton.mp hp, hpath]
  | name :: rest, dir, ⟨files, ds⟩, hpath, .intro hfiles hsorted hne hds => by
    rw [insert]
    rw [List.append_cons] at hpath
    refine .intro hfiles (insertInto_sorted ds hsorted) (fun d hd => ?_) (fun d hd => ?_)
    · rcases mem_insertInto ds d hd with hd | ⟨t, rfl, -⟩
      · exact hne d hd
      · exact insert_paths_ne_nil path rest t
    · rcases mem_insertInto ds d hd with hd | ⟨t, rfl, rfl | ht⟩
      · exact hds d hd
      · exact insert_placed path rest (dir ++ [name]) empty hpath (empty_placed _)
      · exact insert_placed path rest (dir ++ [name]) t hpath (hds _ ht)

/-! ### All pages -/

theorem foldl_insert_paths : ∀ (ps : List String) (t : PageTree),
    (ps.foldl (fun t path => t.insert path (directoriesOf path)) t).paths.Perm (ps ++ t.paths)
  | [], t => by
    simp
  | p :: ps, t => by
    have hp := (insert_paths p (directoriesOf p) t).append_left ps
    exact ((foldl_insert_paths ps _).trans hp).trans List.perm_middle

theorem foldl_insert_placed : ∀ (ps : List String) (t : PageTree), Placed [] t →
    Placed [] (ps.foldl (fun t path => t.insert path (directoriesOf path)) t)
  | [], _, h => h
  | p :: ps, t, h => foldl_insert_placed ps _ (insert_placed p (directoriesOf p) [] t rfl h)

/-- The tree of some pages holds exactly these. -/
theorem ofPaths_paths (ps : List String) : (ofPaths ps).paths.Perm ps := by
  simpa [ofPaths, empty, paths, pathsIn] using foldl_insert_paths ps empty

/-- The tree of some pages is placed, whatever their order. -/
theorem ofPaths_placed (ps : List String) : Placed [] (ofPaths ps) :=
  foldl_insert_placed ps empty (empty_placed [])

/-! ### The directories that the tree has -/

/-- Two lists that begin the same agree where both go on. -/
theorem names_agree {dir as bs l : List String} {n m : String} (hn : dir ++ n :: as <+: l)
    (hm : dir ++ m :: bs <+: l) : n = m := by
  obtain ⟨u, hu⟩ := hn
  obtain ⟨v, hv⟩ := hm
  have h := hu.trans hv.symm
  rw [List.append_assoc, List.append_assoc] at h
  exact (List.cons.inj (List.append_cancel_left h)).1

variable {dir : List String} {t : PageTree}

theorem Placed.prefix_of_mem (h : Placed dir t) : ∀ p ∈ t.paths, dir <+: directoriesOf p := by
  induction h with
  | intro hfiles _ _ _ ih =>
    intro p hp
    rcases mem_paths.mp hp with hp | ⟨d, hd, hp⟩
    · exact hfiles p hp ▸ List.prefix_rfl
    · exact (List.prefix_append _ [d.1]).trans (ih d hd p hp)

/-- The directories of a placed tree go on from its own. -/
theorem Placed.shape (h : Placed dir t) :
    ∀ x ∈ subdirectories dir t, ∃ name names, x = dir ++ name :: names := by
  induction h with
  | intro _ _ _ _ ih =>
    intro x hx
    obtain ⟨d, hd, rfl | hx⟩ := mem_subdirectories.mp hx
    · exact ⟨d.1, [], rfl⟩
    · obtain ⟨name, names, rfl⟩ := ih d hd x hx
      exact ⟨d.1, name :: names, (List.append_cons _ _ _).symm⟩

/-- The directories of a placed tree hold a page at some depth. -/
theorem Placed.exists_page (h : Placed dir t) :
    ∀ x ∈ subdirectories dir t, ∃ p ∈ t.paths, x <+: directoriesOf p := by
  induction h with
  | intro _ _ hne hds ih =>
    intro x hx
    obtain ⟨d, hd, rfl | hx⟩ := mem_subdirectories.mp hx
    · obtain ⟨p, hp⟩ := List.exists_mem_of_ne_nil _ (hne d hd)
      exact ⟨p, mem_paths.mpr (.inr ⟨d, hd, hp⟩), (hds d hd).prefix_of_mem p hp⟩
    · obtain ⟨p, hp, hpre⟩ := ih d hd x hx
      exact ⟨p, mem_paths.mpr (.inr ⟨d, hd, hp⟩), hpre⟩

/-- Every directory on the way to a page of a placed tree is one of the tree. -/
theorem Placed.mem_on_way (h : Placed dir t) : ∀ p ∈ t.paths, ∀ names name,
    dir ++ name :: names <+: directoriesOf p → dir ++ name :: names ∈ subdirectories dir t := by
  induction h with
  | intro hfiles _ _ hds ih =>
    intro p hp names name hpre
    rcases mem_paths.mp hp with hp | ⟨d, hd, hp⟩
    · have hlen := hpre.length_le
      rw [hfiles p hp, List.length_append, List.length_cons] at hlen
      omega
    · obtain rfl : name = d.1 := names_agree hpre ((hds d hd).prefix_of_mem p hp)
      refine mem_subdirectories.mpr ⟨d, hd, ?_⟩
      cases names with
      | nil => exact .inl rfl
      | cons name' names =>
        rw [List.append_cons] at hpre ⊢
        exact .inr (ih d hd p hp names name' hpre)

theorem Placed.subdirectories_nodup (h : Placed dir t) : (subdirectories dir t).Nodup := by
  induction h with
  | @intro dir files ds _ hsorted _ hds ih =>
    have hshape : ∀ d ∈ ds, ∀ x ∈ (dir ++ [d.1]) :: subdirectories (dir ++ [d.1]) d.2,
        ∃ names, x = dir ++ d.1 :: names := by
      intro d hd x hx
      rcases List.mem_cons.mp hx with rfl | hx
      · exact ⟨[], rfl⟩
      · obtain ⟨name, names, rfl⟩ := (hds d hd).shape x hx
        exact ⟨name :: names, (List.append_cons _ _ _).symm⟩
    rw [subdirectories_eq, List.nodup_flatMap]
    constructor
    · intro d hd
      refine List.nodup_cons.mpr ⟨fun hx => ?_, ih d hd⟩
      obtain ⟨name, names, heq⟩ := (hds d hd).shape _ hx
      simp at heq
    · refine hsorted.imp_of_mem fun {a b} ha hb hlt x hx hy => ?_
      obtain ⟨names, rfl⟩ := hshape a ha x hx
      obtain ⟨names', heq⟩ := hshape b hb _ hy
      obtain ⟨hab, -⟩ := List.cons.inj (List.append_cancel_left heq)
      exact String.ne_of_lt hlt hab

/-- The directories of the tree of some pages are those with a page at some
depth, the root apart. -/
theorem mem_subdirectories_ofPaths {ps dir : List String} :
    dir ∈ subdirectories [] (ofPaths ps) ↔
      dir ≠ [] ∧ ∃ p ∈ ps, ∃ more, LiesIn (dir ++ more) p := by
  have hmem : ∀ p, p ∈ (ofPaths ps).paths ↔ p ∈ ps := fun p => (ofPaths_paths ps).mem_iff
  constructor
  · intro h
    obtain ⟨name, names, rfl⟩ := (ofPaths_placed ps).shape _ h
    obtain ⟨p, hp, more, hpre⟩ := (ofPaths_placed ps).exists_page _ h
    exact ⟨List.cons_ne_nil name names, p, (hmem p).mp hp, more, liesIn_iff.mpr hpre.symm⟩
  · rintro ⟨hne, p, hp, more, hin⟩
    obtain ⟨name, names, rfl⟩ := List.exists_cons_of_ne_nil hne
    exact (ofPaths_placed ps).mem_on_way p ((hmem p).mpr hp) names name
      ⟨more, (liesIn_iff.mp hin).symm⟩

end PageTree
end SitePlan
