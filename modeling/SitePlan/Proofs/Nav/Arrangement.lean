/-
# The order of the generated navigation

At every level of a generated navigation the pages of the directory come first
and the groups after them. Pages that stand for the directory are ahead of the
others, and on either side the paths are in alphabetical order without regard to
ASCII case; pages that tie keep the order in which the source lists them. The
groups are in strictly increasing order of the names of their directories.

Key definitions: `Page.Precedes`, `Page.Ties`, `Arranged`, `PageTree.filesAt`.
Key theorems: `Resolver.sortPages_precedes`, `Resolver.sortPages_ties`,
`PageTree.filesAt_ofPaths`, `PageTree.Placed.arranged`, `Config.resolveNav_arranged`.
-/
import SitePlan.Proofs.Nav.Generated
import SitePlan.Proofs.Text.Order

namespace SitePlan

/-! ### Pages of one directory -/

namespace Page

/-- A path without regard to ASCII case. -/
def caseless (path : String) : String := String.ofList (Text.lowerAscii path.toList)

/-- A page may stand ahead of another: it stands for the directory if that one
does, and if neither or both do, its path is not after that one's. -/
def Precedes (p q : String) : Prop :=
  (isIndex q = true → isIndex p = true) ∧ (isIndex p = isIndex q → caseless p ≤ caseless q)

/-- Neither of two pages has to stand ahead of the other. -/
def Ties (p q : String) : Prop := isIndex p = isIndex q ∧ caseless p = caseless q

instance (p q : String) : Decidable (Ties p q) := inferInstanceAs (Decidable (_ ∧ _))

theorem Precedes.trans {p q s : String} (h : Precedes p q) (h' : Precedes q s) :
    Precedes p s := by
  refine ⟨fun hs => h.1 (h'.1 hs), fun heq => ?_⟩
  -- a page between two on one side is on that side too
  have hq : isIndex p = isIndex q := Bool.eq_iff_iff.mpr ⟨fun hp => h'.1 (heq ▸ hp), h.1⟩
  exact String.le_trans (h.2 hq) (h'.2 (hq ▸ heq))

theorem precedes_total (p q : String) : Precedes p q ∨ Precedes q p := by
  unfold Precedes
  cases isIndex p <;> cases isIndex q <;> simp [String.le_total]

theorem Ties.precedes {p q : String} (h : Ties p q) : Precedes p q :=
  ⟨fun hq => h.1.trans hq, fun _ => h.2 ▸ String.le_refl _⟩

end Page

namespace Resolver

open Page (Precedes Ties)

/-- The place of a page says which pages it may stand ahead of. -/
theorem placeLe_iff {p q : String} :
    placeLe (sortKey p) (sortKey q) = true ↔ Precedes p q := by
  unfold placeLe sortKey Precedes Page.caseless
  cases Page.isIndex p <;> cases Page.isIndex q <;> simp

theorem placeLe_trans (p q s : String) (h : placeLe (sortKey p) (sortKey q) = true)
    (h' : placeLe (sortKey q) (sortKey s) = true) : placeLe (sortKey p) (sortKey s) = true :=
  placeLe_iff.mpr ((placeLe_iff.mp h).trans (placeLe_iff.mp h'))

theorem placeLe_total (p q : String) :
    (placeLe (sortKey p) (sortKey q) || placeLe (sortKey q) (sortKey p)) = true := by
  rw [Bool.or_eq_true, placeLe_iff, placeLe_iff]
  exact Page.precedes_total p q

/-- Each page of a directory may stand ahead of those after it. -/
theorem sortPages_precedes (ps : List String) : (sortPages ps).Pairwise Precedes :=
  (List.pairwise_mergeSort placeLe_trans placeLe_total ps).imp placeLe_iff.mp

theorem sortPages_ties (ps : List String) (p : String) :
    ((sortPages ps).filter fun q => Ties p q) = ps.filter fun q => Ties p q := by
  have hties : (ps.filter fun q => Ties p q).Pairwise fun q s =>
      placeLe (sortKey q) (sortKey s) = true := by
    refine List.pairwise_of_forall_mem_list fun q hq s hs => placeLe_iff.mpr (Ties.precedes ?_)
    have hpq := of_decide_eq_true (List.mem_filter.mp hq).2
    have hps := of_decide_eq_true (List.mem_filter.mp hs).2
    exact ⟨hpq.1.symm.trans hps.1, hpq.2.symm.trans hps.2⟩
  have hsub := List.sublist_mergeSort placeLe_trans placeLe_total hties List.filter_sublist
  have hkept := hsub.filter fun q => decide (Ties p q)
  simp only [List.filter_filter, Bool.and_self] at hkept
  exact (hkept.eq_of_length ((sortPages_perm ps).symm.filter _).length_eq).symm

end Resolver

namespace PageTree

/-! ### The pages of one directory of the tree -/

/-- The pages of the directory at the end of the given names. -/
def filesAt : List String → PageTree → List String
  | [], t => t.files
  | name :: rest, t => filesAt rest ((t.directories.lookup name).getD empty)

theorem filesAt_empty : ∀ names, filesAt names empty = []
  | [] => rfl
  | _ :: rest => filesAt_empty rest

variable {path name : String} {rest : List String}

theorem lookup_insertInto (k : String) : ∀ ds : List (String × PageTree),
    ds.Pairwise (fun a b => a.1 < b.1) →
    (insertInto path name rest ds).lookup k =
      if k = name then some (insert path rest ((ds.lookup name).getD empty)) else ds.lookup k
  | [], _ => by
    rw [insertInto, lookup_cons_eq]
    rfl
  | (n, t) :: more, h => by
    obtain ⟨hlt, hmore⟩ := List.pairwise_cons.mp h
    by_cases hbefore : name < n
    · have hnone : ((n, t) :: more).lookup name = none := by
        refine List.lookup_eq_none_iff.mpr fun d hd => bne_iff_ne.mpr (String.ne_of_lt ?_)
        rcases List.mem_cons.mp hd with rfl | hd
        · exact hbefore
        · exact String.lt_trans hbefore (hlt d hd)
      rw [insertInto, if_pos hbefore, lookup_cons_eq, hnone]
      rfl
    rw [insertInto, if_neg hbefore]
    by_cases heq : name = n
    · subst heq
      simp only [lookup_cons_eq, ↓reduceIte]
      split_ifs <;> rfl
    · rw [if_neg heq, lookup_cons_eq, lookup_cons_eq k n t, lookup_cons_eq name n t, if_neg heq,
        lookup_insertInto k more hmore]
      by_cases hk : k = n
      · rw [if_pos hk, if_pos hk, if_neg (hk ▸ Ne.symm heq)]
      · rw [if_neg hk, if_neg hk]

theorem Placed.lookup {dir files : List String} {ds : List (String × PageTree)}
    (h : Placed dir ⟨files, ds⟩) (name : String) :
    Placed (dir ++ [name]) ((ds.lookup name).getD empty) := by
  cases h with
  | intro _ _ _ hds =>
    cases hname : ds.lookup name with
    | none => exact empty_placed _
    | some t =>
      obtain ⟨before, after, rfl, -⟩ := List.lookup_eq_some_iff.mp hname
      exact hds (name, t) (List.mem_append_right _ List.mem_cons_self)

theorem filesAt_insert (path : String) : ∀ (names dir : List String) (t : PageTree),
    Placed dir t → ∀ way : List String, filesAt way (insert path names t) =
      filesAt way t ++ if names = way then [path] else []
  | [], _, t, _, way => by
    cases way <;> simp [insert, filesAt]
  | name :: rest, dir, ⟨files, ds⟩, h, way => by
    cases way with
    | nil => simp [insert, filesAt]
    | cons k more =>
      have hsorted : ds.Pairwise fun a b => a.1 < b.1 := by
        cases h with
        | intro _ hsorted _ _ => exact hsorted
      have ih := filesAt_insert path rest (dir ++ [name]) _ (h.lookup name) more
      simp only [insert, filesAt, lookup_insertInto k ds hsorted]
      by_cases hk : k = name
      · subst hk
        simp [ih]
      · simp [hk, Ne.symm hk]

theorem filesAt_foldl (names : List String) : ∀ (ps : List String) (t : PageTree), Placed [] t →
    filesAt names (ps.foldl (fun t path => t.insert path (directoriesOf path)) t) =
      filesAt names t ++ ps.filter fun p => directoriesOf p = names
  | [], t, _ => by simp
  | p :: ps, t, h => by
    have ih := filesAt_foldl names ps _ (insert_placed p (directoriesOf p) [] t rfl h)
    rw [List.foldl_cons, ih, filesAt_insert p _ [] t h, List.filter_cons, List.append_assoc]
    by_cases hp : directoriesOf p = names <;> simp [hp]

/-- In the tree of some pages, each directory has those that lie in it, in their
order. -/
theorem filesAt_ofPaths (ps names : List String) :
    filesAt names (ofPaths ps) = ps.filter fun p => directoriesOf p = names := by
  have h := filesAt_foldl names ps empty (empty_placed [])
  rwa [filesAt_empty, List.nil_append] at h

end PageTree

/-! ### Every level of the tree -/

instance (dir : List String) (p : String) : Decidable (LiesIn dir p) :=
  decidable_of_iff _ liesIn_iff.symm

/-- The items are those of the directory `dir` in the right order, at this level
and at every level below: the pages of the source that lie in it, then a group
for each directory in it, by its name. -/
inductive Arranged (ps : List String) : List String → List NavItem → Prop
  | level {dir files : List String} {pages : List NavItem} {groups : List (String × List NavItem)} :
      (∀ i ∈ pages, i.kind = .page) → pages.map (fun i => i.source) = files.map some →
      files.Pairwise Page.Precedes →
      (∀ p, (files.filter fun q => Page.Ties p q) =
        ps.filter fun q => LiesIn dir q ∧ Page.Ties p q) →
      groups.Pairwise (fun a b => a.1 < b.1) → (∀ g ∈ groups, g.2 ≠ []) →
      (∀ g ∈ groups, Arranged ps (dir ++ [g.1]) g.2) →
      Arranged ps dir (pages ++ groups.map fun g => NavItem.group (directoryTitle g.1) g.2)

namespace Resolver

variable (r : Resolver)

/-- Directories with pages become groups in their order, one each. -/
theorem groupItems_eq : ∀ (ds : List (String × PageTree)), (∀ d ∈ ds, d.2.paths ≠ []) →
    ∀ f, ∃ groups : List (String × List NavItem),
      (r.groupItems ds f).1 = groups.map (fun g => NavItem.group (directoryTitle g.1) g.2) ∧
      groups.map Prod.fst = ds.map Prod.fst ∧
      ∀ g ∈ groups, ∃ t f, (g.1, t) ∈ ds ∧ g.2 = (r.directoryItems t f).1
  | [], _, f => ⟨[], by rw [groupItems]; rfl, rfl, by simp⟩
  | (name, t) :: rest, hne, f => by
    obtain ⟨ht, hrest⟩ := List.forall_mem_cons.mp hne
    obtain ⟨groups, heq, hnames, hgroups⟩ := groupItems_eq rest hrest (r.directoryItems t f).2
    refine ⟨(name, (r.directoryItems t f).1) :: groups, ?_, congrArg (List.cons name) hnames,
      List.forall_mem_cons.mpr ⟨⟨t, f, List.mem_cons_self, rfl⟩, fun g hg => ?_⟩⟩
    · have hitems := r.directoryItems_ne_nil ht f
      rw [groupItems_cons, if_neg (by simpa using hitems), heq]
      rfl
    · obtain ⟨t', f', hmem, hitems⟩ := hgroups g hg
      exact ⟨t', f', List.mem_cons_of_mem _ hmem, hitems⟩

end Resolver

namespace PageTree

/-- A directory of a sorted list is found by its name. -/
theorem lookup_of_mem {ds : List (String × PageTree)} (h : ds.Pairwise fun a b => a.1 < b.1)
    {name : String} {t : PageTree} (hmem : (name, t) ∈ ds) : ds.lookup name = some t := by
  refine (lookup_eq_some_iff_mem (List.pairwise_map.mpr (h.imp ?_))).mpr hmem
  exact String.ne_of_lt

/-- The items of a placed tree are arranged, if the tree has the pages of each
directory in the order of the source. -/
theorem Placed.arranged (r : Resolver) {ps dir : List String} {t : PageTree} (h : t.Placed dir) :
    (∀ names, t.filesAt names = ps.filter fun p => directoriesOf p = dir ++ names) →
    ∀ f, Arranged ps dir (r.directoryItems t f).1 := by
  induction h with
  | @intro dir files ds _ hsorted hne _ ih =>
    intro hat f
    obtain ⟨groups, heq, hnames, hgroups⟩ := r.groupItems_eq ds hne
      ((Resolver.sortPages files).foldl (fun f path => f.visit path) f)
    have hfiles : files = ps.filter fun p => directoriesOf p = dir := by
      simpa [filesAt] using hat []
    have hitems : (r.directoryItems ⟨files, ds⟩ f).1 =
        (Resolver.sortPages files).map (r.pageItem none) ++
          groups.map fun g => NavItem.group (directoryTitle g.1) g.2 := by
      rw [Resolver.directoryItems, ← heq]
    rw [hitems]
    refine .level (fun i hi => ?kind) ?sources (Resolver.sortPages_precedes files) (fun p => ?ties)
      ?names (fun g hg => ?filled) (fun g hg => ?below)
    case kind =>
      obtain ⟨p, -, rfl⟩ := List.mem_map.mp hi
      rfl
    case sources => simp [Resolver.pageItem, NavItem.page]
    case ties =>
      rw [Resolver.sortPages_ties, hfiles, List.filter_filter]
      simp only [liesIn_iff, Bool.decide_and, Bool.and_comm]
    case names =>
      have hpairs : (ds.map Prod.fst).Pairwise (· < ·) := List.pairwise_map.mpr hsorted
      exact List.pairwise_map.mp (hnames ▸ hpairs)
    case filled =>
      obtain ⟨t, f, hmem, hg⟩ := hgroups g hg
      exact hg ▸ r.directoryItems_ne_nil (hne _ hmem) f
    case below =>
      obtain ⟨t, f, hmem, hg⟩ := hgroups g hg
      rw [hg]
      refine ih (g.1, t) hmem (fun names => ?_) f
      have hbelow := hat (g.1 :: names)
      rwa [filesAt, lookup_of_mem hsorted hmem, Option.getD_some, List.append_cons] at hbelow

end PageTree

namespace Config

variable {c : Config} {ps : List String}

/-- **The generated navigation is in order at every level.** Where the pages of the
source can be listed, resolving succeeds, and at each level of the tree the pages
of the directory come first, those that stand for it ahead of the others, in
alphabetical order without regard to ASCII case and otherwise in that of the
source; then come the groups, by the names of their directories. -/
theorem resolveNav_arranged (source : PageSource) (hnav : c.nav = none)
    (hps : source.pages = .ok ps) :
    ∃ res, c.resolveNav source = .ok res ∧ Arranged ps [] res.navigation.items := by
  refine ⟨_, resolveNav_none source hnav hps, ?_⟩
  exact (PageTree.ofPaths_placed ps).arranged _ (PageTree.filesAt_ofPaths ps) _

/-- Pages in three directories: two that stand for one directory, and two whose
paths differ in case only. -/
def mixedPages : MemoryPages :=
  MemoryPages.addPages
    ["setup/notes.md", "setup/index.md", "b.md", "setup/README.md", "Api/v1/keys.md", "B.md",
      "Readme.md"]
    MemoryPages.empty

/-- The navigation of `mixedPages` is in order. -/
theorem resolveNav_arranged_mixedPages :
    (default : Config).nav = none ∧
      mixedPages.source.pages.toOption = some
        ["Api/v1/keys.md", "B.md", "Readme.md", "b.md", "setup/README.md", "setup/index.md",
          "setup/notes.md"] ∧
      ∃ res, (default : Config).resolveNav mixedPages.source = .ok res ∧
        Arranged
          ["Api/v1/keys.md", "B.md", "Readme.md", "b.md", "setup/README.md", "setup/index.md",
            "setup/notes.md"]
          [] res.navigation.items := by
  have hps : mixedPages.source.pages = .ok
      ["Api/v1/keys.md", "B.md", "Readme.md", "b.md", "setup/README.md", "setup/index.md",
        "setup/notes.md"] :=
    congrArg Except.ok (by decide)
  exact ⟨rfl, by rw [hps]; rfl, resolveNav_arranged mixedPages.source rfl hps⟩

end Config
end SitePlan
