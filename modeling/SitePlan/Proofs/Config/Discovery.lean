/-
# The nearest configuration

The search for a configuration begins in a directory and goes up from there. The first
directory with a file of one of the two names ends it, and where there are both the
preferred name wins; a directory with such a name counts for nothing. So a file further up
is never found past one nearer by, whichever names they have, and nothing is found exactly
if none of the directories has either file.

Key definitions: `Config.Offers`, `Config.Lacks`, `Config.Nearest`.
Key theorems: `Config.discoverFrom_nearest`, `Config.Nearest.exists_level`,
`Config.Nearest.lacks`, `Config.discover?_nearest`.
-/
import SitePlan.Config.Load
import SitePlan.Proofs.Files.Ascent

namespace SitePlan
namespace Config

/-- A configuration file of a directory: `mkdocs.yml`, or `mkdocs.yaml` if no file has the
other name. -/
def Offers (h : Host) (dir file : Path) : Prop :=
  h.isFile file = true ∧ (file = dir.join ⟨"mkdocs.yml"⟩ ∨
    file = dir.join ⟨"mkdocs.yaml"⟩ ∧ h.isFile (dir.join ⟨"mkdocs.yml"⟩) = false)

/-- A directory has no configuration file. -/
def Lacks (h : Host) (dir : Path) : Prop :=
  h.isFile (dir.join ⟨"mkdocs.yml"⟩) = false ∧ h.isFile (dir.join ⟨"mkdocs.yaml"⟩) = false

/-- What a search from a directory upwards comes to: the file of the first directory that
has one, or nothing at the last one. -/
inductive Nearest (h : Host) : Path → Option Path → Prop
  | here {dir file : Path} : Offers h dir file → Nearest h dir (some file)
  | up {dir parent : Path} {result : Option Path} : Lacks h dir → dir.parent? = some parent →
      Nearest h parent result → Nearest h dir result
  | gone {dir : Path} : Lacks h dir → dir.parent? = none → Nearest h dir none

variable {h : Host} {dir file : Path} {result : Option Path}

/-! ### One directory -/

theorem Offers.unique {file' : Path} (hf : Offers h dir file) (hf' : Offers h dir file') :
    file = file' := by
  obtain ⟨hfile, rfl | ⟨rfl, hnot⟩⟩ := hf <;> obtain ⟨hfile', rfl | ⟨rfl, hnot'⟩⟩ := hf'
  · rfl
  · rw [hfile] at hnot'
    cases hnot'
  · rw [hfile'] at hnot
    cases hnot
  · rfl

theorem Offers.not_lacks (hf : Offers h dir file) : ¬ Lacks h dir := by
  rintro ⟨hyml, hyaml⟩
  obtain ⟨hfile, rfl | ⟨rfl, -⟩⟩ := hf
  · rw [hfile] at hyml
    cases hyml
  · rw [hfile] at hyaml
    cases hyaml

theorem fileIn?_offers (h : Host) (dir : Path) :
    (∃ file, fileIn? h dir = some file ∧ Offers h dir file) ∨
      fileIn? h dir = none ∧ Lacks h dir := by
  unfold fileIn? fileNames
  cases hyml : h.isFile (dir.join ⟨"mkdocs.yml"⟩) with
  | true => exact .inl ⟨_, by simp [hyml], hyml, .inl rfl⟩
  | false =>
    cases hyaml : h.isFile (dir.join ⟨"mkdocs.yaml"⟩) with
    | true => exact .inl ⟨_, by simp [hyml, hyaml], hyaml, .inr ⟨rfl, hyml⟩⟩
    | false => exact .inr ⟨by simp [hyml, hyaml], hyml, hyaml⟩

/-! ### All directories upwards -/

/-- A search stops at a file, and so only what comes behind a directory without one is left
to show. -/
theorem nearest_of_fileIn? (hbehind : Lacks h dir → Nearest h dir result) :
    Nearest h dir (match fileIn? h dir with
      | some file => some file
      | none => result) := by
  rcases fileIn?_offers h dir with ⟨file, hfile, hoffers⟩ | ⟨hnone, hlacks⟩
  · rw [hfile]
    exact .here hoffers
  · rw [hnone]
    exact hbehind hlacks

/-- A search that may go up often enough comes to the nearest file. -/
theorem discoverFrom_nearest : ∀ {n : Nat} {dir : Path}, dir.depth ≤ n →
    Nearest h dir (discoverFrom h n dir)
  | 0, dir, hn => by
    have hlast : dir.parent? = none := by
      cases hparent : dir.parent? with
      | none => rfl
      | some parent =>
        have hdepth := Path.depth_parent? hparent
        omega
    have hnearest := nearest_of_fileIn? (h := h) fun hlacks => .gone hlacks hlast
    unfold discoverFrom
    cases hfile : fileIn? h dir <;> rwa [hfile] at hnearest
  | n + 1, dir, hn => by
    unfold discoverFrom
    refine nearest_of_fileIn? fun hlacks => ?_
    cases hparent : dir.parent? with
    | none => exact .gone hlacks hparent
    | some parent =>
      have hdepth := Path.depth_parent? hparent
      exact .up hlacks hparent (discoverFrom_nearest (by omega))

theorem discover?_isNearest (h : Host) (dir : Path) : Nearest h dir (discover? h dir) :=
  discoverFrom_nearest dir.depth_le_length

/-- The file that a search comes to is that of some directory, and those before it have
none. -/
theorem Nearest.exists_level (hr : Nearest h dir result) (hfile : result = some file) :
    ∃ n level, dir.above n = some level ∧ Offers h level file ∧
      ∀ m < n, ∀ nearer, dir.above m = some nearer → Lacks h nearer := by
  induction hr with
  | here hoffers =>
    cases hfile
    exact ⟨0, _, rfl, hoffers, fun m hm => absurd hm (Nat.not_lt_zero m)⟩
  | up hlacks hparent _ ih =>
    obtain ⟨n, level, hlevel, hoffers, hbefore⟩ := ih hfile
    refine ⟨n + 1, level, ?_, hoffers, fun m hm nearer hnearer => ?_⟩
    · rw [Path.above_succ hparent, hlevel]
    · cases m with
      | zero =>
        cases hnearer
        exact hlacks
      | succ m =>
        rw [Path.above_succ hparent] at hnearer
        exact hbefore m (Nat.lt_of_succ_lt_succ hm) nearer hnearer
  | gone => cases hfile

theorem Nearest.lacks (hr : Nearest h dir result) (hnone : result = none) :
    ∀ n level, dir.above n = some level → Lacks h level := by
  induction hr with
  | here => cases hnone
  | up hlacks hparent _ ih =>
    intro n level hlevel
    cases n with
    | zero =>
      cases hlevel
      exact hlacks
    | succ n =>
      rw [Path.above_succ hparent] at hlevel
      exact ih hnone n level hlevel
  | gone hlacks hparent =>
    intro n level hlevel
    cases n with
    | zero =>
      cases hlevel
      exact hlacks
    | succ n =>
      rw [Path.above, hparent] at hlevel
      cases hlevel

theorem Nearest.eq_some {n : Nat} {level : Path} (hr : Nearest h dir result)
    (hlevel : dir.above n = some level) (hoffers : Offers h level file)
    (hbefore : ∀ m < n, ∀ nearer, dir.above m = some nearer → Lacks h nearer) :
    result = some file := by
  cases result with
  | none => exact absurd (hr.lacks rfl n level hlevel) hoffers.not_lacks
  | some found =>
    obtain ⟨n', level', hlevel', hoffers', hbefore'⟩ := hr.exists_level rfl
    rcases Nat.lt_trichotomy n n' with hlt | rfl | hlt
    · exact absurd (hbefore' n hlt level hlevel) hoffers.not_lacks
    · obtain rfl := Option.some.inj (hlevel.symm.trans hlevel')
      rw [hoffers.unique hoffers']
    · exact absurd (hbefore n' hlt level' hlevel') hoffers'.not_lacks

/-! ### Which directory a file is in -/

/-- A file in a directory has its name for one component more. -/
theorem join_fileName {name : String} (hname : name ∈ fileNames) (dir : Path) :
    (dir.join ⟨name⟩).components = dir.components ++ [.name name.toList] := by
  have hplain : Path.Plain (Path.mk name).chars := by
    revert name
    decide
  have hsteps : Path.steps (Path.mk name).chars = [.name name.toList] := by
    revert name
    decide
  rw [Path.join_components_of_plain dir hplain, hsteps]

theorem Offers.exists_name (hf : Offers h dir file) :
    ∃ name ∈ fileNames, file = dir.join ⟨name⟩ := by
  obtain ⟨-, rfl | ⟨rfl, -⟩⟩ := hf
  · exact ⟨"mkdocs.yml", by decide, rfl⟩
  · exact ⟨"mkdocs.yaml", by decide, rfl⟩

/-- A file in a directory further up is another one. -/
theorem join_ne_join {start near far : Path} {m n : Nat} {name name' : String} (hmn : m < n)
    (hnear : start.above m = some near) (hfar : start.above n = some far) (hname : name ∈ fileNames)
    (hname' : name' ∈ fileNames) : near.join ⟨name⟩ ≠ far.join ⟨name'⟩ := by
  intro heq
  obtain ⟨xs, hxs, hstart⟩ := Path.above_components hnear
  obtain ⟨ys, hys, hstart'⟩ := Path.above_components hfar
  have hlength := congrArg (fun p => p.components.length) heq
  simp only [join_fileName hname, join_fileName hname', List.length_append,
    List.length_singleton] at hlength
  have hsame := congrArg List.length (hstart.symm.trans hstart')
  rw [List.length_append, List.length_append] at hsame
  omega

/-! ### The search -/

/-- **The nearest configuration is found.** A search goes up one component at a time until
none but the root is left. What it finds is the file of the first directory that has one,
`mkdocs.yml` before `mkdocs.yaml`; it finds nothing exactly if no directory has either.
It is never a directory, and never a file further up than some other. -/
theorem discover?_nearest (h : Host) (start : Path) :
    (∀ n, (start.above n).isSome = true ↔ n ≤ start.depth) ∧
    (∀ n dir, start.above n = some dir →
      ∃ dropped, dropped.length = n ∧ start.components = dir.components ++ dropped) ∧
    (∀ file, discover? h start = some file ↔ ∃ n dir, start.above n = some dir ∧
      Offers h dir file ∧ ∀ m < n, ∀ nearer, start.above m = some nearer → Lacks h nearer) ∧
    (discover? h start = none ↔ ∀ n dir, start.above n = some dir → Lacks h dir) ∧
    (∀ file, discover? h start = some file → h.isFile file = true ∧ h.isDirectory file = false) ∧
    ∀ m n near far, m < n → start.above m = some near → start.above n = some far →
      ¬ Lacks h near → ∀ name ∈ fileNames, discover? h start ≠ some (far.join ⟨name⟩) := by
  have hnearest := discover?_isNearest h start
  refine ⟨fun n => Path.isSome_above_iff, fun n dir => Path.above_components, fun file => ⟨?_, ?_⟩,
    ⟨hnearest.lacks, fun hall => ?_⟩, fun file hfile => ?_, ?_⟩
  · exact hnearest.exists_level
  · rintro ⟨n, dir, hdir, hoffers, hbefore⟩
    exact hnearest.eq_some hdir hoffers hbefore
  · cases hfound : discover? h start with
    | none => rfl
    | some file =>
      obtain ⟨n, dir, hdir, hoffers, -⟩ := hnearest.exists_level hfound
      exact absurd (hall n dir hdir) hoffers.not_lacks
  · obtain ⟨n, dir, -, hoffers, -⟩ := hnearest.exists_level hfile
    refine ⟨hoffers.1, ?_⟩
    have hisFile := hoffers.1
    unfold Host.isFile at hisFile
    unfold Host.isDirectory
    split at hisFile
    · rename_i hfind
      rw [hfind]
    · cases hisFile
  · intro m n near far hmn hnear hfar hthere name hname hfound
    obtain ⟨k, dir, hdir, hoffers, hbefore⟩ := hnearest.exists_level hfound
    obtain ⟨name', hname', heq⟩ := hoffers.exists_name
    have hkm : k ≤ m := Nat.le_of_not_lt fun hlt => hthere (hbefore m hlt near hnear)
    exact join_ne_join (Nat.lt_of_le_of_lt hkm hmn) hdir hfar hname' hname heq.symm

/-- A host with a configuration file in the working directory, one of the other name below
it, and a directory with the preferred name further below. -/
def nestedHost : Host where
  tree :=
    .directory
      [("work", .directory
        [("mkdocs.yml", .file .empty),
          ("docs", .directory
            [("mkdocs.yaml", .file .empty),
              ("guides", .directory [("mkdocs.yml", .directory [])])])])]
  workingDirectory := ⟨"/work"⟩
  environment := []

/-- From the lowest directory of `nestedHost` the file in the middle is found. -/
theorem discover?_nearest_nestedHost :
    (Path.mk "docs/guides/").depth = 2 ∧
      (Path.mk "docs/guides/").above 2 = some ⟨""⟩ ∧
      (Path.mk "docs/guides/").above 3 = none ∧
      discover? nestedHost ⟨"docs/guides/"⟩ = some ⟨"docs/mkdocs.yaml"⟩ ∧
      nestedHost.isFile ((Path.mk "").join ⟨"mkdocs.yml"⟩) = true ∧
      discover? nestedHost ⟨"docs/guides/"⟩ ≠ some ⟨"mkdocs.yml"⟩ := by
  obtain ⟨hlevels, -, hfound, -, -, hnever⟩ := discover?_nearest nestedHost ⟨"docs/guides/"⟩
  have hdepth : (Path.mk "docs/guides/").depth = 2 := by decide
  have hlow : (Path.mk "docs/guides/").above 0 = some ⟨"docs/guides/"⟩ := rfl
  have hmiddle : (Path.mk "docs/guides/").above 1 = some ⟨"docs"⟩ := by decide
  have htop : (Path.mk "docs/guides/").above 2 = some ⟨""⟩ := by decide
  have hoffers : Offers nestedHost ⟨"docs"⟩ ⟨"docs/mkdocs.yaml"⟩ :=
    ⟨by decide, .inr ⟨by decide, by decide⟩⟩
  have hlacks : Lacks nestedHost ⟨"docs/guides/"⟩ := ⟨by decide, by decide⟩
  refine ⟨hdepth, htop, ?_, (hfound _).mpr ⟨1, ⟨"docs"⟩, hmiddle, hoffers, ?_⟩, by decide, ?_⟩
  · have hgone : ¬ ((Path.mk "docs/guides/").above 3).isSome = true := by
      rw [hlevels, hdepth]
      decide
    exact Option.not_isSome_iff_eq_none.mp hgone
  · intro m hm nearer hnearer
    obtain rfl := Nat.lt_one_iff.mp hm
    cases hlow.symm.trans hnearer
    exact hlacks
  · exact hnever 1 2 _ _ (by decide) hmiddle htop hoffers.not_lacks "mkdocs.yml" (by decide)

end Config
end SitePlan
