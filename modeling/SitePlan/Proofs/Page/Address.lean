/-
# Addresses of pages

The address of a page is its directory with one name below it: nothing for an index page,
the stem for another, or a file name made of one of them. A path is taken apart in one
way only, since no slash stands in a name, so two pages share an address exactly where
these parts agree. As files they do so within one directory, where all index pages are
one file and another page is told by its stem. As directories they do so then, and also
where a page has the address of the directory that an index page stands for.

The address of a relative path is relative, but for one case: a page whose stem is empty
has an empty directory of its own.

Key definitions: `Page.directory`, `Page.fileStem`, `Page.below`, `Page.SharesFile`,
`Page.StandsForPage`, `Page.Relative`.
Key theorems: `Page.below_inj`, `Page.url_toList`, `Page.url_eq_iff`, `Page.relative_iff`,
`Page.url_relative_iff`.
-/
import SitePlan.Page.Path
import SitePlan.Proofs.Text.Split

namespace SitePlan
namespace Page

/-! ### The parts of a path -/

/-- The directory of a page, without the slash behind it. -/
def directory (path : String) : List Char := (splitDirectory path.toList).1

/-- The file name of a page without its last extension. -/
def fileStem (path : String) : List Char := stem (splitDirectory path.toList).2

/-- A name in a directory. No slash stands before it where the directory is that of the
site. -/
def below (dir name : List Char) : List Char := (if dir = [] then [] else dir ++ ['/']) ++ name

theorem below_nil (name : List Char) : below [] name = name := rfl

theorem below_of_ne {dir : List Char} (h : dir ≠ []) (name : List Char) :
    below dir name = dir ++ '/' :: name := by
  rw [below, if_neg h, List.append_assoc, List.singleton_append]

theorem below_append (dir name rest : List Char) :
    below dir (name ++ rest) = below dir name ++ rest := (List.append_assoc _ _ _).symm

theorem splitDirectory_below {dir name : List Char} (h : '/' ∉ name) :
    splitDirectory (below dir name) = (dir, name) := by
  unfold splitDirectory
  by_cases hdir : dir = []
  · subst hdir
    have hnone : Text.splitLast? '/' name = none := (Text.splitLast?_eq_none '/').mpr h
    rw [below_nil, hnone]
    rfl
  · rw [below_of_ne hdir, Text.splitLast?_append '/' h]
    rfl

/-- A directory and a name below it are told by the path that they make. -/
theorem below_inj {dir dir' name name' : List Char} (h : '/' ∉ name) (h' : '/' ∉ name') :
    below dir name = below dir' name' ↔ dir = dir' ∧ name = name' := by
  constructor
  · intro heq
    have hparts := congrArg splitDirectory heq
    rw [splitDirectory_below h, splitDirectory_below h'] at hparts
    exact Prod.mk.inj hparts
  · rintro ⟨rfl, rfl⟩
    rfl

theorem slash_not_mem_name (cs : List Char) : '/' ∉ (splitDirectory cs).2 := by
  unfold splitDirectory
  cases hparts : Text.splitLast? '/' cs with
  | none => exact (Text.splitLast?_eq_none '/').mp hparts
  | some parts => exact ((Text.splitLast?_eq_some '/').mp hparts).2

theorem exists_stem_append (name : List Char) : ∃ rest, stem name ++ rest = name := by
  unfold stem
  cases hparts : Text.splitLast? '.' name with
  | none => exact ⟨[], List.append_nil name⟩
  | some parts =>
    obtain ⟨hname, -⟩ := (Text.splitLast?_eq_some '.').mp hparts
    exact ⟨'.' :: parts.2, hname.symm⟩

theorem slash_not_mem_fileStem (path : String) : '/' ∉ fileStem path := by
  intro h
  obtain ⟨rest, hname⟩ := exists_stem_append (splitDirectory path.toList).2
  refine slash_not_mem_name path.toList ?_
  rw [← hname]
  exact List.mem_append_left rest h

/-! ### The address -/

/-- The last part of the address of a page. -/
def lastPart (path : String) (directoryUrls : Bool) : List Char :=
  match isIndex path, directoryUrls with
  | true, true => []
  | true, false => "index.html".toList
  | false, true => fileStem path ++ ['/']
  | false, false => fileStem path ++ ".html".toList

/-- The address of a page is its last part below its directory. -/
theorem url_toList (path : String) (directoryUrls : Bool) :
    (url path directoryUrls).toList = below (directory path) (lastPart path directoryUrls) := by
  unfold url lastPart
  rw [String.toList_ofList]
  cases isIndex path <;> cases directoryUrls
  case false.false | false.true => exact List.append_assoc _ _ _
  case true.false => rfl
  case true.true => exact (List.append_nil _).symm

theorem url_eq_iff_below {p q : String} {directoryUrls : Bool} :
    url p directoryUrls = url q directoryUrls ↔
      below (directory p) (lastPart p directoryUrls) =
        below (directory q) (lastPart q directoryUrls) := by
  rw [← url_toList, ← url_toList, String.toList_inj]

/-- No page but an index page has the stem `index`. -/
theorem fileStem_ne_index {path : String} (h : isIndex path = false) :
    fileStem path ≠ "index".toList := by
  intro hstem
  have hindex : isIndex path = indexStems.contains (Text.lowerAscii (fileStem path)) := rfl
  rw [hindex, hstem] at h
  revert h
  decide

theorem fileStem_ne_nil {path : String} (h : isIndex path = true) : fileStem path ≠ [] := by
  intro hstem
  have hindex : isIndex path = indexStems.contains (Text.lowerAscii (fileStem path)) := rfl
  rw [hindex, hstem] at h
  revert h
  decide

/-! ### Pages that share an address -/

/-- The pages are one file: both stand for one directory, or neither stands for its
directory and they have one stem in it. -/
def SharesFile (p q : String) : Prop :=
  directory p = directory q ∧
    (isIndex p = true ∧ isIndex q = true ∨
      isIndex p = false ∧ isIndex q = false ∧ fileStem p = fileStem q)

/-- The first page stands for the directory that the second page, which stands for none,
has for its address. -/
def StandsForPage (p q : String) : Prop :=
  isIndex p = true ∧ isIndex q = false ∧ directory p = below (directory q) (fileStem q)

/-- Pages share the address of a file if they are one file. -/
theorem fileUrl_eq_iff {p q : String} : url p false = url q false ↔ SharesFile p q := by
  have hfile : ∀ path : String, '/' ∉ fileStem path ++ ".html".toList := fun path h =>
    (List.mem_append.mp h).elim (slash_not_mem_fileStem path) (by decide)
  have hindex : '/' ∉ "index.html".toList := by decide
  -- the index file of a directory is no other page's file
  have happend : "index".toList ++ ".html".toList = "index.html".toList := by decide
  rw [url_eq_iff_below]
  unfold SharesFile lastPart
  cases hp : isIndex p <;> cases hq : isIndex q
  case false.false =>
    rw [below_inj (hfile p) (hfile q), List.append_cancel_right_eq]
    simp
  case false.true =>
    rw [below_inj (hfile p) hindex, ← happend, List.append_cancel_right_eq]
    exact iff_of_false (fun h => fileStem_ne_index hp h.2) (by simp)
  case true.false =>
    rw [below_inj hindex (hfile q), ← happend, List.append_cancel_right_eq]
    exact iff_of_false (fun h => fileStem_ne_index hq h.2.symm) (by simp)
  case true.true =>
    rw [below_inj hindex hindex]
    simp

/-- An index page has the address of the directory that it stands for. -/
theorem below_eq_append_slash {dir place : List Char} (h : place ≠ []) :
    below dir [] = place ++ ['/'] ↔ dir = place := by
  by_cases hdir : dir = []
  · subst hdir
    simp [below_nil, h.symm]
  · rw [below_of_ne hdir, List.append_cancel_right_eq]

theorem below_ne_nil {dir name : List Char} (h : name ≠ []) : below dir name ≠ [] := fun hnil =>
  h (List.append_eq_nil_iff.mp hnil).2

/-- Pages share the address of a directory if they are one file, or if one of them stands
for the directory that the other has for its address. -/
theorem directoryUrl_eq_iff {p q : String} (hp : fileStem p ≠ []) (hq : fileStem q ≠ []) :
    url p true = url q true ↔ SharesFile p q ∨ StandsForPage p q ∨ StandsForPage q p := by
  have hstem : ∀ path : String, '/' ∉ fileStem path := slash_not_mem_fileStem
  rw [url_eq_iff_below]
  unfold SharesFile StandsForPage lastPart
  cases hip : isIndex p <;> cases hiq : isIndex q
  case false.false =>
    rw [below_append, below_append, List.append_cancel_right_eq, below_inj (hstem p) (hstem q)]
    simp
  case false.true =>
    rw [eq_comm, below_append, below_eq_append_slash (below_ne_nil hp)]
    simp
  case true.false =>
    rw [below_append, below_eq_append_slash (below_ne_nil hq)]
    simp
  case true.true =>
    rw [below_inj List.not_mem_nil List.not_mem_nil]
    simp

/-- **When two pages share an address.** As files they do so exactly if they are one file
of one directory; as directories also if one of them is the index page of the directory
that the other page has for its address. Pages that collide as files collide as
directories. -/
theorem url_eq_iff {p q : String} (hp : fileStem p ≠ []) (hq : fileStem q ≠ []) :
    (url p false = url q false ↔ SharesFile p q) ∧
      (url p true = url q true ↔ SharesFile p q ∨ StandsForPage p q ∨ StandsForPage q p) ∧
      (url p false = url q false → url p true = url q true) := by
  refine ⟨fileUrl_eq_iff, directoryUrl_eq_iff hp hq, fun h => ?_⟩
  exact (directoryUrl_eq_iff hp hq).mpr (.inl (fileUrl_eq_iff.mp h))

/-- An index page and the page beside its directory share an address as directories
only. -/
theorem url_eq_iff_guidePages :
    fileStem "docs/v1.2/README.md" ≠ [] ∧ fileStem "docs/v1.2.md" ≠ [] ∧
      url "docs/v1.2/README.md" true = url "docs/v1.2.md" true ∧
      url "docs/v1.2/README.md" false ≠ url "docs/v1.2.md" false := by
  have hp : fileStem "docs/v1.2/README.md" ≠ [] := by decide
  have hq : fileStem "docs/v1.2.md" ≠ [] := by decide
  obtain ⟨hfile, hdirectory, -⟩ := url_eq_iff hp hq
  refine ⟨hp, hq, hdirectory.mpr (.inr (.inl ?_)), fun h => ?_⟩
  · unfold StandsForPage
    decide
  · have hshares := (hfile.mp h).1
    revert hshares
    decide

/-! ### Relative addresses -/

/-- A path or address that neither begins with a slash nor holds two in a row. -/
def Relative (path : String) : Prop :=
  path.toList.head? ≠ some '/' ∧ ¬ ['/', '/'] <:+: path.toList

/-- Of the pieces between slashes only the last may be empty. -/
theorem relative_iff {path : String} :
    Relative path ↔ [] ∉ (Text.splitAt '/' path.toList).dropLast := by
  rw [Text.empty_mem_splitAt_iff, not_or]
  exact Iff.rfl

instance (path : String) : Decidable (Relative path) :=
  decidable_of_iff ((Text.splitAt '/' path.toList).dropLast.any List.isEmpty = false) <| by
    rw [relative_iff, List.any_eq_false]
    simp only [List.isEmpty_iff]
    exact ⟨fun h hmem => h [] hmem rfl, fun h piece hmem hnil => h (hnil ▸ hmem)⟩

/-- The names of the directories on the way to a name, and the name. -/
theorem splitAt_below {dir name : List Char} (h : '/' ∉ name) :
    Text.splitAt '/' (below dir name) =
      (if dir = [] then [] else Text.splitAt '/' dir) ++ [name] := by
  by_cases hdir : dir = []
  · rw [hdir, below_nil, if_pos rfl, Text.splitAt_of_not_mem '/' h]
    rfl
  · rw [below_of_ne hdir, if_neg hdir, Text.splitAt_append, Text.splitAt_of_not_mem '/' h]

/-- A path that does not begin with a slash is its file name in its directory. -/
theorem below_splitDirectory {cs : List Char} (h : cs.head? ≠ some '/') :
    below (splitDirectory cs).1 (splitDirectory cs).2 = cs := by
  unfold splitDirectory
  cases hparts : Text.splitLast? '/' cs with
  | none => rfl
  | some parts =>
    obtain ⟨hcs, -⟩ := (Text.splitLast?_eq_some '/').mp hparts
    have hdir : parts.1 ≠ [] := by
      intro hnil
      rw [hcs, hnil] at h
      exact h rfl
    exact (below_of_ne hdir parts.2).trans hcs.symm

/-- **The address of a relative path is relative, unless a page with an empty stem has a
directory of its own.** -/
theorem url_relative_iff {path : String} (h : Relative path) (directoryUrls : Bool) :
    Relative (url path directoryUrls) ↔ ¬ (directoryUrls = true ∧ fileStem path = []) := by
  have hpath : below (directory path) (splitDirectory path.toList).2 = path.toList :=
    below_splitDirectory h.1
  have hdirs : [] ∉ (if directory path = [] then [] else Text.splitAt '/' (directory path)) := by
    have hpieces := relative_iff.mp h
    rwa [← hpath, splitAt_below (slash_not_mem_name _), List.dropLast_concat] at hpieces
  have hstem : '/' ∉ fileStem path := slash_not_mem_fileStem path
  rw [relative_iff, url_toList]
  unfold lastPart
  cases hindex : isIndex path <;> cases directoryUrls
  case false.false =>
    have hfile : '/' ∉ fileStem path ++ ".html".toList := fun hmem =>
      (List.mem_append.mp hmem).elim hstem (by decide)
    rw [splitAt_below hfile, List.dropLast_concat]
    simpa using hdirs
  case true.false =>
    have hfile : '/' ∉ "index.html".toList := by decide
    rw [splitAt_below hfile, List.dropLast_concat]
    simpa using hdirs
  case false.true =>
    -- the stem is a piece of its own here
    have hpieces : Text.splitAt '/' (below (directory path) (fileStem path ++ ['/'])) =
        (if directory path = [] then [] else Text.splitAt '/' (directory path)) ++
          [fileStem path] ++ [[]] := by
      rw [below_append, Text.splitAt_append, splitAt_below hstem]
      rfl
    rw [hpieces, List.dropLast_concat, List.mem_append, not_or, and_iff_right hdirs,
      List.mem_singleton, eq_comm, and_iff_right rfl]
  case true.true =>
    have hne : fileStem path ≠ [] := fileStem_ne_nil hindex
    rw [splitAt_below List.not_mem_nil, List.dropLast_concat]
    simpa [hne] using hdirs

end Page
end SitePlan
