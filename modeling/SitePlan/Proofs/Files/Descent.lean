/-
# Names that lead to a file

Following a path whose segments are all names is going down from directory to
directory, and what is found there is a file exactly if the names lead to one of
the tree's files. For a path below a directory that has been found, this is what
a host does, as long as the path stays within its limits: no NUL, and neither
the whole path nor a name too long.

Key definitions: `FileTree.leaves`, `FileTree.descend?`, `FileTree.Distinct`,
`Path.Named`, `Host.Admits`.
Key theorems: `FileTree.mem_leaves_iff`, `FileTree.leaves_nodup`,
`FileTree.follow_append`, `FileTree.follow_eq_ok_iff`, `Path.join_join`,
`Host.find_join_eq_ok_iff`, `Host.find_file_iff`.
-/
import SitePlan.Files.Tree
import SitePlan.Proofs.Files.Components
import SitePlan.Proofs.Text.Order

namespace SitePlan

/-! ### The files of a tree -/

namespace FileTree

mutual

/-- The files at and below a node, by the names on the way to them. -/
def leaves : FileTree → List (List String × ByteArray)
  | .file bytes => [([], bytes)]
  | .directory entries => leavesIn entries

/-- The files at and below the entries of a directory. -/
def leavesIn : List (String × FileTree) → List (List String × ByteArray)
  | [] => []
  | (name, node) :: rest => (leaves node).map (fun l => (name :: l.1, l.2)) ++ leavesIn rest

end

/-- The node that names lead to. -/
def descend? : List String → FileTree → Option FileTree
  | [], node => some node
  | name :: rest, node => do
    let next ← node.entry? name
    descend? rest next

/-- No directory of the tree has two entries of one name. -/
inductive Distinct : FileTree → Prop
  | file {bytes : ByteArray} : Distinct (.file bytes)
  | directory {entries : List (String × FileTree)} : (entries.map Prod.fst).Nodup →
      (∀ e ∈ entries, Distinct e.2) → Distinct (.directory entries)

theorem leavesIn_eq : ∀ entries : List (String × FileTree), leavesIn entries =
    entries.flatMap fun e => (leaves e.2).map fun l => (e.1 :: l.1, l.2)
  | [] => rfl
  | (name, node) :: rest => by
    rw [leavesIn, leavesIn_eq rest, List.flatMap_cons]

theorem mem_leavesIn {names : List String} {bytes : ByteArray}
    {entries : List (String × FileTree)} : (names, bytes) ∈ leavesIn entries ↔
      ∃ e ∈ entries, ∃ rest, names = e.1 :: rest ∧ (rest, bytes) ∈ leaves e.2 := by
  rw [leavesIn_eq, List.mem_flatMap]
  refine exists_congr fun e => and_congr_right fun _ => ?_
  rw [List.mem_map]
  constructor
  · rintro ⟨l, hl, h⟩
    obtain ⟨rfl, rfl⟩ := Prod.mk.inj h
    exact ⟨l.1, rfl, hl⟩
  · rintro ⟨rest, rfl, hl⟩
    exact ⟨(rest, bytes), hl, rfl⟩

/-- The files of a tree are those that names lead to. -/
theorem mem_leaves_iff {bytes : ByteArray} : ∀ {names : List String} {node : FileTree},
    node.Distinct → ((names, bytes) ∈ node.leaves ↔ node.descend? names = some (.file bytes))
  | names, .file bytes', _ => by
    rw [leaves, List.mem_singleton, Prod.mk.injEq]
    cases names with
    | nil => simp [descend?, eq_comm]
    | cons name rest => simp [descend?, entry?]
  | [], .directory entries, _ => by
    rw [leaves, mem_leavesIn]
    simp [descend?]
  | name :: rest, .directory entries, .directory hnames hnodes => by
    have hlookup : entry? name (directory entries) = entries.lookup name := rfl
    rw [leaves, mem_leavesIn, descend?, hlookup, Option.bind_eq_bind, Option.bind_eq_some_iff]
    constructor
    · rintro ⟨e, he, names, heq, hl⟩
      obtain ⟨rfl, rfl⟩ := List.cons.inj heq
      exact ⟨e.2, (lookup_eq_some_iff_mem hnames).mpr he, (mem_leaves_iff (hnodes e he)).mp hl⟩
    · rintro ⟨node, he, hl⟩
      have he := (lookup_eq_some_iff_mem hnames).mp he
      exact ⟨_, he, rest, rfl, (mem_leaves_iff (hnodes _ he)).mpr hl⟩

theorem leaves_nodup {node : FileTree} (h : node.Distinct) :
    (node.leaves.map Prod.fst).Nodup := by
  induction h with
  | file => exact List.nodup_singleton _
  | @directory entries hnames _ ih =>
    rw [leaves, leavesIn_eq, List.map_flatMap, List.nodup_flatMap]
    constructor
    · intro e he
      have hcons : ((e.2.leaves.map fun l => (e.1 :: l.1, l.2)).map Prod.fst) =
          (e.2.leaves.map Prod.fst).map (e.1 :: ·) := by
        rw [List.map_map, List.map_map]
        rfl
      rw [hcons]
      exact (ih e he).map (List.cons_injective)
    · -- files below different entries differ in their first name
      refine (List.pairwise_map.mp hnames).imp fun hne x hx hy => ?_
      simp only [List.map_map, List.mem_map] at hx hy
      obtain ⟨l, -, rfl⟩ := hx
      obtain ⟨l', -, heq⟩ := hy
      exact hne (List.cons.inj heq).1.symm

/-! ### Following names -/

theorem follow_cons (segment : List Char) (rest : List (List Char)) (here : FileTree) :
    ∀ above : List FileTree, follow above here (segment :: rest) =
      if !here.isDirectory then .error .notDirectory
      else if segment = [] ∨ segment = ['.'] then follow above here rest
      else if segment = ['.', '.'] then follow above.tail (above.headD here) rest
      else if 255 < (String.ofList segment).utf8ByteSize then .error .nameTooLong
      else
        here.entry? (String.ofList segment) |>.elim (.error .notFound) fun next =>
          follow (here :: above) next rest := by
  intro above
  cases above <;> cases hentry : here.entry? (String.ofList segment) <;> simp [follow, hentry]

/-- Without a `..` the directories above do not matter. -/
theorem follow_above : ∀ {segments : List (List Char)}, ['.', '.'] ∉ segments →
    ∀ (above above' : List FileTree) (here : FileTree),
      follow above here segments = follow above' here segments
  | [], _, _, _, _ => by
    rw [follow, follow]
  | segment :: rest, hup, above, above', here => by
    obtain ⟨hsegment, hrest⟩ := List.ne_and_not_mem_of_not_mem_cons hup
    have ih := follow_above hrest
    rw [follow_cons, follow_cons, if_neg hsegment.symm, if_neg hsegment.symm, ih above above']
    cases here.entry? (String.ofList segment) with
    | none => rfl
    | some next => rw [Option.elim_some, Option.elim_some, ih (here :: above) (here :: above')]

/-- Segments after others go on from what these lead to, unless they lead back. -/
theorem follow_append {more : List (List Char)} (hup : ['.', '.'] ∉ more) :
    ∀ (segments : List (List Char)) (above : List FileTree) (here : FileTree),
      follow above here (segments ++ more) =
        (follow above here segments).bind fun node => follow [] node more
  | [], above, here => by
    rw [List.nil_append, follow]
    exact follow_above hup above [] here
  | segment :: rest, above, here => by
    have ih := follow_append hup rest
    rw [List.cons_append, follow_cons, follow_cons]
    split_ifs
    · rfl
    · exact ih above here
    · exact ih above.tail (above.headD here)
    · rfl
    · cases here.entry? (String.ofList segment) with
      | none => rfl
      | some next => exact ih (here :: above) next

theorem follow_replicate_nil {above : List FileTree} {entries : List (String × FileTree)} :
    ∀ n, follow above (.directory entries) (List.replicate n []) = .ok (.directory entries)
  | 0 => by
    rw [List.replicate_zero, follow]
  | n + 1 => by
    rw [List.replicate_succ, follow_cons]
    exact follow_replicate_nil n

end FileTree

/-- A text in which every segment is a name: none is empty, a `.` or a `..`. -/
def Path.Named (cs : List Char) : Prop :=
  ∀ s ∈ Text.splitAt '/' cs, s ≠ [] ∧ s ≠ ['.'] ∧ s ≠ ['.', '.']

instance (cs : List Char) : Decidable (Path.Named cs) :=
  inferInstanceAs (Decidable (∀ s ∈ Text.splitAt '/' cs, s ≠ [] ∧ s ≠ ['.'] ∧ s ≠ ['.', '.']))

/-- The names that a text is split into. -/
def Path.namesOf (cs : List Char) : List String := (Text.splitAt '/' cs).map String.ofList

theorem FileTree.follow_eq_ok_iff {node : FileTree} : ∀ {segments : List (List Char)}
    (above : List FileTree) (here : FileTree),
    (∀ s ∈ segments, s ≠ [] ∧ s ≠ ['.'] ∧ s ≠ ['.', '.']) →
    (follow above here segments = .ok node ↔
      (∀ s ∈ segments, (String.ofList s).utf8ByteSize ≤ 255) ∧
        here.descend? (segments.map String.ofList) = some node)
  | [], above, here, _ => by
    rw [follow]
    simp [descend?]
  | segment :: rest, above, here, hnames => by
    obtain ⟨⟨hempty, hdot, hup⟩, hrest⟩ := List.forall_mem_cons.mp hnames
    rw [follow_cons, if_neg (not_or.mpr ⟨hempty, hdot⟩), if_neg hup, List.forall_mem_cons,
      List.map_cons, descend?]
    cases here with
    | file bytes => simp [isDirectory, entry?]
    | directory entries =>
      simp only [isDirectory, Bool.not_true, Bool.false_eq_true, if_false]
      by_cases hlong : 255 < (String.ofList segment).utf8ByteSize
      · have hnot : ¬ (String.ofList segment).utf8ByteSize ≤ 255 := Nat.not_le.mpr hlong
        simp [hlong, hnot]
      · rw [if_neg hlong, and_iff_right (Nat.not_lt.mp hlong)]
        cases entry? (String.ofList segment) (directory entries) with
        | none => simp
        | some next => exact follow_eq_ok_iff _ next hrest

/-! ### Joined paths -/

namespace Path

theorem Named.relative {p : Path} (h : Named p.chars) : p.isAbsolute = false :=
  isAbsolute_eq_false fun hs => (h [] hs).1 rfl

theorem Named.text_ne {p : Path} (h : Named p.chars) : p.text ≠ "" := by
  intro hp
  have hchars : p.chars = [] := String.toList_eq_nil_iff.mpr hp
  exact (h [] (by rw [hchars]; exact List.mem_cons_self)).1 rfl

theorem Named.not_up {cs : List Char} (h : Named cs) : ['.', '.'] ∉ Text.splitAt '/' cs :=
  fun hs => (h _ hs).2.2 rfl

theorem chars_injective {p q : Path} (h : p.chars = q.chars) : p = q := by
  cases p
  cases q
  exact congrArg Path.mk (String.toList_inj.mp h)

/-- The separator that a path needs before what is joined to it. -/
def gap (base : Path) : List Char :=
  if base.chars = [] ∨ base.chars.getLast? = some '/' then [] else ['/']

theorem join_chars {base p : Path} (hp : p.isAbsolute = false) :
    (base.join p).chars = base.chars ++ (base.gap ++ p.chars) := by
  unfold join gap
  rw [hp, if_neg Bool.false_ne_true]
  split_ifs
  · exact String.toList_append
  · show (base.text ++ "/" ++ p.text).toList = _
    rw [String.toList_append, String.toList_append, List.append_assoc]
    rfl

theorem le_join_bytes (base : Path) {p : Path} (hp : p.isAbsolute = false) :
    base.text.utf8ByteSize + p.text.utf8ByteSize ≤ (base.join p).text.utf8ByteSize := by
  unfold join
  rw [hp, if_neg Bool.false_ne_true]
  split_ifs
  · exact Nat.le_of_eq String.utf8ByteSize_append.symm
  · show _ ≤ (base.text ++ "/" ++ p.text).utf8ByteSize
    rw [String.utf8ByteSize_append, String.utf8ByteSize_append]
    omega

theorem isAbsolute_append {p q : Path} {cs : List Char} (hp : p.chars ≠ [])
    (hq : q.chars = p.chars ++ cs) : q.isAbsolute = p.isAbsolute := by
  unfold isAbsolute
  rw [hq, List.head?_append_of_ne_nil _ hp]

theorem join_text_ne (base : Path) {p : Path} (hp : p.text ≠ "") : (base.join p).text ≠ "" := by
  have hne : p.chars ≠ [] := fun h => hp (String.toList_eq_nil_iff.mp h)
  intro h
  have hchars : (base.join p).chars = [] := String.toList_eq_nil_iff.mpr h
  cases habs : p.isAbsolute with
  | true => exact hne ((congrArg chars (if_pos habs)).symm.trans hchars)
  | false =>
    rw [join_chars habs] at hchars
    exact hne (List.append_eq_nil_iff.mp (List.append_eq_nil_iff.mp hchars).2).2

/-- Joining may be done in any order. -/
theorem join_join (base : Path) {dir p : Path} (hdir : dir.text ≠ "") (hp : p.isAbsolute = false) :
    base.join (dir.join p) = (base.join dir).join p := by
  have hne : dir.chars ≠ [] := fun h => hdir (String.toList_eq_nil_iff.mp h)
  have hjoined : (dir.join p).isAbsolute = dir.isAbsolute :=
    isAbsolute_append hne (join_chars hp)
  cases habs : dir.isAbsolute with
  | true =>
    have hbase : ∀ q : Path, q.isAbsolute = true → base.join q = q := fun q hq => if_pos hq
    rw [hbase dir habs, hbase (dir.join p) (hjoined.trans habs)]
  | false =>
    -- the two paths before `p` end alike
    have hgap : (base.join dir).gap = dir.gap := by
      unfold gap
      rw [join_chars habs, List.getLast?_append_of_ne_nil, List.getLast?_append_of_ne_nil]
      · simp [hne]
      · exact hne
      · simp [hne]
    refine chars_injective ?_
    rw [join_chars (hjoined.trans habs), join_chars hp, join_chars hp, join_chars habs, hgap]
    simp only [List.append_assoc]

/-- What is joined to a path adds its segments to those of the path, without an
empty one at their end. -/
theorem splitAt_join {base p : Path} (hbase : base.text ≠ "") (hp : p.isAbsolute = false) :
    ∃ before, Text.splitAt '/' (base.join p).chars = before ++ Text.splitAt '/' p.chars ∧
      (Text.splitAt '/' base.chars = before ∨ Text.splitAt '/' base.chars = before ++ [[]]) := by
  have hne : base.chars ≠ [] := fun h => hbase (String.toList_eq_nil_iff.mp h)
  rw [join_chars hp]
  unfold gap
  by_cases hlast : base.chars.getLast? = some '/'
  · obtain ⟨xs, hxs⟩ := List.getLast?_eq_some_iff.mp hlast
    refine ⟨Text.splitAt '/' xs, ?_, .inr ?_⟩
    · rw [if_pos (.inr hlast), hxs, List.nil_append, List.append_assoc]
      exact Text.splitAt_append '/' xs p.chars
    · rw [hxs]
      exact Text.splitAt_append '/' xs []
  · refine ⟨Text.splitAt '/' base.chars, ?_, .inl rfl⟩
    rw [if_neg (not_or.mpr ⟨hne, hlast⟩)]
    exact Text.splitAt_append '/' base.chars p.chars

end Path

/-! ### What a host finds -/

namespace Host

/-- The path `p` below `dir` is within the limits of a host. -/
structure Admits (dir p : Path) : Prop where
  no_nul : '\x00' ∉ (dir.join p).chars
  path_bytes : (dir.join p).text.utf8ByteSize ≤ maxPathBytes
  name_bytes : ∀ s ∈ Text.splitAt '/' p.chars, (String.ofList s).utf8ByteSize ≤ 255

theorem find_eq_ok_iff {h : Host} {p : Path} {node : FileTree} : h.find p = .ok node ↔
    '\x00' ∉ p.chars ∧ p.text ≠ "" ∧ p.text.utf8ByteSize ≤ maxPathBytes ∧
      FileTree.follow [] h.tree (Text.splitAt '/' (h.workingDirectory.join p).chars) =
        .ok node := by
  unfold find
  split_ifs with hnul hempty hlong
  · simp_all
  · simp [hempty]
  · simp [Nat.not_le.mpr hlong]
  · simp_all

theorem follow_concat_nil {h : Host} {segments : List (List Char)}
    {entries : List (String × FileTree)}
    (hfind : FileTree.follow [] h.tree (segments ++ [[]]) = .ok (.directory entries)) :
    FileTree.follow [] h.tree segments = .ok (.directory entries) := by
  rw [FileTree.follow_append (by simp)] at hfind
  cases hs : FileTree.follow [] h.tree segments with
  | error e =>
    rw [hs] at hfind
    cases hfind
  | ok node =>
    rw [hs] at hfind
    cases node with
    | file bytes => cases hfind
    | directory entries' => exact hfind

/-- A host follows a path of names below a directory that it finds by going down
along the names. -/
theorem find_join_eq_ok_iff {h : Host} {dir p : Path} {entries : List (String × FileTree)}
    {node : FileTree} (hdir : h.find dir = .ok (.directory entries)) (hp : Path.Named p.chars) :
    h.find (dir.join p) = .ok node ↔ Admits dir p ∧
      (FileTree.directory entries).descend? (Path.namesOf p.chars) = some node := by
  obtain ⟨-, hne, -, hdir⟩ := find_eq_ok_iff.mp hdir
  have hrelative := hp.relative
  have hwd := Path.join_text_ne h.workingDirectory hne
  obtain ⟨before, hsplit, hbefore⟩ :=
    Path.splitAt_join hwd hrelative
  have hstart : FileTree.follow [] h.tree before = .ok (.directory entries) := by
    rcases hbefore with hbefore | hbefore
    · rwa [hbefore] at hdir
    · rw [hbefore] at hdir
      exact follow_concat_nil hdir
  have hfollow : FileTree.follow [] h.tree
      (Text.splitAt '/' (h.workingDirectory.join (dir.join p)).chars) =
        FileTree.follow [] (.directory entries) (Text.splitAt '/' p.chars) := by
    rw [Path.join_join _ hne hrelative, hsplit, FileTree.follow_append hp.not_up, hstart]
    rfl
  rw [find_eq_ok_iff, hfollow, FileTree.follow_eq_ok_iff [] _ hp]
  constructor
  · rintro ⟨hnul, -, hlong, hnames, hnode⟩
    exact ⟨⟨hnul, hlong, hnames⟩, hnode⟩
  · rintro ⟨⟨hnul, hlong, hnames⟩, hnode⟩
    exact ⟨hnul, Path.join_text_ne dir hp.text_ne, hlong, hnames, hnode⟩

/-- A path of names below a directory leads to a file exactly if it is within the
limits and its names lead to the file in the tree. -/
theorem find_file_iff {h : Host} {dir p : Path} {entries : List (String × FileTree)}
    {bytes : ByteArray} (hdir : h.find dir = .ok (.directory entries))
    (hdistinct : (FileTree.directory entries).Distinct) (hp : Path.Named p.chars) :
    h.find (dir.join p) = .ok (.file bytes) ↔
      Admits dir p ∧ (Path.namesOf p.chars, bytes) ∈ FileTree.leavesIn entries := by
  have hleaf : (Path.namesOf p.chars, bytes) ∈ FileTree.leavesIn entries ↔
      (FileTree.directory entries).descend? (Path.namesOf p.chars) = some (.file bytes) :=
    FileTree.mem_leaves_iff hdistinct
  rw [find_join_eq_ok_iff hdir hp, hleaf]

theorem isFile_iff {h : Host} {p : Path} :
    h.isFile p = true ↔ ∃ bytes, h.find p = .ok (.file bytes) := by
  unfold isFile
  cases h.find p with
  | error e => simp
  | ok node => cases node <;> simp

theorem readText_eq_ok_iff {h : Host} {p : Path} {text : String} : h.readText p = .ok text ↔
    ∃ bytes, h.find p = .ok (.file bytes) ∧ String.fromUTF8? bytes = some text := by
  unfold readText
  cases h.find p with
  | error e => simp
  | ok node =>
    cases node with
    | directory entries => simp
    | file bytes => cases htext : String.fromUTF8? bytes <;> simp [htext]

end Host
end SitePlan
