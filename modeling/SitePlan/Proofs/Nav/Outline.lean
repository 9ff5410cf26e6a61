/-
# What the text of a navigation tells

The text has one line for each item, in the order in which one comes by the items when
each is followed by those below it. A way names an item by its place among the items of
the top level, then among the children there, and so on; in this order a way comes before
those that go on from it, so the order of the lines is that of the ways. A line tells how
deep its item is, since the mark behind the indentation is no space, and whether it is a
group, with its title if so. The depths alone tell the ways: of two trees with the same
text each has an item where the other has one, and a group where it has a group.

Pages and links may be taken for each other, as may their titles: the title of a page can
hold the arrow that stands between the title and the address of a link.

Key definitions: `NavItem.at?`, `NavItem.rows`, `NavItem.lineAt`, `NavItem.Alike`,
`Navigation.OnOneLine`.
Key theorems: `NavItem.mem_rows`, `NavItem.rows_sorted`, `NavItem.linesOf_eq`,
`NavItem.lineAt_injective`, `NavItem.alike_of_levels`, `Navigation.text_outline`.
-/
import Mathlib.Data.List.Forall2
import Mathlib.Order.Basic
import SitePlan.Nav.Item
import SitePlan.Proofs.Text.Split

namespace SitePlan
namespace NavItem

/-- The item at the end of a way: a place among the given items, then one among the
children there, and so on. -/
def at? : List NavItem → List Nat → Option NavItem
  | _, [] => none
  | items, [place] => items[place]?
  | items, place :: next :: rest =>
    items[place]?.bind fun item => at? item.children (next :: rest)

/-- The way to the right neighbour of an item, or from there on. -/
def stepRight : List Nat → List Nat
  | [] => []
  | place :: rest => (place + 1) :: rest

mutual

/-- The items below an item, each with the way to it from there. -/
def rowsBelow : NavItem → List (List Nat × NavItem)
  | ⟨_, _, _, _, children⟩ => rows children

/-- All items at and below the given ones, each with the way to it. -/
def rows : List NavItem → List (List Nat × NavItem)
  | [] => []
  | item :: rest =>
    ([0], item) :: (rowsBelow item).map (fun r => (0 :: r.1, r.2)) ++
      (rows rest).map fun r => (stepRight r.1, r.2)

end

/-- The mark in front of an item. -/
def mark (item : NavItem) : Char := if item.kind = .group then '+' else '-'

/-- What is told of an item: the title of a group; the title and the source of a page, or
the title and the address of a link. -/
def caption (item : NavItem) : List Char :=
  match item.kind with
  | .page => item.title.toList ++ " [".toList ++ (item.source.getD "").toList ++ [']']
  | .link => item.title.toList ++ " -> ".toList ++ (item.url.getD "").toList
  | .group => item.title.toList

/-- The line of an item at a depth. -/
def lineAt (depth : Nat) (item : NavItem) : List Char :=
  List.replicate (2 * depth) ' ' ++ item.mark :: ' ' :: item.caption

/-- Both items are groups with the same title, or neither is a group. -/
def Alike (a b : NavItem) : Prop :=
  (a.kind = .group ↔ b.kind = .group) ∧ (a.kind = .group → a.title = b.title)

/-! ### Ways -/

theorem at?_nil (way : List Nat) : at? [] way = none := by
  rcases way with _ | ⟨place, _ | ⟨next, rest⟩⟩ <;> rfl

theorem at?_first (item : NavItem) (items : List NavItem) : ∀ {way : List Nat}, way ≠ [] →
    at? (item :: items) (0 :: way) = at? item.children way
  | [], h => absurd rfl h
  | _ :: _, _ => rfl

theorem at?_stepRight (item : NavItem) (items : List NavItem) : ∀ way : List Nat,
    at? (item :: items) (stepRight way) = at? items way
  | [] => rfl
  | [_] => rfl
  | _ :: _ :: _ => rfl

theorem rowsBelow_eq (item : NavItem) : rowsBelow item = rows item.children := by
  cases item
  rw [rowsBelow]

theorem rows_cons (item : NavItem) (items : List NavItem) : rows (item :: items) =
    ([0], item) :: (rows item.children).map (fun r => (0 :: r.1, r.2)) ++
      (rows items).map fun r => (stepRight r.1, r.2) := by
  rw [rows, rowsBelow_eq]

theorem way_ne_nil : ∀ {items : List NavItem}, ∀ r ∈ rows items, r.1 ≠ []
  | [], r, h => by
    rw [rows] at h
    exact absurd h List.not_mem_nil
  | item :: items, r, h => by
    rw [rows_cons] at h
    rcases List.mem_append.mp h with h | h
    · rcases List.mem_cons.mp h with rfl | h
      · exact List.cons_ne_nil _ _
      · obtain ⟨s, -, rfl⟩ := List.mem_map.mp h
        exact List.cons_ne_nil _ _
    · obtain ⟨s, hs, rfl⟩ := List.mem_map.mp h
      obtain ⟨place, rest, hway⟩ := List.exists_cons_of_ne_nil (way_ne_nil s hs)
      rw [hway]
      exact List.cons_ne_nil _ _

/-- The rows have every item once for each way that leads to it. -/
theorem mem_rows {item : NavItem} : ∀ {items : List NavItem} {way : List Nat},
    (way, item) ∈ rows items ↔ at? items way = some item
  | [], way => by simp [rows, at?_nil]
  | ⟨title, kind, url, source, children⟩ :: items, way => by
    have hbelow : ∀ w, (w, item) ∈ rows children ↔ at? children w = some item :=
      fun w => mem_rows
    have hright : ∀ w, (w, item) ∈ rows items ↔ at? items w = some item := fun w => mem_rows
    rw [rows_cons, List.mem_append, List.mem_cons, List.mem_map, List.mem_map]
    constructor
    · rintro ((h | ⟨⟨w, i⟩, hw, h⟩) | ⟨⟨w, i⟩, hw, h⟩)
      · cases h
        rfl
      · cases h
        rw [at?_first _ _ (way_ne_nil _ hw)]
        exact (hbelow w).mp hw
      · cases h
        rw [at?_stepRight]
        exact (hright w).mp hw
    · intro h
      rcases way with _ | ⟨_ | place, rest⟩
      · cases h
      · rcases rest with _ | ⟨next, rest⟩
        · cases h
          exact .inl (.inl rfl)
        · exact .inl (.inr ⟨(next :: rest, item), (hbelow _).mpr h, rfl⟩)
      · rw [← stepRight, at?_stepRight] at h
        exact .inr ⟨(place :: rest, item), (hright _).mpr h, rfl⟩

theorem stepRight_lt {v w : List Nat} (h : v < w) : stepRight v < stepRight w := by
  rcases v with _ | ⟨a, v⟩ <;> rcases w with _ | ⟨b, w⟩
  · exact h
  · exact List.nil_lt_cons _ _
  · exact absurd h (List.not_lt_nil _)
  · rw [stepRight, stepRight]
    rcases List.cons_lt_cons_iff.mp h with hplace | ⟨rfl, hrest⟩
    · exact List.cons_lt_cons_iff.mpr (.inl (Nat.succ_lt_succ hplace))
    · exact List.cons_lt_cons_iff.mpr (.inr ⟨rfl, hrest⟩)

/-- The rows are in the order of the ways: an item comes before those below it, and these
before its right neighbours. -/
theorem rows_sorted : ∀ items : List NavItem, (rows items).Pairwise fun r s => r.1 < s.1
  | [] => by
    rw [rows]
    exact .nil
  | ⟨title, kind, url, source, children⟩ :: items => by
    have hbelow := rows_sorted children
    have hright := rows_sorted items
    have hfirst : ∀ r ∈ (rows items).map fun r => (stepRight r.1, r.2), ∀ w : List Nat,
        0 :: w < r.1 := by
      intro r hr w
      obtain ⟨s, hs, rfl⟩ := List.mem_map.mp hr
      obtain ⟨place, rest, hway⟩ := List.exists_cons_of_ne_nil (way_ne_nil s hs)
      rw [hway]
      exact List.cons_lt_cons_iff.mpr (.inl (Nat.succ_pos place))
    rw [rows_cons, List.pairwise_append, List.pairwise_cons]
    refine ⟨⟨?_, ?_⟩, ?_, ?_⟩
    · intro r hr
      obtain ⟨s, hs, rfl⟩ := List.mem_map.mp hr
      obtain ⟨place, rest, hway⟩ := List.exists_cons_of_ne_nil (way_ne_nil s hs)
      rw [hway]
      exact List.cons_lt_cons_iff.mpr (.inr ⟨rfl, List.nil_lt_cons _ _⟩)
    · refine List.pairwise_map.mpr (hbelow.imp fun h => ?_)
      exact List.cons_lt_cons_iff.mpr (.inr ⟨rfl, h⟩)
    · exact List.pairwise_map.mpr (hright.imp stepRight_lt)
    · intro r hr s hs
      rcases List.mem_cons.mp hr with rfl | hr
      · exact hfirst s hs []
      · obtain ⟨r, -, rfl⟩ := List.mem_map.mp hr
        exact hfirst s hs r.1

/-! ### Levels -/

/-- The items at and below the given ones, each with its depth, the given ones being at
`depth`. -/
def levels (depth : Nat) (items : List NavItem) : List (Nat × NavItem) :=
  (rows items).map fun r => (depth + (r.1.length - 1), r.2)

theorem length_stepRight : ∀ way : List Nat, (stepRight way).length = way.length
  | [] => rfl
  | _ :: _ => rfl

theorem levels_nil (depth : Nat) : levels depth [] = [] := by
  rw [levels, rows, List.map_nil]

theorem levels_cons (depth : Nat) (item : NavItem) (items : List NavItem) :
    levels depth (item :: items) =
      (depth, item) :: levels (depth + 1) item.children ++ levels depth items := by
  have hbelow : ∀ r ∈ rows item.children,
      (depth + ((0 :: r.1).length - 1), r.2) = (depth + 1 + (r.1.length - 1), r.2) := by
    intro r hr
    have hpos := List.length_pos_of_ne_nil (way_ne_nil r hr)
    have hdepth : depth + ((0 :: r.1).length - 1) = depth + 1 + (r.1.length - 1) := by
      rw [List.length_cons]
      omega
    rw [hdepth]
  unfold levels
  rw [rows_cons, List.map_append, List.map_cons, List.map_map, List.map_map]
  simp only [Function.comp_def, length_stepRight]
  rw [List.map_congr_left hbelow]
  rfl

mutual

theorem lines_eq (depth : Nat) : ∀ item : NavItem, lines depth item =
    (indent depth ++ item.label) ::
      (levels (depth + 1) item.children).map fun l => indent l.1 ++ l.2.label
  | ⟨title, kind, url, source, children⟩ => by
    rw [lines, linesOf_eq (depth + 1) children]

/-- The lines are those of the items at and below the given ones, in the order of their
ways. -/
theorem linesOf_eq (depth : Nat) : ∀ items : List NavItem, linesOf depth items =
    (levels depth items).map fun l => indent l.1 ++ l.2.label
  | [] => by
    rw [linesOf, levels_nil, List.map_nil]
  | item :: items => by
    rw [linesOf, lines_eq depth item, linesOf_eq depth items, levels_cons, List.map_append,
      List.map_cons]

end

theorem label_toList (item : NavItem) : item.label.toList = item.mark :: ' ' :: item.caption := by
  rcases item with ⟨title, _ | _ | _, url, source, children⟩ <;>
    simp [label, mark, caption]

theorem line_toList (depth : Nat) (item : NavItem) :
    (indent depth ++ item.label).toList = lineAt depth item := by
  rw [String.toList_append, label_toList, indent, String.toList_ofList, lineAt]

/-! ### What a line tells -/

theorem mark_ne_space (item : NavItem) : item.mark ≠ ' ' := by
  unfold mark
  split <;> decide

theorem mark_eq_iff {a b : NavItem} : a.mark = b.mark ↔ (a.kind = .group ↔ b.kind = .group) := by
  unfold mark
  by_cases ha : a.kind = .group <;> by_cases hb : b.kind = .group <;> simp [ha, hb]

theorem takeWhile_lineAt (depth : Nat) (item : NavItem) :
    (lineAt depth item).takeWhile (· == ' ') = List.replicate (2 * depth) ' ' := by
  have hmark : (item.mark == ' ') = false := beq_false_of_ne item.mark_ne_space
  have hspaces : ∀ c ∈ List.replicate (2 * depth) ' ', (c == ' ') = true := fun c hc =>
    beq_iff_eq.mpr (List.eq_of_mem_replicate hc)
  rw [lineAt, List.takeWhile_append_of_pos hspaces, List.takeWhile_cons, hmark]
  simp

/-- A line tells the depth of its item and whether it is a group, with its title if so. -/
theorem lineAt_injective {d e : Nat} {a b : NavItem} (h : lineAt d a = lineAt e b) :
    d = e ∧ Alike a b := by
  have hspaces : List.replicate (2 * d) ' ' = List.replicate (2 * e) ' ' := by
    rw [← takeWhile_lineAt d a, ← takeWhile_lineAt e b, h]
  have hlength := congrArg List.length hspaces
  rw [List.length_replicate, List.length_replicate] at hlength
  have hdepth : d = e := by omega
  subst hdepth
  have hrest := List.append_cancel_left h
  obtain ⟨hmark, hrest⟩ := List.cons.inj hrest
  have hkind := mark_eq_iff.mp hmark
  refine ⟨rfl, hkind, fun ha => ?_⟩
  have hcaption := (List.cons.inj hrest).2
  rw [caption, caption, ha, hkind.mp ha] at hcaption
  exact String.toList_inj.mp hcaption

/-! ### What the levels tell -/

/-- Two items at their depths that may have the same line. -/
def LevelAlike (r s : Nat × NavItem) : Prop := r.1 = s.1 ∧ Alike r.2 s.2

/-- Nothing in a list begins at the given depth or below it. -/
def EndsAbove (depth : Nat) (l : List (Nat × NavItem)) : Prop := ∀ r ∈ l.head?, r.1 < depth

theorem endsAbove_levels {depth : Nat} (items : List NavItem) {rest : List (Nat × NavItem)}
    (h : EndsAbove depth rest) : EndsAbove (depth + 1) (levels depth items ++ rest) := by
  intro r hr
  cases items with
  | nil =>
    rw [levels_nil, List.nil_append] at hr
    exact Nat.lt_succ_of_lt (h r hr)
  | cons item items =>
    rw [levels_cons] at hr
    cases hr
    exact Nat.lt_succ_self depth

/-- Items at a depth are told apart from what ends above it. -/
theorem not_endsAbove {depth : Nat} {item : NavItem} {more rest : List (Nat × NavItem)}
    (h : List.Forall₂ LevelAlike ((depth, item) :: more) rest) : ¬ EndsAbove depth rest := by
  cases h with
  | cons hfirst _ =>
    intro habove
    have hlt := habove _ rfl
    rw [← hfirst.1] at hlt
    exact Nat.lt_irrefl depth hlt

/-- **The depths determine the tree.** Where the items of two lists with those below them,
and then what ends above their depth, are alike one by one, the two lists are alike along
every way, and so is what comes after them. -/
theorem alike_of_levels : ∀ (as bs : List NavItem) {depth : Nat}
    {restA restB : List (Nat × NavItem)}, EndsAbove depth restA → EndsAbove depth restB →
    List.Forall₂ LevelAlike (levels depth as ++ restA) (levels depth bs ++ restB) →
    (∀ way, Option.Rel Alike (at? as way) (at? bs way)) ∧ List.Forall₂ LevelAlike restA restB
  | [], [], depth, restA, restB, _, _, h => by
    rw [levels_nil] at h
    refine ⟨fun way => ?_, h⟩
    rw [at?_nil]
    exact .none
  | [], b :: bs, depth, restA, restB, hA, _, h => by
    rw [levels_nil, levels_cons] at h
    have hflip : List.Forall₂ LevelAlike
        ((depth, b) :: (levels (depth + 1) b.children ++ levels depth bs ++ restB)) restA :=
      h.flip.imp fun _ _ hlevel => ⟨hlevel.1.symm, hlevel.2.1.symm, fun hb =>
        (hlevel.2.2 (hlevel.2.1.mpr hb)).symm⟩
    exact absurd hA (not_endsAbove hflip)
  | a :: as, [], depth, restA, restB, _, hB, h => by
    rw [levels_nil, levels_cons] at h
    exact absurd hB (not_endsAbove h)
  | ⟨title, kind, url, source, children⟩ :: as, b :: bs, depth, restA, restB, hA, hB, h => by
    rw [levels_cons, levels_cons, List.cons_append, List.cons_append, List.append_assoc,
      List.cons_append, List.cons_append, List.append_assoc] at h
    obtain ⟨hfirst, hmore⟩ := List.forall₂_cons.mp h
    have ⟨hbelow, hright⟩ := alike_of_levels children b.children (endsAbove_levels as hA)
      (endsAbove_levels bs hB) hmore
    have ⟨hafter, hrest⟩ := alike_of_levels as bs hA hB hright
    refine ⟨fun way => ?_, hrest⟩
    rcases way with _ | ⟨_ | place, way⟩
    · exact .none
    · by_cases hway : way = []
      · subst hway
        exact .some hfirst.2
      · rw [at?_first _ _ hway, at?_first _ _ hway]
        exact hbelow way
    · rw [← stepRight, at?_stepRight, at?_stepRight]
      exact hafter (place :: way)

end NavItem

/-! ### The text of a tree -/

/-- Every title, source and address in the tree is without a line end. -/
def Navigation.OnOneLine (n : Navigation) : Prop :=
  ∀ way item, NavItem.at? n.items way = some item →
    '\n' ∉ item.title.toList ∧ (∀ source ∈ item.source, '\n' ∉ source.toList) ∧
      ∀ url ∈ item.url, '\n' ∉ url.toList

namespace NavItem

theorem newline_not_mem_lineAt {item : NavItem} (depth : Nat) (htitle : '\n' ∉ item.title.toList)
    (hsource : ∀ source ∈ item.source, '\n' ∉ source.toList)
    (hurl : ∀ url ∈ item.url, '\n' ∉ url.toList) : '\n' ∉ lineAt depth item := by
  have hmark : '\n' ≠ item.mark := by
    unfold mark
    split <;> decide
  have hcaption : '\n' ∉ item.caption := by
    rcases item with ⟨title, _ | _ | _, url, source, children⟩
    · cases source <;> simp_all [caption]
    · exact htitle
    · cases url <;> simp_all [caption]
  simp [lineAt, hmark, hcaption]

end NavItem

namespace Navigation

open NavItem (rows levels lineAt Alike)

variable {n m : Navigation}

theorem onOneLine_iff : n.OnOneLine ↔ ∀ r ∈ rows n.items,
    '\n' ∉ r.2.title.toList ∧ (∀ source ∈ r.2.source, '\n' ∉ source.toList) ∧
      ∀ url ∈ r.2.url, '\n' ∉ url.toList :=
  ⟨fun h r hr => h r.1 r.2 (NavItem.mem_rows.mp hr),
    fun h way item hitem => h (way, item) (NavItem.mem_rows.mpr hitem)⟩

/-- The lines of the text are those of the items in the order of their ways. -/
theorem splitAt_text (hn : n.OnOneLine) : Text.splitAt '\n' n.text.toList =
    ((levels 0 n.items).map fun l => lineAt l.1 l.2) ++ [[]] := by
  have hlines : ∀ line ∈ NavItem.linesOf 0 n.items, '\n' ∉ line.toList := by
    intro line hline
    rw [NavItem.linesOf_eq] at hline
    obtain ⟨l, hl, rfl⟩ := List.mem_map.mp hline
    obtain ⟨r, hr, rfl⟩ := List.mem_map.mp hl
    obtain ⟨htitle, hsource, hurl⟩ := onOneLine_iff.mp hn r hr
    rw [NavItem.line_toList]
    exact NavItem.newline_not_mem_lineAt _ htitle hsource hurl
  unfold text
  rw [Text.splitAt_join hlines, NavItem.linesOf_eq, List.map_map]
  congr 1
  exact List.map_congr_left fun l _ => NavItem.line_toList l.1 l.2

/-- **The text of a tree has one line for each item and determines the shape.** The lines
are in the order of the ways to the items; each has two spaces for every level above its
item, a mark, and what is told of the item. Trees with the same text have items at the end
of the same ways, and groups at the same ways with the same titles. -/
theorem text_outline (hn : n.OnOneLine) :
    (∃ rows : List (List Nat × NavItem), (rows.Pairwise fun r s => r.1 < s.1) ∧
      (∀ way item, (way, item) ∈ rows ↔ NavItem.at? n.items way = some item) ∧
      Text.splitAt '\n' n.text.toList =
        (rows.map fun r => List.replicate (2 * (r.1.length - 1)) ' ' ++
          r.2.mark :: ' ' :: r.2.caption) ++ [[]]) ∧
    ∀ m : Navigation, m.OnOneLine → m.text = n.text →
      ∀ way, Option.Rel Alike (NavItem.at? m.items way) (NavItem.at? n.items way) := by
  constructor
  · refine ⟨rows n.items, NavItem.rows_sorted n.items, fun way item => NavItem.mem_rows, ?_⟩
    rw [splitAt_text hn, levels, List.map_map]
    simp only [Function.comp_def, Nat.zero_add, lineAt]
  · intro m hm htext
    have hlines : List.Forall₂ (· = ·) ((levels 0 m.items).map fun l => lineAt l.1 l.2)
        ((levels 0 n.items).map fun l => lineAt l.1 l.2) := by
      have hsplit := splitAt_text hm
      rw [htext, splitAt_text hn] at hsplit
      rw [List.forall₂_eq_eq_eq]
      exact (List.append_cancel_right hsplit).symm
    have hsame := List.forall₂_map_left_iff.mp (List.forall₂_map_right_iff.mp hlines)
    have halike : List.Forall₂ NavItem.LevelAlike (levels 0 m.items) (levels 0 n.items) :=
      hsame.imp fun _ _ => NavItem.lineAt_injective
    have htop : NavItem.EndsAbove 0 [] := fun r hr => by cases hr
    refine (NavItem.alike_of_levels m.items n.items htop htop ?_).1
    rw [List.append_nil, List.append_nil]
    exact halike

/-- A tree with an item below a page, titles that look like lines, and a link. -/
def disguisedTree : Navigation where
  items :=
    [{ NavItem.page "- A" "a.md" "a/" with
        children := [.group "  + B" [.link "C" "https://c [d]"], .group "" []] }]
  generated := false

/-- The tree with a page in the place of the link. -/
def disguisedPages : Navigation where
  items :=
    [{ NavItem.page "- A" "a.md" "a.html" with
        children := [.group "  + B" [.page "C -> https://c" "d" "d/"], .group "" []] }]
  generated := true

/-- Both trees have the same text, and an item and a group wherever the other has one. -/
theorem text_outline_disguisedTree :
    disguisedTree.OnOneLine ∧ disguisedPages.OnOneLine ∧
      disguisedTree.text = "- - A [a.md]\n  +   + B\n    - C -> https://c [d]\n  + \n" ∧
      disguisedPages.text = disguisedTree.text ∧
      NavItem.at? disguisedPages.items [0, 0, 0] ≠ none ∧
      ∀ way, Option.Rel Alike (NavItem.at? disguisedPages.items way)
        (NavItem.at? disguisedTree.items way) := by
  have htree : disguisedTree.OnOneLine := onOneLine_iff.mpr (by decide)
  have hpages : disguisedPages.OnOneLine := onOneLine_iff.mpr (by decide)
  have htext : disguisedPages.text = disguisedTree.text := by decide
  exact ⟨htree, hpages, by decide, htext, by decide,
    (text_outline htree).2 disguisedPages hpages htext⟩

end Navigation
end SitePlan
