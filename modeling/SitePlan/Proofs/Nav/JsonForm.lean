/-
# A navigation is told from its JSON

What is missing or empty is left out of the JSON of an item, and still no two trees have one
JSON. A field that is not there stands for what was left out and for nothing else: an address
or a source that is there is written, be it empty, and a list of children that is written is
not empty. So the fields of an object give back each part of an item, in whatever order they
stand, and the children by the same argument. No number stands in the JSON of a navigation,
so its text tells the JSON and with it the tree.

Key theorems: `NavItem.eq_of_sameShape`, `NavItem.toJson_numberFree`,
`Navigation.toJson_determines`.
-/
import SitePlan.Nav.Item
import SitePlan.Proofs.Json.Shape
import SitePlan.Proofs.Json.Unambiguous

namespace SitePlan

open Json (SameShape NumberFree)
open Yaml (Value)

theorem NavKind.text_inj {k l : NavKind} (h : k.text = l.text) : k = l := by
  revert h
  cases k <;> cases l <;> decide

/-! ### Two objects of one shape -/

namespace Json

variable {rows rows' : List (String × Option Json)} {as bs : List Json} {v : Value}
  {v? : Option Value}

/-- Two objects that are one as a document have their fields from it. -/
theorem SameShape.exists_both (h : SameShape (.object (present rows)) v)
    (h' : SameShape (.object (present rows')) v) (hnodup : (rows.map Prod.fst).Nodup)
    (hnodup' : (rows'.map Prod.fst).Nodup) : ∃ fs : List (String × Value),
      (∀ r ∈ rows, Option.Rel SameShape r.2 (fs.lookup r.1)) ∧
      ∀ r ∈ rows', Option.Rel SameShape r.2 (fs.lookup r.1) := by
  obtain ⟨fs, hfs, -, -, hrows⟩ := h.exists_fields hnodup
  obtain ⟨gs, hgs, -, -, hrows'⟩ := h'.exists_fields hnodup'
  have hkeyed : Function.Injective fun f : String × Value => (Value.string f.1, f.2) := by
    rintro ⟨name, w⟩ ⟨name', w'⟩ heq
    cases heq
    rfl
  obtain rfl : fs = gs :=
    List.map_injective_iff.mpr hkeyed (Value.mapping.inj (hfs.symm.trans hgs))
  exact ⟨fs, hrows, hrows'⟩

theorem exists_both_of_rel {j k : Json} (hj : Option.Rel SameShape (some j) v?)
    (hk : Option.Rel SameShape (some k) v?) : ∃ v, j.SameShape v ∧ k.SameShape v := by
  cases hj with
  | some hj =>
    cases hk with
    | some hk => exact ⟨_, hj, hk⟩

theorem SameShape.exists_items (ha : SameShape (.array as) v) (hb : SameShape (.array bs) v) :
    ∃ vs, List.Forall₂ SameShape as vs ∧ List.Forall₂ SameShape bs vs := by
  cases ha with
  | array has =>
    cases hb with
    | array hbs => exact ⟨_, has, hbs⟩

/-- A text is told from its field, and so is that there is none. -/
theorem text_eq_of_rel {a b : Option String} (ha : Option.Rel SameShape (a.map .string) v?)
    (hb : Option.Rel SameShape (b.map .string) v?) : a = b := by
  have hstring : Function.Injective Value.string := fun _ _ => Value.string.inj
  exact Option.map_injective hstring ((eq_of_rel_text ha).symm.trans (eq_of_rel_text hb))

/-- A list that is left out where it is empty is told from its field as far as the values in
it tell its items. -/
theorem exists_items_of_rel
    (ha : Option.Rel SameShape (if as = [] then none else some (.array as)) v?)
    (hb : Option.Rel SameShape (if bs = [] then none else some (.array bs)) v?) :
    ∃ vs, List.Forall₂ SameShape as vs ∧ List.Forall₂ SameShape bs vs := by
  by_cases has : as = []
  · rw [if_pos has] at ha
    rw [Outcome.eq_none_of_rel_none ha] at hb
    by_cases hbs : bs = []
    · subst has hbs
      exact ⟨[], .nil, .nil⟩
    · rw [if_neg hbs] at hb
      cases hb
  · rw [if_neg has] at ha
    by_cases hbs : bs = []
    · rw [if_pos hbs] at hb
      rw [Outcome.eq_none_of_rel_none hb] at ha
      cases ha
    · rw [if_neg hbs] at hb
      obtain ⟨v, hv, hv'⟩ := exists_both_of_rel ha hb
      exact hv.exists_items hv'

theorem numberFree_present (h : ∀ r ∈ rows, ∀ j ∈ r.2, NumberFree j) :
    NumberFree (.object (present rows)) :=
  .object fun f hf => h _ (mem_present.mp hf) f.2 rfl

theorem numberFree_of_mem_text (text? : Option String) :
    ∀ j ∈ text?.map Json.string, NumberFree j := by
  intro j hj
  obtain ⟨text, -, rfl⟩ := Option.map_eq_some_iff.mp hj
  exact .string text

end Json

namespace NavItem

/-- The fields of an item, with nothing for those that are left out. -/
def jsonRows (i : NavItem) : List (String × Option Json) :=
  [("title", some (.string i.title)), ("kind", some (.string i.kind.text)),
    ("url", i.url.map .string), ("source", i.source.map .string),
    ("children", if listToJson i.children = [] then none
      else some (.array (listToJson i.children)))]

theorem names_jsonRows (i : NavItem) : (i.jsonRows.map Prod.fst).Nodup := by
  have hnames : ["title", "kind", "url", "source", "children"].Nodup := by decide
  exact hnames

theorem toJson_eq (i : NavItem) : i.toJson = .object (Json.present i.jsonRows) := by
  obtain ⟨title, kind, url, source, children⟩ := i
  cases url <;> cases source <;> cases children <;> rfl

/-! ### The item of a document -/

mutual

theorem eq_of_sameShape : ∀ {a b : NavItem} {v : Value},
    a.toJson.SameShape v → b.toJson.SameShape v → a = b
  | ⟨title, kind, url, source, children⟩, ⟨title', kind', url', source', children'⟩, v, ha, hb => by
    rw [toJson_eq] at ha hb
    obtain ⟨fs, hrows, hrows'⟩ := ha.exists_both hb (names_jsonRows _) (names_jsonRows _)
    simp only [jsonRows, List.mem_cons, forall_eq_or_imp] at hrows hrows'
    obtain ⟨htitle, hkind, hurl, hsource, hchildren, -⟩ := hrows
    obtain ⟨htitle', hkind', hurl', hsource', hchildren', -⟩ := hrows'
    have htitles : some title = some title' := Json.text_eq_of_rel htitle htitle'
    have hkinds : some kind.text = some kind'.text := Json.text_eq_of_rel hkind hkind'
    obtain ⟨vs, hvs, hvs'⟩ := Json.exists_items_of_rel hchildren hchildren'
    obtain rfl := Option.some.inj htitles
    obtain rfl := NavKind.text_inj (Option.some.inj hkinds)
    obtain rfl := Json.text_eq_of_rel hurl hurl'
    obtain rfl := Json.text_eq_of_rel hsource hsource'
    obtain rfl := eq_of_sameShapes hvs hvs'
    rfl

theorem eq_of_sameShapes : ∀ {as bs : List NavItem} {vs : List Value},
    List.Forall₂ SameShape (listToJson as) vs → List.Forall₂ SameShape (listToJson bs) vs → as = bs
  | [], [], _, _, _ => rfl
  | [], _ :: _, _, .nil, hb => nomatch hb
  | _ :: _, [], _, ha, .nil => nomatch ha
  | a :: as, b :: bs, _, .cons ha has, .cons hb hbs => by
    rw [eq_of_sameShape ha hb, eq_of_sameShapes has hbs]

end

/-! ### No numbers -/

mutual

theorem toJson_numberFree : ∀ i : NavItem, NumberFree i.toJson
  | ⟨title, kind, url, source, children⟩ => by
    rw [toJson_eq]
    have hchildren : ∀ j ∈ (if listToJson children = [] then none
        else some (.array (listToJson children)) : Option Json), NumberFree j := by
      intro j hj
      split at hj
      · cases hj
      · cases hj
        exact .array (listToJson_numberFree children)
    refine Json.numberFree_present ?_
    simp only [jsonRows, List.mem_cons, forall_eq_or_imp]
    exact ⟨Json.numberFree_of_mem_text (some title), Json.numberFree_of_mem_text (some kind.text),
      Json.numberFree_of_mem_text url, Json.numberFree_of_mem_text source, hchildren,
      List.forall_mem_nil _⟩

theorem listToJson_numberFree : ∀ items : List NavItem, ∀ v ∈ listToJson items, NumberFree v
  | [] => List.forall_mem_nil _
  | i :: is => List.forall_mem_cons.mpr ⟨toJson_numberFree i, listToJson_numberFree is⟩

end

end NavItem

namespace Navigation

theorem toJson_numberFree (n : Navigation) : NumberFree n.toJson := by
  refine .object (List.forall_mem_cons.mpr ⟨?_, List.forall_mem_singleton.mpr (.bool _)⟩)
  exact .array (NavItem.listToJson_numberFree n.items)

theorem eq_of_sameShape : ∀ {n m : Navigation} {v : Value},
    n.toJson.SameShape v → m.toJson.SameShape v → n = m := by
  rintro ⟨items, generated⟩ ⟨items', generated'⟩ v hn hm
  have hnames : ["items", "generated"].Nodup := by decide
  have hpresent : ∀ n : Navigation, n.toJson = .object (Json.present
    [("items", some (.array (NavItem.listToJson n.items))),
      ("generated", some (.bool n.generated))]) := fun _ => rfl
  rw [hpresent] at hn hm
  obtain ⟨fs, hrows, hrows'⟩ := hn.exists_both hm hnames hnames
  simp only [List.mem_cons, forall_eq_or_imp] at hrows hrows'
  obtain ⟨hitems, hgenerated, -⟩ := hrows
  obtain ⟨hitems', hgenerated', -⟩ := hrows'
  obtain ⟨w, hw, hw'⟩ := Json.exists_both_of_rel hitems hitems'
  obtain ⟨vs, hvs, hvs'⟩ := hw.exists_items hw'
  obtain ⟨flag, hflag, hflag'⟩ := Json.exists_both_of_rel hgenerated hgenerated'
  rw [Json.sameShape_bool] at hflag hflag'
  obtain rfl := NavItem.eq_of_sameShapes hvs hvs'
  obtain rfl := Value.bool.inj (hflag.symm.trans hflag')
  rfl

/-- **The JSON of a navigation tells the navigation.** Two navigations are equal if their
JSON is, if it is one as a document, with the fields of each object in any order, or if its
text is, over several lines or on one. -/
theorem toJson_determines (n m : Navigation) :
    (n.toJson = m.toJson ↔ n = m) ∧
    ((∃ v, n.toJson.SameShape v ∧ m.toJson.SameShape v) ↔ n = m) ∧
    (n.toJson.pretty = m.toJson.pretty ↔ n = m) ∧
    (n.toJson.compact = m.toJson.compact ↔ n = m) := by
  have hshape : (∃ v, n.toJson.SameShape v ∧ m.toJson.SameShape v) ↔ n = m := by
    constructor
    · rintro ⟨v, hn, hm⟩
      exact eq_of_sameShape hn hm
    · rintro rfl
      exact ⟨n.toJson.toValue, Json.sameShape_toValue _, Json.sameShape_toValue _⟩
  have hjson : n.toJson = m.toJson ↔ n = m := by
    refine ⟨fun h => eq_of_sameShape (Json.sameShape_toValue n.toJson) ?_, congrArg toJson⟩
    rw [h]
    exact Json.sameShape_toValue _
  refine ⟨hjson, hshape, ?_, ?_⟩
  · rw [Json.pretty_inj n.toJson_numberFree m.toJson_numberFree, hjson]
  · rw [Json.compact_inj n.toJson_numberFree m.toJson_numberFree, hjson]

/-- An empty address is written, and one that is missing is not. -/
example : (Navigation.mk [⟨"A", .group, some "", none, []⟩] true).toJson.compact ≠
    (Navigation.mk [⟨"A", .group, none, none, []⟩] true).toJson.compact := by decide

end Navigation
end SitePlan
