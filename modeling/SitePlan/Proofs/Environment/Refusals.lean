/-
# Which tags are refused, and where

Resolving fails exactly if an outermost tag of the value is bad: it is a foreign
one, its argument is neither a text nor a sequence of some length, an element that
has to be a name is no text, or its one variable is not set. Names are looked at
before any is looked up, so that one after a name that is set counts as well. The
error is that of the first bad tag in the order of the document, and it tells
where the tag stands: by the keys on the way with points between them, and the
places in sequences in brackets.

Key definitions: `Environment.Faulty`, `Environment.BadTag`, `Environment.Refused`,
`Environment.TagNode`, `Environment.tagNodes`, `Environment.position`,
`Yaml.Value.NamedKeys`.
Key theorems: `Environment.value_eq_error`, `Environment.resolve_stopsAt`,
`Environment.tagSpots_eq`, `Environment.fieldText_fieldOf`,
`Environment.resolve_refusals`.
-/
import SitePlan.Proofs.Environment.Leftover

namespace SitePlan

/-- No key of a value is the empty text. Keys below a tag do not matter. -/
inductive Yaml.Value.NamedKeys : Yaml.Value → Prop
  | scalar {v : Yaml.Value} : v.IsScalar → NamedKeys v
  | sequence {items : List Yaml.Value} : (∀ v ∈ items, NamedKeys v) → NamedKeys (.sequence items)
  | mapping {entries : List (Yaml.Value × Yaml.Value)} : (∀ e ∈ entries, e.1.text? ≠ some "") →
      (∀ e ∈ entries, NamedKeys e.2) → NamedKeys (.mapping entries)
  | tagged (tag : String) (arg : Yaml.Value) : NamedKeys (.tagged tag arg)

namespace Environment

open Yaml (Value)

/-! ### Bad tags -/

/-- The elements of an argument that have to be names: the only one, or all but
the last. -/
def nameItems : List Value → List Value
  | [item] => [item]
  | items => items.dropLast

variable (lookup : String → Option String)

/-- An argument that gives no value: it is of another kind, an element is no
name, or it names one variable, which is not set. -/
inductive Faulty : Value → EnvironmentFault → Prop
  | kind {arg : Value} : (∀ name, arg ≠ .string name) →
      (∀ items, items ≠ [] → arg ≠ .sequence items) → Faulty arg .badArgument
  | name {items : List Value} {item : Value} : item ∈ nameItems items → item.text? = none →
      Faulty (.sequence items) .nameNotText
  | unset {arg : Value} {name : String} : Gives arg [name] none → lookup name = none →
      Faulty arg (.unset [name])

/-- A tag that is refused wherever it stands. -/
def BadTag (tag : String) (arg : Value) : Prop :=
  Yaml.bareTag tag ≠ tagName ∨ ∃ fault, Faulty lookup arg fault

/-- The error for a bad tag that stands at `place`. -/
inductive Refused (place tag : String) (arg : Value) : ConfigError → Prop
  | foreign : Yaml.bareTag tag ≠ tagName →
      Refused place tag arg (.invalid (.unsupportedTag tag place))
  | faulty {fault : EnvironmentFault} : Yaml.bareTag tag = tagName → Faulty lookup arg fault →
      Refused place tag arg (.environment place fault)

/-! ### One tag -/

variable {lookup}

theorem names_eq_error {fault : EnvironmentFault} : ∀ {items : List Value},
    names items = .error fault ↔ fault = .nameNotText ∧ ∃ item ∈ items, item.text? = none
  | [] => by simp [names]
  | item :: items => by
    rw [names]
    cases hitem : item.text? with
    | none => simp [hitem, eq_comm]
    | some name =>
      rw [Outcome.map_eq_error, names_eq_error]
      simp [hitem]

/-- The names of a sequence are those of its elements that have to be names. -/
theorem argument_sequence {items : List Value} (hne : items ≠ []) :
    ∃ standIn, argument (.sequence items) =
      (names (nameItems items)).map fun ns => (ns, standIn) := by
  match items with
  | [item] => exact ⟨none, rfl⟩
  | item :: item' :: rest => exact ⟨_, rfl⟩

/-- An argument is not understood if it is of another kind, or if an element that
has to be a name is no text. -/
theorem argument_eq_error {arg : Value} {fault : EnvironmentFault} :
    argument arg = .error fault ↔
      (fault = .badArgument ∧ (∀ name, arg ≠ .string name) ∧
        ∀ items, items ≠ [] → arg ≠ .sequence items) ∨
      (fault = .nameNotText ∧ ∃ items, arg = .sequence items ∧
        ∃ item ∈ nameItems items, item.text? = none) := by
  cases arg with
  | string name => simp [argument]
  | sequence items =>
    by_cases hne : items = []
    · subst hne
      simp [argument, nameItems, eq_comm]
    · obtain ⟨standIn, harg⟩ := argument_sequence hne
      rw [harg, Outcome.map_eq_error, names_eq_error]
      constructor
      · rintro ⟨rfl, hitem⟩
        exact .inr ⟨rfl, items, rfl, hitem⟩
      · rintro (⟨-, -, hother⟩ | ⟨rfl, _, heq, hitem⟩)
        · exact absurd rfl (hother items hne)
        · cases heq
          exact ⟨rfl, hitem⟩
  | _ => simp [argument, eq_comm]

theorem Gives.eq_singleton {arg : Value} {ns : List String} (h : Gives arg ns none) :
    ∃ name, ns = [name] := by
  cases h with
  | name => exact ⟨_, rfl⟩
  | single _ => exact ⟨_, rfl⟩

/-- A tag gives no value exactly if its argument is at fault. -/
theorem value_eq_error {arg : Value} {fault : EnvironmentFault} :
    value lookup arg = .error fault ↔ Faulty lookup arg fault := by
  unfold value
  rw [Outcome.bind_eq_error, argument_eq_error]
  constructor
  · rintro ((⟨rfl, htext, hitems⟩ | ⟨rfl, items, rfl, item, hitem, hname⟩) |
      ⟨⟨ns, standIn⟩, harg, hvalue⟩)
    · exact .kind htext hitems
    · exact .name hitem hname
    · rw [argument_eq_ok] at harg
      cases hset : ns.findSome? lookup with
      | some raw =>
        simp only [hset] at hvalue
        cases hvalue
      | none =>
        simp only [hset] at hvalue
        cases standIn with
        | some s => cases hvalue
        | none =>
          cases hvalue
          -- without a stand-in there is one name, and it is the one not set
          obtain ⟨name, rfl⟩ := harg.eq_singleton
          exact .unset harg (List.findSome?_eq_none_iff.mp hset name List.mem_cons_self)
  · rintro (⟨htext, hitems⟩ | ⟨hitem, hname⟩ | ⟨hgives, hunset⟩)
    · exact .inl (.inl ⟨rfl, htext, hitems⟩)
    · exact .inl (.inr ⟨rfl, _, rfl, _, hitem, hname⟩)
    · refine .inr ⟨_, argument_eq_ok.mpr hgives, ?_⟩
      simp [hunset]

/-- Resolving a tag fails exactly if the tag is refused. -/
theorem resolve_tagged_eq_error {field tag : String} {arg : Value} {e : ConfigError} :
    resolve lookup field (.tagged tag arg) = .error e ↔
      Refused lookup (fieldText field) tag arg e := by
  rw [resolve]
  split_ifs with htag
  · rw [Outcome.mapError_eq_error]
    constructor
    · rintro ⟨fault, hfault, rfl⟩
      exact .faulty htag (value_eq_error.mp hfault)
    · rintro (hforeign | ⟨-, hfault⟩)
      · exact absurd htag hforeign
      · exact ⟨_, value_eq_error.mpr hfault, rfl⟩
  · constructor
    · intro h
      cases h
      exact .foreign htag
    · rintro (_ | ⟨henv, -⟩)
      · rfl
      · exact absurd henv htag

theorem badTag_iff {place tag : String} {arg : Value} :
    BadTag lookup tag arg ↔ ∃ e, Refused lookup place tag arg e := by
  constructor
  · intro h
    by_cases htag : Yaml.bareTag tag = tagName
    · obtain ⟨fault, hfault⟩ := h.resolve_left (not_not.mpr htag)
      exact ⟨_, .faulty htag hfault⟩
    · exact ⟨_, .foreign htag⟩
  · rintro ⟨e, hforeign | ⟨-, hfault⟩⟩
    · exact .inl hforeign
    · exact .inr ⟨_, hfault⟩

/-! ### The first bad tag -/

/-- The error of the first of some tags that is bad. -/
inductive FirstRefused (lookup : String → Option String) : List TagSpot → ConfigError → Prop
  | here {s : TagSpot} {rest : List TagSpot} {e : ConfigError} :
      Refused lookup (fieldText s.field) s.tag s.argument e → FirstRefused lookup (s :: rest) e
  | later {s : TagSpot} {rest : List TagSpot} {e : ConfigError} :
      ¬ BadTag lookup s.tag s.argument → FirstRefused lookup rest e →
      FirstRefused lookup (s :: rest) e

theorem firstRefused_iff {spots : List TagSpot} {e : ConfigError} :
    FirstRefused lookup spots e ↔ ∃ before s after, spots = before ++ s :: after ∧
      (∀ t ∈ before, ¬ BadTag lookup t.tag t.argument) ∧
      Refused lookup (fieldText s.field) s.tag s.argument e := by
  constructor
  · intro h
    induction h with
    | @here s rest e hs => exact ⟨[], s, rest, rfl, by simp, hs⟩
    | @later t rest e ht _ ih =>
      obtain ⟨before, s, after, rfl, hbefore, hs⟩ := ih
      exact ⟨t :: before, s, after, rfl, List.forall_mem_cons.mpr ⟨ht, hbefore⟩, hs⟩
  · rintro ⟨before, s, after, rfl, hbefore, hs⟩
    induction before with
    | nil => exact .here hs
    | cons t before ih =>
      obtain ⟨ht, hbefore⟩ := List.forall_mem_cons.mp hbefore
      exact .later ht (ih hbefore)

theorem not_firstRefused_nil {e : ConfigError} : ¬ FirstRefused lookup [] e := nofun

theorem firstRefused_cons {s : TagSpot} {rest : List TagSpot} {e : ConfigError} :
    FirstRefused lookup (s :: rest) e ↔ Refused lookup (fieldText s.field) s.tag s.argument e ∨
      ¬ BadTag lookup s.tag s.argument ∧ FirstRefused lookup rest e := by
  constructor
  · rintro (hs | ⟨hs, hrest⟩)
    · exact .inl hs
    · exact .inr ⟨hs, hrest⟩
  · rintro (hs | ⟨hs, hrest⟩)
    · exact .here hs
    · exact .later hs hrest

theorem firstRefused_append {spots more : List TagSpot} {e : ConfigError} :
    FirstRefused lookup (spots ++ more) e ↔ FirstRefused lookup spots e ∨
      (∀ s ∈ spots, ¬ BadTag lookup s.tag s.argument) ∧ FirstRefused lookup more e := by
  induction spots with
  | nil => simp [not_firstRefused_nil]
  | cons s rest ih =>
    rw [List.cons_append, firstRefused_cons, firstRefused_cons, ih, List.forall_mem_cons,
      and_or_left, or_assoc, and_assoc]

/-- One of some tags is bad exactly if one of them is the first. -/
theorem exists_firstRefused {spots : List TagSpot} :
    (∃ e, FirstRefused lookup spots e) ↔ ∃ s ∈ spots, BadTag lookup s.tag s.argument := by
  induction spots with
  | nil => simp [not_firstRefused_nil]
  | cons s rest ih =>
    simp only [firstRefused_cons, exists_or, exists_and_left, ih, ← badTag_iff, List.mem_cons,
      or_and_right, exists_eq_left]
    by_cases hs : BadTag lookup s.tag s.argument <;> simp [hs]

/-- A computation fails exactly if one of some tags is bad, with the error of the
first one. -/
def StopsAt {α : Type} (lookup : String → Option String) (spots : List TagSpot)
    (x : Except ConfigError α) : Prop := ∀ e, x = .error e ↔ FirstRefused lookup spots e

namespace StopsAt

variable {α β : Type} {spots more : List TagSpot} {x : Except ConfigError α}
  {f : α → Except ConfigError β}

theorem ok (a : α) : StopsAt lookup [] (.ok a : Except ConfigError α) :=
  fun _ => iff_of_false nofun nofun

theorem exists_ok (h : StopsAt lookup spots x) :
    (∃ a, x = .ok a) ↔ ∀ s ∈ spots, ¬ BadTag lookup s.tag s.argument := by
  have hbad := (exists_congr h).trans exists_firstRefused
  cases x with
  | ok a => simpa using hbad
  | error e => simpa using hbad

theorem bind (hx : StopsAt lookup spots x) (hf : ∀ a, StopsAt lookup more (f a)) :
    StopsAt lookup (spots ++ more) (x >>= f) := by
  intro e
  rw [Outcome.bind_eq_error, firstRefused_append, hx e, ← hx.exists_ok, ← exists_and_right]
  exact or_congr_right (exists_congr fun a => and_congr_right fun _ => hf a e)

theorem map {g : α → β} (hx : StopsAt lookup spots x) :
    StopsAt lookup spots (x >>= fun a => .ok (g a)) := by
  rw [← List.append_nil spots]
  exact hx.bind fun a => ok (g a)

end StopsAt

mutual

/-- **Resolving stops at the first bad tag.** -/
theorem resolve_stopsAt : ∀ (v : Value) (field : String),
    StopsAt lookup (tagSpots field v) (resolve lookup field v)
  | .tagged tag arg, field => fun e => by
    rw [resolve_tagged_eq_error, tagSpots, firstRefused_cons]
    simp [not_firstRefused_nil]
  | .mapping entries, field => by
    rw [resolve, tagSpots]
    exact (resolveEntries_stopsAt entries field).map
  | .sequence items, field => by
    rw [resolve, tagSpots]
    exact (resolveItems_stopsAt items field 0).map
  | .null, _ | .bool _, _ | .number _, _ | .string _, _ => .ok _

theorem resolveEntries_stopsAt : ∀ (entries : List (Value × Value)) (field : String),
    StopsAt lookup (tagSpotsOfEntries field entries) (resolveEntries lookup field entries)
  | [], _ => .ok _
  | (k, v) :: rest, field => by
    rw [resolveEntries, tagSpotsOfEntries]
    exact (resolve_stopsAt v (keyField field k)).bind fun v =>
      (resolveEntries_stopsAt rest field).map

theorem resolveItems_stopsAt : ∀ (items : List Value) (field : String) (i : Nat),
    StopsAt lookup (tagSpotsOfItems field i items) (resolveItems lookup field i items)
  | [], _, _ => .ok _
  | v :: rest, field, i => by
    rw [resolveItems, tagSpotsOfItems]
    exact (resolve_stopsAt v (itemField field i)).bind fun v =>
      (resolveItems_stopsAt rest field (i + 1)).map

end

/-! ### Where a tag stands -/

/-- A step on the way to a place in a value: into the value of a key, or into an
element of a sequence. -/
inductive Step
  | key (k : Value)
  | place (i : Nat)

/-- An outermost tag with the way to it. -/
structure TagNode where
  way : List Step
  tag : String
  argument : Value

mutual

/-- The outermost tags of a value that stands at the end of `way`, in the order of
the document. -/
def tagNodes (way : List Step) : Value → List TagNode
  | .tagged tag arg => [⟨way, tag, arg⟩]
  | .mapping entries => tagNodesOfEntries way entries
  | .sequence items => tagNodesOfItems way 0 items
  | _ => []

/-- The outermost tags of the values of entries. -/
def tagNodesOfEntries (way : List Step) : List (Value × Value) → List TagNode
  | [] => []
  | (k, v) :: rest => tagNodes (way ++ [.key k]) v ++ tagNodesOfEntries way rest

/-- The outermost tags of items, the first of them at place `i`. -/
def tagNodesOfItems (way : List Step) : Nat → List Value → List TagNode
  | _, [] => []
  | i, v :: rest => tagNodes (way ++ [.place i]) v ++ tagNodesOfItems way (i + 1) rest

end

/-- A step in words: a key that is no text is a question mark, and a place stands
in brackets. -/
def Step.text : Step → String
  | .key k => k.text?.getD "?"
  | .place i => "[" ++ toString i ++ "]"

/-- A step in words after others: there is a point before a key. -/
def Step.textAfter : Step → String
  | .key k => "." ++ k.text?.getD "?"
  | .place i => "[" ++ toString i ++ "]"

/-- The place at the end of a way in words. -/
def position : List Step → String
  | [] => "document root"
  | s :: rest => s.text ++ String.join (rest.map Step.textAfter)

namespace TagNode

variable (lookup : String → Option String)

/-- A tag that is refused. -/
def Bad (n : TagNode) : Prop := BadTag lookup n.tag n.argument

/-- The error for a tag, with its position. -/
def RefusedWith (n : TagNode) (e : ConfigError) : Prop :=
  Refused lookup (position n.way) n.tag n.argument e

end TagNode

/-- The field that a step leads to. -/
def Step.fieldIn (field : String) : Step → String
  | .key k => keyField field k
  | .place i => itemField field i

/-- The field at the end of a way. -/
def fieldOf (way : List Step) : String := way.foldl Step.fieldIn ""

theorem fieldOf_key (way : List Step) (k : Value) :
    fieldOf (way ++ [.key k]) = keyField (fieldOf way) k := by
  simp [fieldOf, Step.fieldIn]

theorem fieldOf_place (way : List Step) (i : Nat) :
    fieldOf (way ++ [.place i]) = itemField (fieldOf way) i := by
  simp [fieldOf, Step.fieldIn]

/-- A tag with its field for the way to it. -/
def TagNode.spot (n : TagNode) : TagSpot := ⟨fieldOf n.way, n.tag, n.argument⟩

mutual

/-- The fields of tags are those of the ways to them. -/
theorem tagSpots_eq : ∀ (v : Value) (way : List Step),
    tagSpots (fieldOf way) v = (tagNodes way v).map TagNode.spot
  | .tagged tag arg, way => rfl
  | .mapping entries, way => by
    rw [tagSpots, tagNodes, tagSpotsOfEntries_eq entries way]
  | .sequence items, way => by
    rw [tagSpots, tagNodes, tagSpotsOfItems_eq items way 0]
  | .null, _ | .bool _, _ | .number _, _ | .string _, _ => rfl

theorem tagSpotsOfEntries_eq : ∀ (entries : List (Value × Value)) (way : List Step),
    tagSpotsOfEntries (fieldOf way) entries = (tagNodesOfEntries way entries).map TagNode.spot
  | [], _ => rfl
  | (k, v) :: rest, way => by
    rw [tagSpotsOfEntries, tagNodesOfEntries, List.map_append, ← fieldOf_key, tagSpots_eq v,
      tagSpotsOfEntries_eq rest way]

theorem tagSpotsOfItems_eq : ∀ (items : List Value) (way : List Step) (i : Nat),
    tagSpotsOfItems (fieldOf way) i items = (tagNodesOfItems way i items).map TagNode.spot
  | [], _, _ => rfl
  | v :: rest, way, i => by
    rw [tagSpotsOfItems, tagNodesOfItems, List.map_append, ← fieldOf_place, tagSpots_eq v,
      tagSpotsOfItems_eq rest way (i + 1)]

end

/-- A way without an empty key. -/
def NamedWay (way : List Step) : Prop := ∀ k, .key k ∈ way → k.text? ≠ some ""

theorem NamedWay.key {way : List Step} (h : NamedWay way) {k : Value} (hk : k.text? ≠ some "") :
    NamedWay (way ++ [.key k]) := by
  intro k' hk'
  rcases List.mem_append.mp hk' with hk' | hk'
  · exact h k' hk'
  · cases List.mem_singleton.mp hk'
    exact hk

theorem NamedWay.place {way : List Step} (h : NamedWay way) (i : Nat) :
    NamedWay (way ++ [.place i]) := by
  intro k hk
  rcases List.mem_append.mp hk with hk | hk
  · exact h k hk
  · cases List.mem_singleton.mp hk

mutual

/-- The ways to the tags of a value without empty keys have none. -/
theorem namedWay_of_mem : ∀ (v : Value) (way : List Step), v.NamedKeys → NamedWay way →
    ∀ n ∈ tagNodes way v, NamedWay n.way
  | .tagged tag arg, way, _, hway, n, hn => by
    rw [tagNodes, List.mem_singleton] at hn
    exact hn ▸ hway
  | .mapping entries, way, .mapping hkeys hvalues, hway, n, hn =>
    namedWay_of_mem_entries entries way hkeys hvalues hway n hn
  | .sequence items, way, .sequence hitems, hway, n, hn =>
    namedWay_of_mem_items items way 0 hitems hway n hn
  | .null, _, _, _, _, hn | .bool _, _, _, _, _, hn | .number _, _, _, _, _, hn
  | .string _, _, _, _, _, hn => by
    cases hn

theorem namedWay_of_mem_entries : ∀ (entries : List (Value × Value)) (way : List Step),
    (∀ e ∈ entries, e.1.text? ≠ some "") → (∀ e ∈ entries, e.2.NamedKeys) → NamedWay way →
    ∀ n ∈ tagNodesOfEntries way entries, NamedWay n.way
  | [], _, _, _, _, _, hn => by
    cases hn
  | (k, v) :: rest, way, hkeys, hvalues, hway, n, hn => by
    obtain ⟨hk, hkeys⟩ := List.forall_mem_cons.mp hkeys
    obtain ⟨hv, hvalues⟩ := List.forall_mem_cons.mp hvalues
    rw [tagNodesOfEntries] at hn
    rcases List.mem_append.mp hn with hn | hn
    · exact namedWay_of_mem v _ hv (hway.key hk) n hn
    · exact namedWay_of_mem_entries rest way hkeys hvalues hway n hn

theorem namedWay_of_mem_items : ∀ (items : List Value) (way : List Step) (i : Nat),
    (∀ v ∈ items, v.NamedKeys) → NamedWay way →
    ∀ n ∈ tagNodesOfItems way i items, NamedWay n.way
  | [], _, _, _, _, _, hn => by
    cases hn
  | v :: rest, way, i, hitems, hway, n, hn => by
    obtain ⟨hv, hitems⟩ := List.forall_mem_cons.mp hitems
    rw [tagNodesOfItems] at hn
    rcases List.mem_append.mp hn with hn | hn
    · exact namedWay_of_mem v _ hv (hway.place i) n hn
    · exact namedWay_of_mem_items rest way (i + 1) hitems hway n hn

end

/-! ### The field is the position -/

theorem Step.text_ne {s : Step} (h : NamedWay [s]) : s.text ≠ "" := by
  cases s with
  | key k =>
    have hk := h k List.mem_cons_self
    rw [text]
    cases hname : k.text? with
    | none => simp
    | some name => simpa [hname] using hk
  | place i => simp [text]

/-- Within a field that is not the document itself, a step adds its text. -/
theorem Step.fieldIn_eq {field : String} (h : field ≠ "") (s : Step) :
    s.fieldIn field = field ++ s.textAfter := by
  cases s with
  | key k => simp [fieldIn, keyField, textAfter, h, String.append_assoc]
  | place i => simp [fieldIn, itemField, textAfter, String.append_assoc]

theorem Step.fieldIn_root (s : Step) : s.fieldIn "" = s.text := by
  cases s <;> simp [fieldIn, keyField, itemField, text]

theorem foldl_fieldIn : ∀ (way : List Step) {field : String}, field ≠ "" →
    way.foldl Step.fieldIn field = field ++ String.join (way.map Step.textAfter)
  | [], field, _ => by simp
  | s :: rest, field, h => by
    have hne : field ++ s.textAfter ≠ "" := by simp [h]
    rw [List.foldl_cons, s.fieldIn_eq h, foldl_fieldIn rest hne, List.map_cons, String.join_cons,
      String.append_assoc]

/-- Where no key on the way is empty, the field tells the position. -/
theorem fieldText_fieldOf {way : List Step} (h : NamedWay way) :
    fieldText (fieldOf way) = position way := by
  cases way with
  | nil => rfl
  | cons s rest =>
    -- an empty key in front would leave the field that of the document
    have hs : s.text ≠ "" := Step.text_ne fun k hk =>
      h k (List.mem_singleton.mp hk ▸ List.mem_cons_self)
    rw [fieldOf, List.foldl_cons, s.fieldIn_root, foldl_fieldIn rest hs, fieldText,
      if_neg (by simp [hs])]
    rfl

/-- **Failures of resolving are found and located exactly.** Resolving a document
without empty keys fails exactly if one of its outermost tags is bad. The error is
that of the first bad one, with its position. -/
theorem resolve_refusals (lookup : String → Option String) {v : Value} (hkeys : v.NamedKeys) :
    ((∃ e, resolve lookup "" v = .error e) ↔ ∃ n ∈ tagNodes [] v, n.Bad lookup) ∧
      ∀ e, resolve lookup "" v = .error e ↔
        ∃ before n after, tagNodes [] v = before ++ n :: after ∧
          (∀ m ∈ before, ¬ m.Bad lookup) ∧ n.RefusedWith lookup e := by
  have hstops : StopsAt lookup ((tagNodes [] v).map TagNode.spot) (resolve lookup "" v) :=
    tagSpots_eq v [] ▸ resolve_stopsAt v ""
  have hplace : ∀ n ∈ tagNodes [] v, fieldText (fieldOf n.way) = position n.way := fun n hn =>
    fieldText_fieldOf (namedWay_of_mem v [] hkeys nofun n hn)
  constructor
  · rw [exists_congr hstops, exists_firstRefused]
    simp only [List.mem_map, exists_exists_and_eq_and]
    exact Iff.rfl
  · intro e
    rw [hstops e, firstRefused_iff]
    constructor
    · rintro ⟨_, _, _, hsplit, hbefore, hs⟩
      obtain ⟨before, rest, hnodes, rfl, hrest⟩ := List.map_eq_append_iff.mp hsplit
      obtain ⟨n, after, rfl, rfl, rfl⟩ := List.map_eq_cons_iff.mp hrest
      refine ⟨before, n, after, hnodes, fun m hm => hbefore _ (List.mem_map_of_mem hm), ?_⟩
      rwa [TagNode.RefusedWith, ← hplace n (by simp [hnodes])]
    · rintro ⟨before, n, after, hnodes, hbefore, hn⟩
      refine ⟨before.map TagNode.spot, n.spot, after.map TagNode.spot, by simp [hnodes],
        List.forall_mem_map.mpr hbefore, ?_⟩
      rwa [TagNode.RefusedWith, ← hplace n (by simp [hnodes])] at hn

/-- A document with three tags: one whose variable is set, one whose variable is
not, and a foreign one. -/
def unsetPalette : Value :=
  .mapping
    [(.string "site_name", .tagged "ENV" (.string "SITE")),
      (.string "theme", .mapping [(.string "palette", .sequence
        [.mapping [(.string "scheme", .tagged "ENV" (.sequence [.string "SCHEME"]))]])]),
      (.bool true, .tagged "other" .null)]

/-- The second tag of `unsetPalette` is the first bad one. -/
theorem resolve_refusals_unsetPalette :
    resolve (fun name => if name = "SITE" then some "Guide" else none) "" unsetPalette =
      .error (.environment "theme.palette[0].scheme" (.unset ["SCHEME"])) := by
  have htagged : ∀ tag arg, (Value.tagged tag arg).NamedKeys := .tagged
  have hscheme : (Value.mapping [(.string "scheme",
      .tagged "ENV" (.sequence [.string "SCHEME"]))]).NamedKeys :=
    .mapping (by decide) (List.forall_mem_singleton.mpr (htagged _ _))
  have htheme : (Value.mapping [(.string "palette", .sequence
      [.mapping [(.string "scheme", .tagged "ENV" (.sequence [.string "SCHEME"]))]])]).NamedKeys :=
    .mapping (by decide)
      (List.forall_mem_singleton.mpr (.sequence (List.forall_mem_singleton.mpr hscheme)))
  have hkeys : unsetPalette.NamedKeys :=
    .mapping (by decide) (by simp [htagged, htheme])
  refine ((resolve_refusals _ hkeys).2 _).mpr
    ⟨[_], ⟨[.key (.string "theme"), .key (.string "palette"), .place 0, .key (.string "scheme")],
      "ENV", .sequence [.string "SCHEME"]⟩, [_], rfl, List.forall_mem_singleton.mpr ?_, ?_⟩
  · rintro (hforeign | ⟨fault, hkind | _ | ⟨hgives, hunset⟩⟩)
    · exact hforeign rfl
    · exact hkind "SITE" rfl
    · obtain ⟨hname, -⟩ := hgives.unique .name
      simp [List.singleton_inj.mp hname] at hunset
  · exact .faulty rfl (.unset (.single rfl) rfl)

end Environment
end SitePlan
