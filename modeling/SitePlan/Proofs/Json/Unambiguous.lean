/-
# Printed JSON is unambiguous

Where JSON without numbers stands at the front of a text, it can be told what JSON it is and
where it ends. Between quotes the next character is told from the front, and so is the quote
at the end: a document reads every escape back. The first character tells the kind of a
value. Between brackets no member begins with the right one, and behind a member either a
comma stands or, after a blank or at once, the right bracket. Both printers share this: they
differ in what is put in front of the members and of the right bracket, and behind a colon.

Key definitions: `Json.unescape?`, `Json.Printer`, `Json.NumberFree`.
Key theorems: `Json.unescape?_escapeChar`, `Json.quoted_append_inj`,
`Json.Printer.legible`, `Json.pretty_inj`, `Json.compact_inj`.
-/
import Mathlib.Tactic.SplitIfs
import SitePlan.Json.Printer
import SitePlan.Yaml.Token.Scalar

namespace SitePlan
namespace Json

/-! ### Texts between quotes -/

/-- The first character of what is written between quotes, with what follows it. A quote
ends the text. -/
def unescape? : List Char → Option (Char × List Char)
  | '"' :: _ => none
  | '\\' :: 'u' :: a :: b :: c :: d :: rest =>
    (Yaml.Scalar.charOfHex? [a, b, c, d]).map fun ch => (ch, rest)
  | '\\' :: mark :: rest => (Yaml.Scalar.escapeChar? mark).map fun ch => (ch, rest)
  | c :: rest => some (c, rest)
  | [] => none

theorem charOfHex?_control : ∀ n < 0x20,
    Yaml.Scalar.charOfHex? ['0', '0', hexDigit (n / 16), hexDigit (n % 16)] =
      some (Char.ofNat n) := by
  decide

/-- Every character is read back from the front of what it is written as. -/
theorem unescape?_escapeChar (c : Char) (rest : List Char) :
    unescape? (escapeChar c ++ rest) = some (c, rest) := by
  unfold escapeChar
  split_ifs with hquote hslash hn hr ht hb hf hcontrol
  · rw [hquote]; rfl
  · rw [hslash]; rfl
  · rw [hn]; rfl
  · rw [hr]; rfl
  · rw [ht]; rfl
  · rw [hb]; rfl
  · rw [hf]; rfl
  · have hchar := charOfHex?_control c.toNat hcontrol
    rw [Char.ofNat_toNat] at hchar
    show (Yaml.Scalar.charOfHex? _).map _ = _
    rw [hchar]
    rfl
  · simp [unescape?, hslash]

theorem escaped_append_inj : ∀ {cs ds rest rest' : List Char},
    cs.flatMap escapeChar ++ '"' :: rest = ds.flatMap escapeChar ++ '"' :: rest' →
    cs = ds ∧ rest = rest'
  | [], [], _, _, h => ⟨rfl, List.tail_eq_of_cons_eq h⟩
  | [], d :: ds, _, _, h => by
    have hread := congrArg unescape? h
    rw [List.flatMap_cons, List.append_assoc, unescape?_escapeChar] at hread
    cases hread
  | c :: cs, [], _, _, h => by
    have hread := congrArg unescape? h
    rw [List.flatMap_cons, List.append_assoc, unescape?_escapeChar] at hread
    cases hread
  | c :: cs, d :: ds, _, _, h => by
    have hread := congrArg unescape? h
    rw [List.flatMap_cons, List.flatMap_cons, List.append_assoc, List.append_assoc,
      unescape?_escapeChar, unescape?_escapeChar, Option.some.injEq, Prod.mk.injEq] at hread
    obtain ⟨rfl, hafter⟩ := hread
    obtain ⟨rfl, hrest⟩ := escaped_append_inj hafter
    exact ⟨rfl, hrest⟩

/-- A text with its quotes is told from the front. -/
theorem quoted_append_inj {s t : String} {rest rest' : List Char}
    (h : quoted s ++ rest = quoted t ++ rest') : s = t ∧ rest = rest' := by
  simp only [quoted, List.cons_append, List.append_assoc, List.nil_append, List.cons.injEq,
    true_and] at h
  obtain ⟨htext, hrest⟩ := escaped_append_inj h
  exact ⟨String.toList_inj.mp htext, hrest⟩

/-! ### Members between brackets -/

section Members

variable {α : Type} {lineBreak : Nat → List Char} {depth outer : Nat} {left right : Char}
  {print : α → List Char → List Char} {as bs : List α} {rest rest' : List Char}

/-- Each further member after a comma. -/
def further (lineBreak : Nat → List Char) (depth : Nat) (print : α → List Char → List Char) :
    List α → List Char → List Char
  | [], rest => rest
  | a :: as, rest => ',' :: (lineBreak depth ++ print a (further lineBreak depth print as rest))

/-- Members between brackets, with commas between them. -/
def enclosed (lineBreak : Nat → List Char) (depth : Nat) (left right : Char)
    (print : α → List Char → List Char) : List α → List Char → List Char
  | [], rest => left :: right :: rest
  | a :: as, rest =>
    left :: (lineBreak (depth + 1) ++ print a (further lineBreak (depth + 1) print as
      (lineBreak depth ++ right :: rest)))

/-- Nothing but line ends and spaces stands in front of members and brackets. -/
def Blank (lineBreak : Nat → List Char) : Prop :=
  ∀ depth, ∀ c ∈ lineBreak depth, c = '\n' ∨ c = ' '

/-- Two members that begin two texts are one, and so is what follows them. -/
def Apart (print : α → List Char → List Char) (a b : α) : Prop :=
  ∀ rest rest', print a rest = print b rest' → a = b ∧ rest = rest'

/-- A character that is not blank is not taken for another behind a line break. -/
theorem Blank.ne (h : Blank lineBreak) {x y : Char} (hx : ¬ (x = '\n' ∨ x = ' ')) (hne : x ≠ y) :
    x :: rest ≠ lineBreak depth ++ y :: rest' := by
  intro heq
  cases hbreak : lineBreak depth with
  | nil =>
    rw [hbreak] at heq
    exact hne (List.cons.inj heq).1
  | cons c cs =>
    rw [hbreak] at heq
    have hc : x ∈ lineBreak depth := by
      rw [hbreak, (List.cons.inj heq).1]
      exact List.mem_cons_self
    exact hx (h depth x hc)

theorem further_inj (h : Blank lineBreak) (hright : right ≠ ',') :
    ∀ {as bs : List α} {rest rest' : List Char}, (∀ a ∈ as, ∀ b ∈ bs, Apart print a b) →
    further lineBreak depth print as (lineBreak outer ++ right :: rest) =
      further lineBreak depth print bs (lineBreak outer ++ right :: rest') →
    as = bs ∧ rest = rest'
  | [], [], _, _, _, heq => ⟨rfl, List.tail_eq_of_cons_eq (List.append_cancel_left heq)⟩
  | [], b :: bs, _, _, _, heq => absurd heq.symm (h.ne (by decide) hright.symm)
  | a :: as, [], _, _, _, heq => absurd heq (h.ne (by decide) hright.symm)
  | a :: as, b :: bs, _, _, hapart, heq => by
    obtain ⟨hfirst, hothers⟩ := List.forall_mem_cons.mp hapart
    obtain ⟨rfl, hafter⟩ := hfirst b List.mem_cons_self _ _
      (List.append_cancel_left (List.tail_eq_of_cons_eq heq))
    obtain ⟨rfl, hrest⟩ := further_inj h hright
      (fun a ha b hb => hothers a ha b (List.mem_cons_of_mem _ hb)) hafter
    exact ⟨rfl, hrest⟩

/-- **Members between brackets are told from the front** if each of them is, and none begins
with the right bracket. -/
theorem enclosed_inj (h : Blank lineBreak) (hblank : ¬ (right = '\n' ∨ right = ' '))
    (hright : right ≠ ',')
    (hstart : ∀ a ∈ as ++ bs, ∀ rest, ∃ c tail, print a rest = c :: tail ∧ right ≠ c)
    (hapart : ∀ a ∈ as, ∀ b ∈ bs, Apart print a b)
    (heq : enclosed lineBreak depth left right print as rest =
      enclosed lineBreak depth left right print bs rest') : as = bs ∧ rest = rest' := by
  have hmember : ∀ a ∈ as ++ bs, ∀ rest rest',
      right :: rest ≠ lineBreak (depth + 1) ++ print a rest' := by
    intro a ha rest rest'
    obtain ⟨c, tail, hprint, hc⟩ := hstart a ha rest'
    rw [hprint]
    exact h.ne hblank hc
  cases as with
  | nil =>
    cases bs with
    | nil => exact ⟨rfl, (List.cons.inj (List.cons.inj heq).2).2⟩
    | cons b bs => exact absurd (List.cons.inj heq).2 (hmember b List.mem_cons_self _ _)
  | cons a as =>
    cases bs with
    | nil => exact absurd (List.cons.inj heq).2.symm (hmember a List.mem_cons_self _ _)
    | cons b bs =>
      obtain ⟨hfirst, hothers⟩ := List.forall_mem_cons.mp hapart
      obtain ⟨rfl, hafter⟩ := hfirst b List.mem_cons_self _ _
        (List.append_cancel_left (List.cons.inj heq).2)
      obtain ⟨rfl, hrest⟩ := further_inj h hright
        (fun a ha b hb => hothers a ha b (List.mem_cons_of_mem _ hb)) hafter
      exact ⟨rfl, hrest⟩

end Members

/-! ### Values -/

/-- A field: its name, a colon and its value. -/
def fieldOnto (gap : List Char) (print : Json → List Char → List Char) (f : String × Json)
    (rest : List Char) : List Char :=
  quoted f.1 ++ ':' :: (gap ++ print f.2 rest)

/-- JSON in which no number stands. A double that is not finite is written as null is. -/
inductive NumberFree : Json → Prop
  | null : NumberFree null
  | bool (b : Bool) : NumberFree (bool b)
  | string (s : String) : NumberFree (string s)
  | array {items : List Json} : (∀ v ∈ items, NumberFree v) → NumberFree (array items)
  | object {fields : List (String × Json)} : (∀ f ∈ fields, NumberFree f.2) →
      NumberFree (object fields)

/-- A way to print JSON at a depth in front of a text. Members and right brackets stand
behind a line break for their depth, and values behind a gap after the colon. -/
structure Printer where
  onto : Nat → Json → List Char → List Char
  lineBreak : Nat → List Char
  gap : List Char
  blank : Blank lineBreak
  onto_null : ∀ depth rest, onto depth null rest = 'n' :: 'u' :: 'l' :: 'l' :: rest
  onto_bool : ∀ depth b rest,
    onto depth (bool b) rest = (if b then "true" else "false").toList ++ rest
  onto_string : ∀ depth s rest, onto depth (string s) rest = quoted s ++ rest
  onto_array : ∀ depth items rest,
    onto depth (array items) rest = enclosed lineBreak depth '[' ']' (onto (depth + 1)) items rest
  onto_object : ∀ depth fields rest, onto depth (object fields) rest =
    enclosed lineBreak depth '\x7b' '\x7d' (fieldOnto gap (onto (depth + 1))) fields rest

/-- The character that JSON without numbers begins with. -/
def opening : Json → Char
  | bool b => if b then 't' else 'f'
  | string _ => '"'
  | array _ => '['
  | object _ => '\x7b'
  | _ => 'n'

namespace Printer

variable (p : Printer) {v w : Json} {depth : Nat} {rest rest' : List Char}

theorem exists_onto (hv : NumberFree v) (depth : Nat) (rest : List Char) :
    ∃ tail, p.onto depth v rest = opening v :: tail := by
  cases hv with
  | null => exact ⟨_, p.onto_null depth rest⟩
  | bool b =>
    rw [p.onto_bool]
    cases b
    · exact ⟨_, rfl⟩
    · exact ⟨_, rfl⟩
  | string s =>
    rw [p.onto_string]
    exact ⟨_, rfl⟩
  | @array items _ =>
    rw [p.onto_array]
    cases items with
    | nil => exact ⟨_, rfl⟩
    | cons v vs => exact ⟨_, rfl⟩
  | @object fields _ =>
    rw [p.onto_object]
    cases fields with
    | nil => exact ⟨_, rfl⟩
    | cons f fs => exact ⟨_, rfl⟩

theorem opening_eq (hv : NumberFree v) (hw : NumberFree w)
    (h : p.onto depth v rest = p.onto depth w rest') : opening v = opening w := by
  obtain ⟨tail, hv⟩ := p.exists_onto hv depth rest
  obtain ⟨tail', hw⟩ := p.exists_onto hw depth rest'
  rw [hv, hw] at h
  exact (List.cons.inj h).1

theorem opening_ne_bracket (hv : NumberFree v) : ']' ≠ opening v := by
  cases hv with
  | bool b => cases b <;> decide
  | _ => simp [opening]

/-- No other JSON without numbers stands where this does, and this ends at one place. -/
def Legible (v : Json) : Prop :=
  ∀ depth w rest rest', NumberFree w → p.onto depth v rest = p.onto depth w rest' →
    v = w ∧ rest = rest'

theorem legible_null : p.Legible null := by
  intro depth w rest rest' hw h
  have hopen := p.opening_eq .null hw h
  cases hw with
  | null =>
    rw [p.onto_null, p.onto_null] at h
    simpa using h
  | _ => grind [opening]

theorem legible_bool (b : Bool) : p.Legible (bool b) := by
  intro depth w rest rest' hw h
  have hopen := p.opening_eq (.bool b) hw h
  cases hw with
  | bool b' =>
    obtain rfl : b = b' := by grind [opening]
    rw [p.onto_bool, p.onto_bool] at h
    exact ⟨rfl, List.append_cancel_left h⟩
  | _ => grind [opening]

theorem legible_string (s : String) : p.Legible (string s) := by
  intro depth w rest rest' hw h
  have hopen := p.opening_eq (.string s) hw h
  cases hw with
  | string t =>
    rw [p.onto_string, p.onto_string] at h
    obtain ⟨rfl, hrest⟩ := quoted_append_inj h
    exact ⟨rfl, hrest⟩
  | _ => grind [opening]

theorem legible_array {items : List Json} (hitems : ∀ v ∈ items, NumberFree v)
    (hlegible : ∀ v ∈ items, p.Legible v) : p.Legible (array items) := by
  intro depth w rest rest' hw h
  have hopen := p.opening_eq (.array hitems) hw h
  cases hw with
  | @array items' hitems' =>
    have hstart : ∀ v ∈ items ++ items', ∀ rest, ∃ c tail,
        p.onto (depth + 1) v rest = c :: tail ∧ ']' ≠ c := by
      intro v hv rest
      have hfree : NumberFree v := (List.mem_append.mp hv).elim (hitems v) (hitems' v)
      obtain ⟨tail, htail⟩ := p.exists_onto hfree (depth + 1) rest
      exact ⟨_, tail, htail, opening_ne_bracket hfree⟩
    have hapart : ∀ v ∈ items, ∀ w ∈ items', Apart (p.onto (depth + 1)) v w :=
      fun v hv w hw rest rest' => hlegible v hv (depth + 1) w rest rest' (hitems' w hw)
    rw [p.onto_array, p.onto_array] at h
    obtain ⟨rfl, hrest⟩ := enclosed_inj p.blank (by decide) (by decide) hstart hapart h
    exact ⟨rfl, hrest⟩
  | _ => grind [opening]

theorem legible_object {fields : List (String × Json)} (hfields : ∀ f ∈ fields, NumberFree f.2)
    (hlegible : ∀ f ∈ fields, p.Legible f.2) : p.Legible (object fields) := by
  intro depth w rest rest' hw h
  have hopen := p.opening_eq (.object hfields) hw h
  cases hw with
  | @object fields' hfields' =>
    have hapart : ∀ f ∈ fields, ∀ f' ∈ fields',
        Apart (fieldOnto p.gap (p.onto (depth + 1))) f f' := by
      rintro ⟨name, v⟩ hv ⟨name', w⟩ hw rest rest' h
      obtain ⟨rfl, hvalue⟩ := quoted_append_inj h
      obtain ⟨rfl, hrest⟩ := hlegible _ hv (depth + 1) w rest rest' (hfields' _ hw)
        (List.append_cancel_left (List.tail_eq_of_cons_eq hvalue))
      exact ⟨rfl, hrest⟩
    rw [p.onto_object, p.onto_object] at h
    obtain ⟨rfl, hrest⟩ := enclosed_inj p.blank (by decide) (by decide)
      (fun f _ rest => ⟨'"', _, rfl, by decide⟩) hapart h
    exact ⟨rfl, hrest⟩
  | _ => grind [opening]

/-- **JSON without numbers is told from the front of a text**, with where it ends. -/
theorem legible (hv : NumberFree v) : p.Legible v := by
  induction hv with
  | null => exact p.legible_null
  | bool b => exact p.legible_bool b
  | string s => exact p.legible_string s
  | array hitems ih => exact p.legible_array hitems ih
  | object hfields ih => exact p.legible_object hfields ih

end Printer

/-! ### The two printers -/

theorem eq_further {α : Type} {print : α → List Char → List Char} (lineBreak : Nat → List Char)
    (depth : Nat) (members : List α → List Char → List Char)
    (hlast : ∀ a rest, members [a] rest = lineBreak depth ++ print a rest)
    (hcons : ∀ a b as rest, members (a :: b :: as) rest =
      lineBreak depth ++ print a (',' :: members (b :: as) rest)) :
    ∀ (as : List α) (a : α) (rest : List Char), members (a :: as) rest =
      lineBreak depth ++ print a (further lineBreak depth print as rest)
  | [], a, rest => hlast a rest
  | b :: as, a, rest => by
    rw [hcons, eq_further lineBreak depth members hlast hcons as b rest]
    rfl

/-- Over several lines. -/
def indented : Printer where
  onto := prettyOnto
  lineBreak := newLine
  gap := [' ']
  blank depth c hc := by
    rcases List.mem_cons.mp hc with rfl | hc
    · exact .inl rfl
    · exact .inr (List.eq_of_mem_replicate hc)
  onto_null _ _ := rfl
  onto_bool _ _ _ := rfl
  onto_string _ _ _ := rfl
  onto_array depth items rest := by
    cases items with
    | nil => rfl
    | cons v vs =>
      refine congrArg ('[' :: ·) (eq_further newLine _ (prettyItems (depth + 1)) ?_ ?_ vs v _)
      · exact fun _ _ => rfl
      · exact fun _ _ _ _ => rfl
  onto_object depth fields rest := by
    cases fields with
    | nil => rfl
    | cons f fs =>
      refine congrArg ('\x7b' :: ·)
        (eq_further newLine _ (prettyFields (depth + 1)) ?_ ?_ fs f _)
      · exact fun _ _ => by simp [prettyFields, fieldOnto]
      · exact fun _ _ _ _ => by simp [prettyFields, fieldOnto]

/-- On one line. -/
def flat : Printer where
  onto _ := compactOnto
  lineBreak _ := []
  gap := []
  blank _ _ hc := nomatch hc
  onto_null _ _ := rfl
  onto_bool _ _ _ := rfl
  onto_string _ _ _ := rfl
  onto_array depth items rest := by
    cases items with
    | nil => rfl
    | cons v vs =>
      refine congrArg ('[' :: ·) (eq_further (fun _ => []) (depth + 1) compactItems ?_ ?_ vs v _)
      · exact fun _ _ => rfl
      · exact fun _ _ _ _ => rfl
  onto_object depth fields rest := by
    cases fields with
    | nil => rfl
    | cons f fs =>
      refine congrArg ('\x7b' :: ·)
        (eq_further (fun _ => []) (depth + 1) compactFields ?_ ?_ fs f _)
      · exact fun _ _ => rfl
      · exact fun _ _ _ _ => rfl

variable {v w : Json}

/-- JSON without numbers is told from its text over several lines. -/
theorem pretty_inj (hv : NumberFree v) (hw : NumberFree w) : v.pretty = w.pretty ↔ v = w := by
  refine ⟨fun h => ?_, congrArg pretty⟩
  have honto : indented.onto 0 v [] = indented.onto 0 w [] := String.ofList_inj.mp h
  exact (indented.legible hv 0 w [] [] hw honto).1

/-- JSON without numbers is told from its text on one line. -/
theorem compact_inj (hv : NumberFree v) (hw : NumberFree w) : v.compact = w.compact ↔ v = w := by
  refine ⟨fun h => ?_, congrArg compact⟩
  have honto : flat.onto 0 v [] = flat.onto 0 w [] := String.ofList_inj.mp h
  exact (flat.legible hv 0 w [] [] hw honto).1

end Json
end SitePlan
