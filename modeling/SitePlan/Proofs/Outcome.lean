/-
# When steps succeed

A computation that may fail gives a result exactly if its steps do, and else the
error of the first that does not. What is done to its result at the end can be
done by its last step, and what is done to the result of a step by the step after
it. Two computations go alike if their results are in a relation or their errors the
same; so they do after the same further steps, and likewise where a step may give nothing
instead of an error.

Key definitions: `Outcome.Alike`.
Key theorems: `Outcome.ok_bind`, `Outcome.bind_eq_ok`, `Outcome.map_eq_ok`,
`Outcome.mapError_eq_ok`, `Outcome.bind_eq_error`, `Outcome.map_eq_error`,
`Outcome.mapError_eq_error`, `Outcome.toOption_eq_some`, `Outcome.map_bind`,
`Outcome.map_map`, `Outcome.bind_map`, `Outcome.mapM_eq_ok`,
`Outcome.mapM_eq_ok_iff_forall₂`, `Outcome.mapM_congr`, `Outcome.mapM_isOk_iff`,
`Outcome.Alike.bind_eq`, `Outcome.rel_bind`.
-/
import Mathlib.Data.List.Forall2

namespace SitePlan
namespace Outcome

variable {α β γ ε ε' : Type}

theorem ok_bind {a : α} {f : α → Except ε β} : (Except.ok a >>= f) = f a := rfl

theorem bind_eq_ok {x : Except ε α} {f : α → Except ε β} {b : β} :
    (x >>= f) = .ok b ↔ ∃ a, x = .ok a ∧ f a = .ok b := by
  cases x <;> simp [bind, Except.bind]

theorem map_eq_ok {x : Except ε α} {f : α → β} {b : β} :
    x.map f = .ok b ↔ ∃ a, x = .ok a ∧ f a = b := by
  cases x <;> simp [Except.map]

theorem mapError_eq_ok {x : Except ε α} {f : ε → ε'} {a : α} :
    x.mapError f = .ok a ↔ x = .ok a := by
  constructor
  · intro h
    cases x <;> cases h
    rfl
  · rintro rfl
    rfl

theorem bind_eq_error {x : Except ε α} {f : α → Except ε β} {e : ε} :
    (x >>= f) = .error e ↔ x = .error e ∨ ∃ a, x = .ok a ∧ f a = .error e := by
  cases x <;> simp [bind, Except.bind]

theorem map_eq_error {x : Except ε α} {f : α → β} {e : ε} :
    x.map f = .error e ↔ x = .error e := by
  cases x <;> simp [Except.map]

theorem mapError_eq_error {x : Except ε α} {f : ε → ε'} {e : ε'} :
    x.mapError f = .error e ↔ ∃ e', x = .error e' ∧ f e' = e := by
  cases x <;> simp [Except.mapError]

theorem toOption_eq_some {x : Except ε α} {a : α} : x.toOption = some a ↔ x = .ok a := by
  cases x <;> simp [Except.toOption]

theorem map_bind {x : Except ε α} {f : α → Except ε β} {g : β → γ} :
    (x >>= f).map g = x >>= fun a => (f a).map g := by
  cases x <;> rfl

theorem map_map {x : Except ε α} {f : α → β} {g : β → γ} : (x.map f).map g = x.map (g ∘ f) := by
  cases x <;> rfl

theorem bind_map {x : Except ε α} {f : α → β} {g : β → Except ε γ} :
    (x.map f >>= g) = x >>= fun a => g (f a) := by
  cases x <;> rfl

/-! ### Steps in a row -/

theorem mapM_eq_ok {f : α → Except ε β} : ∀ {as : List α} {bs : List β},
    as.mapM f = .ok bs ↔ as.map f = bs.map .ok
  | [], bs => by
    rw [List.mapM_nil]
    cases bs <;> simp [pure, Except.pure]
  | a :: as, bs => by
    have ih : ∀ {bs : List β}, as.mapM f = .ok bs ↔ as.map f = bs.map .ok := mapM_eq_ok
    simp only [List.mapM_cons, bind_eq_ok, ih]
    cases bs <;> simp [pure, Except.pure]

/-- The results of a row of steps are those of the steps. -/
theorem mapM_eq_ok_iff_forall₂ {f : α → Except ε β} {R : α → β → Prop}
    (h : ∀ a b, f a = .ok b ↔ R a b) {as : List α} {bs : List β} :
    as.mapM f = .ok bs ↔ List.Forall₂ R as bs := by
  rw [mapM_eq_ok, ← List.forall₂_eq_eq_eq, List.forall₂_map_left_iff, List.forall₂_map_right_iff]
  simp only [h]

theorem mapM_congr {f : α → Except ε γ} {g : β → Except ε γ} {as : List α} {bs : List β}
    (h : List.Forall₂ (fun a b => f a = g b) as bs) : as.mapM f = bs.mapM g := by
  have hmap : as.map f = bs.map g := by
    rwa [← List.forall₂_eq_eq_eq, List.forall₂_map_left_iff, List.forall₂_map_right_iff]
  have hsteps := congrArg (List.mapM id) hmap
  rwa [List.mapM_map, List.mapM_map] at hsteps

theorem mapM_isOk_iff {f : α → Except ε β} {as : List α} :
    (∃ bs, as.mapM f = .ok bs) ↔ ∀ a ∈ as, ∃ b, f a = .ok b := by
  simp only [mapM_eq_ok]
  induction as with
  | nil => exact iff_of_true ⟨[], rfl⟩ (by simp)
  | cons a as ih =>
    rw [List.forall_mem_cons, ← ih]
    constructor
    · rintro ⟨bs, h⟩
      cases bs with
      | nil => cases h
      | cons b bs =>
        obtain ⟨hb, hbs⟩ := List.cons.inj h
        exact ⟨⟨b, hb⟩, bs, hbs⟩
    · rintro ⟨⟨b, hb⟩, bs, hbs⟩
      exact ⟨b :: bs, congr (congrArg List.cons hb) hbs⟩

theorem exists_of_mem_forall₂ {R : α → β → Prop} {as : List α} {bs : List β}
    (h : List.Forall₂ R as bs) {b : β} (hb : b ∈ bs) : ∃ a ∈ as, R a b := by
  induction h with
  | nil => cases hb
  | cons hab _ ih =>
    rcases List.mem_cons.mp hb with rfl | hb
    · exact ⟨_, List.mem_cons_self, hab⟩
    · obtain ⟨a, ha, hab⟩ := ih hb
      exact ⟨a, List.mem_cons_of_mem _ ha, hab⟩

/-! ### Steps that go alike -/

/-- Two computations have results in a relation, or they have the same error. -/
inductive Alike (R : α → β → Prop) : Except ε α → Except ε β → Prop
  | ok {a : α} {b : β} : R a b → Alike R (.ok a) (.ok b)
  | error (e : ε) : Alike R (.error e) (.error e)

namespace Alike

variable {R : α → β → Prop} {x : Except ε α} {y : Except ε β}

theorem imp {S : α → β → Prop} (h : Alike R x y) (hRS : ∀ a b, R a b → S a b) : Alike S x y := by
  cases h with
  | error e => exact .error e
  | ok h => exact .ok (hRS _ _ h)

theorem same (x : Except ε α) : Alike (fun a b => b = a ∧ x = .ok a) x x := by
  cases x with
  | error e => exact .error e
  | ok a => exact .ok ⟨rfl, rfl⟩

theorem results (h : Alike R x y) : Alike (fun a b => R a b ∧ x = .ok a ∧ y = .ok b) x y := by
  cases h with
  | error e => exact .error e
  | ok h => exact .ok ⟨h, rfl, rfl⟩

theorem bind {S : γ → γ → Prop} {f : α → Except ε γ} {g : β → Except ε γ} (h : Alike R x y)
    (hfg : ∀ a b, R a b → Alike S (f a) (g b)) : Alike S (x >>= f) (y >>= g) := by
  cases h with
  | error e => exact .error e
  | ok h => exact hfg _ _ h

/-- Steps that give the same after computations that go alike give the same. -/
theorem bind_eq {f : α → Except ε γ} {g : β → Except ε γ} (h : Alike R x y)
    (hfg : ∀ a b, R a b → g b = f a) : (y >>= g) = (x >>= f) := by
  cases h with
  | error e => rfl
  | ok h => exact hfg _ _ h

end Alike

/-! ### Steps that may give nothing -/

section

variable {R : α → α → Prop} {S : β → β → Prop} {x x' : Option α}

/-- Steps in a relation follow steps in a relation. -/
theorem rel_bind {f f' : α → Option β} (h : Option.Rel R x x')
    (hf : ∀ a a', R a a' → Option.Rel S (f a) (f' a')) :
    Option.Rel S (x.bind f) (x'.bind f') := by
  cases h with
  | none => exact .none
  | some h => exact hf _ _ h

theorem rel_map {f f' : α → β} (h : Option.Rel R x x') (hf : ∀ a a', R a a' → S (f a) (f' a')) :
    Option.Rel S (x.map f) (x'.map f') := by
  cases h with
  | none => exact .none
  | some h => exact .some (hf _ _ h)

theorem rel_elim {f f' : α → Option β} {y y' : Option β} (h : Option.Rel R x x')
    (hy : Option.Rel S y y') (hf : ∀ a a', R a a' → Option.Rel S (f a) (f' a')) :
    Option.Rel S (x.elim y f) (x'.elim y' f') := by
  cases h with
  | none => exact hy
  | some h => exact hf _ _ h

theorem rel_ite {p : Prop} [Decidable p] {y y' : Option α} (hpos : p → Option.Rel R x x')
    (hneg : ¬ p → Option.Rel R y y') :
    Option.Rel R (if p then x else y) (if p then x' else y') := by
  by_cases h : p
  · rw [if_pos h, if_pos h]
    exact hpos h
  · rw [if_neg h, if_neg h]
    exact hneg h

theorem rel_imp {R' : α → α → Prop} (h : Option.Rel R x x') (hR : ∀ a a', R a a' → R' a a') :
    Option.Rel R' x x' := by
  cases h with
  | none => exact .none
  | some h => exact .some (hR _ _ h)

/-- Results that are in each of some relations are in all of them. -/
theorem rel_forall {ι : Type} {P : ι → Prop} {T : ι → α → α → Prop} (hP : ∃ i, P i)
    (h : ∀ i, P i → Option.Rel (T i) x x') :
    Option.Rel (fun a a' => ∀ i, P i → T i a a') x x' := by
  obtain ⟨i, hi⟩ := hP
  cases h i hi with
  | none => exact .none
  | some _ =>
    refine .some fun j hj => ?_
    cases h j hj with
    | some hT => exact hT

theorem eq_of_rel (h : Option.Rel (fun a a' => a' = a) x x') : x' = x := by
  cases h with
  | none => rfl
  | some h => exact congrArg some h

end

theorem rel_mapM {R : α → α → Prop} {S : β → β → Prop} {f f' : α → Option β}
    (hf : ∀ a a', R a a' → Option.Rel S (f a) (f' a')) : ∀ {as as' : List α},
    List.Forall₂ R as as' → Option.Rel (List.Forall₂ S) (as.mapM f) (as'.mapM f')
  | [], _, .nil => .some .nil
  | a :: as, a' :: as', .cons ha has => by
    rw [List.mapM_cons, List.mapM_cons]
    refine rel_bind (hf a a' ha) fun b b' hb => rel_bind (rel_mapM hf has) fun bs bs' hbs => ?_
    exact .some (.cons hb hbs)

theorem exists_of_rel_some {R : α → β → Prop} {a : α} {y : Option β}
    (h : Option.Rel R (some a) y) : ∃ b, y = some b ∧ R a b := by
  cases h with
  | some h => exact ⟨_, rfl, h⟩

theorem eq_none_of_rel_none {R : α → β → Prop} {y : Option β} (h : Option.Rel R none y) :
    y = none := by
  cases h
  rfl

end Outcome
end SitePlan
