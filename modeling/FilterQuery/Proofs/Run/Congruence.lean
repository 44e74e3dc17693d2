import FilterQuery.Lowering.Run

/-!
# Congruences of runs

Most laws of lowering compare two runs of the same program: under another limit, under another
policy, under another schema. Such a comparison is a relation between runs, and it can be made
step by step if sequences respect it. A `Run.Congruence` is a relation with this property.

A property of single runs is a congruence too: it relates a run that has it to every run. The
congruences here are

* `Congruence.equality`: the runs are equal;
* `Congruence.success`: the first run gives a result;
* `Congruence.errorsIn`: the first run fails only with errors of a set;
* `Congruence.cutAt`: the first run is the second, or a beginning of it that ended at a limit.
-/

namespace FilterQuery

namespace Run

/-- **Congruences.** A relation between runs that sequences of runs respect. -/
structure Congruence where
  /-- The relation. -/
  Rel : {α : Type} → Run α → Run α → Prop
  /-- A run that only has a result is related to itself. -/
  rel_pure : ∀ {α : Type} (a : α), Rel (pure a) (pure a)
  /-- Related runs followed by related runs are related; those that follow are compared only
  after a result of the first run. -/
  rel_bind : ∀ {α β : Type} {x y : Run α} {f g : α → Run β}, Rel x y →
    (∀ a, x.result = .ok a → Rel (f a) (g a)) → Rel (x >>= f) (y >>= g)

namespace Congruence

variable {α β : Type}

/-! ### Sequences -/

section Sequences

variable (R : Congruence)

/-- A congruence respects a function of the result. -/
theorem rel_map {x y : Run α} (f : α → β) (h : R.Rel x y) : R.Rel (f <$> x) (f <$> y) := by
  rw [map_eq_pure_bind, map_eq_pure_bind]
  exact R.rel_bind h fun a _ => R.rel_pure (f a)

/-- A congruence respects runs for the elements of a list. -/
theorem rel_mapM {f g : α → Run β} {xs : List α} (h : ∀ a ∈ xs, R.Rel (f a) (g a)) :
    R.Rel (xs.mapM f) (xs.mapM g) := by
  induction xs with
  | nil => exact R.rel_pure []
  | cons a xs ih =>
    have head : R.Rel (f a) (g a) := h a List.mem_cons_self
    have tail : R.Rel (xs.mapM f) (xs.mapM g) := ih fun b mem => h b (List.mem_cons_of_mem a mem)
    rw [List.mapM_cons, List.mapM_cons]
    exact R.rel_bind head fun b _ => R.rel_bind tail fun bs _ => R.rel_pure (b :: bs)

end Sequences

/-! ### Properties of a single run -/

/-- **Equality.** -/
def equality : Congruence where
  Rel x y := x = y
  rel_pure _ := rfl
  rel_bind {_ _ x y f g} h follow := by
    -- What follows need only agree where the first run gives a result.
    subst h
    rcases hx : x.result with e | a
    · rw [bind_of_error hx, bind_of_error hx]
    · rw [bind_of_ok hx, bind_of_ok hx, follow a hx]

/-- **Success.** The first run gives a result. -/
def success : Congruence where
  Rel {α} x _ := ∃ a : α, x.result = .ok a
  rel_pure a := ⟨a, rfl⟩
  rel_bind {_ _ x _ f _} h follow := by
    obtain ⟨a, ha⟩ := h
    rw [bind_of_ok ha]
    exact follow a ha

/-- **Errors.** The first run fails only with errors of a set. -/
def errorsIn (errors : LoweringError → Prop) : Congruence where
  Rel x _ := ∀ e, x.result = .error e → errors e
  rel_pure a e h := by cases h
  rel_bind {_ _ x _ f _} h follow := by
    rcases hx : x.result with e | a
    · rw [bind_of_error hx]
      rintro e' ⟨⟩
      exact h e hx
    · rw [bind_of_ok hx]
      exact follow a hx

/-! ### Runs that end early -/

/-- **Cutting.** The first run is the second, or its events are a beginning of those of the
second and it ends because the limit is exceeded. -/
def cutAt (limit : Nat) : Congruence where
  Rel x y := (x.result = .error (.depthExceeded limit) ∧ x.events <+: y.events) ∨ x = y
  rel_pure _ := .inr rfl
  rel_bind {_ _ x y f g} h follow := by
    rcases h with ⟨hx, cut⟩ | rfl
    · -- The first run ended here; whatever follows the second only adds events.
      refine .inl ⟨by rw [bind_of_error hx], ?_⟩
      rw [bind_of_error hx]
      rcases hy : y.result with e | a
      · rw [bind_of_error hy]
        exact cut
      · rw [bind_of_ok hy]
        exact cut.trans (List.prefix_append ..)
    · rcases hx : x.result with e | a
      · rw [bind_of_error hx, bind_of_error hx]
        exact .inr rfl
      · rw [bind_of_ok hx, bind_of_ok hx]
        rcases follow a hx with ⟨hf, cut⟩ | eq
        · exact .inl ⟨hf, (List.prefix_append_right_inj _).mpr cut⟩
        · exact .inr (by rw [eq])

end Congruence

end Run

end FilterQuery
