import Mathlib.Data.List.Forall2

/-!
# Results of sequences in `Except`

What the result of a sequence says about its steps: a sequence succeeds if and only if every step
does, and its error is that of the first step that fails (`Except.mapM_eq_error_iff`).
-/

namespace Except

universe u

variable {ε : Type} {α β : Type u}

@[simp]
theorem ok_bind (a : α) (f : α → Except ε β) : Except.ok a >>= f = f a := rfl

@[simp]
theorem error_bind (e : ε) (f : α → Except ε β) : Except.error e >>= f = .error e := rfl

/-- A sequence of two succeeds exactly if the first does, and then the second. -/
theorem bind_eq_ok_iff {x : Except ε α} {f : α → Except ε β} {b : β} :
    x >>= f = .ok b ↔ ∃ a, x = .ok a ∧ f a = .ok b := by
  cases x with
  | error e => exact ⟨nofun, fun ⟨_, h, _⟩ => nomatch h⟩
  | ok a =>
    refine ⟨fun h => ⟨a, rfl, h⟩, ?_⟩
    rintro ⟨_, ⟨⟩, h⟩
    exact h

/-- A sequence of two fails exactly if the first does, or the second after the first. -/
theorem bind_eq_error_iff {x : Except ε α} {f : α → Except ε β} {e : ε} :
    x >>= f = .error e ↔ x = .error e ∨ ∃ a, x = .ok a ∧ f a = .error e := by
  cases x with
  | error e' =>
    constructor
    · rintro ⟨⟩
      exact .inl rfl
    · rintro (⟨⟨⟩⟩ | ⟨_, ⟨⟩, _⟩)
      rfl
  | ok a =>
    refine ⟨fun h => .inr ⟨a, rfl, h⟩, ?_⟩
    rintro (⟨⟨⟩⟩ | ⟨_, ⟨⟩, h⟩)
    exact h

theorem map_eq_ok_iff {f : α → β} {x : Except ε α} {b : β} :
    f <$> x = .ok b ↔ ∃ a, x = .ok a ∧ f a = b := by
  cases x <;> simp

theorem map_eq_error_iff {f : α → β} {x : Except ε α} {e : ε} :
    f <$> x = .error e ↔ x = .error e := by
  cases x <;> simp

/-- Renaming errors keeps results. -/
theorem mapError_eq_ok_iff {ε' : Type} {f : ε → ε'} {x : Except ε α} {a : α} :
    x.mapError f = .ok a ↔ x = .ok a := by
  cases x <;> simp [Except.mapError]

/-- A single element is treated as it is on its own. -/
theorem mapM_singleton (f : α → Except ε β) (x : α) : [x].mapM f = ([·]) <$> f x := by
  rw [List.mapM_cons, List.mapM_nil]
  cases f x <;> rfl

/-- The elements of a list are all treated with success exactly if each of them is. -/
theorem mapM_eq_ok_iff {f : α → Except ε β} {xs : List α} {ys : List β} :
    xs.mapM f = .ok ys ↔ List.Forall₂ (fun x y => f x = .ok y) xs ys := by
  induction xs generalizing ys with
  | nil =>
    rw [List.mapM_nil, List.forall₂_nil_left_iff]
    exact ⟨fun h => (Except.ok.inj h).symm, fun h => congrArg _ h.symm⟩
  | cons x xs ih =>
    rw [List.mapM_cons, List.forall₂_cons_left_iff, bind_eq_ok_iff]
    refine exists_congr fun y => ?_
    rw [bind_eq_ok_iff]
    constructor
    · rintro ⟨hx, rest, hrest, ⟨⟩⟩
      exact ⟨rest, hx, ih.mp hrest, rfl⟩
    · rintro ⟨rest, hx, hrest, rfl⟩
      exact ⟨hx, rest, ih.mpr hrest, rfl⟩

theorem exists_of_mapM_eq_ok {f : α → Except ε β} {xs : List α} {ys : List β}
    (h : xs.mapM f = .ok ys) : ∀ x ∈ xs, ∃ y, f x = .ok y := by
  induction mapM_eq_ok_iff.mp h with
  | nil => exact nofun
  | cons head tail ih =>
    exact List.forall_mem_cons.mpr ⟨⟨_, head⟩, ih (mapM_eq_ok_iff.mpr tail)⟩

/-- The results of elements that are all treated with success. -/
theorem mapM_eq_ok_map {f : α → Except ε β} {g : α → β} {xs : List α}
    (h : ∀ x ∈ xs, f x = .ok (g x)) : xs.mapM f = .ok (xs.map g) :=
  mapM_eq_ok_iff.mpr (List.forall₂_map_right_iff.mpr (List.forall₂_same.mpr h))

/-- Where the elements of a list only have things checked on the way to what is known of them, the
list has all these things checked, one after the other. -/
theorem mapM_eq_map_flatMap {γ δ : Type u} {f : α → Except ε β} {g : α → β} {parts : α → List γ}
    {check : γ → Except ε δ} {xs : List α}
    (h : ∀ x ∈ xs, f x = (fun _ => g x) <$> (parts x).mapM check) :
    xs.mapM f = (fun _ => xs.map g) <$> (xs.flatMap parts).mapM check := by
  induction xs with
  | nil => rfl
  | cons x xs ih =>
    obtain ⟨head, tail⟩ := List.forall_mem_cons.mp h
    rw [List.mapM_cons, head, ih tail, List.flatMap_cons, List.mapM_append]
    rcases (parts x).mapM check with e | checked
    · rfl
    · rcases (xs.flatMap parts).mapM check with e | others <;> rfl

/-- The error of treating the elements of a list is that of the first element that fails. -/
theorem mapM_eq_error_iff {f : α → Except ε β} {xs : List α} {e : ε} :
    xs.mapM f = .error e ↔ ∃ before x after, xs = before ++ x :: after ∧
      (∀ y ∈ before, ∃ b, f y = .ok b) ∧ f x = .error e := by
  induction xs with
  | nil =>
    rw [List.mapM_nil]
    constructor
    · rintro ⟨⟩
    · rintro ⟨before, x, after, split, -⟩
      exact absurd split.symm (List.append_ne_nil_of_right_ne_nil _ (List.cons_ne_nil _ _))
  | cons x xs ih =>
    rw [List.mapM_cons, bind_eq_error_iff]
    constructor
    · rintro (hx | ⟨b, hx, h⟩)
      · exact ⟨[], x, xs, rfl, nofun, hx⟩
      · rw [bind_eq_error_iff] at h
        obtain hxs | ⟨bs, -, ⟨⟩⟩ := h
        obtain ⟨before, y, after, rfl, succeed, hy⟩ := ih.mp hxs
        exact ⟨x :: before, y, after, rfl, List.forall_mem_cons.mpr ⟨⟨b, hx⟩, succeed⟩, hy⟩
    · rintro ⟨_ | ⟨z, before⟩, y, after, split, succeed, hy⟩
      · obtain ⟨rfl, rfl⟩ := List.cons.inj split
        exact .inl hy
      · obtain ⟨rfl, rfl⟩ := List.cons.inj split
        obtain ⟨⟨b, hx⟩, succeed⟩ := List.forall_mem_cons.mp succeed
        refine .inr ⟨b, hx, bind_eq_error_iff.mpr (.inl ?_)⟩
        exact ih.mpr ⟨before, y, after, rfl, succeed, hy⟩

end Except
