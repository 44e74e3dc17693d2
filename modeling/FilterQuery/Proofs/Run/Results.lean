import FilterQuery.Lowering.Run

/-!
# Results of runs

What is known of the result of a sequence if it has one. The steps of the sequence then had
results too (`Run.exists_of_bind`), and every result of runs for the elements of a list is that of
some element (`Run.exists_of_mem_mapM`).

A closed form of a run is a value that the run yields if it yields any (`Run.Yields`). Closed forms
are put together as the runs are.
-/

namespace FilterQuery

namespace Run

variable {α β : Type}

/-- The result of a sequence is a result of its second run, after a result of the first. -/
theorem exists_of_bind {x : Run α} {f : α → Run β} {b : β} (h : (x >>= f).result = .ok b) :
    ∃ a, x.result = .ok a ∧ (f a).result = .ok b := by
  rcases hx : x.result with e | a
  · rw [bind_of_error hx] at h
    cases h
  · rw [bind_of_ok hx] at h
    exact ⟨a, rfl, h⟩

/-- Each result of runs for the elements of a list is that of an element. -/
theorem exists_of_mem_mapM {f : α → Run β} {xs : List α} {ys : List β}
    (h : (xs.mapM f).result = .ok ys) : ∀ y ∈ ys, ∃ x ∈ xs, (f x).result = .ok y := by
  induction xs generalizing ys with
  | nil =>
    cases h
    exact fun y mem => absurd mem List.not_mem_nil
  | cons x xs ih =>
    rw [List.mapM_cons] at h
    obtain ⟨b, hb, h⟩ := exists_of_bind h
    obtain ⟨bs, hbs, h⟩ := exists_of_bind h
    cases h
    intro y mem
    rcases List.mem_cons.mp mem with rfl | mem
    · exact ⟨x, List.mem_cons_self, hb⟩
    · obtain ⟨x', mem', hx'⟩ := ih hbs y mem
      exact ⟨x', List.mem_cons_of_mem x mem', hx'⟩

/-- Runs for the elements of a list have results altogether exactly if each of them has one. -/
theorem exists_result_mapM_iff {f : α → Run β} {xs : List α} :
    (∃ bs, (xs.mapM f).result = .ok bs) ↔ ∀ x ∈ xs, ∃ b, (f x).result = .ok b := by
  induction xs with
  | nil => exact iff_of_true ⟨[], rfl⟩ nofun
  | cons x xs ih =>
    rw [List.forall_mem_cons, ← ih, List.mapM_cons]
    constructor
    · rintro ⟨bs, h⟩
      obtain ⟨b, head, h⟩ := exists_of_bind h
      obtain ⟨bs, tail, -⟩ := exists_of_bind h
      exact ⟨⟨b, head⟩, bs, tail⟩
    · rintro ⟨⟨b, head⟩, bs, tail⟩
      refine ⟨b :: bs, ?_⟩
      rw [bind_of_ok head, bind_of_ok tail]
      rfl

/-! ### Closed forms -/

/-- **Closed forms.** The value is the result of the run, if the run has one. -/
def Yields (x : Run α) (a : α) : Prop := ∀ b, x.result = .ok b → b = a

theorem yields_pure (a : α) : Yields (pure a) a := by
  intro b h
  exact (Except.ok.inj h).symm

theorem yields_emit (event : Event) : Yields (emit event) ⟨⟩ := by
  intro b _
  rfl

/-- There is nothing to show of a run that only fails. -/
theorem yields_fail (error : LoweringError) (a : α) : Yields (fail error) a := by
  intro b h
  cases h

theorem Yields.bind {x : Run α} {f : α → Run β} {a : α} {b : β} (hx : Yields x a)
    (hf : Yields (f a) b) : Yields (x >>= f) b := by
  intro b' h
  obtain ⟨a', ha', hb'⟩ := exists_of_bind h
  rw [hx a' ha'] at hb'
  exact hf b' hb'

theorem Yields.map {x : Run α} {a : α} (hx : Yields x a) (f : α → β) :
    Yields (f <$> x) (f a) := by
  rw [map_eq_pure_bind]
  exact hx.bind (yields_pure (f a))

theorem yields_mapM {f : α → Run β} {g : α → β} {xs : List α}
    (h : ∀ x ∈ xs, Yields (f x) (g x)) : Yields (xs.mapM f) (xs.map g) := by
  induction xs with
  | nil => exact yields_pure []
  | cons x xs ih =>
    have head : Yields (f x) (g x) := h x List.mem_cons_self
    have tail : Yields (xs.mapM f) (xs.map g) := ih fun y mem => h y (List.mem_cons_of_mem x mem)
    rw [List.mapM_cons, List.map_cons]
    exact head.bind (tail.bind (yields_pure _))

end Run

end FilterQuery
