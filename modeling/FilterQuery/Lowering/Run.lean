import FilterQuery.Lowering.Event

/-!
# Runs

A `Run` is what a lowering step does: the events that it reports, in order, and its result. Steps
are put in sequence; the events of the second follow those of the first, and an error ends the
sequence.

The main statement is `Run.result_mapM`: whether a sequence succeeds, and with what, does not
depend on the events.
-/

namespace FilterQuery

universe u

/-- **Runs.** Events, and a result or the error that came after them. -/
structure Run (α : Type u) where
  /-- The events in order. -/
  events : List Event
  /-- The result. -/
  result : Except LoweringError α

namespace Run

variable {α β : Type u}

@[ext]
theorem ext {x y : Run α} (events : x.events = y.events) (result : x.result = y.result) :
    x = y := by
  cases x
  cases y
  simp_all

/-- The run that only has a result. -/
protected def pure (a : α) : Run α := ⟨[], .ok a⟩

/-- One run after another. -/
protected def bind (x : Run α) (f : α → Run β) : Run β :=
  match x.result with
  | .error e => ⟨x.events, .error e⟩
  | .ok a => ⟨x.events ++ (f a).events, (f a).result⟩

instance : Monad Run where
  pure := Run.pure
  bind := Run.bind

/-- The run that reports one event. -/
def emit (event : Event) : Run PUnit := ⟨[event], .ok ⟨⟩⟩

/-- The run that only fails. -/
def fail (error : LoweringError) : Run α := ⟨[], .error error⟩

/-! ### Sequences of runs -/

@[simp]
theorem events_pure (a : α) : (pure a : Run α).events = [] := rfl

@[simp]
theorem result_pure (a : α) : (pure a : Run α).result = .ok a := rfl

/-- A failed run fails every run after it. -/
theorem bind_of_error {x : Run α} {f : α → Run β} {e : LoweringError}
    (h : x.result = .error e) : x >>= f = ⟨x.events, .error e⟩ := by
  change Run.bind x f = _
  rw [Run.bind, h]

/-- A run after a successful one appends its events and decides the result. -/
theorem bind_of_ok {x : Run α} {f : α → Run β} {a : α} (h : x.result = .ok a) :
    x >>= f = ⟨x.events ++ (f a).events, (f a).result⟩ := by
  change Run.bind x f = _
  rw [Run.bind, h]

private theorem bind_pure_right (x : Run α) : x.bind Run.pure = x := by
  rw [Run.bind]
  split
  · next e h => exact Run.ext rfl h.symm
  · next a h => exact Run.ext (List.append_nil _) h.symm

private theorem bind_bind {γ : Type u} (x : Run α) (f : α → Run β) (g : β → Run γ) :
    x >>= f >>= g = x >>= fun a => f a >>= g := by
  rcases hx : x.result with e | a
  · rw [bind_of_error hx, bind_of_error hx]
    rfl
  · rw [bind_of_ok hx, bind_of_ok hx]
    rcases hf : (f a).result with e | b
    · rw [bind_of_error hf]
      rfl
    · rw [bind_of_ok hf]
      exact Run.ext (List.append_assoc ..) rfl

instance : LawfulMonad Run :=
  LawfulMonad.mk' Run (fun x => bind_pure_right x) (fun _ _ => rfl) bind_bind

/-! ### Results of sequences -/

/-- The result of a sequence is the sequence of the results. -/
@[simp]
theorem result_bind (x : Run α) (f : α → Run β) :
    (x >>= f).result = x.result >>= fun a => (f a).result := by
  rcases h : x.result with e | a
  · rw [bind_of_error h]
    rfl
  · rw [bind_of_ok h]
    rfl

@[simp]
theorem result_map (x : Run α) (f : α → β) : (f <$> x).result = f <$> x.result := by
  rw [map_eq_pure_bind, result_bind]
  cases x.result <;> rfl

@[simp]
theorem result_emit (event : Event) : (emit event).result = .ok ⟨⟩ := rfl

@[simp]
theorem result_fail (error : LoweringError) : (fail error : Run α).result = .error error := rfl

/-- The result of runs for the elements of a list is the list of their results, or the first
error. -/
@[simp]
theorem result_mapM (f : α → Run β) (xs : List α) :
    (xs.mapM f).result = xs.mapM fun x => (f x).result := by
  induction xs with
  | nil => rfl
  | cons x xs ih =>
    rw [List.mapM_cons, List.mapM_cons, result_bind]
    refine congrArg _ (funext fun b => ?_)
    rw [result_bind, ih]
    rfl

end Run

end FilterQuery
