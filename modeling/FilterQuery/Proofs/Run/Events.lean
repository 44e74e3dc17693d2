import FilterQuery.Proofs.Run.Results

/-!
# Events of runs

Which events a sequence of runs reports. The second run reports something only after a result of the
first (`Run.mem_events_bind`). Of runs for the elements of a list, those report something that are
reached: every run before has a result (`Run.mem_events_mapM`). Where it matters what these results
are, an element is reached after them (`Run.ReachesAfter`).
-/

namespace FilterQuery

namespace Run

variable {α β : Type} {event : Event}

theorem events_map (x : Run α) (f : α → β) : (f <$> x).events = x.events := by
  rw [map_eq_pure_bind]
  rcases h : x.result with e | a
  · rw [bind_of_error h]
  · rw [bind_of_ok h, events_pure, List.append_nil]

theorem mem_events_emit {event' : Event} : event ∈ (emit event').events ↔ event = event' :=
  List.mem_singleton

/-- An event of a sequence is one of the first run, or one of the second after a result of the
first. -/
theorem mem_events_bind {x : Run α} {f : α → Run β} :
    event ∈ (x >>= f).events ↔
      event ∈ x.events ∨ ∃ a, x.result = .ok a ∧ event ∈ (f a).events := by
  rcases h : x.result with e | a
  · simp [bind_of_error h]
  · simp [bind_of_ok h]

/-- An event of a report and of what follows is the report, or follows. -/
theorem mem_events_emit_bind {event' : Event} {f : PUnit → Run β} :
    event ∈ (emit event' >>= f).events ↔ event = event' ∨ event ∈ (f ⟨⟩).events := by
  rw [mem_events_bind, mem_events_emit]
  exact or_congr_right ⟨fun ⟨_, _, mem⟩ => mem, fun mem => ⟨⟨⟩, rfl, mem⟩⟩

/-! ### Elements of lists -/

/-- **Reached elements.** Of the runs for the elements of a list, those before an element have
results. -/
def Reaches (f : α → Run β) (xs : List α) (x : α) : Prop :=
  ∃ before after, xs = before ++ x :: after ∧ ∀ y ∈ before, ∃ b, (f y).result = .ok b

variable {f : α → Run β} {xs : List α} {x : α}

/-- The first element is reached, and after a result of it the others are as they are without it. -/
theorem reaches_cons {first : α} :
    Reaches f (first :: xs) x ↔ x = first ∨ (∃ b, (f first).result = .ok b) ∧ Reaches f xs x := by
  constructor
  · rintro ⟨before, after, split, succeed⟩
    cases before with
    | nil => exact .inl (List.cons.inj split).1.symm
    | cons y before =>
      obtain ⟨rfl, rest⟩ := List.cons.inj split
      exact .inr ⟨succeed _ List.mem_cons_self, before, after, rest, fun y mem =>
        succeed y (List.mem_cons_of_mem _ mem)⟩
  · rintro (rfl | ⟨success, before, after, rfl, succeed⟩)
    · exact ⟨[], xs, rfl, nofun⟩
    · exact ⟨first :: before, after, rfl, List.forall_mem_cons.mpr ⟨success, succeed⟩⟩

/-- An event of runs for the elements of a list is one of an element that is reached. -/
theorem mem_events_mapM :
    event ∈ (xs.mapM f).events ↔ ∃ x, Reaches f xs x ∧ event ∈ (f x).events := by
  induction xs with
  | nil =>
    refine iff_of_false List.not_mem_nil ?_
    rintro ⟨x, ⟨before, after, split, -⟩, -⟩
    exact List.append_ne_nil_of_right_ne_nil before (List.cons_ne_nil x after) split.symm
  | cons first xs ih =>
    rw [List.mapM_cons, mem_events_bind]
    simp only [mem_events_bind, events_pure, List.not_mem_nil, and_false, exists_const, or_false,
      ih, reaches_cons]
    constructor
    · rintro (mem | ⟨b, success, x, reached, mem⟩)
      · exact ⟨first, .inl rfl, mem⟩
      · exact ⟨x, .inr ⟨⟨b, success⟩, reached⟩, mem⟩
    · rintro ⟨x, rfl | ⟨⟨b, success⟩, reached⟩, mem⟩
      · exact .inl mem
      · exact .inr ⟨b, success, x, reached, mem⟩

/-- **Results before an element.** Of the runs for the elements of a list, those before an element
have these results. -/
def ReachesAfter (f : α → Run β) (xs : List α) (bs : List β) (x : α) : Prop :=
  ∃ before after, xs = before ++ x :: after ∧ (before.mapM f).result = .ok bs

/-- An element is reached exactly if it is reached after some results. -/
theorem reaches_iff_exists_after : Reaches f xs x ↔ ∃ bs, ReachesAfter f xs bs x := by
  constructor
  · rintro ⟨before, after, split, succeed⟩
    obtain ⟨bs, results⟩ := exists_result_mapM_iff.mpr succeed
    exact ⟨bs, before, after, split, results⟩
  · rintro ⟨bs, before, after, split, results⟩
    exact ⟨before, after, split, exists_result_mapM_iff.mp ⟨bs, results⟩⟩

/-- In an ordered list, the results before an element are those of smaller elements. -/
theorem ReachesAfter.exists_of_mem {R : α → α → Prop} {bs : List β}
    (reached : ReachesAfter f xs bs x) (ordered : xs.Pairwise R) {b : β} (mem : b ∈ bs) :
    ∃ y, R y x ∧ (f y).result = .ok b := by
  obtain ⟨before, after, rfl, results⟩ := reached
  obtain ⟨y, place, given⟩ := exists_of_mem_mapM results b mem
  exact ⟨y, (List.pairwise_append.mp ordered).2.2 y place x List.mem_cons_self, given⟩

end Run

end FilterQuery
