import FilterQuery.Dict.Basic

/-!
# Dictionaries through their views

One equation per operation. The main statements are `Dict.ext_get?` (a dictionary is determined
by what it answers), `Dict.get?_insert`, `Dict.get?_erase`, `Dict.get?_union` and
`Dict.mem_toList` (the entries are the answers).
-/

namespace FilterQuery

universe u v

namespace Dict

variable {α : Type u} {β : Type v} {bound : Option String}

/-! ### Order of the keys -/

/-- Every key of a remainder follows its bound. -/
theorem follows_of_mem {d : Dict α bound} {entry : String × α} (mem : entry ∈ d.toList) :
    Follows bound entry.1 := by
  induction d with
  | nil => simp [toList] at mem
  | cons key follows value rest ih =>
    simp only [toList, List.mem_cons] at mem
    rcases mem with rfl | mem
    · exact follows
    · exact follows.trans (ih mem)

/-- The entries stand in strictly ascending key order. -/
theorem pairwise_toList (d : Dict α bound) : d.toList.Pairwise (fun a b => a.1 < b.1) := by
  induction d with
  | nil => exact .nil
  | cons key follows value rest ih => exact ih.cons fun _ mem => follows_of_mem mem

/-- A key that does not follow the bound has no entry. -/
theorem get?_eq_none_of_not_follows {d : Dict α bound} {key : String}
    (not : ¬ Follows bound key) : d.get? key = none := by
  induction d with
  | nil => rfl
  | cons k follows value rest ih =>
    have ne : key ≠ k := fun eq => not (eq ▸ follows)
    rw [get?, if_neg ne]
    exact ih fun lt => not (follows.trans lt)

/-- The remainder after a key has no entry for it. -/
theorem get?_bound {key : String} (d : Dict α (some key)) : d.get? key = none :=
  get?_eq_none_of_not_follows (String.lt_irrefl key)

/-! ### Entries and answers -/

@[simp]
theorem toList_empty : (∅ : Dict α bound).toList = [] := rfl

@[simp]
theorem get?_empty (key : String) : (∅ : Dict α bound).get? key = none := rfl

/-- The entries are exactly the answers. -/
theorem mem_toList {d : Dict α bound} {key : String} {value : α} :
    (key, value) ∈ d.toList ↔ d.get? key = some value := by
  induction d with
  | nil => simp [toList, get?]
  | cons k follows v rest ih =>
    simp only [toList, List.mem_cons, Prod.mk.injEq, get?]
    split
    · next eq =>
      subst eq
      simp [ih, get?_bound, eq_comm]
    · next ne => simp [ih, ne]

/-- The keys are the keys that have an answer. -/
theorem mem_keys {d : Dict α bound} {key : String} :
    key ∈ d.keys ↔ (d.get? key).isSome := by
  simp only [keys, List.mem_map, Prod.exists, exists_and_right, exists_eq_right, mem_toList,
    Option.isSome_iff_exists]

/-- **Extensionality.** A dictionary is determined by its answers. -/
theorem ext_get? {d e : Dict α bound} (h : ∀ key, d.get? key = e.get? key) : d = e := by
  induction d with
  | nil =>
    cases e with
    | nil => rfl
    | cons key _ value _ => simpa [get?] using h key
  | cons key follows value rest ih =>
    cases e with
    | nil => simpa [get?] using h key
    | cons key' follows' value' rest' =>
      have eq : key = key' := by
        rcases Std.lt_trichotomy key key' with lt | eq | lt
        · have ne : key ≠ key' := fun eq => String.lt_irrefl key (eq ▸ lt)
          have none : rest'.get? key = none := get?_eq_none_of_not_follows (String.lt_asymm lt)
          simpa [get?, ne, none] using h key
        · exact eq
        · have ne : key' ≠ key := fun eq => String.lt_irrefl key' (eq ▸ lt)
          have none : rest.get? key' = none := get?_eq_none_of_not_follows (String.lt_asymm lt)
          simpa [get?, ne, none] using (h key').symm
      subst eq
      have hv : value = value' := by simpa [get?] using h key
      have hr : rest = rest' := ih fun k => by
        by_cases eq : k = key
        · rw [eq, get?_bound, get?_bound]
        · simpa [get?, eq] using h k
      rw [hv, hr]

/-- Dictionaries with the same entries are equal. -/
theorem ext_toList {d e : Dict α bound} (h : d.toList = e.toList) : d = e :=
  ext_get? fun key => Option.ext fun value => by rw [← mem_toList, ← mem_toList, h]

/-! ### Operations -/

theorem get?_insertAfter {d : Dict α bound} {key : String} (follows : Follows bound key)
    (value : α) (k : String) :
    (d.insertAfter key value follows).get? k = if k = key then some value else d.get? k := by
  induction d with
  | nil => rfl
  | cons key' follows' value' rest ih =>
    rw [insertAfter]
    split
    · rfl
    · split
      · next eq =>
        subst eq
        simp only [get?]
        split <;> rfl
      · next ne =>
        rw [get?, get?, ih]
        split
        · next eq => rw [if_neg (eq ▸ Ne.symm ne)]
        · rfl

/-- An inserted value is found under its key, and every other answer stays. -/
@[simp]
theorem get?_insert (d : Dict α) (key : String) (value : α) (k : String) :
    (d.insert key value).get? k = if k = key then some value else d.get? k :=
  get?_insertAfter (show Follows none key from trivial) value k

@[simp]
theorem get?_singleton (key : String) (value : α) (k : String) :
    (singleton key value).get? k = if k = key then some value else none :=
  get?_insert ∅ key value k

theorem get?_relax {key : String} (d : Dict α (some key)) (follows : Follows bound key)
    (k : String) : (d.relax follows).get? k = d.get? k := by
  cases d <;> rfl

/-- An erased key has no answer, and every other answer stays. -/
@[simp]
theorem get?_erase (d : Dict α bound) (key k : String) :
    (d.erase key).get? k = if k = key then none else d.get? k := by
  induction d with
  | nil => simp [erase, get?]
  | cons key' follows value rest ih =>
    rw [erase]
    split
    · next eq =>
      subst eq
      rw [get?_relax, get?]
      split
      · next eq => rw [eq, get?_bound]
      · rfl
    · next ne =>
      simp only [get?, ih]
      split
      · next eq => rw [if_neg (eq ▸ Ne.symm ne)]
      · rfl

/-- A mapped dictionary answers with the mapped values. -/
@[simp]
theorem get?_map (f : α → β) (d : Dict α bound) (k : String) :
    (d.map f).get? k = (d.get? k).map f := by
  induction d with
  | nil => rfl
  | cons key follows value rest ih =>
    simp only [map, get?, ih]
    split <;> rfl

theorem toList_map (f : α → β) (d : Dict α bound) :
    (d.map f).toList = d.toList.map fun entry => (entry.1, f entry.2) := by
  induction d with
  | nil => rfl
  | cons key follows value rest ih => simp [map, toList, ih]

/-- Inserting entries one after another: the entries that are given decide, the last of a key
first, and the dictionary answers for the other keys. -/
theorem get?_foldl_insert (entries : List (String × α)) (d : Dict α) (k : String) :
    (entries.foldl (fun d entry => d.insert entry.1 entry.2) d).get? k =
      ((entries.reverse.lookup k).or (d.get? k)) := by
  induction entries generalizing d with
  | nil => simp
  | cons entry entries ih =>
    obtain ⟨key, value⟩ := entry
    simp only [List.foldl_cons, ih, get?_insert, List.reverse_cons, List.lookup_append,
      List.lookup_cons, List.lookup_nil, Option.or_assoc]
    congr 1
    by_cases eq : k = key
    · simp [eq]
    · simp [eq, beq_false_of_ne eq]

/-- The entries of a list: the last entry of a key decides. -/
theorem get?_ofList (entries : List (String × α)) (k : String) :
    (ofList entries).get? k = entries.reverse.lookup k := by
  rw [ofList, get?_foldl_insert, get?_empty, Option.or_none]

theorem lookup_reverse_toList (d : Dict α bound) (k : String) :
    d.toList.reverse.lookup k = d.get? k := by
  induction d with
  | nil => rfl
  | cons key follows value rest ih =>
    simp only [toList, List.reverse_cons, List.lookup_append, ih, List.lookup_cons,
      List.lookup_nil, get?]
    by_cases eq : k = key
    · simp [eq, get?_bound]
    · simp [eq, beq_false_of_ne eq]

/-- In a union the second dictionary decides, and the first answers for the other keys. -/
@[simp]
theorem get?_union (d e : Dict α) (k : String) :
    (d ∪ e).get? k = (e.get? k).or (d.get? k) := by
  change (union d e).get? k = _
  rw [union, get?_foldl_insert, lookup_reverse_toList]

/-- A dictionary is the dictionary of its entries. -/
@[simp]
theorem ofList_toList (d : Dict α) : ofList d.toList = d :=
  ext_get? fun k => by rw [get?_ofList, lookup_reverse_toList]

end Dict

end FilterQuery
