import FilterQuery.Dict.Lemmas
import Mathlib.Data.List.Sort

/-!
# Parts of dictionaries

The entries of a dictionary stand in key order, so those of a union of dictionaries without a
common key are those of its parts, interleaved. Each part is found in the union as the entries whose
keys it has (`Dict.Disjoint.filter_toList_union`). The entries around an entry are those of smaller
and those of greater keys (`Dict.lt_of_split`), so the first entry with some property is the one
with the smallest key (`Dict.exists_first_iff`), and the last one that with the greatest
(`Dict.exists_last_iff`). Where several entries give a value for one key, the last of them decides
(`Dict.get?_ofList_filterMap_eq_some_iff`).

A function of the values passes through every operation (`Dict.map_insert`, `Dict.map_union`,
`Dict.map_ofList`).
-/

namespace FilterQuery

universe u v

namespace Dict

variable {α : Type u} {d e : Dict α}

/-- **Disjointness.** The dictionaries have no key in common. -/
def Disjoint (d e : Dict α) : Prop := ∀ key, d.get? key = none ∨ e.get? key = none

/-- Dictionaries are disjoint if the second has none of the keys of the first. -/
theorem disjoint_iff : Disjoint d e ↔ ∀ key ∈ d.keys, e.get? key = none := by
  refine forall_congr' fun key => ?_
  rw [mem_keys, or_iff_not_imp_left, Option.isSome_iff_ne_none]

instance : Decidable (Disjoint d e) :=
  haveI (key : String) : Decidable (e.get? key = none) := Option.decidableEqNone _
  decidable_of_iff' _ disjoint_iff

theorem Disjoint.symm (h : Disjoint d e) : Disjoint e d := fun key => (h key).symm

theorem Disjoint.union_comm (h : Disjoint d e) : d ∪ e = e ∪ d := by
  refine ext_get? fun key => ?_
  rw [get?_union, get?_union]
  rcases h key with absent | absent
  · rw [absent, Option.or_none, Option.none_or]
  · rw [absent, Option.none_or, Option.or_none]

/-- The entries of a union of disjoint dictionaries are those of its parts. -/
theorem Disjoint.mem_toList_union (h : Disjoint d e) {entry : String × α} :
    entry ∈ (d ∪ e).toList ↔ entry ∈ d.toList ∨ entry ∈ e.toList := by
  obtain ⟨key, value⟩ := entry
  rw [mem_toList, mem_toList, mem_toList, get?_union]
  rcases h key with absent | absent
  · simp [absent]
  · simp [absent]

/-- Lists of entries in key order that have the same entries are the same. -/
theorem eq_of_pairwise_lt {first second : List (String × α)}
    (h₁ : first.Pairwise fun a b => a.1 < b.1) (h₂ : second.Pairwise fun a b => a.1 < b.1)
    (same : ∀ entry, entry ∈ first ↔ entry ∈ second) : first = second := by
  have irrefl : Std.Irrefl fun a b : String × α => a.1 < b.1 := ⟨fun a => String.lt_irrefl a.1⟩
  have antisymm : Std.Antisymm fun a b : String × α => a.1 < b.1 :=
    ⟨fun a b lt gt => absurd gt (String.lt_asymm lt)⟩
  exact h₁.eq_of_mem_iff h₂ same

/-- A part of a union is found in it as the entries whose keys it has. -/
theorem Disjoint.filter_toList_union (h : Disjoint d e) :
    (d ∪ e).toList.filter (fun entry => d.contains entry.1) = d.toList := by
  refine eq_of_pairwise_lt ((pairwise_toList _).filter _) (pairwise_toList d) fun entry => ?_
  obtain ⟨key, value⟩ := entry
  rw [List.mem_filter, mem_toList, mem_toList, get?_union, contains]
  rcases h key with absent | absent
  · simp [absent]
  · simp +contextual [absent]

/-- The entries before an entry have smaller keys, and those after it have greater keys. -/
theorem lt_of_split {entry : String × α} {before after : List (String × α)}
    (split : d.toList = before ++ entry :: after) :
    (∀ other ∈ before, other.1 < entry.1) ∧ ∀ other ∈ after, entry.1 < other.1 := by
  have ascending := pairwise_toList d
  rw [split, List.pairwise_append, List.pairwise_cons] at ascending
  obtain ⟨-, ⟨greater, -⟩, smaller⟩ := ascending
  exact ⟨fun other mem => smaller other mem entry List.mem_cons_self, greater⟩

/-- The entries are those before the entry of a key, this entry, and those after it. -/
theorem exists_split {key : String} {value : α} (h : d.get? key = some value) :
    ∃ before after, d.toList = before ++ (key, value) :: after :=
  List.append_of_mem (mem_toList.mpr h)

/-- The first entry with a property, in key order, is the one with the smallest key. -/
theorem exists_first_iff {P Q : String → α → Prop} :
    (∃ before entry after, d.toList = before ++ entry :: after ∧
        (∀ other ∈ before, P other.1 other.2) ∧ Q entry.1 entry.2) ↔
      ∃ key value, d.get? key = some value ∧
        (∀ smaller < key, ∀ other, d.get? smaller = some other → P smaller other) ∧
          Q key value := by
  constructor
  · rintro ⟨before, ⟨key, value⟩, after, split, holds, found⟩
    have mem : (key, value) ∈ d.toList := split ▸ List.mem_append_cons_self
    refine ⟨key, value, mem_toList.mp mem, fun smaller lt other h => ?_, found⟩
    have place : (smaller, other) ∈ before ++ (key, value) :: after := split ▸ mem_toList.mpr h
    -- The entry itself and those after it have no smaller key.
    rcases List.mem_append.mp place with earlier | later
    · exact holds _ earlier
    · rcases List.mem_cons.mp later with eq | later
      · cases eq
        exact absurd lt (String.lt_irrefl key)
      · exact absurd lt (String.lt_asymm ((lt_of_split split).2 _ later))
  · rintro ⟨key, value, h, holds, found⟩
    obtain ⟨before, after, split⟩ := exists_split h
    refine ⟨before, (key, value), after, split, fun other mem => ?_, found⟩
    have lt : other.1 < key := (lt_of_split split).1 other mem
    refine holds other.1 lt other.2 (mem_toList.mp ?_)
    rw [split]
    exact List.mem_append_left _ mem

/-- The last entry with a property, in key order, is the one with the greatest key. -/
theorem exists_last_iff {P Q : String → α → Prop} :
    (∃ before entry after, d.toList = before ++ entry :: after ∧
        (∀ other ∈ after, P other.1 other.2) ∧ Q entry.1 entry.2) ↔
      ∃ key value, d.get? key = some value ∧
        (∀ greater > key, ∀ other, d.get? greater = some other → P greater other) ∧
          Q key value := by
  constructor
  · rintro ⟨before, ⟨key, value⟩, after, split, holds, found⟩
    have mem : (key, value) ∈ d.toList := split ▸ List.mem_append_cons_self
    refine ⟨key, value, mem_toList.mp mem, fun greater gt other h => ?_, found⟩
    have place : (greater, other) ∈ before ++ (key, value) :: after := split ▸ mem_toList.mpr h
    -- The entry itself and those before it have no greater key.
    rcases List.mem_append.mp place with earlier | later
    · exact absurd gt (String.lt_asymm ((lt_of_split split).1 _ earlier))
    · rcases List.mem_cons.mp later with eq | later
      · cases eq
        exact absurd gt (String.lt_irrefl key)
      · exact holds _ later
  · rintro ⟨key, value, h, holds, found⟩
    obtain ⟨before, after, split⟩ := exists_split h
    refine ⟨before, (key, value), after, split, fun other mem => ?_, found⟩
    have gt : key < other.1 := (lt_of_split split).2 other mem
    refine holds other.1 gt other.2 (mem_toList.mp ?_)
    rw [split]
    exact List.mem_append_right _ (List.mem_cons_of_mem _ mem)

/-- A list without two entries of one key is the list of the entries of its dictionary, up to
order. -/
theorem get?_ofList_eq_some_iff {entries : List (String × α)}
    (distinct : (entries.map Prod.fst).Nodup) {key : String} {value : α} :
    (ofList entries).get? key = some value ↔ (key, value) ∈ entries := by
  rw [get?_ofList, List.lookup_eq_some_iff]
  constructor
  · rintro ⟨after, before, split, -⟩
    rw [← List.mem_reverse, split]
    exact List.mem_append_cons_self
  · intro mem
    obtain ⟨after, before, split⟩ := List.append_of_mem (List.mem_reverse.mpr mem)
    refine ⟨after, before, split, fun other later => bne_iff_ne.mpr ?_⟩
    rintro rfl
    have twice : (entries.reverse.map Prod.fst).Nodup := by
      rwa [List.map_reverse, List.nodup_reverse]
    rw [split, List.map_append, List.map_cons] at twice
    exact List.disjoint_of_nodup_append twice (List.mem_map_of_mem later) List.mem_cons_self

/-- Looking a key up among what some elements give is searching for the first that gives it. -/
private theorem lookup_filterMap {β : Type v} {γ : Type u} (f : γ → Option (String × β))
    (xs : List γ) (key : String) :
    (xs.filterMap f).lookup key =
      xs.findSome? fun x => ((f x).filter (·.1 = key)).map Prod.snd := by
  induction xs with
  | nil => rfl
  | cons x xs ih =>
    rw [List.findSome?_cons, ← ih]
    rcases given : f x with _ | ⟨other, value⟩
    · rw [List.filterMap_cons_none given]
      rfl
    · rw [List.filterMap_cons_some given, List.lookup_cons]
      by_cases eq : key = other
      · simp [Option.filter, eq]
      · simp [Option.filter, beq_false_of_ne eq, Ne.symm eq]

/-- Where the entries of a dictionary give entries of another, the greatest key decides. -/
theorem get?_ofList_filterMap_eq_some_iff {β : Type v} {f : String × α → Option (String × β)}
    {name : String} {result : β} :
    (ofList (d.toList.filterMap f)).get? name = some result ↔
      ∃ key value, d.get? key = some value ∧
        (∀ greater > key, ∀ other, d.get? greater = some other →
          ∀ result', f (greater, other) ≠ some (name, result')) ∧
        f (key, value) = some (name, result) := by
  have gives (entry : String × α) (found : β) :
      ((f entry).filter (·.1 = name)).map Prod.snd = some found ↔ f entry = some (name, found) := by
    rcases f entry with _ | ⟨other, value⟩
    · simp
    · simp [Option.filter, Prod.ext_iff]
  have lacks (entry : String × α) : ((f entry).filter (·.1 = name)).map Prod.snd = none ↔
      ∀ found, f entry ≠ some (name, found) := by
    rw [Option.eq_none_iff_forall_ne_some]
    exact forall_congr' fun found => not_congr (gives entry found)
  rw [get?_ofList, ← List.filterMap_reverse, lookup_filterMap, List.findSome?_eq_some_iff,
    ← exists_last_iff (P := fun key value => ∀ found, f (key, value) ≠ some (name, found))
      (Q := fun key value => f (key, value) = some (name, result))]
  simp only [gives, lacks]
  constructor
  · rintro ⟨after, entry, before, split, found, none⟩
    refine ⟨before.reverse, entry, after.reverse, ?_, by simpa using none, found⟩
    rw [← List.reverse_reverse d.toList, split]
    simp
  · rintro ⟨before, entry, after, split, none, found⟩
    refine ⟨after.reverse, entry, before.reverse, ?_, found, by simpa using none⟩
    rw [split]
    simp

/-! ### Mapped dictionaries -/

section Mapped

variable {β : Type v} (f : α → β)

theorem map_insert (d : Dict α) (key : String) (value : α) :
    (d.insert key value).map f = (d.map f).insert key (f value) := by
  refine ext_get? fun k => ?_
  rw [get?_map, get?_insert, get?_insert, get?_map]
  split <;> rfl

theorem map_singleton (key : String) (value : α) :
    (singleton key value).map f = singleton key (f value) := map_insert f ∅ key value

theorem map_erase (d : Dict α) (key : String) : (d.erase key).map f = (d.map f).erase key := by
  refine ext_get? fun k => ?_
  rw [get?_map, get?_erase, get?_erase, get?_map]
  split <;> rfl

theorem map_union (d e : Dict α) : (d ∪ e).map f = d.map f ∪ e.map f := by
  refine ext_get? fun k => ?_
  rw [get?_map, get?_union, get?_union, get?_map, get?_map, Option.map_or]

theorem map_ofList (entries : List (String × α)) :
    (ofList entries).map f = ofList (entries.map fun entry => (entry.1, f entry.2)) := by
  -- The entries are inserted one after another; each insertion is mapped.
  have foldl (d : Dict α) : (entries.foldl (fun d entry => d.insert entry.1 entry.2) d).map f =
      (entries.map fun entry => (entry.1, f entry.2)).foldl
        (fun d entry => d.insert entry.1 entry.2) (d.map f) := by
    induction entries generalizing d with
    | nil => rfl
    | cons entry entries ih => rw [List.foldl_cons, ih, map_insert, List.map_cons, List.foldl_cons]
  exact foldl ∅

theorem map_ofPresent (entries : List (String × Option α)) :
    (ofPresent entries).map f =
      ofPresent (entries.map fun entry => (entry.1, entry.2.map f)) := by
  rw [ofPresent, map_ofList, ofPresent, List.map_filterMap, List.filterMap_map]
  congr 1
  refine List.filterMap_congr fun entry _ => ?_
  rw [Function.comp_apply, Option.map_map, Option.map_map]
  rfl

end Mapped

/-! ### Entries by key -/

/-- The entries of a key are its answer, if there is one. -/
theorem filter_toList {bound : Option String} (d : Dict α bound) (key : String) :
    d.toList.filter (·.1 = key) = ((d.get? key).map (key, ·)).toList := by
  induction d with
  | nil => rfl
  | cons k follows value rest ih =>
    rw [toList, List.filter_cons, get?, ih]
    by_cases eq : key = k
    · subst eq
      simp [get?_bound]
    · simp [eq, Ne.symm eq]

/-- Searching the entries for a key is looking it up. -/
theorem findSome?_toList {bound : Option String} (d : Dict α bound) (key : String) :
    d.toList.findSome? (fun entry => if entry.1 = key then some entry.2 else none) =
      d.get? key := by
  induction d with
  | nil => rfl
  | cons k follows value rest ih =>
    rw [toList, List.findSome?_cons, get?, ih]
    by_cases eq : k = key
    · rw [if_pos eq, if_pos eq.symm]
    · rw [if_neg eq, if_neg (Ne.symm eq)]

/-- Where keys are not repeated, what is present under a key is the answer. -/
theorem get?_ofPresent {entries : List (String × Option α)}
    (distinct : (entries.map Prod.fst).Nodup) {key : String} {part : Option α}
    (mem : (key, part) ∈ entries) : (ofPresent entries).get? key = part := by
  have absent {others : List (String × Option α)} (fresh : ∀ entry ∈ others, entry.1 ≠ key) :
      (others.filterMap fun entry => entry.2.map (entry.1, ·)).reverse.lookup key = none := by
    refine List.lookup_eq_none_iff.mpr fun found mem => bne_iff_ne.mpr ?_
    obtain ⟨entry, given, eq⟩ := List.mem_filterMap.mp (List.mem_reverse.mp mem)
    obtain ⟨value, -, rfl⟩ := Option.map_eq_some_iff.mp eq
    exact (fresh entry given).symm
  obtain ⟨before, after, rfl⟩ := List.append_of_mem mem
  rw [List.map_append, List.map_cons, List.nodup_append, List.nodup_cons] at distinct
  obtain ⟨-, ⟨later, -⟩, earlier⟩ := distinct
  have none_before := @absent before fun entry mem =>
    earlier entry.1 (List.mem_map_of_mem mem) key List.mem_cons_self
  have none_after := @absent after fun entry mem eq => later (List.mem_map.mpr ⟨entry, mem, eq⟩)
  rw [ofPresent, get?_ofList, List.filterMap_append, List.reverse_append, List.lookup_append,
    none_before, Option.or_none, List.filterMap_cons]
  cases part with
  | none => exact none_after
  | some value =>
    simp only [Option.map_some, List.reverse_cons, List.lookup_append, none_after,
      List.lookup_cons_self, Option.none_or]

end Dict

end FilterQuery
