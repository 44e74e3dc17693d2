import FilterQuery.Json.Record
import FilterQuery.Proofs.Dict
import Mathlib.Data.List.Forall2

/-!
# Documents and their values

The document that writes a value has this value (`Document.toJson?_ofJson`), and a limit on the
nesting decides only whether a document has a value, not which one
(`Document.toJson?_none_of_toJson?`).

A record can be written as an object or as a list; `Document.member?` is what it holds under a name
in either form, and `Document.record?_eq_some_iff` says that this is what reading a record gives.
A value that is written and read again passes through its parts one by one: `Document.Restores` says
that a reader gives back what was written, and lists, dictionaries and parts that may be absent
restore what their elements and values do.
-/

namespace FilterQuery

/-- What a value that stands for a record, as an object or as a list, holds under one of its
names. -/
def Json.member? (names : List String) (name : String) : Json → Option Json
  | .obj members => members.get? name
  | .arr items => (names.zip items).lookup name
  | _ => none

/-- The elements of a list all have results exactly if each of them has. -/
theorem mapM_eq_some_iff {α β : Type} {f : α → Option β} {xs : List α} {ys : List β} :
    xs.mapM f = some ys ↔ List.Forall₂ (fun x y => f x = some y) xs ys := by
  induction xs generalizing ys with
  | nil => simp [eq_comm]
  | cons x xs ih =>
    rw [List.mapM_cons, List.forall₂_cons_left_iff, Option.bind_eq_bind, Option.bind_eq_some_iff]
    refine exists_congr fun y => ?_
    rw [Option.bind_eq_bind, Option.bind_eq_some_iff]
    constructor
    · rintro ⟨hx, rest, hrest, ⟨⟩⟩
      exact ⟨rest, hx, ih.mp hrest, rfl⟩
    · rintro ⟨rest, hx, hrest, rfl⟩
      exact ⟨hx, rest, ih.mpr hrest, rfl⟩

namespace Document

/-- The items of lists and the values of members are smaller than the document. -/
@[elab_as_elim]
theorem induction {motive : Document → Prop} (null : motive .null)
    (bool : ∀ value, motive (.bool value)) (num : ∀ value, motive (.num value))
    (str : ∀ value, motive (.str value))
    (arr : ∀ items, (∀ item ∈ items, motive item) → motive (.arr items))
    (obj : ∀ members, (∀ member ∈ members, motive member.2) → motive (.obj members))
    (document : Document) : motive document := by
  refine @Document.rec motive (fun items => ∀ item ∈ items, motive item)
    (fun members => ∀ member ∈ members, motive member.2) (fun member => motive member.2)
    null bool num str arr obj ?_ ?_ ?_ ?_ ?_ document
  · exact nofun
  · intro item items head tail
    exact List.forall_mem_cons.mpr ⟨head, tail⟩
  · exact nofun
  · intro member members head tail
    exact List.forall_mem_cons.mpr ⟨head, tail⟩
  · exact fun _ _ value => value

/-! ### Values of documents -/

section Members

variable {α : Type} {value : Document → Option α}

/-- The key and the value of a member. -/
def memberValue? (value : Document → Option α) (member : Option String × Document) :
    Option (String × α) := do
  return (← member.1, ← value member.2)

theorem memberValue?_eq_some_iff {member : Option String × Document} {entry : String × α} :
    memberValue? value member = some entry ↔
      member.1 = some entry.1 ∧ value member.2 = some entry.2 := by
  obtain ⟨key, document⟩ := member
  rcases key with _ | key
  · exact ⟨nofun, fun h => nomatch h.1⟩
  · cases result : value document with
    | none => simp [memberValue?, result]
    | some value => simp [memberValue?, result, Prod.ext_iff]

end Members

theorem itemsToJson?_eq (limit : Limit) (items : List Document) :
    itemsToJson? limit items = items.mapM (toJson? limit) := by
  induction items with
  | nil => rw [itemsToJson?, List.mapM_nil, Option.pure_def]
  | cons item items ih =>
    rw [itemsToJson?, List.mapM_cons, ih]

theorem membersToJson?_eq (limit : Limit) (members : List (Option String × Document)) :
    membersToJson? limit members = members.mapM (memberValue? (toJson? limit)) := by
  induction members with
  | nil => rw [membersToJson?, List.mapM_nil, Option.pure_def]
  | cons member members ih =>
    obtain ⟨key, value⟩ := member
    rw [membersToJson?, List.mapM_cons, ih]
    rcases key with _ | key
    · rfl
    · cases result : value.toJson? limit <;> simp [memberValue?, result]

theorem ofItems_eq (items : List Json) : ofItems items = items.map ofJson := by
  induction items with
  | nil => rw [ofItems, List.map_nil]
  | cons item items ih => rw [ofItems, List.map_cons, ih]

theorem ofMembers_eq {bound : Option String} (members : Dict Json bound) :
    ofMembers members = members.toList.map fun entry => (some entry.1, ofJson entry.2) := by
  induction members with
  | nil => rw [ofMembers, Dict.toList, List.map_nil]
  | cons key follows value rest ih => rw [ofMembers, Dict.toList, List.map_cons, ih]

/-- A list has the values of its items. -/
theorem toJson?_arr {limit : Limit} {items : List Document} {value : Json} :
    (arr items).toJson? limit = some value ↔ ∃ inner, limit.enter? = some inner ∧
      ∃ values, List.Forall₂ (fun item value => item.toJson? inner = some value) items values ∧
        .arr values = value := by
  simp only [toJson?, itemsToJson?_eq, Option.bind_eq_bind, Option.bind_eq_some_iff,
    mapM_eq_some_iff, Option.pure_def, Option.some.injEq]

/-- An object has the values of its members, the last one of a repeated key. -/
theorem toJson?_obj {limit : Limit} {members : List (Option String × Document)} {value : Json} :
    (obj members).toJson? limit = some value ↔ ∃ inner, limit.enter? = some inner ∧
      ∃ entries, List.Forall₂ (fun member entry =>
          member.1 = some entry.1 ∧ member.2.toJson? inner = some entry.2) members entries ∧
        .obj (.ofList entries) = value := by
  simp only [toJson?, membersToJson?_eq, Option.bind_eq_bind, Option.bind_eq_some_iff,
    mapM_eq_some_iff, memberValue?_eq_some_iff, Option.pure_def, Option.some.injEq]

/-- **Values.** The document that writes a value has this value. -/
theorem toJson?_ofJson (value : Json) : (ofJson value).toJson? none = some value := by
  induction value using Json.induction with
  | null | bool | num | str => rw [ofJson, toJson?]; try rfl
  | arr items ih =>
    rw [ofJson, ofItems_eq, toJson?_arr]
    exact ⟨none, rfl, items, List.forall₂_map_left_iff.mpr (List.forall₂_same.mpr ih), rfl⟩
  | obj members ih =>
    rw [ofJson, ofMembers_eq, toJson?_obj]
    refine ⟨none, rfl, members.toList, ?_, by rw [Dict.ofList_toList]⟩
    exact List.forall₂_map_left_iff.mpr (List.forall₂_same.mpr fun entry mem => ⟨rfl, ih entry mem⟩)

/-- Only the document of the null value has it as value. -/
theorem eq_null_of_toJson? {limit : Limit} {document : Document}
    (h : document.toJson? limit = some .null) : document = .null := by
  cases document with
  | null => rfl
  | bool value => rw [toJson?] at h; cases h
  | num value | str value =>
    rw [toJson?] at h
    obtain ⟨_, -, ⟨⟩⟩ := Option.map_eq_some_iff.mp h
  | arr items =>
    obtain ⟨_, -, _, -, ⟨⟩⟩ := toJson?_arr.mp h
  | obj members =>
    obtain ⟨_, -, _, -, ⟨⟩⟩ := toJson?_obj.mp h

/-- **Limits.** A limit on the nesting does not decide which value a document has. -/
theorem toJson?_none_of_toJson? {limit : Limit} {document : Document} {value : Json}
    (h : document.toJson? limit = some value) : document.toJson? none = some value := by
  induction document using induction generalizing limit value with
  | null | bool | num | str => simpa only [toJson?] using h
  | arr items ih =>
    obtain ⟨inner, -, values, each, rfl⟩ := toJson?_arr.mp h
    refine toJson?_arr.mpr ⟨none, rfl, values, ?_, rfl⟩
    exact (List.forall₂_and_left items values |>.mpr ⟨ih, each⟩).imp fun item value h => h.1 h.2
  | obj members ih =>
    obtain ⟨inner, -, entries, each, rfl⟩ := toJson?_obj.mp h
    refine toJson?_obj.mpr ⟨none, rfl, entries, ?_, rfl⟩
    exact (List.forall₂_and_left members entries |>.mpr ⟨ih, each⟩).imp fun member entry h =>
      ⟨h.2.1, h.1 h.2.2⟩

/-! ### Members of records -/

/-- What a record holds under one of its names, written as an object or as a list. -/
def member? (names : List String) (name : String) : Document → Option Document
  | .obj members => members.lookup (some name)
  | .arr items => (names.zip items).lookup name
  | _ => none

/-- Is the document the form of a record: a list of no more items than there are names, or an
object of Unicode keys that has each of the names at most once? -/
def IsRecord (names : List String) : Document → Prop
  | .obj members => (∀ member ∈ members, member.1.isSome) ∧
      ∀ name ∈ names, (members.filter (·.1 = some name)).length ≤ 1
  | .arr items => items.length ≤ names.length
  | _ => False

theorem lookup_eq_head?_filter (members : List (Option String × Document)) (key : Option String) :
    members.lookup key = (members.filter (·.1 = key)).head?.map Prod.snd := by
  induction members with
  | nil => rfl
  | cons member members ih =>
    rw [List.lookup_cons, List.filter_cons, ih]
    by_cases eq : member.1 = key
    · simp [eq]
    · simp [eq, beq_false_of_ne (Ne.symm eq)]

theorem uniqueMember?_eq_some_iff {members : List (Option String × Document)} {name : String}
    {part : Option Document} :
    uniqueMember? members name = some part ↔
      (members.filter (·.1 = some name)).length ≤ 1 ∧ members.lookup (some name) = part := by
  rw [uniqueMember?, lookup_eq_head?_filter]
  split
  · next none => simp [none]
  · next member one => simp [one]
  · next two none one =>
    have many : ¬ (members.filter (·.1 = some name)).length ≤ 1 := by
      rcases h : members.filter (·.1 = some name) with _ | ⟨first, _ | ⟨second, rest⟩⟩
      · exact absurd h none
      · exact absurd h (one first)
      · simp [h]
    exact iff_of_false nofun fun h => many h.1

theorem mapM_uniqueMember? {members : List (Option String × Document)} {names : List String}
    {parts : List (Option Document)} :
    names.mapM (uniqueMember? members) = some parts ↔
      (∀ name ∈ names, (members.filter (·.1 = some name)).length ≤ 1) ∧
        names.map (fun name => members.lookup (some name)) = parts := by
  simp only [mapM_eq_some_iff, uniqueMember?_eq_some_iff]
  rw [List.forall₂_and_left, ← List.forall₂_eq_eq_eq, List.forall₂_map_left_iff]

/-- The items of a list under the names of their positions. -/
theorem map_lookup_zip {names : List String} (distinct : names.Nodup) {items : List Document}
    (h : items.length ≤ names.length) :
    names.map (fun name => (names.zip items).lookup name) =
      items.map some ++ List.replicate (names.length - items.length) none := by
  induction names generalizing items with
  | nil =>
    obtain rfl : items = [] := List.length_eq_zero_iff.mp (Nat.le_zero.mp h)
    rfl
  | cons name names ih =>
    obtain ⟨fresh, distinct⟩ := List.nodup_cons.mp distinct
    rcases items with _ | ⟨item, items⟩
    · simp [List.replicate_succ]
    · -- The first name takes the first item, and no later name is the same.
      have later : ∀ other ∈ names,
          ((name :: names).zip (item :: items)).lookup other = (names.zip items).lookup other := by
        intro other mem
        have ne : other ≠ name := fun eq => fresh (eq ▸ mem)
        rw [List.zip_cons_cons, List.lookup_cons, beq_false_of_ne ne]
      have short : items.length ≤ names.length := Nat.le_of_succ_le_succ h
      rw [List.map_cons, List.map_congr_left later, ih distinct short]
      simp

/-- **Records.** Reading a record gives what it holds under each of the names. -/
theorem record?_eq_some_iff {names : List String} (distinct : names.Nodup) {limit inner : Limit}
    {document : Document} {parts : List (Option Document)} :
    record? names limit document = some (inner, parts) ↔ limit.enter? = some inner ∧
      document.IsRecord names ∧ names.map (document.member? names) = parts := by
  cases document with
  | null | bool | num | str => exact iff_of_false nofun fun h => h.2.1
  | arr items =>
    rw [record?, Option.bind_eq_bind, Option.bind_eq_some_iff]
    constructor
    · rintro ⟨_, enter, h⟩
      split at h
      · next short =>
        cases h
        exact ⟨enter, short, map_lookup_zip distinct short⟩
      · cases h
    · rintro ⟨enter, short, rfl⟩
      refine ⟨inner, enter, ?_⟩
      rw [if_pos (show items.length ≤ names.length from short), ← map_lookup_zip distinct short]
      rfl
  | obj members =>
    rw [record?, Option.bind_eq_bind, Option.bind_eq_some_iff]
    constructor
    · rintro ⟨_, enter, h⟩
      split at h
      · next keys =>
        obtain ⟨_, each, ⟨⟩⟩ := Option.bind_eq_some_iff.mp h
        obtain ⟨unique, eq⟩ := mapM_uniqueMember?.mp each
        exact ⟨enter, ⟨List.all_eq_true.mp keys, unique⟩, eq⟩
      · cases h
    · rintro ⟨enter, ⟨keys, unique⟩, eq⟩
      refine ⟨inner, enter, ?_⟩
      rw [if_pos (List.all_eq_true.mpr keys), mapM_uniqueMember?.mpr ⟨unique, eq⟩]
      rfl

/-! ### Reading what was written -/

variable {α : Type}

/-- Does reading give back a value that was written? -/
def Restores (read : Reads α) (write : α → Json) (value : α) : Prop :=
  read none (ofJson (write value)) = some value

/-- The members of a name in an object that was written. -/
theorem filter_ofMembers (members : Object) (name : String) :
    (ofMembers members).filter (·.1 = some name) =
      ((members.get? name).map fun value => (some name, ofJson value)).toList := by
  have keys : (fun member : Option String × Document => decide (member.1 = some name)) ∘
      (fun entry : String × Json => (some entry.1, ofJson entry.2)) =
        fun entry => decide (entry.1 = name) := by
    funext entry
    simp
  rw [ofMembers_eq, List.filter_map, keys, Dict.filter_toList]
  cases members.get? name <;> rfl

/-- The members of an object that was written. -/
theorem member?_ofJson_obj (names : List String) (name : String) (members : Object) :
    (ofJson (.obj members)).member? names name = (members.get? name).map ofJson := by
  rw [ofJson, member?, lookup_eq_head?_filter, filter_ofMembers]
  cases members.get? name <;> rfl

/-- An object is written as a record of any names. -/
theorem isRecord_ofJson_obj (names : List String) (members : Object) :
    (ofJson (.obj members)).IsRecord names := by
  rw [ofJson]
  constructor
  · rw [ofMembers_eq]
    intro member mem
    obtain ⟨entry, -, rfl⟩ := List.mem_map.mp mem
    rfl
  · intro name _
    rw [filter_ofMembers]
    cases members.get? name <;> simp

/-- What the document that writes a value holds, as a value. -/
theorem toJson?_member?_ofJson (names : List String) (name : String) (value : Json) :
    ((ofJson value).member? names name).bind (toJson? none) = value.member? names name := by
  have each (part : Option Json) : (part.map ofJson).bind (toJson? none) = part := by
    cases part with
    | none => rfl
    | some value => exact toJson?_ofJson value
  cases value with
  | null | bool | num | str => rw [ofJson]; rfl
  | arr items =>
    have lookup : (names.zip (items.map ofJson)).lookup name =
        ((names.zip items).lookup name).map ofJson := by
      rw [List.zip_map_right]
      induction names.zip items with
      | nil => rfl
      | cons entry entries ih =>
        rw [List.map_cons, List.lookup_cons, List.lookup_cons, ih, Prod.map_fst, id]
        cases name == entry.1 <;> rfl
    rw [ofJson, ofItems_eq, member?, lookup, each]
    rfl
  | obj members =>
    rw [member?_ofJson_obj, each]
    rfl

/-- Reading an object that was written as a record gives its members. -/
theorem record?_ofJson_obj {names : List String} (distinct : names.Nodup) (members : Object) :
    record? names none (ofJson (.obj members)) =
      some (none, names.map fun name => (members.get? name).map ofJson) := by
  refine (record?_eq_some_iff distinct).mpr ⟨rfl, isRecord_ofJson_obj names members, ?_⟩
  exact List.map_congr_left fun name _ => member?_ofJson_obj names name members

/-- Reading the parts that were written as a record. -/
theorem record?_ofPresent {entries : List (String × Option Json)}
    (distinct : (entries.map Prod.fst).Nodup) :
    record? (entries.map Prod.fst) none (ofJson (.obj (.ofPresent entries))) =
      some (none, entries.map fun entry => entry.2.map ofJson) := by
  rw [record?_ofJson_obj distinct, List.map_map]
  refine congrArg (fun parts => some (none, parts)) (List.map_congr_left fun entry mem => ?_)
  rw [Function.comp_apply, Dict.get?_ofPresent distinct mem]

/-- A list restores if its elements do. -/
theorem restores_list {read : Reads α} {write : α → Json} {values : List α}
    (each : ∀ value ∈ values, Restores read write value) :
    Restores (list? read) (fun values => .arr (values.map write)) values := by
  have results : ((values.map write).map ofJson).mapM (read none) = some values := by
    rw [List.map_map, mapM_eq_some_iff]
    exact List.forall₂_map_left_iff.mpr (List.forall₂_same.mpr each)
  rw [Restores, ofJson, ofItems_eq, list?]
  exact results

theorem ofJson_eq_null_iff {value : Json} : ofJson value = .null ↔ value = .null := by
  cases value <;> simp [ofJson]

theorem nullable?_of_ne {read : Reads α} {limit : Limit} {document : Document}
    (ne : document ≠ .null) : nullable? read limit document = (read limit document).map some := by
  cases document with
  | null => exact absurd rfl ne
  | _ => rfl

/-- A part that may be absent restores if it is not written as the null value. -/
theorem orDefault_nullable?_restores {read : Reads α} {write : α → Json} {part : Option α}
    (restores : ∀ value ∈ part, Restores read write value ∧ write value ≠ .null) :
    orDefault (nullable? read) none none ((part.map write).map ofJson) = some part := by
  cases part with
  | none => rfl
  | some value =>
    obtain ⟨restore, ne⟩ := restores value rfl
    have written : ofJson (write value) ≠ .null := fun h => ne (ofJson_eq_null_iff.mp h)
    rw [Option.map_some, Option.map_some, orDefault, nullable?_of_ne written, restore]
    rfl

/-- If what is read is written again as the value that the document has, then a part that may be
absent is written as the value it has, unless that is null. -/
theorem orDefault_nullable?_carries {read : Reads α} {write : α → Json} {limit : Limit}
    {part : Option Document} {result : Option α}
    (carries : ∀ document value, document ≠ .null → read limit document = some value →
      document.toJson? none = some (write value) ∧ write value ≠ .null)
    (h : orDefault (nullable? read) none limit part = some result) :
    result.map write = (part.bind (toJson? none)).filter (· ≠ .null) := by
  rcases part with _ | document
  · cases h
    rfl
  · by_cases null : document = .null
    · subst null
      cases h
      rfl
    · rw [orDefault, nullable?_of_ne null] at h
      obtain ⟨value, read, rfl⟩ := Option.map_eq_some_iff.mp h
      obtain ⟨eq, ne⟩ := carries document value null read
      rw [Option.map_some, Option.bind_some, eq, Option.filter_some, if_pos (decide_eq_true ne)]

end Document

end FilterQuery
