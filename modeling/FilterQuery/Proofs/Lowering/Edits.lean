import FilterQuery.Lowering.Edit
import FilterQuery.Proofs.Dict

/-!
# What edits build

An edit reads and writes its own key only. So what is built under a key is built by the edits of
that key (`Edit.get?_build`), a key is there exactly if an edit has it
(`Edit.isSome_get?_build_iff`), and a value that is put there last stays
(`Edit.get?_build_of_last`). Single members that are merged under one key build the object that
lists them (`Edit.get?_build_merges`).

Where no two edits change the same key, nothing is replaced and nothing is merged: the object that
they build holds what each of them writes (`Edit.build_of_nodup`).
-/

namespace FilterQuery

/-- What stands under the key of a merge afterwards. -/
theorem Object.get?_merge_self (parent : Object) (key : String) (members : Object) :
    (parent.merge key members).get? key =
      some (.obj (((parent.get? key).bind Json.members?).getD ∅ ∪ members)) := by
  have alone : (∅ : Object) ∪ members = members := Dict.ext_get? fun k => by
    rw [Dict.get?_union, Dict.get?_empty, Option.or_none]
  rw [merge]
  split
  · next existing there =>
    rw [Dict.get?_insert, if_pos rfl, there]
    rfl
  · next noObject =>
    have nothing : (parent.get? key).bind Json.members? = none := by
      rcases there : parent.get? key with _ | value
      · rfl
      · cases value with
        | obj existing => exact absurd there (noObject existing)
        | _ => rfl
    rw [Dict.get?_insert, if_pos rfl, nothing, Option.getD_none, alone]

namespace Edit

/-! ### One key -/

/-- What stands under a key after an edit depends on what stood there before. -/
theorem get?_apply_congr {target target' : Object} {k : String}
    (same : target.get? k = target'.get? k) (edit : Edit) :
    (edit.apply target).get? k = (edit.apply target').get? k := by
  cases edit with
  | set key value => rw [apply, apply, Dict.get?_insert, Dict.get?_insert, same]
  | merge key members =>
    by_cases eq : k = key
    · subst eq
      rw [apply, apply, Object.merge, Object.merge, same]
      split <;> rw [Dict.get?_insert, Dict.get?_insert, if_pos rfl, if_pos rfl]
    · rw [apply, apply, Object.get?_merge_of_ne target members eq,
        Object.get?_merge_of_ne target' members eq, same]

/-- What stands under a key after some edits is left by the edits of that key. -/
theorem get?_foldl_apply {target target' : Object} {k : String}
    (same : target.get? k = target'.get? k) (edits : List Edit) :
    (edits.foldl apply target).get? k =
      ((edits.filter (·.key = k)).foldl apply target').get? k := by
  induction edits generalizing target target' with
  | nil => exact same
  | cons edit edits ih =>
    rw [List.foldl_cons, List.filter_cons]
    by_cases eq : edit.key = k
    · rw [if_pos (decide_eq_true eq), List.foldl_cons]
      exact ih (get?_apply_congr same edit)
    · rw [if_neg (by simpa using eq)]
      exact ih ((get?_apply_of_ne target edit (Ne.symm eq)).trans same)

/-- **Locality.** What is built under a key is built by the edits of that key. -/
theorem get?_build (edits : List Edit) (k : String) :
    (build edits).get? k = (build (edits.filter (·.key = k))).get? k :=
  get?_foldl_apply rfl edits

/-- An edit leaves something under its key. -/
theorem isSome_get?_apply (target : Object) (edit : Edit) (k : String) :
    ((edit.apply target).get? k).isSome ↔ edit.key = k ∨ (target.get? k).isSome := by
  by_cases eq : edit.key = k
  · subst eq
    cases edit with
    | set key value => simp [apply, Edit.key]
    | merge key members =>
      rw [apply, Object.merge]
      split <;> simp [Edit.key]
  · rw [get?_apply_of_ne target edit (Ne.symm eq)]
    exact ⟨.inr, fun h => h.resolve_left eq⟩

theorem isSome_get?_foldl_apply (edits : List Edit) (target : Object) (k : String) :
    ((edits.foldl apply target).get? k).isSome ↔
      (∃ edit ∈ edits, edit.key = k) ∨ (target.get? k).isSome := by
  induction edits generalizing target with
  | nil => simp
  | cons edit edits ih =>
    simp only [List.foldl_cons, ih, isSome_get?_apply, List.mem_cons, exists_eq_or_imp]
    rw [or_left_comm, or_assoc]

/-- **Keys.** The keys of what is built are those of the edits. -/
theorem isSome_get?_build_iff {edits : List Edit} {k : String} :
    ((build edits).get? k).isSome ↔ ∃ edit ∈ edits, edit.key = k := by
  rw [build, isSome_get?_foldl_apply, Dict.get?_empty]
  simp

/-- A value that is put under a key stays if no edit after it has the key. -/
theorem get?_build_of_last {key : String} {value : Json} (before : List Edit)
    {after : List Edit} (last : ∀ edit ∈ after, edit.key ≠ key) :
    (build (before ++ .set key value :: after)).get? key = some value := by
  have rest : after.filter (·.key = key) = [] :=
    List.filter_eq_nil_iff.mpr fun edit mem => by simpa using last edit mem
  have own : (set key value).key = key := rfl
  rw [get?_build, List.filter_append, List.filter_cons, if_pos (decide_eq_true own), rest, build,
    List.foldl_append, List.foldl_cons, List.foldl_nil, apply, Dict.get?_insert, if_pos rfl]

/-! ### Merging -/

/-- The object under the key has a member of the name. -/
def Holds (target : Object) (key name : String) (value : Json) : Prop :=
  ∃ members, target.get? key = some (.obj members) ∧ members.get? name = some value

/-- A merge puts its members under its key, whatever stands there. -/
theorem holds_merge (target : Object) {key name : String} {value : Json} {members : Object}
    (puts : members.get? name = some value) :
    Holds ((merge key members).apply target) key name value := by
  refine ⟨_, Object.get?_merge_self target key members, ?_⟩
  rw [Dict.get?_union, puts, Option.some_or]

/-- A merge that puts no other value there keeps a member. -/
theorem Holds.merge {target members : Object} {key name : String} {value : Json}
    (holds : Holds target key name value)
    (agrees : ∀ other, members.get? name = some other → other = value) :
    Holds ((Edit.merge key members).apply target) key name value := by
  obtain ⟨existing, there, has⟩ := holds
  rcases puts : members.get? name with _ | other
  · refine ⟨_, Object.get?_merge_self target key members, ?_⟩
    rw [Dict.get?_union, puts, there]
    exact has
  · rw [agrees other puts] at puts
    exact holds_merge target puts

/-- **Merged members.** What a merge puts under a key stays if every edit of the key is a merge that
puts no other value there. -/
theorem holds_build_of_merges {edits : List Edit} {key name : String} {value : Json}
    {members : Object} (mem : .merge key members ∈ edits) (puts : members.get? name = some value)
    (merges : ∀ edit ∈ edits, edit.key = key → ∃ members, edit = .merge key members ∧
      ∀ other, members.get? name = some other → other = value) :
    Holds (build edits) key name value := by
  obtain ⟨before, after, rfl⟩ := List.append_of_mem mem
  have later : ∀ edit ∈ after, edit.key = key → ∃ members, edit = .merge key members ∧
      ∀ other, members.get? name = some other → other = value := fun edit mem =>
    merges edit (List.mem_append_right _ (List.mem_cons_of_mem _ mem))
  rw [build, List.foldl_append, List.foldl_cons]
  -- After the merge the member is there, and each edit that comes later keeps it.
  generalize start : (Edit.merge key members).apply (before.foldl apply ∅) = target
  have holds : Holds target key name value := start ▸ holds_merge _ puts
  clear start mem merges
  induction after generalizing target with
  | nil => exact holds
  | cons edit after ih =>
    obtain ⟨head, tail⟩ := List.forall_mem_cons.mp later
    refine ih tail _ ?_
    by_cases own : edit.key = key
    · obtain ⟨members, rfl, agrees⟩ := head own
      exact holds.merge agrees
    · obtain ⟨existing, there, has⟩ := holds
      exact ⟨existing, (get?_apply_of_ne target edit (Ne.symm own)).trans there, has⟩

/-- Merges of single members under one key build the object of the members, where a later one
replaces an earlier one. -/
theorem get?_foldl_merge {key : String} {members : List (String × Json)} (ne : members ≠ [])
    (target : Object) :
    ((members.map fun member => merge key (.singleton member.1 member.2)).foldl apply target).get?
        key =
      some (.obj (members.foldl (fun d member => d.insert member.1 member.2)
        (((target.get? key).bind Json.members?).getD ∅))) := by
  induction members generalizing target with
  | nil => exact absurd rfl ne
  | cons member members ih =>
    have step := Object.get?_merge_self target key (.singleton member.1 member.2)
    rw [List.map_cons, List.foldl_cons, List.foldl_cons]
    rcases members with _ | ⟨next, members⟩
    · exact step
    · rw [ih (List.cons_ne_nil _ _), apply, step]
      rfl

theorem get?_build_merges {key : String} {members : List (String × Json)} (ne : members ≠ []) :
    (build (members.map fun member => merge key (.singleton member.1 member.2))).get? key =
      some (.obj (.ofList members)) :=
  get?_foldl_merge ne ∅

/-! ### Putting values -/

/-- **Putting.** The edit that puts a value under a key. The members of an object are added to what
is there. -/
def put (key : String) : Json → Edit
  | .obj members => .merge key members
  | literal => .set key literal

@[simp]
theorem key_put (key : String) (value : Json) : (put key value).key = key := by
  cases value <;> rfl

theorem put_of_literal {value : Json} (literal : value.isObject = false) (key : String) :
    put key value = .set key value := by
  cases value with
  | obj members => cases literal
  | _ => rfl

/-- What two values become that are put under the same key: two objects become one, and otherwise
only the second is left. -/
def joined : Json → Json → Json
  | .obj first, .obj second => .obj (first ∪ second)
  | _, second => second

theorem joined_of_literal {first second : Json}
    (literal : first.isObject = false ∨ second.isObject = false) :
    joined first second = second := by
  cases first with
  | obj members =>
    cases second with
    | obj others => simp [Json.isObject] at literal
    | _ => rfl
  | _ => rfl

theorem build_put (key : String) (value : Json) :
    build [put key value] = .singleton key value := by
  cases value <;> rfl

/-- The second of two values that are put under a key meets the first one there. -/
theorem get?_build_put_put (key : String) (first second : Json) :
    (build [put key first, put key second]).get? key = some (joined first second) := by
  have start : build [put key first, put key second] =
      (put key second).apply (.singleton key first) := by
    rw [← build_put]
    rfl
  have there : (Dict.singleton key first).get? key = some first := by
    rw [Dict.get?_singleton, if_pos rfl]
  rw [start]
  cases second with
  | obj members =>
    rw [put, apply, Object.merge, there]
    cases first <;> exact (Dict.get?_insert ..).trans (if_pos rfl)
  | _ => rw [put_of_literal rfl, apply, Dict.get?_insert, if_pos rfl, joined_of_literal (.inr rfl)]

/-! ### Entries of a dictionary -/

section Entries

variable {d : Object} {edits : String × Json → List Edit} {name key : String}

/-- Where the entries of a dictionary give edits, what the entry of a name puts under a key stays
if no entry of a greater name changes the key. -/
theorem get?_build_of_greatest {operand value : Json} (entry : d.get? name = some operand)
    (put : edits (name, operand) = [.set key value])
    (last : ∀ later > name, ∀ other, d.get? later = some other →
      ∀ edit ∈ edits (later, other), edit.key ≠ key) :
    (build (d.toList.flatMap edits)).get? key = some value := by
  obtain ⟨before, after, split⟩ := Dict.exists_split entry
  obtain ⟨-, greater⟩ := Dict.lt_of_split split
  rw [split, List.flatMap_append, List.flatMap_cons, put]
  refine get?_build_of_last _ fun edit mem => ?_
  obtain ⟨⟨later, other⟩, place, mem⟩ := List.mem_flatMap.mp mem
  have found : (later, other) ∈ d.toList := by
    rw [split]
    exact List.mem_append_right _ (List.mem_cons_of_mem _ place)
  exact last later (greater _ place) other (Dict.mem_toList.mp found) edit mem

/-- Nothing is built under a key that no entry changes. -/
theorem get?_build_eq_none
    (free : ∀ name operand, d.get? name = some operand →
      ∀ edit ∈ edits (name, operand), edit.key ≠ key) :
    (build (d.toList.flatMap edits)).get? key = none := by
  refine Option.not_isSome_iff_eq_none.mp fun present => ?_
  obtain ⟨edit, mem, eq⟩ := isSome_get?_build_iff.mp present
  obtain ⟨⟨name, operand⟩, place, mem⟩ := List.mem_flatMap.mp mem
  exact free name operand (Dict.mem_toList.mp place) edit mem eq

/-- If one name alone changes a key, what stands there is what its entry puts there. -/
theorem get?_build_of_only {value : Json → Json}
    (put : ∀ operand, edits (name, operand) = [.set key (value operand)])
    (only : ∀ other operand, ∀ edit ∈ edits (other, operand), edit.key = key → other = name) :
    (build (d.toList.flatMap edits)).get? key = (d.get? name).map value := by
  rcases entry : d.get? name with _ | operand
  · refine get?_build_eq_none fun other operand found edit mem eq => ?_
    rw [only other operand edit mem eq, entry] at found
    cases found
  · refine get?_build_of_greatest entry (put operand) fun later gt other _ edit mem eq => ?_
    exact String.lt_irrefl name (only later other edit mem eq ▸ gt)

/-- If two names change a key, the greater one decides. -/
theorem get?_build_of_two {first second : String} {value value' : Json → Json}
    (lt : first < second)
    (put : ∀ operand, edits (first, operand) = [.set key (value operand)])
    (put' : ∀ operand, edits (second, operand) = [.set key (value' operand)])
    (only : ∀ other operand, ∀ edit ∈ edits (other, operand), edit.key = key →
      other = first ∨ other = second) :
    (build (d.toList.flatMap edits)).get? key =
      ((d.get? second).map value').or ((d.get? first).map value) := by
  rcases entry' : d.get? second with _ | operand'
  · rcases entry : d.get? first with _ | operand
    · refine get?_build_eq_none fun other operand found edit mem eq => ?_
      rcases only other operand edit mem eq with rfl | rfl
      · rw [entry] at found
        cases found
      · rw [entry'] at found
        cases found
    · refine get?_build_of_greatest entry (put operand) fun later gt other found edit mem eq => ?_
      rcases only later other edit mem eq with rfl | rfl
      · exact String.lt_irrefl _ gt
      · rw [entry'] at found
        cases found
  · refine get?_build_of_greatest entry' (put' operand') fun later gt other _ edit mem eq => ?_
    rcases only later other edit mem eq with rfl | rfl
    · exact String.lt_asymm lt gt
    · exact String.lt_irrefl _ gt

end Entries

/-! ### Different keys -/

/-- What an edit writes where nothing stands yet. -/
def written : Edit → Json
  | .set _ value => value
  | .merge _ members => .obj members

@[simp]
theorem written_put (key : String) (value : Json) : (put key value).written = value := by
  cases value <;> rfl

/-- An edit of a key under which nothing stands inserts what it writes. -/
theorem apply_of_get?_eq_none {target : Object} {edit : Edit}
    (absent : target.get? edit.key = none) :
    edit.apply target = target.insert edit.key edit.written := by
  cases edit with
  | set key value => rfl
  | merge key members =>
    have missing : target.get? key = none := absent
    rw [apply, Object.merge, missing, Edit.key, written]

/-- Edits of different keys under which nothing stands insert what they write. -/
theorem foldl_apply_of_nodup {edits : List Edit} {target : Object}
    (distinct : (edits.map key).Nodup) (absent : ∀ edit ∈ edits, target.get? edit.key = none) :
    edits.foldl apply target =
      (edits.map fun edit => (edit.key, edit.written)).foldl
        (fun d entry => d.insert entry.1 entry.2) target := by
  -- Nothing stands under the keys of the edits to come; inserting under another key keeps it so.
  induction edits generalizing target with
  | nil => rfl
  | cons edit edits ih =>
    rw [List.map_cons, List.nodup_cons] at distinct
    obtain ⟨fresh, distinct⟩ := distinct
    rw [List.foldl_cons, List.map_cons, List.foldl_cons]
    rw [apply_of_get?_eq_none (absent edit List.mem_cons_self)]
    refine ih distinct fun other mem => ?_
    have ne : other.key ≠ edit.key := fun eq => fresh (eq ▸ List.mem_map_of_mem mem)
    rw [Dict.get?_insert, if_neg ne]
    exact absent other (List.mem_cons_of_mem edit mem)

/-- **Different keys.** Edits of different keys build the object of what they write. -/
theorem build_of_nodup {edits : List Edit} (distinct : (edits.map key).Nodup) :
    build edits = .ofList (edits.map fun edit => (edit.key, edit.written)) :=
  foldl_apply_of_nodup distinct fun _ _ => rfl

/-- What is built by edits of different keys, one of the edits writes. -/
theorem exists_of_get?_build {edits : List Edit} (distinct : (edits.map key).Nodup) {k : String}
    {value : Json} (h : (build edits).get? k = some value) :
    ∃ edit ∈ edits, edit.key = k ∧ edit.written = value := by
  have keys : ((edits.map fun edit => (edit.key, edit.written)).map Prod.fst).Nodup := by
    rwa [List.map_map]
  rw [build_of_nodup distinct, Dict.get?_ofList_eq_some_iff keys] at h
  obtain ⟨edit, mem, eq⟩ := List.mem_map.mp h
  obtain ⟨own, written⟩ := Prod.mk.inj eq
  exact ⟨edit, mem, own, written⟩

/-- The object that one edit for each entry of an object builds, if the edits change different
keys. -/
theorem build_map_of_nodup {entries : List (String × Json)} {edit : String → Json → Edit}
    {target : String → Json → String} {value : String → Json → Json}
    (keys : ∀ name operand, (edit name operand).key = target name operand)
    (values : ∀ name operand, (edit name operand).written = value name operand)
    (distinct : (entries.map fun entry => target entry.1 entry.2).Nodup) :
    build (entries.map fun entry => edit entry.1 entry.2) =
      .ofList (entries.map fun entry => (target entry.1 entry.2, value entry.1 entry.2)) := by
  have same : (entries.map fun entry => edit entry.1 entry.2).map key =
      entries.map fun entry => target entry.1 entry.2 := by
    rw [List.map_map]
    exact List.map_congr_left fun entry _ => keys entry.1 entry.2
  have written : (entries.map fun entry => edit entry.1 entry.2).map
      (fun edit => (edit.key, edit.written)) =
        entries.map fun entry => (target entry.1 entry.2, value entry.1 entry.2) := by
    rw [List.map_map]
    refine List.map_congr_left fun entry _ => ?_
    rw [Function.comp_apply, keys, values]
  rw [← written]
  exact build_of_nodup (same ▸ distinct)

/-- Edits that write each entry of an object under its own key build the object again. -/
theorem build_entries {edit : String → Json → Edit} (keys : ∀ key value, (edit key value).key = key)
    (values : ∀ key value, (edit key value).written = value) (members : Object) :
    build (members.toList.map fun entry => edit entry.1 entry.2) = members := by
  have distinct : (members.toList.map fun entry => entry.1).Nodup := by
    refine (Dict.pairwise_toList members).map _ fun first second lt eq => ?_
    exact String.lt_irrefl first.1 (eq ▸ lt)
  rw [build_map_of_nodup keys values distinct, List.map_id']
  exact Dict.ofList_toList members

end Edit

end FilterQuery
