import FilterQuery.Proofs.Lowering.Calls
import FilterQuery.Proofs.Lowering.DottedPaths

/-!
# Sites

A `Site` is a call together with the objects that are being built as it is made: the object around
a field, and the object of the field itself. Both come from the edits of what is lowered before the
call. Every call of a lowering has a site, whether or not the lowering succeeds in the end
(`makes_iff_exists_arises`).

A pair writes to the object around its field, under a dotted path (`Site.Flattens`), and a literal
that stood there would be lost. This never happens: what stands there is an object, if anything does
(`lower_flattens_onto_objects`). The reason is the order of the keys. A dotted path is greater than
its field (`lt_dotted`), while a literal that has been put under a key with a dot has come from a
smaller key, which is the one it stands under. So whatever is put before the field spares its dotted
paths (`Edit.Spares`), in filters as in conditions, and other pairs leave objects there.
-/

namespace FilterQuery

/-! ### Open objects -/

/-- **Openness.** Under the dotted paths of a field, the object has nothing or objects. -/
def Object.OpenTo (parent : Object) (field : String) : Prop :=
  ∀ path, parent.get? (field ++ "." ++ path) = none ∨
    ∃ members, parent.get? (field ++ "." ++ path) = some (.obj members)

/-- The edit puts no value under a dotted path of the field. A merge may change what is there. -/
def Edit.Spares (edit : Edit) (field : String) : Prop :=
  ∀ path value, edit ≠ .set (field ++ "." ++ path) value

section Open

variable {field : String} {parent : Object} {edit : Edit} {edits : List Edit}

theorem Edit.spares_merge (key : String) (members : Object) (field : String) :
    (Edit.merge key members).Spares field := nofun

/-- An edit of a key that is no dotted path of the field spares it. -/
theorem Edit.spares_of_ne (ne : ∀ path, edit.key ≠ field ++ "." ++ path) : edit.Spares field := by
  rintro path value rfl
  exact ne path rfl

theorem Object.openTo_empty (field : String) : Object.OpenTo ∅ field := fun _ => .inl rfl

/-- An edit that spares a field keeps an object open to it. -/
theorem Object.OpenTo.apply (isOpen : parent.OpenTo field) (spares : edit.Spares field) :
    Object.OpenTo (edit.apply parent) field := by
  intro path
  by_cases own : field ++ "." ++ path = edit.key
  · cases edit with
    | set key value => exact absurd (congrArg (Edit.set · value) own.symm) (spares path value)
    | merge key members =>
      rw [own]
      exact .inr ⟨_, Object.get?_merge_self parent key members⟩
  · rw [Edit.get?_apply_of_ne parent edit own]
    exact isOpen path

theorem Object.OpenTo.foldl (isOpen : parent.OpenTo field)
    (spare : ∀ edit ∈ edits, edit.Spares field) :
    Object.OpenTo (edits.foldl Edit.apply parent) field := by
  induction edits generalizing parent with
  | nil => exact isOpen
  | cons edit edits ih =>
    obtain ⟨head, tail⟩ := List.forall_mem_cons.mp spare
    exact ih (isOpen.apply head) tail

/-- Edits that spare a field build an object that is open to it. -/
theorem Edit.openTo_build (spare : ∀ edit ∈ edits, edit.Spares field) :
    Object.OpenTo (Edit.build edits) field :=
  (Object.openTo_empty field).foldl spare

end Open

namespace Lowering

variable {cx : Context} {levels : Nat} {cls field key name : String} {operands : Object}

/-! ### Edits of smaller keys -/

/-- Pairs spare every field: they merge. -/
theorem Part.spares_of_mem_dottedEdits {part : Part} {edit : Edit} (mem : edit ∈ part.dottedEdits)
    (field : String) : edit.Spares field := by
  cases part with
  | dotted path target value =>
    rw [List.mem_singleton.mp mem]
    exact Edit.spares_merge path (.singleton target value) field
  | _ => cases mem

/-- Fields spare every field: all that a field gives to the object around it are merges. -/
theorem spares_of_mem_fieldAt {edits : List Edit}
    (h : (fieldAt cx levels cls field key operands).result = .ok edits) {edit : Edit}
    (mem : edit ∈ edits) (other : String) : edit.Spares other := by
  cases levels with
  | zero => cases h
  | succ levels =>
    obtain ⟨-, rfl⟩ | ⟨-, entries, parts, lowered, -, -, -, rfl⟩ := edits_of_fieldStep h
    · obtain ⟨name, operand, pair, -, -, rfl⟩ := mem_pathEdits.mp mem
      exact Edit.spares_merge _ _ other
    · rw [List.mem_singleton.mp mem]
      exact Edit.spares_merge _ lowered other

/-- An entry of a filter spares the fields of greater keys. -/
theorem spares_of_mem_entryStep (lt : key < field) {value : Json} {edits : List Edit}
    (h : (entryStep (belowAt cx levels) cls key value).result = .ok edits) {edit : Edit}
    (mem : edit ∈ edits) : edit.Spares field := by
  rcases named : Combinator.ofName? key with _ | combinator
  · cases value with
    | obj operands =>
      rw [entryStep_obj named] at h
      exact spares_of_mem_fieldAt h mem field
    | _ =>
      rw [entryStep_literal named rfl] at h
      cases h
      rw [List.mem_singleton.mp mem]
      exact Edit.spares_of_ne fun path eq => ne_dotted_of_lt lt path (eq_of_outputKey_dotted eq)
  · rw [result_entryStep_of_some named] at h
    obtain ⟨lowered, -, rfl⟩ := Except.map_eq_ok_iff.mp h
    rw [List.mem_singleton.mp mem]
    exact Edit.spares_of_ne fun path => combinator.target_ne_dotted field path

/-- A condition of a plain field spares the fields of greater names: it puts its operand under a
target, or under its own name. -/
theorem spares_of_mem_plainPart (lt : name < field) {operand : Operand} {found : Part}
    (h : (plainPart (belowAt cx levels) cls name operand).result = .ok found) {edit : Edit}
    (mem : edit ∈ found.ownEdits) : edit.Spares field := by
  have put (value : Json) : (Edit.set (targetKey name) value).Spares field := by
    rw [targetKey]
    rcases Operator.ofName? name with _ | operator
    · exact Edit.spares_of_ne fun path => ne_dotted_of_lt lt path
    · exact Edit.spares_of_ne fun path => operator.target_ne_dotted field path
  cases plainPart_of_result h with
  | @filter _ query =>
    rw [List.mem_singleton.mp mem]
    exact put (.obj query)
  | conditions _ _ given => exact spares_of_mem_fieldAt given mem field
  | literal =>
    rw [List.mem_singleton.mp mem]
    exact put (Geo.encode (Operator.ofName? name) operand)

/-- A condition of a reference spares every field: targets and branches are no dotted paths. -/
theorem spares_of_mem_partOf {reference : Field} {operand lowered : Json} {edit : Edit}
    (mem : edit ∈ (partOf reference name operand lowered).ownEdits) (field : String) :
    edit.Spares field := by
  refine Edit.spares_of_ne fun path => ?_
  rcases key_of_partOf mem with ⟨side, -, own⟩ | ⟨operator, -, -, own⟩ | ⟨side, -, own⟩
  · rw [own]
    exact side.operator.target_ne_dotted field path
  · rw [own]
    exact operator.target_ne_dotted field path
  · rw [own]
    exact ne_dotted (by cases side <;> decide) field path

/-- A condition spares the fields of greater names, in the object of its own field. -/
theorem spares_of_mem_ownEdits {inner : String} (lt : name < inner) {operand : Json} {found : Part}
    (h : (part cx (belowAt cx levels) cls field name operand).result = .ok found) {edit : Edit}
    (mem : edit ∈ found.ownEdits) : edit.Spares inner := by
  obtain ⟨pair, -, rfl⟩ | ⟨-, ⟨reference, -, given⟩ | ⟨-, given⟩⟩ := part_cases h
  · cases mem
  · obtain ⟨lowered, rfl⟩ := exists_partOf_of_referencePart given
    exact spares_of_mem_partOf mem inner
  · exact spares_of_mem_plainPart lt given mem

/-! ### Sites -/

/-- **Sites.** A call, with the objects that are being built as it is made. -/
structure Site where
  /-- What is lowered. -/
  call : Call
  /-- The object around the field, as far as it has come. -/
  around : Object
  /-- The object of the field itself, as far as it has come. -/
  own : Object

/-- **Nested sites.** One site leads to another. -/
inductive Site.Leads (cx : Context) : Site → Site → Prop
  /-- A filter starts from nothing. -/
  | filter {site : Site} {levels : Nat} {cls : String} {filter : Object}
    (calls : Calls cx site.call (.filter levels cls filter)) :
    Leads cx site ⟨.filter levels cls filter, ∅, ∅⟩
  /-- A field of a filter finds what the entries before it build. -/
  | entry {levels : Nat} {cls key : String} {filter operands around own : Object}
    {edits : List (List Edit)}
    (reached : Run.ReachesAfter
      (fun entry : String × Json => entryStep (belowAt cx levels) cls entry.1 entry.2)
      filter.toList edits (key, .obj operands))
    (noName : Combinator.ofName? key = none) :
    Leads cx ⟨.filter (levels + 1) cls filter, around, own⟩
      ⟨.field levels cls key key operands, Edit.build edits.flatten, ∅⟩
  /-- A condition finds what the conditions before it build, around the field and in it. -/
  | condition {levels : Nat} {cls field key name : String} {operands around own : Object}
    {entries : List (String × Json)} {operand : Json} {parts : List Part}
    (given : (conditions cx cls field operands).result = .ok entries)
    (reached : Run.ReachesAfter
      (fun entry : String × Json => part cx (belowAt cx levels) cls field entry.1 entry.2)
      entries parts (name, operand)) :
    Leads cx ⟨.field (levels + 1) cls field key operands, around, own⟩
      ⟨.condition levels cls field name operand,
        (parts.flatMap Part.dottedEdits).foldl Edit.apply around,
        Edit.build (parts.flatMap Part.ownEdits)⟩
  /-- The object around the conditions of a condition is that of the field. -/
  | deeper {levels inner : Nat} {cls cls' field field' key name : String}
    {operands around own : Object} {operand : Json}
    (calls : Calls cx (.condition levels cls field name operand)
      (.field inner cls' field' key operands)) :
    Leads cx ⟨.condition levels cls field name operand, around, own⟩
      ⟨.field inner cls' field' key operands, own, ∅⟩

/-- A site arises when an input is lowered. -/
def Arises (cx : Context) (cls : String) (input : Json) (site : Site) : Prop :=
  ∃ filter, input = .obj filter ∧
    Relation.ReflTransGen (Site.Leads cx) ⟨.filter cx.limit cls filter, ∅, ∅⟩ site

section Sites

variable {site inner : Site} {call : Call} {input : Json}

theorem Site.Leads.calls (leads : Leads cx site inner) : Calls cx site.call inner.call := by
  cases leads with
  | filter calls => exact calls
  | entry reached noName => exact .entry (Run.reaches_iff_exists_after.mpr ⟨_, reached⟩) noName
  | condition given reached =>
    exact .condition ⟨_, given, Run.reaches_iff_exists_after.mpr ⟨_, reached⟩⟩
  | deeper calls => exact calls

/-- Every call that is made at a site has a site. -/
theorem Site.exists_leads (calls : Calls cx site.call call) :
    ∃ inner, Leads cx site inner ∧ inner.call = call := by
  obtain ⟨outer, around, own⟩ := site
  dsimp only at calls
  cases call with
  | filter levels cls filter => exact ⟨_, .filter calls, rfl⟩
  | field levels cls field key operands =>
    cases calls with
    | entry entry noName =>
      obtain ⟨edits, reached⟩ := Run.reaches_iff_exists_after.mp entry
      exact ⟨_, .entry reached noName, rfl⟩
    | deeper noPair plain noFilter encoded =>
      exact ⟨_, .deeper (.deeper noPair plain noFilter encoded), rfl⟩
  | condition levels cls field name operand =>
    cases calls with
    | condition reached =>
      obtain ⟨entries, given, reached⟩ := reached
      obtain ⟨parts, reached⟩ := Run.reaches_iff_exists_after.mp reached
      exact ⟨_, .condition given reached, rfl⟩

/-- **Calls have sites.** The calls that are made are those of the sites that arise. -/
theorem makes_iff_exists_arises :
    Makes cx cls input call ↔ ∃ site, Arises cx cls input site ∧ site.call = call := by
  constructor
  · rintro ⟨filter, rfl, on⟩
    induction on with
    | refl => exact ⟨_, ⟨filter, rfl, .refl⟩, rfl⟩
    | tail _ calls ih =>
      obtain ⟨site, ⟨_, ⟨⟩, arises⟩, rfl⟩ := ih
      obtain ⟨inner, leads, same⟩ := Site.exists_leads calls
      exact ⟨inner, ⟨filter, rfl, arises.tail leads⟩, same⟩
  · rintro ⟨site, ⟨filter, rfl, arises⟩, rfl⟩
    exact ⟨filter, rfl, arises.lift Site.call fun _ _ leads => leads.calls⟩

end Sites

/-! ### Pairs at their sites -/

/-- **Flattening.** At the site, a pair of a field goes to its dotted path in the object around the
field, under a target. -/
inductive Site.Flattens (field : String) (pair : PathPair) : (target : String) → Site → Prop
  /-- A condition has the pair as its operand. -/
  | condition {levels : Nat} {cls name : String} {operand : Json} {around own : Object}
    (is : pairUnder? field (.ofJson operand) = some pair) :
    Flattens field pair (targetKey name) ⟨.condition levels cls field name operand, around, own⟩

/-- The objects that are being built are open to what is about to be written: that around a field to
the field, and that of the field to its condition. -/
def Site.Open (site : Site) : Prop :=
  match site.call with
  | .filter _ _ _ => True
  | .field _ _ field _ _ => site.around.OpenTo field
  | .condition _ _ field name _ => site.around.OpenTo field ∧ site.own.OpenTo name

section Open

variable {site inner : Site} {input : Json}

/-- **Steps.** Open objects stay open from site to site. -/
theorem Site.Open.leads (isOpen : site.Open) (leads : Leads cx site inner) : inner.Open := by
  cases leads with
  | filter calls => trivial
  | entry reached noName =>
    refine Edit.openTo_build fun edit mem => ?_
    obtain ⟨edits, given, mem⟩ := List.mem_flatten.mp mem
    obtain ⟨before, lt, step⟩ := reached.exists_of_mem (Dict.pairwise_toList _) given
    exact spares_of_mem_entryStep lt step mem
  | condition given reached =>
    refine ⟨Object.OpenTo.foldl isOpen fun edit mem => ?_, Edit.openTo_build fun edit mem => ?_⟩
    · obtain ⟨part, -, mem⟩ := List.mem_flatMap.mp mem
      exact Part.spares_of_mem_dottedEdits mem _
    · obtain ⟨part, found, mem⟩ := List.mem_flatMap.mp mem
      obtain ⟨before, lt, step⟩ := reached.exists_of_mem (pairwise_of_result_conditions given) found
      exact spares_of_mem_ownEdits lt step mem
  | deeper calls =>
    cases calls with
    | deeper => exact isOpen.2

/-- **Runs.** Every site that arises is open. -/
theorem Arises.isOpen (arises : Arises cx cls input site) : site.Open := by
  obtain ⟨filter, rfl, on⟩ := arises
  induction on with
  | refl => trivial
  | tail _ leads ih => exact ih.leads leads

/-- What a call reports as moved to a dotted path is a pair. -/
theorem reports_pathFlattened_iff {target path : String} :
    Reports cx site.call (.pathFlattened target path) ↔
      ∃ field pair, site.Flattens field pair target ∧ path = field ++ "." ++ pair.path := by
  obtain ⟨call, around, own⟩ := site
  dsimp only
  constructor
  · intro reports
    cases reports with
    | identifiers mem =>
      obtain ⟨⟨⟩⟩ | ⟨⟨⟩⟩ := eq_or_level_of_mem_conditions mem
    | assembled gathers mem =>
      obtain ⟨branch, ⟨⟩⟩ := exists_of_mem_assemble mem
    | flattened is => exact ⟨_, _, .condition is, rfl⟩
  · rintro ⟨field, pair, ⟨is⟩, rfl⟩
    exact .flattened is

end Open

/-- **Pairs meet objects.** The pairs that a lowering reports as moved, whether or not it succeeds,
are those at the sites that arise. Where such a pair is about to be written, its dotted path holds
nothing yet, or an object: no literal is ever replaced. -/
theorem lower_flattens_onto_objects (schema : Schema) (codec : Codec) (options : Options)
    (cls : String) (input : Json) :
    let cx := Context.of schema codec options
    (∀ target path, .pathFlattened target path ∈ (lower cx cls input).events ↔
        ∃ site field pair, Arises cx cls input site ∧ site.Flattens field pair target ∧
          path = field ++ "." ++ pair.path) ∧
      ∀ site field pair target, Arises cx cls input site → site.Flattens field pair target →
        site.around.get? (field ++ "." ++ pair.path) = none ∨
          ∃ members, site.around.get? (field ++ "." ++ pair.path) = some (.obj members) := by
  intro cx
  constructor
  · intro target path
    rw [mem_events_lower_iff]
    simp only [makes_iff_exists_arises]
    constructor
    · rintro ⟨_, ⟨site, arises, rfl⟩, reports⟩
      obtain ⟨field, pair, flattens⟩ := reports_pathFlattened_iff.mp reports
      exact ⟨site, field, pair, arises, flattens⟩
    · rintro ⟨site, field, pair, arises, flattens⟩
      exact ⟨site.call, ⟨site, arises, rfl⟩, reports_pathFlattened_iff.mpr ⟨field, pair, flattens⟩⟩
  · rintro site field pair target arises ⟨is⟩
    exact arises.isOpen.1 pair.path

/-! ### Short titles in English -/

/-- A condition on titles, as a pair under the operator. -/
def titled (operator : Operator) (path text : String) : Json :=
  .obj (.singleton operator.name (.obj (PathPair.toObject ⟨path, .str text, ∅⟩)))

/-- Two fields whose pairs lead to the same dotted path, and a literal under that path. -/
def shortTitles : Object :=
  .ofList [("title", titled .equalTo "en.short" "Home"),
    ("title.en", titled .notEqualTo "short" "Work"), ("title.en.short", .str "Any")]

/-- The second pair meets the object that the first has left. The literal comes after both. -/
theorem lower_shortTitles_flattens :
    let cx := Context.of projects .relay {}
    ∃ site pair, Arises cx "Project" (.obj shortTitles) site ∧ pair.path = "short" ∧
      site.Flattens "title.en" pair "$ne" ∧
      (∃ members, site.around.get? "title.en.short" = some (.obj members)) ∧
      (lower cx "Project" (.obj shortTitles)).result =
        .ok (.obj (.singleton "title.en.short" (.str "Any"))) := by
  intro cx
  let before : List (List Edit) :=
    [[.merge "title.en.short" (.singleton "$eq" (.str "Home"))]]
  let around : Object := Edit.build before.flatten
  let pair : PathPair := ⟨"short", .str "Work", ∅⟩
  let operand : Json := .obj pair.toObject
  let site : Site := ⟨.condition 254 "Project" "title.en" "notEqualTo" operand, around, ∅⟩
  have entry : Site.Leads cx ⟨.filter 256 "Project" shortTitles, ∅, ∅⟩
      ⟨.field 255 "Project" "title.en" "title.en" (.singleton "notEqualTo" operand), around, ∅⟩ :=
    .entry ⟨[_], [_], rfl, rfl⟩ rfl
  have condition : Site.Leads cx
      ⟨.field 255 "Project" "title.en" "title.en" (.singleton "notEqualTo" operand), around, ∅⟩
      site := .condition rfl ⟨[], [], rfl, rfl⟩
  have arises : Arises cx "Project" (.obj shortTitles) site :=
    ⟨shortTitles, rfl, .tail (.single entry) condition⟩
  have target : targetKey "notEqualTo" = "$ne" := rfl
  have flattens : site.Flattens "title.en" pair "$ne" := target ▸ .condition rfl
  obtain ⟨-, meets⟩ := lower_flattens_onto_objects projects .relay {} "Project" (.obj shortTitles)
  obtain nothing | object := meets site _ pair _ arises flattens
  · cases nothing
  · exact ⟨site, pair, arises, rfl, flattens, object, rfl⟩

end Lowering

end FilterQuery
