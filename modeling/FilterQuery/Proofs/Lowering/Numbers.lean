import FilterQuery.Lowering.Basic
import FilterQuery.Proofs.Json.Numbers
import FilterQuery.Proofs.Lowering.Noninterference
import FilterQuery.Proofs.Run.Events

/-!
# Numbers in filters

Lowering does not look at numbers: replacing the numbers of a filter and lowering it is lowering it
and replacing the numbers of the query, as long as zero stays apart from the other numbers, since
the operand of `exists` and the type of a coordinate are flags (`Lowering.lower_mapNumbers`).

Each step passes numbers through if what lies below does (`Below.Passes`): the run on the replaced
operands is the run on the operands, with the numbers of its result replaced. An induction on the
levels shows that it does (`belowAt_passes`).
-/

namespace FilterQuery

/-- A function passes through the elements of a list if it passes through each of them. -/
theorem Run.mapM_map_comm {α α' β β' : Type} {f : α' → Run β'} {g : α → Run β} {pre : α → α'}
    {post : β → β'} (each : ∀ a, f (pre a) = post <$> g a) (xs : List α) :
    (xs.map pre).mapM f = List.map post <$> xs.mapM g := by
  induction xs with
  | nil => rfl
  | cons x xs ih =>
    rw [List.map_cons, List.mapM_cons, List.mapM_cons, each, ih]
    simp only [bind_map_left, map_bind, map_pure, List.map_cons]

/-! ### Edits -/

namespace Edit

variable (h : Number → Number)

/-- The edit with every number replaced. -/
def mapNumbers : Edit → Edit
  | .set key value => .set key (value.mapNumbers h)
  | .merge key members => .merge key (members.map (Json.mapNumbers h))

theorem apply_mapNumbers (target : Object) (edit : Edit) :
    (edit.apply target).map (Json.mapNumbers h) =
      (edit.mapNumbers h).apply (target.map (Json.mapNumbers h)) := by
  cases edit with
  | set key value => exact Dict.map_insert ..
  | merge key members => exact Object.merge_mapNumbers ..

/-- Numbers pass through building. -/
theorem build_mapNumbers (edits : List Edit) :
    (build edits).map (Json.mapNumbers h) = build (edits.map (mapNumbers h)) := by
  have foldl (target : Object) : (edits.foldl apply target).map (Json.mapNumbers h) =
      (edits.map (mapNumbers h)).foldl apply (target.map (Json.mapNumbers h)) := by
    induction edits generalizing target with
    | nil => rfl
    | cons edit edits ih => rw [List.foldl_cons, ih, apply_mapNumbers, List.map_cons,
        List.foldl_cons]
  exact foldl ∅

end Edit

namespace Lowering

/-! ### Parts -/

section Parts

variable (h : Number → Number)

/-- The part with every number replaced. -/
def Part.mapNumbers : Part → Part
  | .own edits => .own (edits.map (Edit.mapNumbers h))
  | .dotted path target value => .dotted path target (value.mapNumbers h)
  | .presence flag => .presence (flag.mapNumbers h)

theorem Part.flatMap_ownEdits_mapNumbers (parts : List Part) :
    (parts.map (mapNumbers h)).flatMap ownEdits =
      (parts.flatMap ownEdits).map (Edit.mapNumbers h) := by
  rw [List.flatMap_map, List.map_flatMap]
  congr 1
  funext part
  cases part <;> rfl

theorem Part.flatMap_dottedEdits_mapNumbers (parts : List Part) :
    (parts.map (mapNumbers h)).flatMap dottedEdits =
      (parts.flatMap dottedEdits).map (Edit.mapNumbers h) := by
  rw [List.flatMap_map, List.map_flatMap]
  congr 1
  funext part
  cases part with
  | dotted path target value => simp [mapNumbers, dottedEdits, Edit.mapNumbers, Dict.map_singleton]
  | _ => rfl

theorem Part.findSome?_presence?_mapNumbers (parts : List Part) :
    (parts.map (mapNumbers h)).findSome? presence? =
      (parts.findSome? presence?).map (Json.mapNumbers h) := by
  induction parts with
  | nil => rfl
  | cons part parts ih =>
    rw [List.map_cons, List.findSome?_cons, List.findSome?_cons, ih]
    cases part <;> rfl

end Parts

/-! ### Identifiers -/

section Identifiers

variable (h : Number → Number) (codec : Codec) (policy : IdentifierPolicy) (cls : String)

/-- Strings have no numbers. -/
theorem map_str_localId (encoded : String) :
    Json.mapNumbers h <$> Json.str <$> localId codec policy cls encoded =
      Json.str <$> localId codec policy cls encoded := by
  rw [Functor.map_map]
  simp only [Json.mapNumbers_str]

theorem localItem_mapNumbers (item : Json) :
    localItem codec policy cls (item.mapNumbers h) =
      Json.mapNumbers h <$> localItem codec policy cls item := by
  cases item with
  | str encoded => rw [Json.mapNumbers_str, localItem, map_str_localId]
  | _ => simp [localItem]

theorem localOperand_mapNumbers (operand : Json) :
    localOperand codec policy cls (operand.mapNumbers h) =
      Json.mapNumbers h <$> localOperand codec policy cls operand := by
  cases operand with
  | str encoded => rw [Json.mapNumbers_str, localOperand, map_str_localId]
  | arr items =>
    rw [Json.mapNumbers_arr, localOperand, localOperand,
      Run.mapM_map_comm (localItem_mapNumbers h codec policy cls), Functor.map_map,
      Functor.map_map]
    simp only [Json.mapNumbers_arr]
  | _ => simp [localOperand]

theorem conditions_mapNumbers (cx : Context) (cls field : String) (operands : Object) :
    conditions cx cls field (operands.map (Json.mapNumbers h)) =
      List.map (Prod.map id (Json.mapNumbers h)) <$> conditions cx cls field operands := by
  unfold conditions localConditions
  rw [Dict.toList_map]
  split
  · rw [map_bind]
    congr 1
    funext _
    refine Run.mapM_map_comm (fun condition => ?_) operands.toList
    simp [localOperand_mapNumbers]
  · rfl

end Identifiers

/-! ### Steps -/

/-- **Levels below that pass numbers through.** Replacing numbers before and after what is lowered
below comes to the same. -/
structure Below.Passes (h : Number → Number) (below : Below) : Prop where
  /-- Numbers pass through filters. -/
  filter : ∀ cls filter, below.filter cls (filter.map (Json.mapNumbers h)) =
    Dict.map (Json.mapNumbers h) <$> below.filter cls filter
  /-- Numbers pass through conditions. -/
  field : ∀ cls field key operands, below.field cls field key (operands.map (Json.mapNumbers h)) =
    List.map (Edit.mapNumbers h) <$> below.field cls field key operands

section Steps

variable {h : Number → Number} {below : Below}

theorem Below.Passes.value (passes : below.Passes h) (cls : String) (value : Json) :
    below.value cls (value.mapNumbers h) = Json.mapNumbers h <$> below.value cls value := by
  cases value with
  | obj filter =>
    rw [Json.mapNumbers_obj, Below.value, Below.value, passes.filter, Functor.map_map,
      Functor.map_map]
    simp only [Json.mapNumbers_obj]
  | _ => simp [Below.value]

theorem subquery_mapNumbers (filter : Json) (cls : Option String) :
    (subquery filter cls).mapNumbers h = subquery (filter.mapNumbers h) cls := by
  rw [subquery, Json.mapNumbers_obj, Dict.map_ofPresent, subquery]
  cases cls <;> simp

theorem lowerFor_mapNumbers (passes : below.Passes h) (reference : Field) (filter : Json) :
    lowerFor below.value reference (filter.mapNumbers h) =
      Json.mapNumbers h <$> lowerFor below.value reference filter := by
  unfold lowerFor
  split
  · exact passes.value _ filter
  · rw [map_pure]

theorem expand_mapNumbers (passes : below.Passes h) (field : String) (operator : Operator)
    (reference : Field) (filter : Json) :
    expand below.value field operator reference (filter.mapNumbers h) =
      Json.mapNumbers h <$> expand below.value field operator reference filter := by
  simp only [expand, lowerFor_mapNumbers passes, map_bind, bind_map_left, map_pure,
    subquery_mapNumbers]

theorem referencePart_mapNumbers (passes : below.Passes h) (field : String) (reference : Field)
    (name : String) (operand : Json) :
    referencePart below field reference name (operand.mapNumbers h) =
      Part.mapNumbers h <$> referencePart below field reference name operand := by
  unfold referencePart
  split
  · rfl
  · simp only [expand_mapNumbers passes, map_bind, bind_map_left, map_pure]
    rfl
  · simp only [expand_mapNumbers passes, map_bind, bind_map_left, map_pure]
    rfl
  · rfl
  · split
    · simp only [lowerFor_mapNumbers passes, map_bind, bind_map_left, map_pure]
      rfl
    · rfl

theorem plainPart_mapNumbers (zero : ∀ n, (h n).isZero = n.isZero) (passes : below.Passes h)
    (cls name : String) (operand : Operand) :
    plainPart below cls name (operand.mapNumbers h) =
      Part.mapNumbers h <$> plainPart below cls name operand := by
  unfold plainPart
  rw [Geo.encode_mapNumbers zero]
  cases Geo.encode (Operator.ofName? name) operand with
  | obj nested =>
    rw [Json.mapNumbers_obj]
    dsimp only
    split
    · simp only [passes.filter, map_bind, bind_map_left, map_pure]
      simp [Part.mapNumbers, Edit.mapNumbers]
    · simp only [passes.field, map_bind, bind_map_left, map_pure]
      rfl
  | _ => simp [Part.mapNumbers, Edit.mapNumbers]

theorem pairUnder?_mapNumbers (field : String) (operand : Operand) :
    pairUnder? field (operand.mapNumbers h) =
      (pairUnder? field operand).map (PathPair.mapNumbers h) := by
  unfold pairUnder?
  split
  · rfl
  · exact operand.pair?_mapNumbers h

/-- Numbers pass through a condition. -/
theorem part_mapNumbers (zero : ∀ n, (h n).isZero = n.isZero) (passes : below.Passes h)
    (cx : Context) (cls field name : String) (operand : Json) :
    part cx below cls field name (operand.mapNumbers h) =
      Part.mapNumbers h <$> part cx below cls field name operand := by
  unfold part
  rw [Operand.ofJson_mapNumbers, pairUnder?_mapNumbers]
  rcases pairUnder? field (.ofJson operand) with _ | pair
  · rcases cx.schema.reference? cls field with _ | reference
    · exact plainPart_mapNumbers zero passes cls name (.ofJson operand)
    · exact referencePart_mapNumbers passes field reference name operand
  · rfl

/-! ### Fields -/

theorem allReferred_mapNumbers (reference : Field) :
    (allReferred reference).mapNumbers h = allReferred reference := by
  simp [allReferred, subquery_mapNumbers, Dict.map_singleton]

theorem applyPresence_mapNumbers (zero : ∀ n, (h n).isZero = n.isZero) (field : String)
    (reference : Field) (flag : Json) (lowered : Object) :
    applyPresence field reference (flag.mapNumbers h) (lowered.map (Json.mapNumbers h)) =
      Dict.map (Json.mapNumbers h) <$> applyPresence field reference flag lowered := by
  unfold applyPresence
  rw [Json.isTruthy_mapNumbers zero]
  split
  · rw [map_pure, Dict.map_insert]
  · -- Flags are the same, so both runs choose the same branch.
    generalize (if flag.isTruthy then (whereKey, Operator.inQuery)
      else (notWhereKey, Operator.notInQuery)) = choice
    obtain ⟨branch, operator⟩ := choice
    dsimp only
    rw [Dict.get?_map]
    have all : (lowered.map (Json.mapNumbers h)).insert operator.target (allReferred reference) =
        (lowered.insert operator.target (allReferred reference)).map (Json.mapNumbers h) := by
      rw [Dict.map_insert, allReferred_mapNumbers]
    rcases lowered.get? branch with _ | value
    · exact congrArg pure all
    · cases value with
      | obj filter =>
        rw [Option.map_some, Json.mapNumbers_obj]
        simp only [map_bind, map_pure, Dict.map_insert, Json.mapNumbers_obj,
          Object.merge_mapNumbers, Dict.map_singleton]
      | _ => simp [all]

theorem assemble_mapNumbers (zero : ∀ n, (h n).isZero = n.isZero) (cx : Context)
    (cls field : String) (parts : List Part) :
    assemble cx cls field (parts.map (Part.mapNumbers h)) =
      Dict.map (Json.mapNumbers h) <$> assemble cx cls field parts := by
  unfold assemble
  rw [Part.flatMap_ownEdits_mapNumbers, ← Edit.build_mapNumbers,
    Part.findSome?_presence?_mapNumbers]
  rcases cx.schema.reference? cls field with _ | reference
  · rfl
  · rcases parts.findSome? Part.presence? with _ | flag
    · rfl
    · exact applyPresence_mapNumbers zero field reference flag _

/-- **Fields.** Numbers pass through the conditions of a field. -/
theorem fieldStep_mapNumbers (zero : ∀ n, (h n).isZero = n.isZero) (passes : below.Passes h)
    (cx : Context) (cls field key : String) (operands : Object) :
    fieldStep cx below cls field key (operands.map (Json.mapNumbers h)) =
      List.map (Edit.mapNumbers h) <$> fieldStep cx below cls field key operands := by
  unfold fieldStep
  have parts (entries : List (String × Json)) :
      (entries.map (Prod.map id (Json.mapNumbers h))).mapM
          (fun entry => part cx below cls field entry.1 entry.2) =
        List.map (Part.mapNumbers h) <$>
          entries.mapM fun entry => part cx below cls field entry.1 entry.2 :=
    Run.mapM_map_comm
      (fun entry => part_mapNumbers zero passes cx cls field entry.1 entry.2) entries
  simp only [conditions_mapNumbers, parts, assemble_mapNumbers zero,
    Part.flatMap_dottedEdits_mapNumbers, map_bind, bind_map_left]
  refine congrArg _ (funext fun _ => congrArg _ (funext fun entries => congrArg _
    (funext fun parts => congrArg _ (funext fun lowered => ?_))))
  -- No edit is added or dropped, so conditions move to dotted paths in both runs or in none.
  cases parts.flatMap Part.dottedEdits with
  | nil => simp [Edit.mapNumbers]
  | cons edit edits => simp

/-! ### Filters -/

theorem branches_mapNumbers (passes : below.Passes h) (cls : String) (combinator : Combinator)
    (value : Json) :
    branches below cls combinator (value.mapNumbers h) =
      Json.mapNumbers h <$> branches below cls combinator value := by
  cases value with
  | arr items =>
    rw [Json.mapNumbers_arr, branches, branches, Run.mapM_map_comm (passes.value cls),
      Functor.map_map, Functor.map_map]
    simp only [Json.mapNumbers_arr]
  | _ => simp [branches]

theorem entryStep_mapNumbers (passes : below.Passes h) (cls key : String) (value : Json) :
    entryStep below cls key (value.mapNumbers h) =
      List.map (Edit.mapNumbers h) <$> entryStep below cls key value := by
  unfold entryStep
  rcases Combinator.ofName? key with _ | combinator
  · cases value with
    | obj operands =>
      rw [Json.mapNumbers_obj]
      exact passes.field cls key key operands
    | _ => simp [Edit.mapNumbers]
  · simp only [branches_mapNumbers passes, map_bind, bind_map_left, map_pure]
    rfl

/-- **Filters.** Numbers pass through the entries of a filter. -/
theorem filterStep_mapNumbers (passes : below.Passes h) (cls : String) (filter : Object) :
    filterStep below cls (filter.map (Json.mapNumbers h)) =
      Dict.map (Json.mapNumbers h) <$> filterStep below cls filter := by
  unfold filterStep
  rw [Dict.toList_map, Run.mapM_map_comm fun entry =>
    entryStep_mapNumbers passes cls entry.1 entry.2]
  simp only [bind_map_left, map_bind, map_pure, Edit.build_mapNumbers, List.map_flatten]

end Steps

/-! ### Levels -/

/-- **Levels.** Numbers pass through what is lowered below any number of levels. -/
theorem belowAt_passes {h : Number → Number} (zero : ∀ n, (h n).isZero = n.isZero) (cx : Context)
    (levels : Nat) : (belowAt cx levels).Passes h := by
  induction levels with
  | zero =>
    -- Without a level both runs fail, whatever the numbers.
    exact ⟨fun _ _ => rfl, fun _ _ _ _ => rfl⟩
  | succ levels ih =>
    exact ⟨fun cls filter => filterStep_mapNumbers ih cls filter,
      fun cls field key operands => fieldStep_mapNumbers zero ih cx cls field key operands⟩

/-- **Numbers are opaque.** If zero stays apart from the other numbers, then replacing the numbers
of an input replaces the numbers of its query in the same way. An input that has no query has none
after that either, for the same reason, and the same is reported. -/
theorem lower_mapNumbers {h : Number → Number} (zero : ∀ n, (h n).isZero = n.isZero)
    (cx : Context) (cls : String) (input : Json) :
    (lower cx cls (input.mapNumbers h)).result =
        Json.mapNumbers h <$> (lower cx cls input).result ∧
      (lower cx cls (input.mapNumbers h)).events = (lower cx cls input).events := by
  have passes : lower cx cls (input.mapNumbers h) = Json.mapNumbers h <$> lower cx cls input :=
    (belowAt_passes zero cx cx.limit).value cls input
  rw [passes]
  exact ⟨Run.result_map .., Run.events_map ..⟩

/-! ### A filter with numbers in flags, coordinates and values -/

/-- Seven in place of every number but zero. -/
def sevens (n : Number) : Number := if n.isZero then n else .int 7

theorem isZero_sevens (n : Number) : (sevens n).isZero = n.isZero := by
  unfold sevens
  split
  · rfl
  · next other =>
    rw [Bool.eq_false_of_not_eq_true other]
    rfl

/-- The filter that asks for projects that have tasks of less than a rank, with a length in English
and a place of a latitude, whose type is zero. -/
def countedProject (flag rank length latitude : Number) : Json :=
  .obj (.ofList [
    ("tasks", .obj (.ofList [
      ("exists", .num flag),
      ("where", .obj (.singleton "rank" (.obj (.singleton "lessThan" (.num rank)))))])),
    ("length", .obj (.singleton "equalTo" (.obj (.ofList [
      ("key", .str "en"), ("value", .num length)])))),
    ("place", .obj (.singleton "point" (.obj (.ofList [
      ("__type", .num (.int 0)), ("latitude", .num latitude)]))))])

/-- The query of the filter, if the flag is not zero. -/
def countedProjectQuery (flag rank length latitude : Number) : Json :=
  .obj (.ofList [
    ("tasks", .obj (.singleton "where" (.obj (.ofList [
      ("objectId", .obj (.singleton "$exists" (.num flag))),
      ("rank", .obj (.singleton "$lt" (.num rank)))])))),
    ("length.en", .obj (.singleton "$eq" (.num length))),
    ("place", .obj (.singleton "$point" (.obj (.ofList [
      ("__type", .str "GeoPoint"), ("latitude", .num latitude)]))))])

/-- The query of the filter with sevens has sevens, and the zero is replaced in both. -/
theorem lower_countedProject_sevens :
    (∀ n, (sevens n).isZero = n.isZero) ∧
    (lower (.of projects .relay {}) "Project"
        (countedProject (.int 1) (.int 2) (.int 3) (.int (-4)))).result =
      .ok (countedProjectQuery (.int 1) (.int 2) (.int 3) (.int (-4))) ∧
    (lower (.of projects .relay {}) "Project"
        (countedProject (.int 7) (.int 7) (.int 7) (.int 7))).result =
      .ok (countedProjectQuery (.int 7) (.int 7) (.int 7) (.int 7)) ∧
    (lower (.of projects .relay {}) "Project"
        (countedProject (.int 7) (.int 7) (.int 7) (.int 7))).events =
      (lower (.of projects .relay {}) "Project"
        (countedProject (.int 1) (.int 2) (.int 3) (.int (-4)))).events := by
  have given : (lower (.of projects .relay {}) "Project"
      (countedProject (.int 1) (.int 2) (.int 3) (.int (-4)))).result =
        .ok (countedProjectQuery (.int 1) (.int 2) (.int 3) (.int (-4))) := by decide +kernel
  obtain ⟨result, events⟩ := lower_mapNumbers isZero_sevens (.of projects .relay {}) "Project"
    (countedProject (.int 1) (.int 2) (.int 3) (.int (-4)))
  have filter : (countedProject (.int 1) (.int 2) (.int 3) (.int (-4))).mapNumbers sevens =
      countedProject (.int 7) (.int 7) (.int 7) (.int 7) := rfl
  have query : (countedProjectQuery (.int 1) (.int 2) (.int 3) (.int (-4))).mapNumbers sevens =
      countedProjectQuery (.int 7) (.int 7) (.int 7) (.int 7) := rfl
  rw [given, filter] at result
  rw [filter] at events
  exact ⟨isZero_sevens, given, query ▸ result, events⟩

end Lowering

end FilterQuery
