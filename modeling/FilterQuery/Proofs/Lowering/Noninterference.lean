import FilterQuery.Proofs.Lowering.Simulation
import Mathlib.Tactic.SplitIfs

/-!
# Noninterference of the schema

Lowering a filter on a class asks the schema only for links, and only for those of classes that
links lead to from the class. Schemas that agree on them give the same events and the same result
(`lower_eq_of_link?_eq`). So nothing else of a schema can show in a query: not the order of the
classes, not permissions, indexes and required fields, not the types of plain fields, and no class
that cannot be reached.
-/

namespace FilterQuery

namespace Lowering

/-- **Noninterference.** Two schemas that agree on the links of all classes that can be reached
from a class lower every filter on the class in the same way. -/
theorem lower_eq_of_link?_eq {schema schema' : Schema} {cls : String}
    (agree : ∀ reached, schema.Reachable cls reached → ∀ field,
      schema.link? reached field = schema'.link? reached field)
    (codec : Codec) (options : Options) (input : Json) :
    lower (.of schema codec options) cls input = lower (.of schema' codec options) cls input := by
  -- Links do not leave the classes that can be reached: that is how they are reached.
  have alike : Context.Alike .equality (schema.Reachable cls) (.of schema codec options)
      (.of schema' codec options) :=
    ⟨fun _ _ => rfl, fun _ _ => rfl, agree, fun _ reach _ _ _ link => reach.step link⟩
  exact lower_rel_of_limit_eq alike .refl rfl rfl input

/-! ### Projects and their tasks -/

/-- Projects have tasks, and tasks belong to a project. -/
def projects : Schema where
  classes := [
    { name := "Project"
      fields := .ofList [
        ("tasks", .ofType .relation (some "Task")), ("title", { type := .string })] },
    { name := "Task"
      fields := .ofList [("project", .ofType .pointer (some "Project"))] },
    { name := "Note"
      fields := .ofList [("task", .ofType .pointer (some "Task"))] }]

/-- The same links between projects and tasks, in another order and with other details. -/
def projectsInDetail : Schema where
  classes := [
    { name := "Task"
      fields := .ofList [
        ("project", { type := .pointer, targetClass := some "Project", required := some true }),
        ("status", { type := .string })]
      permissions := some (.obj .nil) },
    { name := "Project"
      fields := .ofList [
        ("tasks", .ofType .relation (some "Task")), ("title", { type := .unknown })] }]

private theorem projects_link? {schema : Schema}
    (known : schema = projects ∨ schema = projectsInDetail) (field : String) :
    schema.link? "Project" field =
        (if field = "tasks" then some ⟨.relation, some "Task"⟩ else none) ∧
      schema.link? "Task" field =
        (if field = "project" then some ⟨.pointer, some "Project"⟩ else none) := by
  rcases known with rfl | rfl
  · have project : projects.field? "Project" field = if field = "tasks" then
        some (.ofType .relation (some "Task"))
      else if field = "title" then some { type := .string } else none := rfl
    have task : projects.field? "Task" field = if field = "project" then
        some (.ofType .pointer (some "Project")) else none := rfl
    rw [Schema.link?, Schema.reference?, project, Schema.link?, Schema.reference?, task]
    constructor <;> split_ifs <;> rfl
  · have project : projectsInDetail.field? "Project" field = if field = "tasks" then
        some (.ofType .relation (some "Task"))
      else if field = "title" then some { type := .unknown } else none := rfl
    have task : projectsInDetail.field? "Task" field = if field = "project" then
        some { type := .pointer, targetClass := some "Project", required := some true }
      else if field = "status" then some { type := .string } else none := rfl
    rw [Schema.link?, Schema.reference?, project, Schema.link?, Schema.reference?, task]
    constructor <;> split_ifs <;> rfl

/-- Only projects and tasks can be reached from projects. -/
private theorem eq_of_projects_reachable {reached : String}
    (reach : projects.Reachable "Project" reached) : reached = "Project" ∨ reached = "Task" := by
  induction reach with
  | refl => exact .inl rfl
  | @step middle field target type _ link ih =>
    obtain ⟨fromProject, fromTask⟩ := projects_link? (.inl rfl) field
    rcases ih with rfl | rfl
    · rw [fromProject] at link
      split at link <;> cases link
      exact .inr rfl
    · rw [fromTask] at link
      split at link <;> cases link
      exact .inl rfl

/-- The filter that asks for projects with a task in a project of a title. -/
def titledThroughTasks : Json :=
  .obj (.singleton "tasks" (.obj (.singleton "have" (.obj (.singleton "project" (.obj (.singleton
    "have" (.obj (.singleton "title" (.obj (.singleton "equalTo" (.str "Home"))))))))))))

/-- The two schemas agree on what can be reached from projects, and a filter that goes from
projects to tasks and back is lowered in the same way for both. -/
theorem lower_projects_eq_lower_projectsInDetail :
    (∀ reached, projects.Reachable "Project" reached → ∀ field,
        projects.link? reached field = projectsInDetail.link? reached field) ∧
      lower (.of projects .relay {}) "Project" titledThroughTasks =
        lower (.of projectsInDetail .relay {}) "Project" titledThroughTasks := by
  have agree : ∀ reached, projects.Reachable "Project" reached → ∀ field,
      projects.link? reached field = projectsInDetail.link? reached field := by
    intro reached reach field
    have here := projects_link? (.inl rfl) field
    have there := projects_link? (.inr rfl) field
    rcases eq_of_projects_reachable reach with rfl | rfl
    · exact here.1.trans there.1.symm
    · exact here.2.trans there.2.symm
  exact ⟨agree, lower_eq_of_link?_eq agree .relay {} titledThroughTasks⟩

end Lowering

end FilterQuery
