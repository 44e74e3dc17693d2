import FilterQuery.Dict.Lemmas
import FilterQuery.Identifier.Document
import FilterQuery.Main
import FilterQuery.Proofs.Lowering.Noninterference
import FilterQuery.Proofs.Lowering.Renaming.Steps
import FilterQuery.Proofs.Lowering.Strictness
import FilterQuery.Proofs.Text.Base64
import FilterQuery.Proofs.Identifier
import FilterQuery.Proofs.Lowering.Levels
import FilterQuery.Proofs.Lowering.Steps
import FilterQuery.Proofs.Lowering.Subqueries
import FilterQuery.Proofs.Dict
import FilterQuery.Proofs.Lowering.Siblings
import FilterQuery.Proofs.Lowering.Combinators
import FilterQuery.Proofs.Options
import FilterQuery.Proofs.Schema.Names
import FilterQuery.Proofs.Session
import FilterQuery.Proofs.Json.Document
import FilterQuery.Proofs.Schema.Document
import FilterQuery.Proofs.Json.Numbers
import FilterQuery.Proofs.Lowering.Numbers
import FilterQuery.Proofs.Command
import FilterQuery.Proofs.Lowering.References.Query
import FilterQuery.Proofs.Lowering.References.Presence
import FilterQuery.Proofs.Lowering.DottedPaths
import FilterQuery.Proofs.Lowering.References.Verbs
import FilterQuery.Proofs.Geo
import FilterQuery.Proofs.Lowering.Keys
import FilterQuery.Proofs.Lowering.ObjectIds
import FilterQuery.Proofs.Lowering.Identifiers
import FilterQuery.Proofs.Options.Overrides
import FilterQuery.Proofs.Lowering.Flattening
import FilterQuery.Proofs.Lowering.Unscoped
import FilterQuery.Proofs.Lowering.Sites
import FilterQuery.Proofs.Identifier.Refusal
import FilterQuery.Proofs.Operand.Shapes
import FilterQuery.Proofs.Lowering.Idempotence
import FilterQuery.Proofs.Lowering.Coordinates
