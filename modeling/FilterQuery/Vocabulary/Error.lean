/-!
# Names outside the vocabulary

Filters are written with three kinds of reserved names: operators, combinators and the verbs of
reference fields. A name that is looked up as one of them and is none gives a `VocabularyError`.
-/

namespace FilterQuery

/-- **Unknown names.** The kind of word that was expected, and the name. -/
inductive VocabularyError
  /-- No operator has the name. -/
  | unknownOperator (name : String)
  /-- No combinator has the name. -/
  | unknownCombinator (name : String)
  /-- No verb has the name. -/
  | unknownVerb (name : String)
deriving DecidableEq, Repr

/-- The error in words. -/
def VocabularyError.message : VocabularyError → String
  | .unknownOperator name => s!"Unknown where operator: {name}"
  | .unknownCombinator name => s!"Unknown logical combinator: {name}"
  | .unknownVerb name => s!"Unknown relation verb: {name}"

end FilterQuery
