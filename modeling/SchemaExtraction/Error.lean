/-!
# Failures

What can go wrong while a step is resolved, while a filter runs and while a schema is extracted,
and the message for each.
-/

namespace SchemaExtraction

/-- Why an engine cannot resolve a step. -/
inductive StepError where
  /-- the step has neither a reference path nor a selector -/
  | noSource (engine : String)
  /-- the step has both a reference path and a selector -/
  | twoSources (engine : String)
  /-- a selector cannot be read -/
  | badSelector (selector reason : String)
deriving DecidableEq, Repr

/-- Why a filter pipeline fails. -/
inductive FilterError where
  | unknownFilter (id : String)
  | badOptions (id reason : String)
  /-- any other failure -/
  | failed (reason : String)
deriving DecidableEq, Repr

/-- Why an extraction fails. -/
inductive ExtractionError where
  | noSchema
  | noScope
  /-- the schema does not have the form of one -/
  | badSchema (reason : String)
  /-- the settings do not allow a run -/
  | badSettings (reason : String)
  | step (error : StepError)
  | filter (error : FilterError)
deriving DecidableEq, Repr

namespace StepError

/-- The message of a failure. -/
def message : StepError → String
  | noSource engine =>
    "NO_REF_AND_SELECTOR: " ++ engine ++ " engine received a step without `ref` or `selector`"
  | twoSources engine =>
    "REF_AND_SELECTOR: " ++ engine ++ " engine received a step with both `ref` and `selector`"
  | badSelector selector reason => "INVALID_SELECTOR: `" ++ selector ++ "`: " ++ reason

end StepError

namespace FilterError

@[inherit_doc StepError.message]
def message : FilterError → String
  | unknownFilter id => "UNKNOWN_FILTER: " ++ id
  | badOptions id reason => "Invalid options for " ++ id ++ ": " ++ reason
  | failed reason => "Filter pipeline error: " ++ reason

end FilterError

namespace ExtractionError

@[inherit_doc StepError.message]
def message : ExtractionError → String
  | noSchema => "EMPTY_SCHEMA: no schema supplied"
  | noScope => "EMPTY_SCHEMA_SCOPE: schema has no `_scope`"
  | badSchema reason => "Invalid schema: " ++ reason
  | badSettings reason => "Configuration error: " ++ reason
  | step e => e.message
  | filter e => e.message

end ExtractionError
end SchemaExtraction
