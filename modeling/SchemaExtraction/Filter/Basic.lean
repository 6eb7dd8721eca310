import SchemaExtraction.Error
import SchemaExtraction.Schema.Basic

/-!
# Filters

A filter turns a value into another one and may fail. It sees the name that it was used under, the
options of the use and the reference context of the step.
-/

namespace SchemaExtraction

/-- What a filter sees besides the value. -/
structure FilterContext where
  id : String
  options : Option Value
  reference : Value

/-- A filter. -/
abbrev Filter := Value → FilterContext → Except FilterError Value

/-- What a pipeline is asked to do with each record: the filters of some fields, in key order, and
    the reference context. -/
structure FilterRequest where
  uses : List (String × List FilterUse)
  reference : Value
deriving DecidableEq

namespace FilterRequest

/-- The request that filters a single field. -/
def ofField (field : String) (uses : List FilterUse) (reference : Value) : FilterRequest :=
  ⟨[(field, uses)], reference⟩

end FilterRequest
end SchemaExtraction
