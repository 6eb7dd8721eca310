import SchemaExtraction.Format

/-!
# Settings of an extraction

Which format a document has when a call does not say, how much may be resolved at once, and the key
under which the value of a step goes through the filter pipeline.
-/

namespace SchemaExtraction

/-- The settings of an extractor. -/
structure Settings where
  /-- the format of documents; their form decides when there is none -/
  defaultFormat : Option Format
  /-- how many elements, and fields of an element, may be resolved at once -/
  maxConcurrency : UInt64
  /-- the key of the record that carries the value of a step through the filter pipeline -/
  filterField : String
deriving DecidableEq, Repr

namespace Settings

/-- The settings that hold unless others are given. -/
def standard : Settings := ⟨none, 16, "$filtered$"⟩

/-- The settings that resolve one element and one field at a time. -/
def sequential : Settings := { standard with maxConcurrency := 1 }

/-- How many tasks are under way at a time, at most. -/
def concurrency (s : Settings) : Nat := max s.maxConcurrency.toNat 1

/-- What is wrong with settings, if anything. -/
def fault? (s : Settings) : Option String :=
  if s.maxConcurrency = 0 then some "max_concurrency must be greater than 0"
  else if s.filterField = "" then some "filter_field must not be empty"
  else none

end Settings

/-- The settings of a filter registry. -/
structure FilterSettings where
  /-- whether an unknown filter is a failure -/
  strict : Bool
deriving DecidableEq, Repr

end SchemaExtraction
