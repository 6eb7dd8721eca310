import SchemaExtraction.Extraction.Extractor
import SchemaExtraction.Schema.Wire

/-!
# The wire form of requests

A request is a record of a schema, a reference context and the format of the engine to use, each of
which may be missing.
-/

namespace SchemaExtraction

namespace Request

variable {m : Type → Type}

/-- The request for a schema with an empty reference context. -/
def ofSchema (schema : Schema) : Request m := ⟨some schema, .null, none⟩

/-- The request that says nothing. -/
def blank : Request m := ⟨none, .null, none⟩

/-- Sets the reference context. -/
def withReference (r : Request m) (reference : Value) : Request m :=
  { r with reference := reference }

/-- Asks for an engine. -/
def withEngine (r : Request m) (choice : EngineChoice m) : Request m :=
  { r with engine := some choice }

/-- Reads the parts of a request from its wire form. -/
def read? (v : Value) : Option (Request m) := do
  match ← Wire.record? ["schema", "ref", "engine"] v with
  | [schema, reference, engine] =>
    return ⟨← Wire.optional? Wire.schema? schema, Json.canonical (reference.getD .null),
      (← Wire.optional? Wire.format? engine).map .format⟩
  | _ => none

/-- Reads a request from its wire form. -/
def ofValue (v : Value) : Except ExtractionError (Request m) :=
  match read? v with
  | some r => .ok r
  | none => .error (.badSchema "not the wire form of a request")

end Request
end SchemaExtraction
