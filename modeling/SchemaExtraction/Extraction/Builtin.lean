import SchemaExtraction.Engine.Markup
import SchemaExtraction.Engine.Structured
import SchemaExtraction.Extraction.Extractor
import SchemaExtraction.Filter.Recorder
import SchemaExtraction.Filter.Registry

/-!
# The built-in extractor

A registry of filters serves as a pipeline, and so does a recorder of calls. With the engines of the
library and the built-in filters, unknown ones being passed over, a registry makes an extractor.
-/

namespace SchemaExtraction

variable {m : Type → Type} [Monad m]

/-- The pipeline that runs the filters of a registry. -/
def Registry.pipeline (r : Registry) : Pipeline m :=
  Pipeline.ofFunction fun records request => r.exec request records

/-- The pipeline that returns the records that it is given, once it has noted the call. -/
def Pipeline.recording (note : FilterCall → m Unit) : Pipeline m where
  exec records request := do
    note ⟨records, request⟩
    return .ok records
  start := pure (.ok ())
  stop := pure (.ok ())

/-- The extractor of the built-in engines and filters. -/
def Extractor.builtin (settings : Settings) : Extractor m where
  structured := Structured.engine
  markup := Markup.engine
  pipeline := (Registry.withBuiltins false).pipeline
  settings := settings

end SchemaExtraction
