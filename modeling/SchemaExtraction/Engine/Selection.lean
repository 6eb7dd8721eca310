import SchemaExtraction.Engine.Basic
import SchemaExtraction.Format
import SchemaExtraction.Text.Quoted

/-!
# Choosing an engine

A call is served by the engine that it brings, else by the engine of the format that it asks for,
else by that of the default format, else by that of the format that its document suggests. An
engine that does not fit the document is used all the same.
-/

namespace SchemaExtraction

/-- The engine of each format, and the format of calls that do not say. -/
structure Engines (m : Type → Type) where
  structured : Engine m
  markup : Engine m
  defaultFormat : Option Format

/-- Which engine a call asks for. -/
inductive EngineChoice (m : Type → Type) where
  /-- the engine of a format, whatever the document looks like -/
  | format (f : Format)
  /-- an engine of the caller's own -/
  | engine (e : Engine m)

variable {m : Type → Type}

namespace Engines

/-- The engine of a format. -/
def ofFormat (es : Engines m) : Format → Engine m
  | .structured => es.structured
  | .markup => es.markup

/-- The engine that serves a call on a document. -/
def select (es : Engines m) (document : Value) : Option (EngineChoice m) → Engine m
  | some (.engine e) => e
  | some (.format f) => es.ofFormat f
  | none => es.ofFormat (es.defaultFormat.getD (Format.infer document))

end Engines

/-! ## Descriptions for developers -/

/-- A format as it is shown to a developer. -/
def Format.describe : Format → String
  | structured => "Structured"
  | markup => "Markup"

@[inherit_doc Format.describe]
def EngineChoice.describe : EngineChoice m → String
  | format f => "Kind(" ++ f.describe ++ ")"
  | engine e => "Engine(" ++ Text.quote e.name ++ ")"

@[inherit_doc Format.describe]
def Engines.describe (es : Engines m) : String :=
  "EngineSelector \x7b structured: " ++ Text.quote es.structured.name ++ ", markup: " ++
    Text.quote es.markup.name ++ ", default_kind: " ++
    (match es.defaultFormat with
      | some f => "Some(" ++ f.describe ++ ")"
      | none => "None") ++ " \x7d"

end SchemaExtraction
