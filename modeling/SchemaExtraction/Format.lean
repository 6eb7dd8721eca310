import SchemaExtraction.Text.Case
import SchemaExtraction.Value.Basic

/-!
# Document formats

A document is structured, made of objects and lists, or it is markup, text of HTML.

Results:
* `Format.ofName?_tag`: the tag of a format names it.
-/

namespace SchemaExtraction

/-- The format of a document. -/
inductive Format where
  | structured
  | markup
deriving DecidableEq, Repr

namespace Format

/-- The tag of a format on the wire. -/
def tag : Format → String
  | structured => "json"
  | markup => "html"

/-- The format that a tag or a name means, in any case. -/
def ofName? (name : String) : Option Format :=
  let lower := String.ofList (Text.toLower name.toList)
  if lower = "json" ∨ lower = "structured" then some structured
  else if lower = "html" ∨ lower = "markup" then some markup
  else none

/-- The format with exactly this tag. -/
def ofTag? (tag : String) : Option Format :=
  if tag = structured.tag then some structured
  else if tag = markup.tag then some markup
  else none

/-- The format that the form of a document suggests: text is markup. -/
def infer : Value → Format
  | .str _ => markup
  | _ => structured

theorem ofName?_tag (f : Format) : ofName? f.tag = some f := by
  cases f <;> decide +kernel

end Format
end SchemaExtraction
