import SchemaExtraction.Extraction.Settings
import SchemaExtraction.Schema.Wire
import SchemaExtraction.Toml.Reader

/-!
# The text of settings

Settings are kept as TOML documents and as JSON values. A key that is missing has its standard
value, and keys that are not known are passed over. TOML has no integers beyond 63 bits, so
settings with such a number cannot be written.
-/

namespace SchemaExtraction

namespace Toml

/-- Reads a key with a default for when it is missing. -/
def orDefault? {α : Type} (default : α) (read : Item → Option α) : Option Item → Option α
  | none => some default
  | some v => read v

/-- Reads a truth value. -/
def boolean? : Item → Option Bool
  | .boolean b => some b
  | _ => none

/-- Reads a string. -/
def string? : Item → Option String
  | .string s => some s
  | _ => none

/-- Reads an integer without a sign. -/
def natural? : Item → Option UInt64
  | .integer n => if 0 ≤ n then some (UInt64.ofNat n.toNat) else none
  | _ => none

/-- Whether an array or a table is empty. -/
def isEmpty : Item → Bool
  | .array items => items.isEmpty
  | .table _ entries => entries.isEmpty
  | _ => false

/-- Reads the tag of a format: a string, or a table with the tag as its only key. The key holds an
    array or a table without content. -/
def format? : Item → Option Format
  | .string tag => Format.ofTag? tag
  | .table _ [(tag, v)] => if isEmpty v then Format.ofTag? tag else none
  | _ => none

/-- A line that sets a key. -/
def line (key : String) (value : List Char) : String :=
  key ++ " = " ++ String.ofList value ++ "\n"

end Toml

namespace Settings

/-- The key of the default format, of the concurrency and of the filter field. -/
def formatKey : String := "default_engine"

@[inherit_doc formatKey]
def concurrencyKey : String := "max_concurrency"

@[inherit_doc formatKey]
def fieldKey : String := "filter_field"

/-- Reads settings from a TOML document. -/
def ofToml? (text : String) : Option Settings := do
  let doc ← Toml.read text
  return {
    defaultFormat := ← Toml.orDefault? none (Toml.format? · |>.map some) (Toml.find? formatKey doc)
    maxConcurrency :=
      ← Toml.orDefault? standard.maxConcurrency Toml.natural? (Toml.find? concurrencyKey doc)
    filterField := ← Toml.orDefault? standard.filterField Toml.string? (Toml.find? fieldKey doc) }

/-- Writes settings as a TOML document. -/
def toToml? (s : Settings) : Option String :=
  if s.maxConcurrency.toNat < 0x8000000000000000 then
    some ((match s.defaultFormat with
        | some f => Toml.line formatKey (Toml.writeString f.tag)
        | none => "") ++
      Toml.line concurrencyKey (decimalDigits s.maxConcurrency.toNat) ++
      Toml.line fieldKey (Toml.writeString s.filterField))
  else none

/-- Reads settings from their wire form. -/
def ofValue? (v : Value) : Option Settings := do
  match ← Wire.record? [formatKey, concurrencyKey, fieldKey] v with
  | [format, concurrency, field] =>
    return ⟨← Wire.optional? Wire.format? format,
      ← Wire.orDefault? standard.maxConcurrency Wire.uint64? concurrency,
      ← Wire.orDefault? standard.filterField Value.text? field⟩
  | _ => none

/-- Writes the wire form of settings. -/
def toValue (s : Settings) : Value :=
  .obj (Entries.ofList
    (Wire.optional formatKey (s.defaultFormat.map fun f => .str f.tag) ++
      [(concurrencyKey,
          .num (.int (WordInt.ofNat s.maxConcurrency.toNat s.maxConcurrency.toNat_lt))),
        (fieldKey, .str s.filterField)]))

end Settings

namespace FilterSettings

/-- The key of strictness. -/
def strictKey : String := "strict"

/-- Reads settings from a TOML document. -/
def ofToml? (text : String) : Option FilterSettings := do
  let doc ← Toml.read text
  return ⟨← Toml.orDefault? false Toml.boolean? (Toml.find? strictKey doc)⟩

/-- Writes settings as a TOML document. -/
def toToml (s : FilterSettings) : String :=
  Toml.line strictKey (if s.strict then "true".toList else "false".toList)

/-- Reads settings from their wire form. -/
def ofValue? (v : Value) : Option FilterSettings := do
  match ← Wire.record? [strictKey] v with
  | [strict] => return ⟨← Wire.orDefault? false Wire.bool? strict⟩
  | _ => none

/-- Writes the wire form of settings. -/
def toValue (s : FilterSettings) : Value := .obj [(strictKey, .bool s.strict)]

end FilterSettings
end SchemaExtraction
