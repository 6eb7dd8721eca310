import SchemaExtraction.Text.Blank
import SchemaExtraction.Time.Timestamp
import SchemaExtraction.Value.Json

/-!
# Loose readings of a value

A value counts as present unless it is null, false, zero or the empty text. Numbers and text that
looks like one take part in arithmetic, timestamps are recognised by their form, and every value
has a plain text.
-/

namespace SchemaExtraction.Value

/-- Whether a value counts as present. -/
def truthy : Value → Bool
  | null => false
  | bool b => b
  | num (.int n) => n.val != 0
  | num (.float x) => !x.isZero
  | str s => s != ""
  | arr _ => true
  | obj _ => true

/-- The number that a number or a text means. Blank text means zero; other values and text that
    is not a finite number mean none. -/
def toNumber? : Value → Option Binary64
  | num n => some n.toBinary64
  | str s =>
    let cs := Text.trim s.toList
    if cs.isEmpty then some (Binary64.zero false) else NumberText.readFinite cs
  | _ => none

/-- A number as a value, an integer if possible. -/
def ofBinary64 (x : Binary64) : Value := num (Number.ofBinary64 x)

/-- A sum or a reading as a value; null when it is out of range. -/
def ofBinary64? : Option Binary64 → Value
  | some x => ofBinary64 x
  | none => null

/-- Whether a value is the text of a timestamp. -/
def dateLike : Value → Bool
  | str s => (Time.readTimestamp s.toList).isSome
  | _ => false

/-- The plain text of a value: text as it is, nothing for null, and JSON for the rest. -/
def toText : Value → String
  | null => ""
  | str s => s
  | v => String.ofList (Json.write v)

end SchemaExtraction.Value
