import SchemaExtraction.Filter.Basic
import SchemaExtraction.Text.Case
import SchemaExtraction.Text.Search
import SchemaExtraction.Value.Coercion
import SchemaExtraction.Value.Path

/-!
# Built-in filters

The filters that every registry can offer: conversions to numbers, text, truth values and
timestamps, case and blanks, defaults, replacement, splitting and joining.
-/

namespace SchemaExtraction.Filter

/-- Applies a function to a text, or to every text of a list. -/
def mapText (f : List Char → List Char) : Value → Value
  | .str s => .str (String.ofList (f s.toList))
  | .arr items => .arr (items.map fun
    | .str s => .str (String.ofList (f s.toList))
    | v => v)
  | v => v

/-- An option of the use, if it is there. -/
def option? (context : FilterContext) (name : String) : Option Value :=
  context.options.bind (·.get? name)

/-- The separator of lists written as text, a comma unless the options say otherwise. -/
def separator (context : FilterContext) : List Char :=
  match (option? context "separator").bind Value.text? with
  | some s => s.toList
  | none => [',']

/-! ## Conversions -/

/-- Turns truth values and what reads as a number into numbers, and the rest into null. -/
def toNumber : Filter := fun v _ =>
  .ok <| match v with
  | .null => .null
  | .bool b => .ofNat (if b then 1 else 0)
  | v => .ofBinary64? v.toNumber?

/-- Turns any value into its text. -/
def toText : Filter := fun v _ => .ok (.str v.toText)

/-- Turns any value into whether it is present. -/
def toBoolean : Filter := fun v _ => .ok (.bool v.truthy)

/-- The instant that a value means: RFC 3339 text, a plain date or milliseconds since 1970. -/
def timestamp? : Value → Option Time.Timestamp
  | .str s =>
    let cs := Text.trim s.toList
    (Time.readTimestamp cs).orElse fun _ => (Time.readDate cs).map .ofDate
  | .num (.int n) =>
    if n.val < 0x8000000000000000 then Time.Timestamp.ofMilliseconds? n.val else none
  | _ => none

/-- Turns what means an instant into RFC 3339 text in universal time, and the rest into null. -/
def toDate : Filter := fun v _ =>
  .ok <| match timestamp? v with
  | some t => .str (String.ofList t.write)
  | none => .null

/-! ## Text -/

/-- Cuts the blanks off the ends of a text. -/
def trim : Filter := fun v _ => .ok (mapText Text.trim v)

/-- Turns text into lower case. -/
def toLowerCase : Filter := fun v _ => .ok (mapText Text.toLower v)

/-- Turns text into upper case. -/
def toUpperCase : Filter := fun v _ => .ok (mapText Text.toUpper v)

/-- Puts the option `replacement` for each occurrence of the option `pattern`, which has to be a
    text. -/
def replace : Filter := fun v context =>
  match (option? context "pattern").bind Value.text? with
  | none => .error (.badOptions context.id "missing string option `pattern`")
  | some pattern =>
    let replacement := ((option? context "replacement").map Value.toText).getD ""
    .ok (mapText (Text.replace pattern.toList replacement.toList) v)

/-- Splits a text that is not empty at each separator. -/
def split : Filter := fun v context =>
  .ok <| match v with
  | .str s =>
    if s = "" then .str s
    else .arr ((Text.split (separator context) s.toList).map fun p => .str (String.ofList p))
  | v => v

/-- Joins the texts of the items of a list with the separator. -/
def join : Filter := fun v context =>
  .ok <| match v with
  | .arr items =>
    .str (String.ofList (Text.join (separator context) (items.map (·.toText.toList))))
  | v => v

/-! ## Defaults -/

/-- Replaces an absent value by what the option `ref` leads to in the reference context, or else by
    the option `value`; it stays when there is neither. -/
def default : Filter := fun v context =>
  .ok <|
    if v.truthy then v
    else
      match (option? context "ref").bind Value.text? with
      | some path => (Path.lookup? context.reference path).getD v
      | none => (option? context "value").getD v

/-- The built-in filters with their names. -/
def builtins : List (String × Filter) :=
  [("filter.toNumber", toNumber), ("filter.toString", toText), ("filter.toBoolean", toBoolean),
    ("filter.trim", trim), ("filter.toLowerCase", toLowerCase),
    ("filter.toUpperCase", toUpperCase), ("filter.toDate", toDate), ("filter.default", default),
    ("filter.replace", replace), ("filter.split", split), ("filter.join", join)]

end SchemaExtraction.Filter
