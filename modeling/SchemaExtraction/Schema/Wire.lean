import SchemaExtraction.Format
import SchemaExtraction.Schema.Basic
import SchemaExtraction.Value.Json

/-!
# The wire form of schemas

Schemas, steps and filter uses as values and back. A record with named fields may also be written
as the list of its fields in their order, where trailing fields may be left out; names that the
record does not have are passed over, and a name that it has may not occur twice. What is absent,
false or empty is not written.
-/

namespace SchemaExtraction.Wire

/-! ## Reading records -/

/-- What a name holds in an object as it is written; nothing at all when it occurs twice. -/
def unique? (name : String) (entries : List (String × Value)) : Option (Option Value) :=
  match entries.filter (·.1 = name) with
  | [] => some none
  | [(_, v)] => some (some v)
  | _ => none

/-- What the named fields of a record hold, the record being an object or a list. -/
def record? (names : List String) : Value → Option (List (Option Value))
  | .obj entries => names.mapM (unique? · entries)
  | .arr items =>
    if items.length ≤ names.length then
      some (items.map some ++ List.replicate (names.length - items.length) none)
    else none
  | _ => none

/-- Reads an optional field: null counts as absent. -/
def optional? {α : Type} (read : Value → Option α) : Option Value → Option (Option α)
  | none => some none
  | some .null => some none
  | some v => (read v).map some

/-- Reads a field with a default for when it is absent. -/
def orDefault? {α : Type} (default : α) (read : Value → Option α) : Option Value → Option α
  | none => some default
  | some v => read v

/-- Reads a truth value. -/
def bool? : Value → Option Bool
  | .bool b => some b
  | _ => none

/-- Reads an integer of 32 bits. -/
def int32? : Value → Option Int32
  | .num (.int n) =>
    if -0x80000000 ≤ n.val ∧ n.val < 0x80000000 then some (Int32.ofInt n.val) else none
  | _ => none

/-- Reads an integer of 64 bits without a sign. -/
def uint64? : Value → Option UInt64
  | .num (.int n) => if 0 ≤ n.val then some (UInt64.ofNat n.val.toNat) else none
  | _ => none

/-- Reads a list. -/
def list? {α : Type} (read : Value → Option α) : Value → Option (List α)
  | .arr items => items.mapM read
  | _ => none

/-- Reads the tag of a format; it may stand as the only name of an object that holds null. -/
def format? : Value → Option Format
  | .str tag => Format.ofTag? tag
  | .obj [(tag, .null)] => Format.ofTag? tag
  | _ => none

/-! ## Reading schemas -/

/-- Reads the use of a filter. -/
def filterUse? (v : Value) : Option FilterUse := do
  match ← record? ["id", "priority", "opts"] v with
  | [some id, priority, options] =>
    return ⟨← id.text?, ← orDefault? 0 int32? priority,
      ← optional? (fun v => some (Json.canonical v)) options⟩
  | _ => none

/-- Reads a step. -/
def step? (v : Value) : Option Step := do
  match ← record? ["ref", "selector", "unselector", "prop", "or", "filters"] v with
  | [reference, selector, unselector, property, fallback, filters] =>
    return ⟨← optional? Value.text? reference, ← optional? Value.text? selector,
      ← optional? Value.text? unselector, ← optional? Value.text? property,
      ← orDefault? false bool? fallback, ← orDefault? [] (list? filterUse?) filters⟩
  | _ => none

/-- Reads a chain of steps. -/
def chain? : Value → Option (List Step) := list? step?

/-- The names that a schema keeps for itself. -/
def scopeName : String := "_scope"

@[inherit_doc scopeName]
def mergeName : String := "_merge"

mutual

/-- Reads a schema: an object whose own names hold a chain and a truth value, and every other
    name a chain or a schema. -/
def schema? : Value → Option Schema
  | .obj entries => do
    let scope ← optional? chain? (← unique? scopeName entries)
    let merged ← orDefault? false bool? (← unique? mergeName entries)
    return ⟨scope, merged, Entries.ofList (← fields? entries)⟩
  | _ => none

/-- Reads the fields of a schema. -/
def fields? : List (String × Value) → Option (List (String × Field Schema))
  | [] => some []
  | (name, v) :: es =>
    if name = scopeName ∨ name = mergeName then fields? es
    else do
      let f ← match v with
        | .arr items => (items.mapM step?).map Field.steps
        | _ => (schema? v).map Field.nested
      return (name, f) :: (← fields? es)

end

/-! ## Writing -/

/-- An entry that is written when there is something to write. -/
def optional (name : String) (v : Option Value) : List (String × Value) :=
  match v with
  | some v => [(name, v)]
  | none => []

/-- An entry for a flag, written when it is set. -/
def flag (name : String) (b : Bool) : List (String × Value) :=
  if b then [(name, .bool true)] else []

/-- A 32-bit integer as a value. -/
def ofInt32 (n : Int32) : Value := .num (.int (WordInt.clamp n.toInt))

/-- Writes the use of a filter. -/
def ofFilterUse (u : FilterUse) : Value :=
  .obj (Entries.ofList
    ([("id", .str u.id), ("priority", ofInt32 u.priority)] ++ optional "opts" u.options))

/-- Writes a step. -/
def ofStep (s : Step) : Value :=
  .obj (Entries.ofList
    (optional "ref" (s.reference.map .str) ++ optional "selector" (s.selector.map .str) ++
      optional "unselector" (s.unselector.map .str) ++ optional "prop" (s.property.map .str) ++
      flag "or" s.fallback ++
      if s.filters.isEmpty then [] else [("filters", .arr (s.filters.map ofFilterUse))]))

/-- Writes a chain of steps. -/
def ofChain (chain : List Step) : Value := .arr (chain.map ofStep)

mutual

/-- Writes a schema. A field with the name of one of the schema's own entries takes its place. -/
def ofSchema : Schema → Value
  | ⟨scope, merged, fields⟩ =>
    .obj (Entries.ofList
      (optional scopeName (scope.map ofChain) ++ flag mergeName merged ++ ofFields fields))

/-- Writes a field. -/
def ofField : Field Schema → Value
  | .steps chain => ofChain chain
  | .nested s => ofSchema s

/-- Writes the fields of a schema. -/
def ofFields : List (String × Field Schema) → List (String × Value)
  | [] => []
  | (name, f) :: fs => (name, ofField f) :: ofFields fs

end

/-- Reads a schema from JSON text. -/
def schemaOfJson? (text : String) : Option Schema := (Json.read text.toList).bind schema?

end SchemaExtraction.Wire
