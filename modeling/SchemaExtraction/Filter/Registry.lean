import SchemaExtraction.Filter.Builtin
import SchemaExtraction.Text.Quoted

/-!
# Filter registries

A registry holds filters by name. It runs the filters of a use list in ascending priority, uses of
one priority in the order in which they are written, and passes over an unknown name unless it is
strict.
-/

namespace SchemaExtraction

/-- Filters by name, in key order, and whether an unknown name is a failure. -/
structure Registry where
  filters : List (String × Filter)
  strict : Bool

namespace Registry

/-- A registry without filters. -/
def new (strict : Bool) : Registry := ⟨[], strict⟩

/-- Sets the filter of a name. -/
def register (r : Registry) (id : String) (filter : Filter) : Registry :=
  { r with filters := Entries.insert id filter r.filters }

/-- Adds the built-in filters. -/
def registerBuiltins (r : Registry) : Registry :=
  { r with filters := Entries.insertAll r.filters Filter.builtins }

/-- The built-in filters. -/
def withBuiltins (strict : Bool) : Registry := (new strict).registerBuiltins

/-- Whether a name has a filter. -/
def contains (r : Registry) (id : String) : Bool := (Entries.get? id r.filters).isSome

/-- The names, in order. -/
def ids (r : Registry) : List String := Entries.keys r.filters

/-- A registry as it is shown to a developer. -/
def describe (r : Registry) : String :=
  "FilterRegistry \x7b filters: [" ++ String.intercalate ", " (r.ids.map Text.quote) ++
    "], config: FilterConfig \x7b strict: " ++ (if r.strict then "true" else "false") ++
    " \x7d \x7d"

/-! ## Running filters -/

/-- Filter uses in ascending priority; uses of one priority keep their order. -/
def byPriority (uses : List FilterUse) : List FilterUse :=
  uses.mergeSort fun a b => a.priority.toInt ≤ b.priority.toInt

/-- Runs one use on a value. -/
def applyUse (r : Registry) (reference : Value) (v : Value) (use : FilterUse) :
    Except FilterError Value :=
  match Entries.get? use.id r.filters with
  | some filter => filter v ⟨use.id, use.options, reference⟩
  | none => if r.strict then .error (.unknownFilter use.id) else .ok v

/-- Runs uses on a value, in the order given, up to the first failure. -/
def applyAll (r : Registry) (reference : Value) : Value → List FilterUse → Except FilterError Value
  | v, [] => .ok v
  | v, use :: uses =>
    match r.applyUse reference v use with
    | .ok w => applyAll r reference w uses
    | .error e => .error e

/-- Runs uses on a value by priority. -/
def apply (r : Registry) (v : Value) (uses : List FilterUse) (reference : Value) :
    Except FilterError Value :=
  r.applyAll reference v (byPriority uses)

/-- Filters the named fields of a record; an absent field counts as null. -/
def filterEntries (r : Registry) (reference : Value) (entries : List (String × Value)) :
    List (String × List FilterUse) → Except FilterError (List (String × Value))
  | [] => .ok entries
  | (field, uses) :: rest =>
    match r.apply ((Entries.get? field entries).getD .null) uses reference with
    | .ok v => filterEntries r reference (Entries.insert field v entries) rest
    | .error e => .error e

/-- Filters a record; what is not an object is left alone. -/
def filterRecord (r : Registry) (request : FilterRequest) : Value → Except FilterError Value
  | .obj entries => (r.filterEntries request.reference entries request.uses).map .obj
  | v => .ok v

/-- Filters every record, up to the first failure. -/
def exec (r : Registry) (request : FilterRequest) : List Value → Except FilterError (List Value)
  | [] => .ok []
  | v :: vs =>
    match r.filterRecord request v with
    | .ok w => (exec r request vs).map (w :: ·)
    | .error e => .error e

end Registry
end SchemaExtraction
