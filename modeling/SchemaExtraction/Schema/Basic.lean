import SchemaExtraction.Value.Basic

/-!
# Schemas

A schema says what to extract: the steps that locate the repeating elements (its scope), whether
the records of the elements are folded into one, and for every field either a chain of steps or a
schema nested in it.

Results:
* `Schema.same_iff`: the decision procedure for equality of schemas.
-/

namespace SchemaExtraction

/-- The use of a filter in a step. -/
structure FilterUse where
  /-- the name of the filter -/
  id : String
  /-- uses of a lower priority run first -/
  priority : Int32
  options : Option Value
deriving DecidableEq

/-- One instruction: read a value and filter it. -/
structure Step where
  /-- the path to read in the reference context -/
  reference : Option String
  /-- the locator to read in the document -/
  selector : Option String
  /-- the locator of what is taken out of the document first -/
  unselector : Option String
  /-- the property to read of what is found -/
  property : Option String
  /-- whether the step counts only when the chain has found nothing so far -/
  fallback : Bool
  filters : List FilterUse
deriving DecidableEq

/-- A field of a schema: a chain of steps or a nested schema. -/
inductive Field (σ : Type) where
  | steps (chain : List Step)
  | nested (schema : σ)

/-- Whether a field has a nested schema. -/
def Field.isNested {σ : Type} : Field σ → Bool
  | steps _ => false
  | nested _ => true

/-- A schema, its fields in key order. -/
structure Schema where
  scope : Option (List Step)
  merged : Bool
  fields : List (String × Field Schema)

/-! ## Reserved names -/

namespace Reserved

/-- The selector of the whole document. -/
def root : String := "$root"

/-- The property for the text of the first match. -/
def text : String := "$text"

/-- The property for the number of matches, items or characters. -/
def length : String := "$length"

/-- The key under which a nested schema finds the record of its element. -/
def parent : String := "$parent"

end Reserved

namespace FilterUse

/-- A use without options. -/
def new (id : String) (priority : Int32) : FilterUse := ⟨id, priority, none⟩

/-- Sets the options. -/
def withOptions (u : FilterUse) (options : Value) : FilterUse := { u with options := some options }

end FilterUse

namespace Step

/-- The step that says nothing. -/
def blank : Step := ⟨none, none, none, none, false, []⟩

/-- A step that reads a locator in the document. -/
def ofSelector (selector : String) : Step := { blank with selector := some selector }

/-- A step that reads a path in the reference context. -/
def ofReference (path : String) : Step := { blank with reference := some path }

/-- The step that reads the whole document. -/
def root : Step := ofSelector Reserved.root

/-- Reads a property of what is found. -/
def withProperty (s : Step) (property : String) : Step := { s with property := some property }

/-- Takes the matches of a locator out first. -/
def withUnselector (s : Step) (selector : String) : Step := { s with unselector := some selector }

/-- Makes the step a fallback. -/
def asFallback (s : Step) : Step := { s with fallback := true }

/-- Appends the use of a filter. -/
def withFilter (s : Step) (use : FilterUse) : Step := { s with filters := s.filters ++ [use] }

/-- Whether the step reads the whole document. -/
def isRoot (s : Step) : Bool := s.selector = some Reserved.root

end Step

namespace Schema

/-- The schema that says nothing. -/
def blank : Schema := ⟨none, false, []⟩

/-- A schema with a scope and no fields. -/
def ofScope (scope : List Step) : Schema := ⟨some scope, false, []⟩

/-- Sets a field to a chain of steps. -/
def withSteps (s : Schema) (name : String) (chain : List Step) : Schema :=
  { s with fields := Entries.insert name (.steps chain) s.fields }

/-- Sets a field to a nested schema. -/
def withNested (s : Schema) (name : String) (child : Schema) : Schema :=
  { s with fields := Entries.insert name (.nested child) s.fields }

/-- Asks for one record in place of a list. -/
def asMerged (s : Schema) : Schema := { s with merged := true }

/-- Whether the schema says nothing. -/
def isEmpty (s : Schema) : Bool := s.scope.isNone && !s.merged && s.fields.isEmpty

/-- The fields with chains of steps. -/
def leaves (s : Schema) : List (String × List Step) :=
  s.fields.filterMap fun
    | (name, .steps chain) => some (name, chain)
    | (_, .nested _) => none

/-- The fields with nested schemas. -/
def children (s : Schema) : List (String × Schema) :=
  s.fields.filterMap fun
    | (_, .steps _) => none
    | (name, .nested child) => some (name, child)

/-! ## Equality -/

mutual

/-- Whether two schemas are equal. -/
def same : Schema → Schema → Bool
  | ⟨scope, merged, fields⟩, ⟨scope', merged', fields'⟩ =>
    scope == scope' && merged == merged' && sameFields fields fields'

@[inherit_doc same]
def sameField : Field Schema → Field Schema → Bool
  | .steps chain, .steps chain' => chain == chain'
  | .nested s, .nested t => same s t
  | _, _ => false

@[inherit_doc same]
def sameFields : List (String × Field Schema) → List (String × Field Schema) → Bool
  | [], [] => true
  | (k, f) :: fs, (l, g) :: gs => k == l && sameField f g && sameFields fs gs
  | _, _ => false

end

mutual

theorem same_iff (s t : Schema) : same s t = true ↔ s = t := by
  cases s; cases t; simp [same, sameFields_iff, and_assoc]

theorem sameField_iff (f g : Field Schema) : sameField f g = true ↔ f = g := by
  cases f <;> cases g <;> simp [sameField, same_iff]

theorem sameFields_iff (fs gs : List (String × Field Schema)) :
    sameFields fs gs = true ↔ fs = gs := by
  cases fs <;> cases gs <;> simp [sameFields, sameField_iff, sameFields_iff, Prod.ext_iff]

end

instance : DecidableEq Schema := fun s t => decidable_of_iff _ (same_iff s t)

end Schema
end SchemaExtraction
