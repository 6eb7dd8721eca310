import SchemaExtraction.Engine.Basic

/-!
# The engine for structured documents

Objects and lists are read by property paths. The length property counts the items of a list or
the characters of a text. Cleaning removes entries of an object by key and items of a list that
are one of the given texts.
-/

namespace SchemaExtraction.Structured

/-- The name of the engine. -/
def name : String := "structured"

/-- Whether a document is an object or a list. -/
def accepts : Value → Bool
  | .arr _ => true
  | .obj _ => true
  | _ => false

/-- The number of items of a list or of characters of a text; zero for the rest. -/
def lengthOf : Option Value → Nat
  | some (.arr items) => items.length
  | some (.str s) => s.length
  | _ => 0

/-- What a path leads to, or its length. -/
def select (document : Value) (selector : String) (property : Option String) : Value :=
  let found := Path.lookup? document selector
  if property = some Reserved.length then .ofNat (lengthOf found) else found.getD .null

/-- Resolves a step; a document of another kind gives the empty text. -/
def resolve (document : Value) (step : Step) (reference : Value) : Except StepError Value :=
  if accepts document then
    match Engine.plan name document step reference with
    | .ok (.resolved v) => .ok v
    | .ok (.select selector) => .ok (select document selector step.property)
    | .error e => .error e
  else .ok .empty

/-- Whether a value is one of some texts. -/
def isTextIn (texts : List String) : Value → Bool
  | .str s => texts.contains s
  | _ => false

/-- Removes entries by key, or texts from a list. -/
def clean (document : Value) (selectors : List String) : Value :=
  match document with
  | .obj entries => .obj (selectors.foldl (fun es key => Entries.erase key es) entries)
  | .arr items => .arr (items.filter fun v => !isTextIn selectors v)
  | v => v

/-- The engine. -/
def engine {m : Type → Type} [Monad m] : Engine m :=
  Engine.ofFunctions name resolve fun document selectors => .ok (clean document selectors)

end SchemaExtraction.Structured
