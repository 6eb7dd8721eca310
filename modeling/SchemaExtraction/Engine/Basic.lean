import SchemaExtraction.Error
import SchemaExtraction.Filter.Basic
import SchemaExtraction.Value.Coercion
import SchemaExtraction.Value.Path

/-!
# Engines and pipelines

An engine resolves single steps against documents of one format, and a filter pipeline filters
records. Both work in a monad `m` that stands for whatever state they keep; an engine that keeps
none is given by two functions.
-/

namespace SchemaExtraction

/-- Resolves steps against documents of one format. -/
structure Engine (m : Type → Type) where
  name : String
  /-- resolves a step against a document with a reference context -/
  resolve : (document : Value) → Step → (reference : Value) → m (Except StepError Value)
  /-- removes what some selectors match from a document -/
  clean : (document : Value) → (selectors : List String) → m (Except StepError Value)
  start : m (Except StepError Unit)
  stop : m (Except StepError Unit)

/-- Filters the fields of records. -/
structure Pipeline (m : Type → Type) where
  exec : List Value → FilterRequest → m (Except FilterError (List Value))
  start : m (Except FilterError Unit)
  stop : m (Except FilterError Unit)

namespace Engine

/-- The engine without state that answers by two functions and always starts and stops. -/
def ofFunctions {m : Type → Type} [Monad m] (name : String)
    (resolve : Value → Step → Value → Except StepError Value)
    (clean : Value → List String → Except StepError Value) : Engine m where
  name := name
  resolve document step reference := pure (resolve document step reference)
  clean document selectors := pure (clean document selectors)
  start := pure (.ok ())
  stop := pure (.ok ())

/-! ## Steps that need no document format -/

/-- What can be said of a step before its document is looked into. -/
inductive Plan where
  /-- the step has this value -/
  | resolved (v : Value)
  /-- the step needs this locator -/
  | select (selector : String)

/-- Plans a step: it has either a reference path, which is looked up, or a selector, which may be
    that of the whole document. -/
def plan (engine : String) (document : Value) (step : Step) (reference : Value) :
    Except StepError Plan :=
  match step.reference, step.selector with
  | none, none => .error (.noSource engine)
  | some _, some _ => .error (.twoSources engine)
  | some path, none => .ok (.resolved ((Path.lookup? reference path).getD .null))
  | none, some selector =>
    .ok (if step.isRoot then .resolved document else .select selector)

end Engine

namespace Pipeline

/-- The pipeline without state that answers by a function and always starts and stops. -/
def ofFunction {m : Type → Type} [Monad m]
    (exec : List Value → FilterRequest → Except FilterError (List Value)) : Pipeline m where
  exec records request := pure (exec records request)
  start := pure (.ok ())
  stop := pure (.ok ())

end Pipeline

/-! ## Starting and stopping -/

/-- Whether something has been started and not stopped since. -/
structure Lifecycle where
  started : Bool
deriving DecidableEq, Repr

namespace Lifecycle

/-- The state of what was never started. -/
def fresh : Lifecycle := ⟨false⟩

/-- Starts; the first component is whether this call did it. -/
def start (l : Lifecycle) : Bool × Lifecycle := (!l.started, ⟨true⟩)

/-- Stops; the first component is whether this call did it. -/
def stop (l : Lifecycle) : Bool × Lifecycle := (l.started, ⟨false⟩)

end Lifecycle
end SchemaExtraction
