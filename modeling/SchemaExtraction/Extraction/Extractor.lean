import SchemaExtraction.Engine.Selection
import SchemaExtraction.Extraction.Buffering
import SchemaExtraction.Extraction.Settings
import SchemaExtraction.Value.Merge

/-!
# Extraction

An extractor resolves schemas against documents. The scope of a schema is resolved to elements;
every element gives a record of the values of the schema's chains on it, to which the results of
the nested schemas on the same element are added. The steps of a chain are taken in order. The
elements are resolved side by side, as many at a time as the settings allow, and so are the chains
of an element and then its nested schemas; their order is that of the results, and decides which
failure ends the run.
-/

namespace SchemaExtraction

/-- An extractor: an engine for each format, a filter pipeline and settings. -/
structure Extractor (m : Type → Type) where
  structured : Engine m
  markup : Engine m
  pipeline : Pipeline m
  settings : Settings

/-- The options of a call. -/
structure Request (m : Type → Type) where
  schema : Option Schema
  /-- the reference context; what is not an object counts as empty -/
  reference : Value
  engine : Option (EngineChoice m)

namespace Extractor

variable {m : Type → Type}

/-- The engines of an extractor. -/
def engines (x : Extractor m) : Engines m := ⟨x.structured, x.markup, x.settings.defaultFormat⟩

/-! ## Chains of steps -/

variable [Monad m]

/-- The result of a collaborator as part of an extraction. -/
def lift {ε α : Type} (wrap : ε → ExtractionError) (call : m (Except ε α)) :
    ExceptT ExtractionError m α :=
  ExceptT.mk do return (← call).mapError wrap

/-- The value of the filtered field in the first record that comes back; null if it is missing. -/
def filteredValue (field : String) (records : List Value) : Value :=
  (records.head?.bind (·.get? field)).getD .null

/-- Sends a value through the filters of a step. -/
def filterValue (x : Extractor m) (v : Value) (step : Step) (reference : Value) :
    ExceptT ExtractionError m Value := do
  let field := x.settings.filterField
  let request := FilterRequest.ofField field step.filters reference
  return filteredValue field (← lift .filter (x.pipeline.exec [.obj [(field, v)]] request))

/-- The value of a step: what the engine finds, sent through the filters if there are any. -/
def evalStep (x : Extractor m) (engine : Engine m) (document : Value) (reference : Value)
    (step : Step) : ExceptT ExtractionError m Value := do
  let v ← lift .step (engine.resolve document step reference)
  if step.filters.isEmpty then return v else x.filterValue v step reference

/-- Takes the value of a step into the value of its chain: a fallback counts when the chain has
    nothing, other steps are combined with it. -/
def accumulate (acc : Value) (step : Step) (v : Value) : Value :=
  if step.fallback then if acc.truthy then acc else v else acc.merge v

/-- Runs the steps of a chain, all of them, from the value so far. -/
def foldSteps (x : Extractor m) (engine : Engine m) (document : Value) (reference : Value)
    (acc : Value) : List Step → ExceptT ExtractionError m Value
  | [] => pure acc
  | step :: steps => do
    let v ← x.evalStep engine document reference step
    foldSteps x engine document reference (accumulate acc step v) steps

/-- The value of a chain of steps. -/
def evalChain (x : Extractor m) (engine : Engine m) (document : Value) (reference : Value)
    (chain : List Step) : ExceptT ExtractionError m Value :=
  x.foldSteps engine document reference .null chain

/-! ## Records -/

/-- The elements that a scope resolved to: the items of a list, or the single value; those that
    do not count as present are dropped. -/
def elementsOf (resolved : Value) : List Value :=
  (match resolved with
    | .arr items => items
    | v => [v]).filter Value.truthy

/-- The tasks that give the values of the fields with chains on an element. -/
def leafTasks (x : Extractor m) (engine : Engine m) (element : Value) (reference : Value) :
    List (String × Field Schema) → List (ExceptT ExtractionError m (String × Value))
  | [] => []
  | (name, .steps chain) :: fields =>
    (do return (name, ← x.evalChain engine element reference chain)) ::
      leafTasks x engine element reference fields
  | (_, .nested _) :: fields => leafTasks x engine element reference fields

/-- The reference context of the schemas nested in an element. -/
def childReference (reference : List (String × Value)) (leaves : List (String × Value)) :
    List (String × Value) :=
  Entries.insert Reserved.parent (.obj leaves) reference

/-- The result of a schema: its records one by one, or one record with the last value of every
    key. -/
def collect (merged : Bool) (records : List (List (String × Value))) : Value :=
  if merged then .obj (records.foldl Entries.insertAll []) else .arr (records.map .obj)

variable [Buffering m]

mutual

/-- Resolves a schema against a document. -/
def extract (x : Extractor m) (engine : Engine m) (document : Value)
    (reference : List (String × Value)) : Schema → ExceptT ExtractionError m Value
  | ⟨scope, merged, fields⟩ =>
    if !document.truthy then pure .empty
    else if scope.isNone && !merged && fields.isEmpty then throw .noSchema
    else
      match scope with
      | some (step :: steps) => do
        let resolved ← x.evalChain engine document (.obj reference) (step :: steps)
        let limit := x.settings.concurrency
        let records ← buffered limit <| (elementsOf resolved).map fun element => do
          let leaves ← buffered limit (x.leafTasks engine element (.obj reference) fields)
          let children ← buffered limit
            (childTasks x engine element (childReference reference leaves) fields)
          return Entries.insertAll leaves children
        return collect merged records
      | _ => throw .noScope

/-- The tasks that give the results of the nested schemas of an element. -/
def childTasks (x : Extractor m) (engine : Engine m) (element : Value)
    (reference : List (String × Value)) :
    List (String × Field Schema) → List (ExceptT ExtractionError m (String × Value))
  | [] => []
  | (_, .steps _) :: fields => childTasks x engine element reference fields
  | (name, .nested schema) :: fields =>
    (do return (name, ← extract x engine element reference schema)) ::
      childTasks x engine element reference fields

end

/-! ## Calls -/

/-- Resolves the schema of a request against a document. A document that does not count as present
    gives the empty text. -/
def exec (x : Extractor m) (document : Value) (request : Request m) :
    ExceptT ExtractionError m Value :=
  if !document.truthy then pure .empty
  else
    match request.schema with
    | none => throw .noSchema
    | some schema =>
      let engine := x.engines.select document request.engine
      x.extract engine document request.reference.entriesOf schema

/-- Removes what some selectors match from a document. -/
def clean (x : Extractor m) (document : Value) (selectors : List String) :
    ExceptT ExtractionError m Value :=
  lift .step ((x.engines.select document none).clean document selectors)

omit [Buffering m]

/-! ## Starting and stopping

The collaborators are started together, and stopped together. Where they answer at once, this comes
to one after the other, up to the first failure.
-/

/-- Starts the pipeline and then both engines, up to the first failure. -/
def startAll (x : Extractor m) : ExceptT ExtractionError m Unit := do
  lift .filter x.pipeline.start
  lift .step x.structured.start
  lift .step x.markup.start

/-- Stops the pipeline and then both engines, up to the first failure. -/
def stopAll (x : Extractor m) : ExceptT ExtractionError m Unit := do
  lift .filter x.pipeline.stop
  lift .step x.structured.stop
  lift .step x.markup.stop

/-- Starts an extractor that is not started, and counts it as started whatever comes of it. -/
def start (x : Extractor m) (l : Lifecycle) : m (Except ExtractionError Unit × Lifecycle) := do
  let (first, l) := l.start
  if first then return (← x.startAll.run, l) else return (.ok (), l)

/-- Stops an extractor that is started, and counts it as stopped whatever comes of it. -/
def stop (x : Extractor m) (l : Lifecycle) : m (Except ExtractionError Unit × Lifecycle) := do
  let (first, l) := l.stop
  if first then return (← x.stopAll.run, l) else return (.ok (), l)

end Extractor
end SchemaExtraction
