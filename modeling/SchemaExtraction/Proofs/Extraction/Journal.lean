import SchemaExtraction.Proofs.Extraction.Agreement

/-!
# Journals

The calls that the collaborators of an extractor receive are noted in a journal, each with its
answer, next to whatever state the collaborators keep.

Results:
* `Extractor.exec_watched`: watching the collaborators changes neither what a call gives nor the
  state that it leaves.
-/

namespace SchemaExtraction

/-- Who receives a call: the pipeline, the engine of a format, or an engine of the caller's own. -/
inductive Party where
  | pipeline
  | engine (f : Format)
  | guest
deriving DecidableEq, Repr

/-- A call with its answer. -/
inductive Event where
  | resolved (who : Party) (document : Value) (step : Step) (reference : Value)
      (answer : Except StepError Value)
  | cleaned (who : Party) (document : Value) (selectors : List String)
      (answer : Except StepError Value)
  | filtered (records : List Value) (request : FilterRequest)
      (answer : Except FilterError (List Value))
  | started (who : Party) (success : Bool)
  | stopped (who : Party) (success : Bool)

/-- The state of collaborators, and the calls that they have received. -/
structure Watched (σ : Type) where
  state : σ
  journal : List Event

variable {σ α β : Type}

/-- Makes a call and notes it. -/
def watch (event : α → Event) (call : StateM σ α) : StateM (Watched σ) α :=
  modifyGet fun w =>
    let (a, s) := call.run w.state
    (a, ⟨s, w.journal ++ [event a]⟩)

/-- Whether a call succeeded. -/
def succeeded {ε : Type} (answer : Except ε Unit) : Bool := answer.toBool

namespace Engine

/-- An engine whose calls are noted. -/
def watched (who : Party) (e : Engine (StateM σ)) : Engine (StateM (Watched σ)) where
  name := e.name
  resolve document step reference :=
    watch (.resolved who document step reference) (e.resolve document step reference)
  clean document selectors := watch (.cleaned who document selectors) (e.clean document selectors)
  start := watch (.started who <| succeeded ·) e.start
  stop := watch (.stopped who <| succeeded ·) e.stop

end Engine

namespace Pipeline

/-- A pipeline whose calls are noted. -/
def watched (p : Pipeline (StateM σ)) : Pipeline (StateM (Watched σ)) where
  exec records request := watch (.filtered records request) (p.exec records request)
  start := watch (.started .pipeline <| succeeded ·) p.start
  stop := watch (.stopped .pipeline <| succeeded ·) p.stop

end Pipeline

/-- A choice of a watched engine. -/
def EngineChoice.watched : EngineChoice (StateM σ) → EngineChoice (StateM (Watched σ))
  | format f => format f
  | engine e => engine (e.watched .guest)

/-- A request with its engine watched. -/
def Request.watched (r : Request (StateM σ)) : Request (StateM (Watched σ)) :=
  ⟨r.schema, r.reference, r.engine.map EngineChoice.watched⟩

namespace Extractor

/-- An extractor with its collaborators watched. -/
def watched (x : Extractor (StateM σ)) : Extractor (StateM (Watched σ)) where
  structured := x.structured.watched (.engine .structured)
  markup := x.markup.watched (.engine .markup)
  pipeline := x.pipeline.watched
  settings := x.settings

/-- The calls that are made when a request is served. -/
def journal (x : Extractor (StateM σ)) (document : Value) (request : Request (StateM σ)) (s : σ) :
    List Event :=
  (Run.after (x.watched.exec document request.watched) ⟨s, []⟩).journal

/-- Who serves a call: the engine that it brings, else that of the format that it asks for, else
    that of the default format, else that of the format that the document suggests. -/
def server {m : Type → Type} (x : Extractor m) (document : Value) :
    Option (EngineChoice m) → Party
  | some (.engine _) => .guest
  | some (.format f) => .engine f
  | none => .engine (x.settings.defaultFormat.getD (Format.infer document))

/-- The engine of a watched extractor that serves a call is the one that serves it without a
    watch. -/
theorem select_watched (x : Extractor (StateM σ)) (document : Value)
    (choice : Option (EngineChoice (StateM σ))) :
    x.watched.engines.select document (choice.map EngineChoice.watched) =
      (x.engines.select document choice).watched (x.server document choice) := by
  have ofFormat (f : Format) :
      x.watched.engines.ofFormat f = (x.engines.ofFormat f).watched (.engine f) := by
    cases f <;> rfl
  match choice with
  | some (.engine e) => rfl
  | some (.format f) => exact ofFormat f
  | none => exact ofFormat _

end Extractor

/-! ## Watching changes nothing -/

namespace Run

/-- A part over watched collaborators does what another one does without a watch. -/
def Shadows (q : Run (Watched σ) α) (p : Run σ α) : Prop :=
  ∀ w, q.outcome w = p.outcome w.state ∧ (q.after w).state = p.after w.state

/-- A watched call gives a value or fails, and notes which. -/
theorem watch_cases {ε : Type} (wrap : ε → ExtractionError) (event : Except ε α → Event)
    (call : StateM σ (Except ε α)) (w : Watched σ) :
    let part : Run (Watched σ) α := Extractor.lift wrap (SchemaExtraction.watch event call)
    (∃ a, part.outcome w = .ok a ∧ (part.after w).journal = w.journal ++ [event (.ok a)]) ∨
      ∃ e, part.outcome w = .error (wrap e) ∧
        (part.after w).journal = w.journal ++ [event (.error e)] := by
  intro part
  have ho : part.outcome w = (call.run w.state).1.mapError wrap := rfl
  have hj : (part.after w).journal = w.journal ++ [event (call.run w.state).1] := rfl
  rw [ho, hj]
  cases (call.run w.state).1 with
  | ok a => exact Or.inl ⟨a, rfl, rfl⟩
  | error e => exact Or.inr ⟨e, rfl, rfl⟩

theorem agrees_watch {ε : Type} (wrap : ε → ExtractionError) (event : Except ε α → Event)
    (call : StateM σ (Except ε α)) :
    Agrees (fun (w : Watched σ) s => w.state = s) (Extractor.lift wrap (watch event call))
      (Extractor.lift wrap call) := by
  rintro w _ rfl
  exact ⟨rfl, rfl⟩

end Run

namespace Extractor

variable (x : Extractor (StateM σ))

/-- A step has the value that it has without a watch, and leaves the same state. -/
theorem stepsAgree_watched (engine : Engine (StateM σ)) (who : Party) :
    StepsAgree x.watched (engine.watched who) x engine
      (Run.simulation (fun w s => w.state = s) _ _) id := by
  refine ⟨fun _ => rfl, fun document reference step => ?_⟩
  rw [id]
  refine Run.Agrees.bind (Run.agrees_watch _ _ _) fun v => ?_
  split
  · exact Run.Agrees.pure v
  · exact Run.Agrees.bind (Run.agrees_watch _ _ _) fun records => Run.Agrees.pure _

theorem exec_watched (document : Value) (request : Request (StateM σ)) :
    Run.Shadows (x.watched.exec document request.watched) (x.exec document request) := by
  have hsteps : StepsAgree x.watched
      (x.watched.engines.select document request.watched.engine) x
      (x.engines.select document request.engine) (Run.simulation (fun w s => w.state = s) _ _)
      id := by
    rw [Request.watched, select_watched]
    exact x.stepsAgree_watched _ _
  intro w
  have hexec := simulates_exec hsteps request.schema request.reference w w.state rfl
  rwa [Schema.map_mapSteps_id] at hexec

end Extractor
end SchemaExtraction
