import SchemaExtraction.Extraction.Extractor

/-!
# Collaborators in other surroundings

The calls of collaborators can be made in another way than their own: next to a state that they do
not know of, or all at once where they would suspend. An extractor whose collaborators suspend runs
in surroundings that give the turns to the tasks under way.
-/

namespace SchemaExtraction

variable {m n : Type → Type}

/-- An engine whose calls are made in another way. -/
def Engine.hoist (f : {α : Type} → m α → n α) (e : Engine m) : Engine n where
  name := e.name
  resolve document step reference := f (e.resolve document step reference)
  clean document selectors := f (e.clean document selectors)
  start := f e.start
  stop := f e.stop

/-- A pipeline whose calls are made in another way. -/
def Pipeline.hoist (f : {α : Type} → m α → n α) (p : Pipeline m) : Pipeline n where
  exec records request := f (p.exec records request)
  start := f p.start
  stop := f p.stop

/-- A choice of an engine whose calls are made in another way. -/
def EngineChoice.hoist (f : {α : Type} → m α → n α) : EngineChoice m → EngineChoice n
  | format form => format form
  | engine e => engine (e.hoist f)

/-- A request whose engine is called in another way. -/
def Request.hoist (f : {α : Type} → m α → n α) (r : Request m) : Request n :=
  ⟨r.schema, r.reference, r.engine.map (EngineChoice.hoist f)⟩

namespace Extractor

/-- An extractor whose collaborators are called in another way. -/
def hoist (f : {α : Type} → m α → n α) (x : Extractor m) : Extractor n where
  structured := x.structured.hoist f
  markup := x.markup.hoist f
  pipeline := x.pipeline.hoist f
  settings := x.settings

/-- The engine of such an extractor that serves a call is the one that serves it otherwise. -/
theorem select_hoist (f : {α : Type} → m α → n α) (x : Extractor m) (document : Value)
    (choice : Option (EngineChoice m)) :
    (x.hoist f).engines.select document (choice.map (EngineChoice.hoist f)) =
      (x.engines.select document choice).hoist f := by
  have ofFormat (form : Format) :
      (x.hoist f).engines.ofFormat form = (x.engines.ofFormat form).hoist f := by
    cases form <;> rfl
  match choice with
  | some (.engine e) => rfl
  | some (.format form) => exact ofFormat form
  | none => exact ofFormat _

/-- Serves a request with collaborators that may suspend. -/
def execAsync {σ : Type} (x : Extractor (Async σ)) (document : Value)
    (request : Request (Async σ)) : ExceptT ExtractionError (Async (Scheduled σ)) Value :=
  (x.hoist Async.scheduled).exec document (request.hoist Async.scheduled)

/-- The engine that serves a call may as well be brought by the call. -/
theorem execAsync_select {σ : Type} (x : Extractor (Async σ)) (document : Value)
    (request : Request (Async σ)) :
    x.execAsync document
        { request with engine := some (.engine (x.engines.select document request.engine)) } =
      x.execAsync document request := by
  have hselect := select_hoist Async.scheduled x document request.engine
  change exec _ document ⟨_, _, some (.engine ((x.engines.select _ _).hoist Async.scheduled))⟩ = _
  rw [← hselect]
  rfl

end Extractor
end SchemaExtraction
