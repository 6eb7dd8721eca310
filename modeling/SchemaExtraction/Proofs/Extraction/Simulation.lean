import Mathlib.Data.List.Forall2
import SchemaExtraction.Extraction.Extractor

/-!
# Simulations

Extractors over different kinds of collaborators are compared by a relation between the parts of
their extractions. If parts that are put together in the same way are related whenever the parts
that they are made of are, then it is enough to compare the steps. The second extractor may be
given the steps in another form.

Results:
* `Schema.mapSteps_id`: a schema whose steps are left as they are.
* `Extractor.simulates_extract`: a schema has related results if its steps have.
* `Extractor.simulates_exec`, `Extractor.exec_congr`: the same for a request.
-/

namespace SchemaExtraction

/-! ## Schemas with other steps -/

namespace Schema

mutual

/-- A schema with all its steps changed, at every depth. -/
def mapSteps (f : Step → Step) : Schema → Schema
  | ⟨scope, merged, fields⟩ => ⟨scope.map (List.map f), merged, mapFields f fields⟩

@[inherit_doc mapSteps]
def mapFields (f : Step → Step) : List (String × Field Schema) → List (String × Field Schema)
  | [] => []
  | (name, .steps chain) :: fields => (name, .steps (chain.map f)) :: mapFields f fields
  | (name, .nested schema) :: fields => (name, .nested (mapSteps f schema)) :: mapFields f fields

end

/-- A schema that says nothing has no steps to change. -/
theorem isEmpty_mapSteps (f : Step → Step) (schema : Schema) :
    (schema.mapSteps f).isEmpty = schema.isEmpty := by
  obtain ⟨scope, merged, fields⟩ := schema
  have hfields : (mapFields f fields).isEmpty = fields.isEmpty := by
    match fields with
    | [] | (_, .steps _) :: _ | (_, .nested _) :: _ => rfl
  rw [mapSteps, isEmpty, isEmpty, Option.isNone_map, hfields]

mutual

theorem mapSteps_id (schema : Schema) : schema.mapSteps id = schema := by
  obtain ⟨scope, merged, fields⟩ := schema
  rw [mapSteps, mapFields_id fields, List.map_id_fun, Option.map_id_fun]
  rfl

theorem mapFields_id (fields : List (String × Field Schema)) : mapFields id fields = fields := by
  match fields with
  | [] => rfl
  | (name, .steps chain) :: fields => rw [mapFields, mapFields_id fields, List.map_id]
  | (name, .nested schema) :: fields => rw [mapFields, mapFields_id fields, mapSteps_id schema]

end

theorem map_mapSteps_id (schema : Option Schema) : schema.map (mapSteps id) = schema := by
  cases schema with
  | none => rfl
  | some schema => rw [Option.map_some, mapSteps_id]

end Schema

/-! ## Relations between extractions -/

/-- A relation between the parts of extractions over two kinds of collaborators, where so many
    tasks are under way at a time for the first kind, and so many for the second. -/
structure Simulation (m n : Type → Type) [Monad m] [Monad n] [Buffering m] [Buffering n]
    (limit limit' : Nat) where
  rel {α : Type} : ExceptT ExtractionError m α → ExceptT ExtractionError n α → Prop
  pure {α : Type} (a : α) : rel (pure a) (pure a)
  throw {α : Type} (e : ExtractionError) :
    rel (throw e : ExceptT ExtractionError m α) (throw e)
  bind {α β : Type} {p : ExceptT ExtractionError m α} {q : ExceptT ExtractionError n α}
    {f : α → ExceptT ExtractionError m β} {g : α → ExceptT ExtractionError n β} :
    rel p q → (∀ a, rel (f a) (g a)) → rel (p >>= f) (q >>= g)
  buffered {α : Type} {tasks : List (ExceptT ExtractionError m α)}
    {tasks' : List (ExceptT ExtractionError n α)} :
    List.Forall₂ rel tasks tasks' → rel (buffered limit tasks) (buffered limit' tasks')

/-- Equality is a simulation. -/
def Simulation.equality {m : Type → Type} [Monad m] [Buffering m] {limit limit' : Nat}
    (h : limit = limit') : Simulation m m limit limit' where
  rel := Eq
  pure _ := rfl
  throw _ := rfl
  bind := by
    rintro _ _ p _ f g rfl hf
    rw [funext hf]
  buffered := by
    intro _ tasks tasks' ht
    rw [List.forall₂_eq_eq_eq] at ht
    rw [ht, h]

namespace Extractor

variable {m n : Type → Type} [Monad m] [Monad n] [Buffering m] [Buffering n]

/-- Steps have related values for two extractors with an engine each, the second of which is given
    them in another form. -/
structure StepsAgree (x : Extractor m) (engine : Engine m) (y : Extractor n) (engine' : Engine n)
    (S : Simulation m n x.settings.concurrency y.settings.concurrency) (f : Step → Step) :
    Prop where
  fallback : ∀ step, (f step).fallback = step.fallback
  value : ∀ document reference step,
    S.rel (x.evalStep engine document reference step)
      (y.evalStep engine' document reference (f step))

/-- What a step adds to a chain depends on whether it is a fallback, and on its value. -/
theorem accumulate_congr {step step' : Step} (h : step'.fallback = step.fallback)
    (acc v : Value) : accumulate acc step' v = accumulate acc step v := by
  rw [accumulate, h]
  rfl

variable {x : Extractor m} {engine : Engine m} {y : Extractor n} {engine' : Engine n}
  {S : Simulation m n x.settings.concurrency y.settings.concurrency} {f : Step → Step}
  (h : StepsAgree x engine y engine' S f)
include h

theorem simulates_foldSteps (document reference acc : Value) (chain : List Step) :
    S.rel (x.foldSteps engine document reference acc chain)
      (y.foldSteps engine' document reference acc (chain.map f)) := by
  induction chain generalizing acc with
  | nil => exact S.pure acc
  | cons step steps ih =>
    refine S.bind (h.value document reference step) fun v => ?_
    rw [accumulate_congr (h.fallback step)]
    exact ih _

theorem simulates_leafTasks (element reference : Value) (fields : List (String × Field Schema)) :
    List.Forall₂ S.rel (x.leafTasks engine element reference fields)
      (y.leafTasks engine' element reference (Schema.mapFields f fields)) := by
  induction fields with
  | nil => exact .nil
  | cons field fields ih =>
    obtain ⟨name, chain | child⟩ := field
    · refine .cons ?_ ih
      exact S.bind (simulates_foldSteps h element reference .null chain) fun v => S.pure (name, v)
    · exact ih

omit h

mutual

theorem simulates_extract (h : StepsAgree x engine y engine' S f) (document : Value)
    (reference : List (String × Value)) (schema : Schema) :
    S.rel (x.extract engine document reference schema)
      (y.extract engine' document reference (schema.mapSteps f)) := by
  obtain ⟨scope, merged, fields⟩ := schema
  have hempty := Schema.isEmpty_mapSteps f ⟨scope, merged, fields⟩
  simp only [Schema.mapSteps, Schema.isEmpty] at hempty
  rw [Schema.mapSteps, extract.eq_def, extract.eq_def]
  simp only [hempty]
  split
  · exact S.pure _
  split
  · exact S.throw _
  match scope with
  | none | some [] => exact S.throw _
  | some (step :: steps) =>
    refine S.bind (simulates_foldSteps h document _ .null (step :: steps)) fun resolved => ?_
    refine S.bind (S.buffered ?_) fun records => S.pure _
    rw [List.forall₂_map_left_iff, List.forall₂_map_right_iff, List.forall₂_same]
    intro element _
    refine S.bind (S.buffered (simulates_leafTasks h element _ fields)) fun leaves => ?_
    exact S.bind (S.buffered (simulates_childTasks h element _ fields)) fun children => S.pure _

theorem simulates_childTasks (h : StepsAgree x engine y engine' S f) (element : Value)
    (reference : List (String × Value)) (fields : List (String × Field Schema)) :
    List.Forall₂ S.rel (x.childTasks engine element reference fields)
      (y.childTasks engine' element reference (Schema.mapFields f fields)) := by
  match fields with
  | [] => exact .nil
  | (name, .steps chain) :: fields => exact simulates_childTasks h element reference fields
  | (name, .nested schema) :: fields =>
    refine .cons ?_ (simulates_childTasks h element reference fields)
    exact S.bind (simulates_extract h element reference schema) fun v => S.pure (name, v)

end

/-- A request has related results if the steps have, for the engines that serve it. -/
theorem simulates_exec {document : Value} {choice : Option (EngineChoice m)}
    {choice' : Option (EngineChoice n)}
    (h : StepsAgree x (x.engines.select document choice) y (y.engines.select document choice') S f)
    (schema : Option Schema) (reference : Value) :
    S.rel (x.exec document ⟨schema, reference, choice⟩)
      (y.exec document ⟨schema.map (Schema.mapSteps f), reference, choice'⟩) := by
  unfold exec
  split
  · exact S.pure _
  · cases schema with
    | none => exact S.throw _
    | some schema => exact simulates_extract h document reference.entriesOf schema

/-- Two extractors with the same engines do the same if they do the same for every step. -/
theorem exec_congr {x y : Extractor m} (he : x.engines = y.engines)
    (hc : x.settings.concurrency = y.settings.concurrency)
    (h : ∀ engine document reference step,
      x.evalStep engine document reference step = y.evalStep engine document reference step)
    (document : Value) (request : Request m) :
    x.exec document request = y.exec document request := by
  have hsteps : StepsAgree x (x.engines.select document request.engine) y
      (y.engines.select document request.engine) (.equality hc) id := by
    refine ⟨fun _ => rfl, fun document reference step => ?_⟩
    rw [he]
    exact h _ document reference step
  have hexec : _ = _ := simulates_exec hsteps request.schema request.reference
  rwa [Schema.map_mapSteps_id] at hexec

end Extractor
end SchemaExtraction
