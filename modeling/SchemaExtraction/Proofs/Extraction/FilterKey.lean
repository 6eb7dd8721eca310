import SchemaExtraction.Extraction.Builtin
import SchemaExtraction.Proofs.Extraction.Agreement

/-!
# The key of filtered values

The value of a step goes through the filter pipeline in a record of its own, under a key that the
settings give. A registry takes the value out, filters it and puts it back, so that nothing of the
record is left in the value of the step, whatever the key is.

Results:
* `Registry.exec_ofField`: what a registry makes of a record with a single field.
* `Extractor.evalStep_registry`: the value of a step over a registry.
* `Extractor.exec_filterField`: the key makes no difference.
-/

namespace SchemaExtraction

namespace Registry

theorem apply_nil (r : Registry) (v reference : Value) : r.apply v [] reference = .ok v := by
  rw [apply, byPriority, List.mergeSort_nil, applyAll]

/-- A record with a single field has the filtered value in the place of the value. -/
theorem exec_ofField (r : Registry) (field : String) (uses : List FilterUse)
    (reference v : Value) :
    r.exec (.ofField field uses reference) [.obj [(field, v)]] =
      (r.apply v uses reference).map fun w => [.obj [(field, w)]] := by
  have hget : Entries.get? field [(field, v)] = some v := by simp [Entries.get?]
  have hinsert (w : Value) : Entries.insert field w [(field, v)] = [(field, w)] := by
    simp [Entries.insert]
  rw [exec, filterRecord, FilterRequest.ofField, filterEntries, hget, Option.getD_some]
  cases r.apply v uses reference with
  | error e => rfl
  | ok w =>
    simp only [filterEntries, hinsert]
    rfl

end Registry

namespace Extractor

variable {σ : Type}

/-- A collaborator without state answers at once. -/
theorem lift_pure {m : Type → Type} [Monad m] [LawfulMonad m] {ε α : Type}
    (wrap : ε → ExtractionError) (answer : Except ε α) :
    lift wrap (pure answer : m (Except ε α)) = ExceptT.mk (pure (answer.mapError wrap)) :=
  congrArg ExceptT.mk (pure_bind _ _)

theorem filteredValue_single (field : String) (v : Value) :
    filteredValue field [.obj [(field, v)]] = v := by
  simp [filteredValue, Value.get?, Entries.get?]

/-- Over a registry a step has the value that the filters of the step make of what the engine
    finds. -/
theorem evalStep_registry {m : Type → Type} [Monad m] [LawfulMonad m] {x : Extractor m}
    {r : Registry} (hx : x.pipeline = r.pipeline) (engine : Engine m)
    (document reference : Value) (step : Step) :
    x.evalStep engine document reference step = (do
      let raw ← lift .step (engine.resolve document step reference)
      lift .filter (pure (r.apply raw step.filters reference))) := by
  rw [evalStep]
  -- the engine is asked the same, so what becomes of its answer is compared
  congr 1
  funext raw
  split
  case isTrue hf =>
    rw [List.isEmpty_iff.1 hf, Registry.apply_nil, lift_pure]
    rfl
  case isFalse =>
    have hexec : x.pipeline.exec [.obj [(x.settings.filterField, raw)]]
        (.ofField x.settings.filterField step.filters reference) =
        pure (r.exec (.ofField x.settings.filterField step.filters reference)
          [.obj [(x.settings.filterField, raw)]]) := by
      rw [hx]
      rfl
    rw [filterValue, hexec, Registry.exec_ofField, lift_pure, lift_pure]
    cases r.apply raw step.filters reference with
    | error e => exact congrArg ExceptT.mk (pure_bind _ _)
    | ok w =>
      change (pure [.obj [(x.settings.filterField, w)]] >>= fun records =>
        pure (filteredValue x.settings.filterField records)) = pure w
      rw [pure_bind, filteredValue_single]

/-- The key under which values go through a registry makes no difference to what an extractor does,
    and every step has the value that its filters make of what the engine finds. -/
theorem exec_filterField (x : Extractor (StateM σ)) (r : Registry) (field field' : String) :
    let filtering key : Extractor (StateM σ) :=
      { x with pipeline := r.pipeline, settings := { x.settings with filterField := key } }
    (∀ document request,
      (filtering field).exec document request = (filtering field').exec document request) ∧
    ∀ engine document reference step,
      (filtering field).evalStep engine document reference step = (do
        let raw ← lift .step (engine.resolve document step reference)
        lift .filter (pure (r.apply raw step.filters reference)) : Run σ Value) := by
  intro filtering
  have hstep key engine document reference step :=
    (filtering key).evalStep_registry (r := r) rfl engine document reference step
  refine ⟨exec_congr rfl rfl fun engine document reference step => ?_, hstep field⟩
  rw [hstep, hstep]

end Extractor
end SchemaExtraction
