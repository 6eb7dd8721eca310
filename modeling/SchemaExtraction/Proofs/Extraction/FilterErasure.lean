import SchemaExtraction.Proofs.Extraction.FilterKey
import SchemaExtraction.Proofs.Extraction.Receipts

/-!
# Extraction without filters

A recording pipeline gives the records back as it gets them, and a registry without filters leaves
every value as it is. Over both of them a schema has the same result. Once its filters are taken
out, it has one result over all pipelines, and this is the same again unless the engine looks at the
filters of a step. The calls that are recorded can be read off what the engine has found: each value
that it finds for a step with filters makes one.

Results:
* `Registry.apply_new`: a registry without filters leaves values alone.
* `Extractor.exec_withoutFilters`: what is left of an extraction without filters.
* `Extractor.execAsync_recording`: the results of an extraction over a recording pipeline, and the
  calls that are recorded.
* `Extractor.execAsync_recording_nosy`: an engine that looks at filters.
-/

namespace SchemaExtraction

variable {m : Type → Type} {σ : Type}

/-! ## Schemas without their filters -/

/-- A step with its filters taken out. -/
def Step.withoutFilters (s : Step) : Step := { s with filters := [] }

/-- A schema with the filters of all its steps taken out, at every depth. -/
def Schema.withoutFilters (schema : Schema) : Schema := schema.mapSteps Step.withoutFilters

/-- A request with the filters of its schema taken out. -/
def Request.withoutFilters (r : Request m) : Request m :=
  { r with schema := r.schema.map Schema.withoutFilters }

/-- An engine that is shown steps without their filters. -/
def Engine.withoutFilters (e : Engine m) : Engine m :=
  { e with resolve := fun document step reference =>
      e.resolve document step.withoutFilters reference }

/-- An engine that answers as if steps had no filters, which are the business of the pipeline. -/
def Engine.IgnoresFilters (e : Engine m) : Prop :=
  ∀ document step reference,
    e.withoutFilters.resolve document step reference = e.resolve document step reference

theorem Engine.IgnoresFilters.withoutFilters_eq {e : Engine m} (h : e.IgnoresFilters) :
    e.withoutFilters = e := by
  have hresolve : e.withoutFilters.resolve = e.resolve :=
    funext fun document => funext fun step => funext fun reference => h document step reference
  exact congrArg (fun resolve => { e with resolve }) hresolve

theorem Structured.engine_ignoresFilters [Monad m] :
    (Structured.engine : Engine m).IgnoresFilters := fun _ _ _ => rfl

theorem Markup.engine_ignoresFilters [Monad m] :
    (Markup.engine : Engine m).IgnoresFilters := fun _ _ _ => rfl

namespace Registry

theorem applyAll_new (reference v : Value) (uses : List FilterUse) :
    (new false).applyAll reference v uses = .ok v := by
  induction uses with
  | nil => rfl
  | cons use uses ih => exact ih

/-- A registry without filters leaves values alone if it passes over unknown filters. -/
theorem apply_new (v : Value) (uses : List FilterUse) (reference : Value) :
    (new false).apply v uses reference = .ok v := applyAll_new reference v _

end Registry

/-! ## Recording -/

/-- An extractor over another pipeline. -/
def Extractor.over (x : Extractor m) (pipeline : Pipeline m) : Extractor m := { x with pipeline }

/-- A call that is made next to another state, which it leaves alone. -/
def Async.beside {ρ α : Type} (call : Async σ α) : Async (σ × ρ) α :=
  call.within Prod.fst fun w s => (s, w.2)

/-- An extractor with a recording pipeline, which is used through a handle. -/
def Extractor.recording (x : Extractor (Async σ)) (handle : Nat) :
    Extractor (Async (σ × Recorders)) :=
  (x.hoist Async.beside).over <| Pipeline.recording fun call =>
    .act (fun w => (w.1, w.2.record handle call)) fun _ => .done ()

/-! ## What is recorded -/

/-- A step for which an engine has found a value. -/
structure Evaluation where
  step : Step
  reference : Value
  raw : Value

/-- The evaluation that a call is part of; none if the engine has failed. -/
def Event.evaluation? : Event → Option Evaluation
  | resolved _ _ step reference (.ok raw) => some ⟨step, reference, raw⟩
  | _ => none

/-- The call to the pipeline that an evaluation leads to; none if the step has no filters. -/
def Evaluation.filterCall? (field : String) (e : Evaluation) : Option FilterCall :=
  if e.step.filters.isEmpty then none
  else some ⟨[.obj [(field, e.raw)]], .ofField field e.step.filters e.reference⟩

/-- The calls to the pipeline that the evaluations in a journal lead to, in their order. -/
def filterCalls (field : String) (journal : List Event) : List FilterCall :=
  (journal.filterMap Event.evaluation?).filterMap (Evaluation.filterCall? field)

theorem filterCalls_append (field : String) (journal journal' : List Event) :
    filterCalls field (journal ++ journal') =
      filterCalls field journal ++ filterCalls field journal' := by
  rw [filterCalls, List.filterMap_append, List.filterMap_append]
  rfl

theorem filterCalls_found (field : String) (who : Party) (document : Value) (step : Step)
    (reference raw : Value) :
    filterCalls field [.resolved who document step reference (.ok raw)] =
      if step.filters.isEmpty then []
      else [⟨[.obj [(field, raw)]], .ofField field step.filters reference⟩] := by
  have h : [Event.resolved who document step reference (.ok raw)].filterMap Event.evaluation? =
    [⟨step, reference, raw⟩] := rfl
  rw [filterCalls, h]
  cases hf : step.filters.isEmpty <;> simp [Evaluation.filterCall?, hf]

theorem filterCalls_filtered (field : String) (records : List Value) (request : FilterRequest)
    (answer : Except FilterError (List Value)) :
    filterCalls field [.filtered records request answer] = [] := rfl

/-- The state of collaborators with a recorder, whose log has grown by what the evaluations in the
    journal lead to, and the state of the same collaborators without one. -/
structure KeepsUp (field : String) (handle : Nat) (earlier : List FilterCall)
    (w : Attended (σ × Recorders)) (s : σ) : Prop where
  state : w.state.1 = s
  inUse : w.state.2.InUse handle
  calls : w.state.2.calls handle = earlier ++ filterCalls field (answersIn w.history)

/-- A call that is received. -/
theorem KeepsUp.received {field : String} {handle : Nat} {earlier : List FilterCall}
    {w : Attended (σ × Recorders)} {s : σ} (h : KeepsUp field handle earlier w s)
    (receipt : Receipt) :
    KeepsUp field handle earlier { w with history := w.history ++ [.received receipt] } s := by
  refine ⟨h.state, h.inUse, ?_⟩
  rw [answersIn_received]
  exact h.calls

/-- An answer that leads to no call to the pipeline. -/
theorem KeepsUp.noted {field : String} {handle : Nat} {earlier : List FilterCall}
    {w : Attended (σ × Recorders)} {s : σ} (h : KeepsUp field handle earlier w s) {e : Event}
    (he : filterCalls field [e] = []) :
    KeepsUp field handle earlier { w with history := w.history ++ [.answered e] } s := by
  refine ⟨h.state, h.inUse, ?_⟩
  rw [answersIn_answered, filterCalls_append, he, List.append_nil]
  exact h.calls

namespace Extractor

/-- Over a registry without filters a step has the value that the engine finds. -/
theorem evalStep_lenient [Monad m] [LawfulMonad m] (x : Extractor m) (engine : Engine m)
    (document reference : Value) (step : Step) :
    (x.over (Registry.new false).pipeline).evalStep engine document reference step =
      lift .step (engine.resolve document step reference) := by
  have h := evalStep_registry (x := x.over (Registry.new false).pipeline) rfl engine document
    reference step
  simp only [Registry.apply_new, lift_pure] at h
  exact h.trans (bind_pure _)

/-- Over a recorder a step has the value that the engine finds, too. The call that it makes to the
    pipeline is recorded after the answer of the engine has been noted. -/
theorem alike_evalStep_recording (x : Extractor (Async σ)) (engine : Engine (Async σ)) (who : Party)
    (handle : Nat) (earlier : List FilterCall) (document reference : Value) (step : Step) :
    Async.Alike (KeepsUp x.settings.filterField handle earlier)
      ((x.recording handle).attended.evalStep ((engine.hoist Async.beside).attended who) document
        reference step).run
      ((x.over (Registry.new false).pipeline).evalStep engine document reference step).run := by
  rw [evalStep_run, evalStep_lenient]
  have hcall : Async.Alike (KeepsUp x.settings.filterField handle earlier)
      ((engine.resolve document step reference).beside.within Attended.state
        fun w s => { w with state := s }) (engine.resolve document step reference) := by
    rw [Async.beside, Async.within_within]
    exact Async.alike_within (fun _ _ h => h.state) (fun _ _ _ h => ⟨rfl, h.inUse, h.calls⟩) _
  refine Async.alike_attend (fun _ _ h => h.received _) hcall fun answer w s h => ?_
  -- an error, or a step without filters, makes no call; else the call that is recorded is noted
  cases answer with
  | error e => exact .done (h.noted rfl) _
  | ok raw =>
    dsimp only
    split
    case isTrue hf =>
      refine .done (h.noted ?_) _
      rw [filterCalls_found, if_pos hf]
    case isFalse hf =>
      -- the recorder receives the call, notes it and answers
      refine .left (.left (.left ?_))
      change Async.Lockstep _ _ (pure (Except.ok (filteredValue _ [.obj [(_, raw)]]))) _ _
      rw [filteredValue_single]
      refine .done ⟨h.state, Recorders.inUse_record h.inUse _ _, ?_⟩ (Except.ok raw)
      change (w.state.2.record handle _).calls handle = earlier ++ filterCalls _
        (answersIn (w.history ++ [.answered _] ++ [.received _] ++ [.answered _]))
      rw [Recorders.calls_record h.inUse, h.calls, answersIn_answered, answersIn_received,
        answersIn_answered, filterCalls_append, filterCalls_append, filterCalls_found, if_neg hf,
        filterCalls_filtered, List.append_nil, List.append_assoc]
      rfl

/-- Without its filters a schema has the same result over every pipeline: that of the schema over
    pipelines that leave values alone, if the engine is shown the steps without their filters. -/
theorem exec_withoutFilters [Monad m] [LawfulMonad m] [Buffering m] (x : Extractor m)
    (document : Value) (request : Request m) (pipeline : Pipeline m) :
    let engine := (x.engines.select document request.engine).withoutFilters
    (x.over pipeline).exec document request.withoutFilters =
      (x.over (Registry.new false).pipeline).exec document
        { request with engine := some (.engine engine) } := by
  intro engine
  let lenient := x.over (Registry.new false).pipeline
  have hsteps : StepsAgree lenient (lenient.engines.select document (some (.engine engine)))
      (x.over pipeline) ((x.over pipeline).engines.select document request.engine) (.equality rfl)
      Step.withoutFilters := by
    refine ⟨fun _ => rfl, fun document reference step => ?_⟩
    rw [evalStep_lenient, (x.over pipeline).evalStep_of_filters_eq_nil _ _ _ rfl]
    rfl
  have hexec : _ = _ := simulates_exec hsteps request.schema request.reference
  exact hexec.symm

/-- The same for collaborators that may suspend. -/
theorem execAsync_withoutFilters (x : Extractor (Async σ)) (document : Value)
    (request : Request (Async σ)) (pipeline : Pipeline (Async σ)) :
    let engine := (x.engines.select document request.engine).withoutFilters
    (x.over pipeline).execAsync document request.withoutFilters =
      (x.over (Registry.new false).pipeline).execAsync document
        { request with engine := some (.engine engine) } := by
  intro engine
  have h := exec_withoutFilters (x.hoist Async.scheduled) document
    (request.hoist Async.scheduled) (pipeline.hoist Async.scheduled)
  simp only [Request.hoist, select_hoist] at h
  exact h

/-- An extraction over a recorder has the result that it has over a registry without filters. The
    schema without its filters has one result over all pipelines, which is again the same if the
    engine does not look at filters. A call is recorded for each value that the engine finds for a
    step with filters, in the order of the answers of the engine. -/
theorem execAsync_recording (x : Extractor (Async σ)) (document : Value)
    (request : Request (Async σ)) (w : Scheduled σ) {rs : Recorders} {handle : Nat}
    (hr : rs.InUse handle) :
    let recorder := x.recording handle
    let request' := request.hoist Async.beside
    let start : Scheduled (σ × Recorders) := ⟨(w.state, rs), w.schedule⟩
    let recorded := recorder.execAsync document request'
    Async.outcome ((x.over (Registry.new false).pipeline).execAsync document request) w =
      Async.outcome recorded start ∧
    (∀ pipeline pipeline', (x.over pipeline).execAsync document request.withoutFilters =
      (x.over pipeline').execAsync document request.withoutFilters) ∧
    ((x.engines.select document request.engine).IgnoresFilters → ∀ pipeline,
      Async.outcome ((x.over pipeline).execAsync document request.withoutFilters) w =
        Async.outcome recorded start) ∧
    (Async.after recorded start).state.2.calls handle = rs.calls handle ++ filterCalls
      x.settings.filterField (answersIn (recorder.history document request' start)) := by
  intro recorder request' start recorded
  have hselect : recorder.attended.engines.select document request'.attended.engine =
      ((x.engines.select document request.engine).hoist Async.beside).attended
        (recorder.server document request'.engine) :=
    (select_attended recorder document request'.engine).trans
      (congrArg (Engine.attended _) (select_hoist Async.beside x document request.engine))
  have hsteps := fun element reference step => by
    have h := x.alike_evalStep_recording (x.engines.select document request.engine)
      (recorder.server document request'.engine) handle (rs.calls handle) element reference step
    rwa [← hselect] at h
  have hkeeps : KeepsUp x.settings.filterField handle (rs.calls handle) ⟨start.state, []⟩
      w.state := ⟨rfl, hr, (List.append_nil _).symm⟩
  have hserve := alike_execAsync (x := recorder.attended)
    (y := x.over (Registry.new false).pipeline) rfl hsteps request.schema request.reference
  obtain ⟨houtcome, ⟨-, -, hcalls⟩, -⟩ :=
    (hserve ⟨⟨start.state, []⟩, w.schedule⟩ w ⟨hkeeps, rfl⟩).run_eq
  obtain ⟨hattended, hstate⟩ := recorder.execAsync_attended document request' start
  have hlenient : Async.outcome ((x.over (Registry.new false).pipeline).execAsync document request)
      w = Async.outcome recorded start := houtcome.symm.trans hattended
  refine ⟨hlenient, fun pipeline pipeline' => ?_, fun he pipeline => ?_, ?_⟩
  · rw [execAsync_withoutFilters, execAsync_withoutFilters]
  · rw [← hlenient, execAsync_withoutFilters, he.withoutFilters_eq]
    exact congrArg (Async.outcome · w)
      ((x.over (Registry.new false).pipeline).execAsync_select document request)
  · rw [← hstate]
    exact hcalls

/-- Amounts as numbers, if a filter makes them out, and their currency. -/
def amounts : Schema :=
  (Schema.ofScope [.ofSelector "amounts"])
    |>.withSteps "number" [(Step.ofSelector "number").withFilter (.new "filter.toNumber" 0)]
    |>.withSteps "currency" [(Step.ofReference "currency").withFilter (.new "filter.trim" 0)]

/-- The recorder has noted two calls for each of the two elements, and the values are still as the
    engine has found them. -/
theorem execAsync_recording_amounts :
    let x : Extractor (Async Unit) := builtin .standard
    let request : Request (Async Unit) := ⟨some amounts, .obj [("currency", .str "EUR ")], none⟩
    let document :=
      Value.obj [("amounts", .arr [.obj [("number", .str "7 ")], .obj [("number", .null)]])]
    let start : Scheduled (Unit × Recorders) := ⟨((), .new), []⟩
    let recorded := (x.recording 0).execAsync document (request.hoist Async.beside)
    let row number := Value.obj [("currency", .str "EUR "), ("number", number)]
    let rows := Value.arr [row (.str "7 "), row .null]
    let call raw id : FilterCall :=
      ⟨[.obj [("$filtered$", raw)]], .ofField "$filtered$" [.new id 0] request.reference⟩
    Recorders.new.InUse 0 ∧
      (x.engines.select document request.engine).IgnoresFilters ∧
      Async.outcome recorded start = .ok rows ∧
      (∀ pipeline, Async.outcome ((x.over pipeline).execAsync document request.withoutFilters)
        ⟨(), []⟩ = .ok rows) ∧
      (Async.after recorded start).state.2.calls 0 =
        [call (.str "EUR ") "filter.trim", call (.str "7 ") "filter.toNumber",
          call (.str "EUR ") "filter.trim", call .null "filter.toNumber"] := by
  intro x request document start recorded row rows call
  have hr : Recorders.new.InUse 0 := by decide
  have he : (x.engines.select document request.engine).IgnoresFilters :=
    Structured.engine_ignoresFilters
  have hrows : Async.outcome recorded start = .ok rows := by decide +kernel
  have hcalls : Recorders.new.calls 0 ++ filterCalls x.settings.filterField
      (answersIn ((x.recording 0).history document (request.hoist Async.beside) start)) =
      [call (.str "EUR ") "filter.trim", call (.str "7 ") "filter.toNumber",
        call (.str "EUR ") "filter.trim", call .null "filter.toNumber"] := by decide +kernel
  -- all that has to be computed is known by now
  clear_value x request document
  have h := x.execAsync_recording document request ⟨(), []⟩ hr
  exact ⟨hr, he, hrows, fun pipeline => (h.2.2.1 he pipeline).trans hrows, h.2.2.2.trans hcalls⟩

/-- An engine that finds out whether a step has filters. -/
def nosy : Engine (Async Unit) :=
  .ofFunctions "nosy" (fun _ step _ => .ok (.bool step.filters.isEmpty)) fun document _ =>
    .ok document

/-- An engine that looks at filters finds something else once they are taken out. -/
theorem execAsync_recording_nosy :
    let x : Extractor (Async Unit) := builtin .standard
    let document := Value.bool true
    let schema := (Schema.ofScope [.ofSelector "scope"]).withSteps "trimmed"
      [(Step.ofSelector "text").withFilter (.new "filter.trim" 0)]
    let request : Request (Async Unit) := ⟨some schema, .null, some (.engine nosy)⟩
    let recorded := Async.outcome ((x.recording 0).execAsync document (request.hoist Async.beside))
      ⟨((), .new), []⟩
    let erased := Async.outcome (x.execAsync document request.withoutFilters) ⟨(), []⟩
    recorded = .ok (.arr [.obj [("trimmed", .bool false)]]) ∧
      erased = .ok (.arr [.obj [("trimmed", .bool true)]]) ∧ recorded ≠ erased := by
  decide +kernel

end Extractor
end SchemaExtraction
