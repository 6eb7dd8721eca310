import SchemaExtraction.Extraction.Builtin
import SchemaExtraction.Proofs.Extraction.Context
import SchemaExtraction.Proofs.Extraction.Interleaving

/-!
# The order of calls

One engine serves a call to an extractor, from the scope of the schema down to the innermost nested
schema. It is asked for the steps of the trace, each of them once and in the order of the trace,
up to the first step that fails or whose filters fail. Collaborators that suspend are asked in this
order too if tasks are run one at a time. Otherwise a step may be asked for before the steps ahead
of it have their values, and even if one of them is about to fail; but all steps of the trace are
asked for, and if none fails no others.

Results:
* `Visit.Complete.queries_eq`, `Visit.Stop.queries_eq`: what the engine is asked for in visits.
* `Extractor.exec_queries`: what the engines are asked for when a request is served.
* `Extractor.execAsync_queries`: the same for collaborators that may suspend, as far as it holds.
* `Extractor.execAsync_overtakes`: where tasks overtake each other.
-/

namespace SchemaExtraction

/-! ## Reading a journal -/

namespace Event

theorem receiver_of_context? {e : Event} {who : Party} {context : Value}
    (h : e.context? = some (who, context)) : e.receiver = who := by
  cases e <;> simp_all [context?, receiver]

end Event

/-- What somebody has been asked for; a call that asks for no step counts as `none`. -/
def queriesOf (who : Party) (journal : List Event) : List (Option (Value × Step)) :=
  (journal.filter fun e => e.receiver = who).map Event.query?

theorem queriesOf_append (who : Party) (journal journal' : List Event) :
    queriesOf who (journal ++ journal') = queriesOf who journal ++ queriesOf who journal' := by
  rw [queriesOf, List.filter_append, List.map_append]
  rfl

/-- What somebody has been asked for, whether it has been answered or not. -/
def queriesTo (who : Party) (received : List Receipt) : List (Option (Value × Step)) :=
  (received.filter fun r => r.receiver = who).map Receipt.query

theorem queriesTo_notes (who : Party) (journal : List Event) :
    queriesTo who (receiptsIn (journal.flatMap Event.notes)) = queriesOf who journal := by
  rw [receiptsIn_notes, queriesTo, List.filter_map, List.map_map]
  rfl

/-! ## Visits -/

namespace Visit

/-- The step of a visit, with its document. -/
def query (v : Visit) : Option (Value × Step) := some (v.document, v.step)

variable {who : Party} {field : String} {caller : List (String × Value)} {v : Visit} {a : Value}
  {e : ExtractionError} {vs : List Visit} {es : List Event} {as : List Value}

theorem none_not_mem_contexts : none ∉ v.contexts who caller := by
  unfold contexts
  split <;> simp

theorem receiver_of_mem_contexts {context : Value} {party : Party}
    (h : some (party, context) ∈ v.contexts who caller) : party = who ∨ party = .pipeline := by
  rcases List.mem_cons.1 h with h | h
  · cases h
    exact Or.inl rfl
  · split at h
    · cases h
    · cases List.mem_singleton.1 h
      exact Or.inr rfl

theorem Gives.queries_eq (hw : who ≠ .pipeline) (h : Gives who field caller v es a) :
    queriesOf who es = [v.query] := by
  cases h <;> simp [queriesOf, Event.receiver, Event.query?, asking, filtering, query, hw.symm]

theorem Fails.queries_eq (hw : who ≠ .pipeline) (h : Fails who field caller v es e) :
    queriesOf who es = [v.query] := by
  cases h <;> simp [queriesOf, Event.receiver, Event.query?, asking, filtering, query, hw.symm]

theorem Complete.queries_eq (hw : who ≠ .pipeline) (h : Complete who field caller vs es as) :
    queriesOf who es = vs.map query := by
  induction h with
  | nil => rfl
  | cons hv _ ih =>
    rw [queriesOf_append, hv.queries_eq hw, ih, List.map_cons, List.singleton_append]

/-- The engine is asked up to the visit that fails, or up to the schema that has no scope. -/
theorem Stop.queries_eq (hw : who ≠ .pipeline) (h : Stop who field caller vs es as e) :
    (∃ v events, vs[as.length]? = some v ∧ v.Fails who field caller events e ∧ events <:+ es ∧
        queriesOf who es = (vs.take (as.length + 1)).map query) ∨
      (∃ s, e = Extractor.scopeError s) ∧ queriesOf who es = (vs.take as.length).map query := by
  induction h with
  | fail hv => exact Or.inl ⟨_, _, rfl, hv, List.suffix_rfl, by simp [hv.queries_eq hw]⟩
  | schema vs s => exact Or.inr ⟨⟨s, rfl⟩, rfl⟩
  | cons hv _ ih =>
    rcases ih with ⟨v, events, hn, hf, hs, hq⟩ | ⟨hs, hq⟩
    · refine Or.inl ⟨v, events, hn, hf, hs.trans (List.suffix_append _ _), ?_⟩
      rw [queriesOf_append, hv.queries_eq hw, hq]
      rfl
    · refine Or.inr ⟨hs, ?_⟩
      rw [queriesOf_append, hv.queries_eq hw, hq]
      rfl

end Visit

/-! ## Serving a request -/

namespace Extractor

variable {σ : Type} (x : Extractor (StateM σ))

/-- The pipeline serves no call. -/
theorem server_ne_pipeline (document : Value) (choice : Option (EngineChoice (StateM σ))) :
    x.server document choice ≠ .pipeline := by
  match choice with
  | none | some (.format _) | some (.engine _) => exact Party.noConfusion

theorem scopeError_eq (s : Schema) : scopeError s = .noSchema ∨ scopeError s = .noScope := by
  unfold scopeError
  split
  · exact Or.inl rfl
  · exact Or.inr rfl

/-- Of the engines only the one that serves the call is called. -/
theorem receiver_of_mem_journal (document : Value) (request : Request (StateM σ)) (s : σ)
    {e : Event} (he : e ∈ x.journal document request s) :
    e.receiver = x.server document request.engine ∨ e.receiver = .pipeline := by
  have hc := (x.contexts_prefix document request s).subset (List.mem_map_of_mem he)
  obtain ⟨v, _, hv⟩ := List.mem_flatMap.1 hc
  cases hp : e.context? with
  | none => exact absurd (hp ▸ hv) Visit.none_not_mem_contexts
  | some call =>
    obtain ⟨party, context⟩ := call
    rw [hp] at hv
    rw [Event.receiver_of_context? hp]
    exact Visit.receiver_of_mem_contexts hv

/-- Calls, one after the other, follow the trace of a request to its outcome: the engine that serves
    it is asked for the steps of the trace. If a step or its filters fail, the engine is asked up to
    that step, whatever values the steps after it would have had. -/
def FollowsTrace {m : Type → Type} (x : Extractor m) (document : Value) (request : Request m)
    (outcome : Except ExtractionError Value) (calls : List Event) : Prop :=
  let server := x.server document request.engine
  let field := x.settings.filterField
  let values := stepValues field calls
  ∀ later, let visits := Trace.ofCall document (values ++ later) request.schema
    match outcome with
    | .ok _ => queriesOf server calls = visits.map Visit.query ∧ values.length = visits.length
    | .error .noSchema | .error .noScope =>
      queriesOf server calls = (visits.take values.length).map Visit.query
    | .error e => ∃ v events, visits[values.length]? = some v ∧
      v.Fails server field request.reference.entriesOf events e ∧ events <:+ calls ∧
      queriesOf server calls = (visits.take (values.length + 1)).map Visit.query

/-- The calls that are made when a request is served follow its trace, and no other engine is
    called. -/
theorem exec_queries (document : Value) (request : Request (StateM σ)) (s : σ) :
    let server := x.server document request.engine
    let journal := x.journal document request s
    (∀ e ∈ journal, e.receiver = server ∨ e.receiver = .pipeline) ∧
      x.FollowsTrace document request (Run.outcome (x.exec document request) s) journal := by
  intro server journal
  have hw : server ≠ .pipeline := x.server_ne_pipeline document request.engine
  refine ⟨fun e he => x.receiver_of_mem_journal document request s he, fun later => ?_⟩
  have h := x.exec_visits document request s later
  cases hr : Run.outcome (x.exec document request) s with
  | ok v =>
    rw [hr] at h
    exact ⟨h.queries_eq hw, h.length_eq.symm⟩
  | error e =>
    rw [hr] at h
    rcases h.queries_eq hw with ⟨v, events, hn, hf, hs, hq⟩ | ⟨⟨schema, rfl⟩, hq⟩
    · cases hf with
      | step => exact ⟨v, _, hn, .step, hs, hq⟩
      | filter hf => exact ⟨v, _, hn, .filter hf, hs, hq⟩
    · rcases scopeError_eq schema with hs | hs
      · rw [hs]
        exact hq
      · rw [hs]
        exact hq

/-! ## Collaborators that may suspend -/

/-- If collaborators may suspend, no engine but the one that serves a call receives calls, either.
    Its calls follow the trace, in some order, and if the extraction fails there may be others. If
    the engine and the pipeline answer at once, or tasks are run one at a time, then there are no
    others, and the calls are received one after the other in the order of the trace. -/
theorem execAsync_queries (x : Extractor (Async σ)) (document : Value)
    (request : Request (Async σ)) (w : Scheduled σ) :
    let server := x.server document request.engine
    let outcome := Async.outcome (x.execAsync document request) w
    let history := x.history document request w
    (∀ r ∈ receiptsIn history, r.receiver = server ∨ r.receiver = .pipeline) ∧
    ∃ calls others, x.FollowsTrace document request outcome calls ∧
      history.Perm (calls.flatMap Event.notes ++ others) ∧ (outcome.isOk → others = []) ∧
      (x.settings.concurrency ≤ 1 ∨
          (x.engines.select document request.engine).NeverSuspends ∧ x.pipeline.NeverSuspends →
        history = calls.flatMap Event.notes) := by
  intro server outcome history
  obtain ⟨events, others, ⟨hperm, hnone⟩, hby, houtcome, hjournal⟩ :=
    x.history_serial document request w
  refine ⟨fun r hr => ?_, ?_⟩
  · obtain ⟨note, hnote, hreceipt⟩ := List.mem_filterMap.1 hr
    exact hby note hnote r hreceipt
  by_cases h : x.settings.concurrency ≤ 1 ∨
      (x.engines.select document request.engine).NeverSuspends ∧ x.pipeline.NeverSuspends
  · -- the calls and the outcome are those of collaborators that answer at once
    obtain ⟨hrun, hhistory⟩ := x.history_eq document request w h
    obtain ⟨-, hfollows⟩ :=
      (x.hoist Async.run).exec_queries document (request.hoist Async.run) w.state
    rw [← hrun] at hfollows
    refine ⟨_, [], ?_, ?_, fun _ => rfl, fun _ => hhistory⟩
    · simp only [FollowsTrace, Request.hoist, server_hoist] at hfollows
      exact hfollows
    · rw [List.append_nil]
      exact .of_eq hhistory
  · obtain ⟨-, hfollows⟩ := x.scripted.exec_queries document request.scripted events
    rw [houtcome, hjournal] at hfollows
    refine ⟨events, others, ?_, hperm, hnone, fun hc => absurd hc h⟩
    simp only [FollowsTrace, Request.scripted, server_scripted] at hfollows
    exact hfollows

/-- An engine that suspends before it answers. The selector "fail" is a failure, any other one finds
    a text. -/
def hesitant : Engine (Async Unit) :=
  (Engine.ofFunctions "hesitant"
    (fun _ step _ =>
      if step.selector = some "fail" then .error (.noSource "hesitant") else .ok (.str "x"))
    fun document _ => .ok document).hoist .suspend

/-- Asks for two fields of an element, the first of them by some selectors in a chain. -/
def twoFields (chain : List String) : Request (Async Unit) where
  schema := some <| ((Schema.ofScope [.ofSelector "scope"]).withSteps "a"
    (chain.map Step.ofSelector)).withSteps "b" [.ofSelector "other"]
  reference := .null
  engine := some (.engine hesitant)

/-- One at a time, the fields are asked for in the order of the trace. -/
theorem execAsync_queries_sequential :
    let x : Extractor (Async Unit) := .builtin .sequential
    let document := Value.str "x"
    let w : Scheduled Unit := ⟨(), [[0], [0, 1, 0]]⟩
    let request := twoFields ["first", "second"]
    let query selector := some (document, Step.ofSelector selector)
    x.settings.concurrency ≤ 1 ∧
      Async.outcome (x.execAsync document request) w =
        .ok (.arr [.obj [("a", .str "x x"), ("b", .str "x")]]) ∧
      queriesTo .guest (receiptsIn (x.history document request w)) =
        [query "scope", query "first", query "second", query "other"] := by
  intro x document w request query
  have hc : x.settings.concurrency ≤ 1 := by decide +kernel
  have ho : Async.outcome (x.execAsync document request) w =
      .ok (.arr [.obj [("a", .str "x x"), ("b", .str "x")]]) := by decide +kernel
  have hs : x.server document request.engine = .guest := rfl
  have hvisits : (Trace.ofCall document (stepValues x.settings.filterField
      (answersIn (x.history document request w)) ++ []) request.schema).map Visit.query =
      [query "scope", query "first", query "second", query "other"] := by decide +kernel
  -- all that has to be computed is known by now
  clear_value x request w
  obtain ⟨-, calls, others, hfollows, -, -, hhistory⟩ := x.execAsync_queries document request w
  have hcalls := hfollows []
  rw [ho, hs] at hcalls
  rw [hhistory (Or.inl hc), answersIn_notes] at hvisits
  refine ⟨hc, ho, ?_⟩
  rw [hhistory (Or.inl hc), queriesTo_notes]
  exact hcalls.1.trans hvisits

/-- Two fields of an element are under way together. The engine is asked for the second field
    although the first one fails, and before it is asked for the second step of the first one. -/
theorem execAsync_overtakes :
    let x : Extractor (Async Unit) := .builtin .standard
    let document := Value.str "x"
    let w : Scheduled Unit := ⟨(), [[0], [0, 1, 0]]⟩
    let query selector := some (document, Step.ofSelector selector)
    let asked request := queriesTo .guest (receiptsIn (x.history document request w))
    let values request :=
      stepValues x.settings.filterField (answersIn (x.history document request w))
    let trace request := (Trace.ofCall document (values request) request.schema).map Visit.query
    let failing := twoFields ["fail"]
    let longer := twoFields ["first", "second"]
    (Async.outcome (x.execAsync document failing) w = .error (.step (.noSource "hesitant")) ∧
      asked failing = [query "scope", query "fail", query "other"] ∧
      (trace failing).take ((values failing).length + 1) = [query "scope", query "fail"] ∧
      asked failing ≠ (trace failing).take ((values failing).length + 1)) ∧
    (Async.outcome (x.execAsync document longer) w).isOk ∧
      asked longer = [query "scope", query "first", query "other", query "second"] ∧
      trace longer = [query "scope", query "first", query "second", query "other"] ∧
      asked longer ≠ trace longer := by
  decide +kernel

end Extractor
end SchemaExtraction
