import SchemaExtraction.Proofs.Extraction.Trace

/-!
# Runs along a trace

The calls that are made in a part of an extraction are those of the visits that are planned for it,
up to the first failure. The plans of two parts are joined like the parts are, and the plan of a
schema is its trace.

Results:
* `Follows.bind`, `Follows.mapM`: parts that follow their plans, one after the other.
* `Extractor.follows_extract`: resolving a schema follows the trace of the schema.
* `Extractor.exec_visits`: the calls that are made for a request.
-/

namespace SchemaExtraction

/-! ## Parts that follow a plan -/

variable {σ α β : Type} (who : Party) (field : String) (caller : List (String × Value))

/-- The calls of a part are those of the visits that are planned for it, as far as it gets, and
    what it gives fits the values of these visits. The values that come after it have no say in
    its plan. -/
def Follows (p : Run (Watched σ) α) (plan : List Value → List Visit)
    (post : List Value → α → Prop) : Prop :=
  ∀ w, ∃ events values, (p.after w).journal = w.journal ++ events ∧
    ∀ later, match p.outcome w with
      | .ok a => Visit.Complete who field caller (plan (values ++ later)) events values ∧
          post (values ++ later) a
      | .error e => Visit.Stop who field caller (plan (values ++ later)) events values e

namespace Follows

variable {who field caller} {p : Run (Watched σ) α} {f : α → Run (Watched σ) β}
  {plan next : List Value → List Visit} {planOf : α → List Value → List Visit}
  {post : List Value → α → Prop} {postOf : α → List Value → β → Prop} {goal : List Value → β → Prop}

theorem pure {a : α} (h : ∀ values, post values a) :
    Follows who field caller (pure a : Run (Watched σ) α) (fun _ => []) post :=
  fun _ => ⟨[], [], by simp, fun later => ⟨.nil, h later⟩⟩

/-- A schema without a scope ends the run where it stands. -/
theorem throw (s : Schema) (plan : List Value → List Visit) (post : List Value → α → Prop) :
    Follows who field caller (throw (Extractor.scopeError s) : Run (Watched σ) α) plan post :=
  fun _ => ⟨[], [], by simp, fun _ => .schema _ s⟩

/-- The second part takes over with the values that the first one leaves. -/
theorem bind (hp : Follows who field caller p plan post)
    (hf : ∀ a, Follows who field caller (f a) (planOf a) (postOf a))
    (hnext : ∀ values a, post values a →
      next values = planOf a (values.drop (plan values).length))
    (hgoal : ∀ values a b, post values a → postOf a (values.drop (plan values).length) b →
      goal values b) :
    Follows who field caller (p >>= f) (fun values => plan values ++ next values) goal := by
  intro w
  obtain ⟨events, values, hj, h⟩ := hp w
  cases ho : p.outcome w with
  | error e =>
    rw [ho] at h
    rw [(Run.bind_of_error ho).1, (Run.bind_of_error ho).2]
    exact ⟨events, values, hj, fun later => (h later).append_right _⟩
  | ok a =>
    rw [ho] at h
    obtain ⟨events', values', hj', h'⟩ := hf a (p.after w)
    rw [(Run.bind_of_ok ho).1, (Run.bind_of_ok ho).2]
    refine ⟨events ++ events', values ++ values', by rw [hj', hj, List.append_assoc],
      fun later => ?_⟩
    -- for the first part the values of the second one come later
    obtain ⟨hc, hpost⟩ := h (values' ++ later)
    have hd : (values ++ (values' ++ later)).drop (plan (values ++ (values' ++ later))).length =
        values' ++ later := by
      rw [hc.length_eq, List.drop_left]
    have hn := hnext _ a hpost
    rw [hd] at hn
    simp only [List.append_assoc, hn]
    have hl := h' later
    cases ho' : (f a).outcome (p.after w) with
    | error e =>
      rw [ho'] at hl
      exact hc.stop_append hl
    | ok b =>
      rw [ho'] at hl
      exact ⟨hc.append hl.1, hgoal _ a b hpost (by rw [hd]; exact hl.2)⟩

theorem bind_pure {g : α → β} (hp : Follows who field caller p plan post)
    (hgoal : ∀ values a, post values a → goal values (g a)) :
    Follows who field caller (p >>= fun a => Pure.pure (g a)) plan goal := by
  have hf (a : α) : Follows who field caller (Pure.pure (g a) : Run (Watched σ) β) (fun _ => [])
      fun _ b => b = g a := pure fun _ => rfl
  have h : Follows who field caller (p >>= fun a => Pure.pure (g a))
      (fun values => plan values ++ []) goal := by
    refine hp.bind hf (fun _ _ _ => rfl) ?_
    rintro values a b hpost rfl
    exact hgoal values a hpost
  simpa only [List.append_nil] using h

/-- One part after the other follows one plan after the other. -/
theorem mapM {f : α → Run (Watched σ) β} {visits : List Value → α → List Visit} {as : List α}
    (h : ∀ a ∈ as, Follows who field caller (f a) (visits · a) fun _ _ => True) :
    Follows who field caller (as.mapM f) (Trace.inTurn visits · as) fun _ _ => True := by
  induction as with
  | nil => exact pure fun _ => trivial
  | cons a as ih =>
    have ht := ih fun a' ha => h a' (by simp [ha])
    rw [List.mapM_cons]
    have hb (b : β) : Follows who field caller (as.mapM f >>= fun bs => Pure.pure (b :: bs))
        (Trace.inTurn visits · as) fun _ _ => True := ht.bind_pure fun _ _ _ => trivial
    exact (h a (by simp)).bind hb (fun _ _ _ => rfl) fun _ _ _ _ _ => trivial

end Follows

/-! ## The parts of an extraction -/

namespace Extractor

variable {σ : Type} (x : Extractor (StateM σ)) (engine : Engine (StateM σ)) (who : Party)
  (caller : List (String × Value))

theorem follows_evalStep (parent : Option (List (String × Value))) (document : Value)
    (step : Step) :
    Follows who x.settings.filterField caller
      (x.watched.evalStep (engine.watched who) document (.obj (contextOf caller parent)) step)
      (fun _ => [⟨document, step, parent⟩]) fun values a => values.head? = some a := by
  intro w
  simp only [evalStep, Engine.watched]
  -- the engine may fail, and so may the pipeline, which only a step with filters asks
  rcases Run.watch_cases .step (.resolved who document step (.obj (contextOf caller parent)))
    (engine.resolve document step (.obj (contextOf caller parent))) w with
    ⟨raw, ho, hj⟩ | ⟨e, ho, hj⟩
  · rw [(Run.bind_of_ok ho).1, (Run.bind_of_ok ho).2]
    cases hf : step.filters.isEmpty with
    | true => exact ⟨_, [raw], hj, fun later => ⟨.single (.plain hf), rfl⟩⟩
    | false =>
      simp only [Bool.false_eq_true, if_false, filterValue, watched, Pipeline.watched]
      rcases Run.watch_cases .filter (.filtered _ _) (x.pipeline.exec _ _) _ with
        ⟨records, ho', hj'⟩ | ⟨e, ho', hj'⟩
      · rw [(Run.bind_of_ok ho').1, (Run.bind_of_ok ho').2]
        rw [hj, List.append_assoc] at hj'
        exact ⟨_, [filteredValue x.settings.filterField records], hj',
          fun later => ⟨.single (.filtered hf), rfl⟩⟩
      · rw [(Run.bind_of_error ho').1, (Run.bind_of_error ho').2]
        rw [hj, List.append_assoc] at hj'
        exact ⟨_, [], hj', fun later => .fail (.filter hf)⟩
  · rw [(Run.bind_of_error ho).1, (Run.bind_of_error ho).2]
    exact ⟨_, [], hj, fun later => .fail .step⟩

theorem follows_foldSteps (parent : Option (List (String × Value))) (document acc : Value)
    (chain : List Step) :
    Follows who x.settings.filterField caller
      (x.watched.foldSteps (engine.watched who) document (.obj (contextOf caller parent)) acc chain)
      (fun _ => Trace.ofChain parent document chain)
      fun values v => v = Trace.foldValues acc values chain := by
  induction chain generalizing acc with
  | nil => exact Follows.pure fun _ => rfl
  | cons step steps ih =>
    refine (x.follows_evalStep engine who caller parent document step).bind
      (fun v => ih (accumulate acc step v)) (fun _ _ _ => rfl) fun values a v ha hv => ?_
    cases values with
    | nil => cases ha
    | cons a' values =>
      obtain rfl : a' = a := by simpa using ha
      rw [hv]
      rfl

theorem follows_evalLeaves (parent : Option (List (String × Value))) (element : Value)
    (fields : List (String × Field Schema)) :
    Follows who x.settings.filterField caller
      (x.watched.evalLeaves (engine.watched who) element (.obj (contextOf caller parent)) fields)
      (fun _ => Trace.ofLeaves parent element fields)
      fun values leaves => leaves = Trace.leafRecord values fields := by
  induction fields with
  | nil => exact Follows.pure fun _ => rfl
  | cons field fields ih =>
    obtain ⟨name, chain | child⟩ := field
    · have hl (v : Value) : Follows who x.settings.filterField caller
          (x.watched.evalLeaves (engine.watched who) element (.obj (contextOf caller parent)) fields
            >>= fun leaves => pure ((name, v) :: leaves))
          (fun _ => Trace.ofLeaves parent element fields)
          fun values leaves => leaves = (name, v) :: Trace.leafRecord values fields :=
        ih.bind_pure fun values leaves h => by rw [h]
      refine (x.follows_foldSteps engine who caller parent element .null chain).bind hl
        (fun _ _ _ => rfl) fun values v leaves hv h => ?_
      rw [h, hv, Trace.leafRecord, Trace.ofChain, List.length_map]
    · exact ih

/-- Whatever the record of the element outside, that of the inner element takes its place. -/
theorem childReference_contextOf (parent : Option (List (String × Value)))
    (leaves : List (String × Value)) :
    childReference (contextOf caller parent) leaves = contextOf caller (some leaves) := by
  cases parent with
  | none => rfl
  | some record => exact Entries.insert_insert _ _ _ _

mutual

/-- The calls of a schema are those of its trace. -/
theorem follows_extract (parent : Option (List (String × Value))) {document : Value}
    (hd : document.truthy = true) (schema : Schema) :
    Follows who x.settings.filterField caller
      (x.watched.extract (engine.watched who) document (contextOf caller parent) schema)
      (Trace.ofSchema parent document · schema) fun _ _ => True := by
  obtain ⟨scope, merged, fields⟩ := schema
  match scope with
  | none | some [] =>
    rw [extract_unscoped _ _ hd _ rfl]
    exact Follows.throw _ _ _
  | some (step :: steps) =>
    rw [extract_scoped _ _ hd]
    simp only [Trace.ofSchema_eq, Option.getD_some]
    -- from the inside out: one element with its children, all elements, the steps of the scope
    have he (element : Value) (ht : element.truthy = true) :
        Follows who x.settings.filterField caller
          (x.watched.evalElement (engine.watched who) (contextOf caller parent) fields element)
          (Trace.ofElement parent fields · element) fun _ _ => True := by
      have hc (leaves : List (String × Value)) : Follows who x.settings.filterField caller
          (x.watched.extractChildren (engine.watched who) element
              (childReference (contextOf caller parent) leaves) fields >>=
            fun children => pure (Entries.insertAll leaves children))
          (Trace.ofChildren leaves element · fields) fun _ _ => True := by
        rw [childReference_contextOf]
        exact (follows_extractChildren leaves ht fields).bind_pure fun _ _ _ => trivial
      exact (x.follows_evalLeaves engine who caller parent element fields).bind hc
        (fun values leaves h => by rw [h]) fun _ _ _ _ _ => trivial
    have hr (resolved : Value) : Follows who x.settings.filterField caller
        ((elementsOf resolved).mapM
            (x.watched.evalElement (engine.watched who) (contextOf caller parent) fields) >>=
          fun records => pure (collect merged records))
        (Trace.inTurn (Trace.ofElement parent fields) · (elementsOf resolved))
        fun _ _ => True := by
      refine Follows.bind_pure (Follows.mapM fun element h => ?_) fun _ _ _ => trivial
      exact he element (List.mem_filter.1 h).2
    refine (x.follows_foldSteps engine who caller parent document .null _).bind hr
      (fun values resolved h => ?_) fun _ _ _ _ _ => trivial
    rw [h, Trace.ofChain, List.length_map]

theorem follows_extractChildren (record : List (String × Value)) {element : Value}
    (he : element.truthy = true) (fields : List (String × Field Schema)) :
    Follows who x.settings.filterField caller
      (x.watched.extractChildren (engine.watched who) element (contextOf caller (some record))
        fields)
      (Trace.ofChildren record element · fields) fun _ _ => True := by
  match fields with
  | [] => exact Follows.pure fun _ => trivial
  | (name, .steps chain) :: fields => exact follows_extractChildren record he fields
  | (name, .nested schema) :: fields =>
    have hf (v : Value) : Follows who x.settings.filterField caller
        (x.watched.extractChildren (engine.watched who) element (contextOf caller (some record))
            fields >>= fun children => pure ((name, v) :: children))
        (Trace.ofChildren record element · fields) fun _ _ => True :=
      (follows_extractChildren record he fields).bind_pure fun _ _ _ => trivial
    exact (follows_extract (some record) he schema).bind hf (fun _ _ _ => rfl)
      fun _ _ _ _ _ => trivial

end

/-- Serving a request follows the trace of its schema. -/
theorem follows_exec (document : Value) (request : Request (StateM σ)) :
    Follows (x.server document request.engine) x.settings.filterField request.reference.entriesOf
      (x.watched.exec document request.watched) (Trace.ofCall document · request.schema)
      fun _ _ => True := by
  obtain ⟨schema, reference, choice⟩ := request
  unfold exec
  cases hd : document.truthy with
  | false =>
    cases schema <;> simp only [Trace.ofCall, hd] <;> exact Follows.pure fun _ => trivial
  | true =>
    cases schema with
    | none => exact Follows.throw .blank _ _
    | some schema =>
      simp only [Request.watched, select_watched, Trace.ofCall, hd]
      exact x.follows_extract _ _ _ none hd schema

/-- The calls that are made for a request are those of its trace: all of them if it succeeds, else
    those up to the failure. -/
theorem exec_visits (document : Value) (request : Request (StateM σ)) (s : σ)
    (later : List Value) :
    let server := x.server document request.engine
    let field := x.settings.filterField
    let caller := request.reference.entriesOf
    let journal := x.journal document request s
    let values := stepValues field journal
    let trace := Trace.ofCall document (values ++ later) request.schema
    match Run.outcome (x.exec document request) s with
    | .ok _ => Visit.Complete server field caller trace journal values
    | .error e => Visit.Stop server field caller trace journal values e := by
  obtain ⟨journal, values, hj, h⟩ := x.follows_exec document request ⟨s, []⟩
  have ho : Run.outcome (x.watched.exec document request.watched) ⟨s, []⟩ =
      Run.outcome (x.exec document request) s := (x.exec_watched document request ⟨s, []⟩).1
  rw [ho] at h
  obtain rfl : x.journal document request s = journal := hj
  have hl := h later
  cases hr : Run.outcome (x.exec document request) s with
  | ok v =>
    rw [hr] at hl
    simp only [hl.1.stepValues_eq]
    exact hl.1
  | error e =>
    rw [hr] at hl
    simp only [hl.stepValues_eq]
    exact hl

end Extractor
end SchemaExtraction
