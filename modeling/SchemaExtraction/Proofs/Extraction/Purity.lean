import SchemaExtraction.Extraction.Builtin
import SchemaExtraction.Proofs.Extraction.Records

/-!
# Pure collaborators

An engine is pure if a document, a step and a reference context decide what it answers and nothing
comes of asking; a pipeline is pure if the same holds of the records and the request. What is
extracted over pure collaborators does not depend on what was extracted before, so runs on different
documents can be compared.

Results:
* `Run.IsPure.eq_pure`, `Run.IsPure.eq_throw`: a pure part is the value or the failure that it
  gives.
* `Run.IsPure.bind_eq_ok_iff`, `Run.IsPure.mapM_eq_ok_iff`: when parts that are put together give a
  value.
* `Extractor.isPure_extract`: resolving a schema over pure collaborators is pure.
* `Extractor.pureWith_builtin`: the built-in collaborators are pure.
-/

namespace SchemaExtraction

variable {σ α β : Type}

/-- What an engine answers is decided by what it is asked for. -/
def Engine.IsPure (e : Engine (StateM σ)) : Prop :=
  ∃ answer : Value → Step → Value → Except StepError Value,
    ∀ document step reference, e.resolve document step reference =
      pure (answer document step reference)

/-- What a pipeline answers is decided by what it is asked for. -/
def Pipeline.IsPure (p : Pipeline (StateM σ)) : Prop :=
  ∃ answer : List Value → FilterRequest → Except FilterError (List Value),
    ∀ records request, p.exec records request = pure (answer records request)

/-! ## Pure parts -/

namespace Run

/-- A part that gives the same from whatever state it is run, and leaves the state as it is. -/
structure IsPure (p : Run σ α) : Prop where
  after_eq : ∀ s, p.after s = s
  outcome_eq : ∀ s t, p.outcome s = p.outcome t

namespace IsPure

theorem pure (a : α) : IsPure (pure a : Run σ α) := ⟨fun _ => rfl, fun _ _ => rfl⟩

theorem throw (e : ExtractionError) : IsPure (throw e : Run σ α) :=
  ⟨fun _ => rfl, fun _ _ => rfl⟩

theorem lift {ε : Type} (wrap : ε → ExtractionError) (answer : Except ε α) :
    IsPure (Extractor.lift wrap (Pure.pure answer) : Run σ α) :=
  ⟨fun _ => rfl, fun _ _ => rfl⟩

variable {p : Run σ α} {f : α → Run σ β}

/-- A part that has given a value once is that value. -/
theorem eq_pure (hp : p.IsPure) {s : σ} {a : α} (h : p.outcome s = .ok a) : p = Pure.pure a :=
  funext fun t => Prod.ext ((hp.outcome_eq t s).trans h) (hp.after_eq t)

/-- A part that has failed once is that failure. -/
theorem eq_throw (hp : p.IsPure) {s : σ} {e : ExtractionError} (h : p.outcome s = .error e) :
    p = MonadExcept.throw e :=
  funext fun t => Prod.ext ((hp.outcome_eq t s).trans h) (hp.after_eq t)

/-- The second of two parts may as well be run from the state that the first one is run from. -/
theorem outcome_bind (hp : p.IsPure) (f : α → Run σ β) (s : σ) :
    (p >>= f).outcome s = p.outcome s >>= fun a => (f a).outcome s := by
  cases h : p.outcome s with
  | error e => exact (bind_of_error h).1
  | ok a =>
    rw [(bind_of_ok h).1, hp.after_eq]
    rfl

theorem bind (hp : p.IsPure) (hf : ∀ a, (f a).IsPure) : (p >>= f).IsPure := by
  constructor
  · intro s
    cases h : p.outcome s with
    | error e => rw [(bind_of_error h).2, hp.after_eq]
    | ok a => rw [(bind_of_ok h).2, (hf a).after_eq, hp.after_eq]
  · intro s t
    rw [hp.outcome_bind, hp.outcome_bind, hp.outcome_eq s t]
    cases p.outcome t with
    | error e => rfl
    | ok a => exact (hf a).outcome_eq s t

theorem mapM {as : List α} (hf : ∀ a ∈ as, (f a).IsPure) : (as.mapM f).IsPure := by
  induction as with
  | nil => exact pure []
  | cons a as ih =>
    rw [List.mapM_cons]
    refine (hf a (by simp)).bind fun b => ?_
    exact (ih fun a' ha => hf a' (by simp [ha])).bind fun bs => pure (b :: bs)

/-! ### Giving a value -/

theorem bind_eq_ok_iff (hp : p.IsPure) {s : σ} {b : β} :
    (p >>= f).outcome s = .ok b ↔ ∃ a, p.outcome s = .ok a ∧ (f a).outcome s = .ok b := by
  rw [hp.outcome_bind]
  cases h : p.outcome s with
  | error e =>
    constructor
    · rintro ⟨⟩
    · rintro ⟨a, ⟨⟩, _⟩
  | ok a =>
    constructor
    · exact fun hb => ⟨a, rfl, hb⟩
    · rintro ⟨a, ⟨⟩, hb⟩
      exact hb

/-- Parts for a list of things give a list of values, each part the value for its own. -/
theorem mapM_eq_ok_iff {as : List α} (hf : ∀ a ∈ as, (f a).IsPure) {s : σ} {bs : List β} :
    (as.mapM f).outcome s = .ok bs ↔
      List.Forall₂ (fun a b => (f a).outcome s = .ok b) as bs := by
  induction as generalizing bs with
  | nil =>
    rw [List.mapM_nil, List.forall₂_nil_left_iff, outcome_pure]
    exact ⟨fun h => by cases h; rfl, fun h => by rw [h]⟩
  | cons a as ih =>
    have hr := fun a' ha => hf a' (List.mem_cons_of_mem a ha)
    rw [List.mapM_cons, (hf a (by simp)).bind_eq_ok_iff, List.forall₂_cons_left_iff]
    simp only [(mapM hr).bind_eq_ok_iff, ih hr]
    constructor
    · rintro ⟨b, hb, bs', hbs, ⟨⟩⟩
      exact ⟨b, bs', hb, hbs, rfl⟩
    · rintro ⟨b, bs', hb, hbs, rfl⟩
      exact ⟨b, hb, bs', hbs, rfl⟩

end IsPure
end Run

/-! ## Extraction -/

namespace Extractor

/-- The pipeline of an extractor is pure, and so is an engine. -/
structure PureWith (x : Extractor (StateM σ)) (engine : Engine (StateM σ)) : Prop where
  engine : engine.IsPure
  pipeline : x.pipeline.IsPure

variable {x : Extractor (StateM σ)} {engine : Engine (StateM σ)} (hp : x.PureWith engine)
include hp

theorem isPure_evalStep (document reference : Value) (step : Step) :
    Run.IsPure (x.evalStep engine document reference step) := by
  obtain ⟨answer, ha⟩ := hp.engine
  obtain ⟨filtered, hf⟩ := hp.pipeline
  rw [evalStep, ha]
  refine (Run.IsPure.lift _ _).bind fun v => ?_
  split
  · exact Run.IsPure.pure v
  · rw [filterValue, hf]
    exact (Run.IsPure.lift _ _).bind fun records => Run.IsPure.pure _

theorem isPure_foldSteps (document reference acc : Value) (chain : List Step) :
    Run.IsPure (x.foldSteps engine document reference acc chain) := by
  induction chain generalizing acc with
  | nil => exact Run.IsPure.pure acc
  | cons step steps ih =>
    exact (isPure_evalStep hp document reference step).bind fun v => ih (accumulate acc step v)

theorem isPure_evalChain (document reference : Value) (chain : List Step) :
    Run.IsPure (x.evalChain engine document reference chain) :=
  isPure_foldSteps hp document reference .null chain

theorem isPure_evalLeaves (element reference : Value) (fields : List (String × Field Schema)) :
    Run.IsPure (x.evalLeaves engine element reference fields) := by
  induction fields with
  | nil => exact Run.IsPure.pure []
  | cons field fields ih =>
    obtain ⟨name, chain | child⟩ := field
    · refine (isPure_evalChain hp element reference chain).bind fun v => ?_
      exact ih.bind fun leaves => Run.IsPure.pure _
    · exact ih

/-- The chains of an element are pure, so its record is if the nested schemas are. -/
theorem isPure_evalElement_of {element : Value} {fields : List (String × Field Schema)}
    (hc : ∀ reference, Run.IsPure (x.extractChildren engine element reference fields))
    (reference : List (String × Value)) :
    Run.IsPure (x.evalElement engine reference fields element) := by
  refine (isPure_evalLeaves hp element (.obj reference) fields).bind fun leaves => ?_
  exact (hc _).bind fun children => Run.IsPure.pure _

omit hp

mutual

/-- What a schema gives over pure collaborators does not depend on what was asked before. -/
theorem isPure_extract (hp : x.PureWith engine) (document : Value)
    (reference : List (String × Value)) (schema : Schema) :
    Run.IsPure (x.extract engine document reference schema) := by
  obtain ⟨scope, merged, fields⟩ := schema
  cases hd : document.truthy with
  | false =>
    rw [extract_absent x _ hd]
    exact Run.IsPure.pure _
  | true =>
    match scope with
    | none | some [] =>
      rw [extract_unscoped x _ hd _ rfl]
      exact Run.IsPure.throw _
    | some (step :: steps) =>
      rw [extract_scoped x _ hd]
      refine (isPure_evalChain hp _ _ _).bind fun resolved => ?_
      refine (Run.IsPure.mapM fun element _ => ?_).bind fun records => Run.IsPure.pure _
      exact isPure_evalElement_of hp (fun r => isPure_extractChildren hp element r fields) reference

theorem isPure_extractChildren (hp : x.PureWith engine) (element : Value)
    (reference : List (String × Value)) (fields : List (String × Field Schema)) :
    Run.IsPure (x.extractChildren engine element reference fields) := by
  match fields with
  | [] => exact Run.IsPure.pure []
  | (name, .steps chain) :: fields => exact isPure_extractChildren hp element reference fields
  | (name, .nested schema) :: fields =>
    refine (isPure_extract hp element reference schema).bind fun v => ?_
    have hc := isPure_extractChildren hp element reference fields
    exact hc.bind fun children => Run.IsPure.pure _

end

include hp

theorem isPure_evalElement (reference : List (String × Value))
    (fields : List (String × Field Schema)) (element : Value) :
    Run.IsPure (x.evalElement engine reference fields element) :=
  isPure_evalElement_of hp (fun r => isPure_extractChildren hp element r fields) reference

/-- The records that a pure extraction gives: one for each element of the scope, in order. -/
theorem evalRecords_eq_ok_iff {document : Value} {context : List (String × Value)}
    {scope : List Step} {fields : List (String × Field Schema)} {s : σ}
    {records : List (List (String × Value))} :
    (x.evalRecords engine document context scope fields).outcome s = .ok records ↔
      ∃ resolved, Run.outcome (x.evalChain engine document (.obj context) scope) s = .ok resolved ∧
        List.Forall₂
          (fun element r => (x.evalElement engine context fields element).outcome s = .ok r)
          (elementsOf resolved) records := by
  have he element := isPure_evalElement hp context fields element
  rw [evalRecords, (isPure_evalChain hp _ _ _).bind_eq_ok_iff]
  simp only [Run.IsPure.mapM_eq_ok_iff fun element _ => he element]

omit hp

/-- The built-in engines and filters are pure. -/
theorem pureWith_builtin (settings : Settings) (f : Format) :
    (builtin settings : Extractor (StateM σ)).PureWith ((builtin settings).engines.ofFormat f) := by
  refine ⟨?_, ⟨_, fun records request => rfl⟩⟩
  cases f with
  | structured => exact ⟨Structured.resolve, fun document step reference => rfl⟩
  | markup => exact ⟨Markup.resolve, fun document step reference => rfl⟩

end Extractor
end SchemaExtraction
