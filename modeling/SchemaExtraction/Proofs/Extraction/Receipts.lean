import SchemaExtraction.Proofs.Extraction.Journal
import SchemaExtraction.Proofs.Extraction.Suspension

/-!
# Calls as they are received

A collaborator that suspends answers a call some time after it has received it, and other calls may
be received meanwhile. So the history of a request has two notes of every call: one when the call is
received, and one with the answer when it is answered.

Results:
* `Extractor.execAsync_attended`: noting the calls changes neither what a request gives nor the
  state that the collaborators are left in.
* `Extractor.history_eq`: where every call is answered before the next one is made, the history has
  the calls one after the other.
-/

namespace SchemaExtraction

variable {σ τ α : Type}

namespace Async

/-- What a part of an extraction gives when it is run from a state. -/
def outcome (p : ExceptT ExtractionError (Async σ) α) (s : σ) : Except ExtractionError α :=
  (p.run.run.run s).1

/-- The state that a part leaves. -/
def after (p : ExceptT ExtractionError (Async σ) α) (s : σ) : σ := (p.run.run.run s).2

end Async

/-! ## Noting calls -/

/-- A call as it is received: who receives it, and the step that it asks for, with its document, if
    it asks for one. -/
structure Receipt where
  receiver : Party
  query : Option (Value × Step)

namespace Event

/-- Who has received a call. -/
def receiver : Event → Party
  | resolved who .. => who
  | cleaned who .. => who
  | filtered .. => .pipeline
  | started who _ => who
  | stopped who _ => who

/-- The step that a call asks for, with its document. -/
def query? : Event → Option (Value × Step)
  | resolved _ document step _ _ => some (document, step)
  | _ => none

/-- A call as it was received before it was answered. -/
def receipt (e : Event) : Receipt := ⟨e.receiver, e.query?⟩

end Event

/-- An entry of a history: a call is received, or a call is answered. -/
inductive Note where
  | received (receipt : Receipt)
  | answered (event : Event)

/-- The call that is received. -/
def Note.receipt? : Note → Option Receipt
  | received receipt => some receipt
  | answered _ => none

/-- The call that is answered. -/
def Note.event? : Note → Option Event
  | received _ => none
  | answered event => some event

/-- The calls of a history in the order in which they are received. -/
def receiptsIn (history : List Note) : List Receipt := history.filterMap Note.receipt?

/-- The calls of a history in the order in which they are answered. -/
def answersIn (history : List Note) : List Event := history.filterMap Note.event?

theorem answersIn_received (history : List Note) (receipt : Receipt) :
    answersIn (history ++ [.received receipt]) = answersIn history := by
  rw [answersIn, List.filterMap_append]
  exact List.append_nil _

theorem answersIn_answered (history : List Note) (event : Event) :
    answersIn (history ++ [.answered event]) = answersIn history ++ [event] :=
  List.filterMap_append

/-- The notes of a call that is answered before the next one is received. -/
def Event.notes (e : Event) : List Note := [.received e.receipt, .answered e]

theorem receiptsIn_notes (events : List Event) :
    receiptsIn (events.flatMap Event.notes) = events.map Event.receipt := by
  rw [receiptsIn, List.filterMap_flatMap]
  exact List.map_eq_flatMap.symm

theorem answersIn_notes (events : List Event) :
    answersIn (events.flatMap Event.notes) = events := by
  rw [answersIn, List.filterMap_flatMap]
  exact List.flatMap_singleton' _

/-- The state of collaborators, and the history of their calls. -/
structure Attended (σ : Type) where
  state : σ
  history : List Note

/-- Makes a call, and notes it when it is received and when it is answered. -/
def Async.attend (receipt : Receipt) (event : α → Event) (call : Async σ α) :
    Async (Attended σ) α :=
  .act (fun w => { w with history := w.history ++ [.received receipt] }) fun _ => do
    let a ← call.within Attended.state fun w s => { w with state := s }
    .act (fun w => { w with history := w.history ++ [.answered (event a)] }) fun _ => .done a

/-- An engine whose calls are noted. -/
def Engine.attended (who : Party) (e : Engine (Async σ)) : Engine (Async (Attended σ)) where
  name := e.name
  resolve document step reference :=
    (e.resolve document step reference).attend ⟨who, some (document, step)⟩
      (.resolved who document step reference)
  clean document selectors :=
    (e.clean document selectors).attend ⟨who, none⟩ (.cleaned who document selectors)
  start := e.start.attend ⟨who, none⟩ (.started who <| succeeded ·)
  stop := e.stop.attend ⟨who, none⟩ (.stopped who <| succeeded ·)

/-- A pipeline whose calls are noted. -/
def Pipeline.attended (p : Pipeline (Async σ)) : Pipeline (Async (Attended σ)) where
  exec records request :=
    (p.exec records request).attend ⟨.pipeline, none⟩ (.filtered records request)
  start := p.start.attend ⟨.pipeline, none⟩ (.started .pipeline <| succeeded ·)
  stop := p.stop.attend ⟨.pipeline, none⟩ (.stopped .pipeline <| succeeded ·)

/-- A choice of an engine whose calls are noted. -/
def EngineChoice.attended : EngineChoice (Async σ) → EngineChoice (Async (Attended σ))
  | format f => format f
  | engine e => engine (e.attended .guest)

/-- A request whose engine has its calls noted. -/
def Request.attended (r : Request (Async σ)) : Request (Async (Attended σ)) :=
  ⟨r.schema, r.reference, r.engine.map EngineChoice.attended⟩

namespace Extractor

/-- An extractor whose collaborators have their calls noted. -/
def attended (x : Extractor (Async σ)) : Extractor (Async (Attended σ)) where
  structured := x.structured.attended (.engine .structured)
  markup := x.markup.attended (.engine .markup)
  pipeline := x.pipeline.attended
  settings := x.settings

/-- The history of the calls that are made when a request is served. -/
def history (x : Extractor (Async σ)) (document : Value) (request : Request (Async σ))
    (w : Scheduled σ) : List Note :=
  (Async.after (x.attended.execAsync document request.attended)
    ⟨⟨w.state, []⟩, w.schedule⟩).state.history

/-- The engine that serves a call is the one that serves it without notes being taken. -/
theorem select_attended (x : Extractor (Async σ)) (document : Value)
    (choice : Option (EngineChoice (Async σ))) :
    x.attended.engines.select document (choice.map EngineChoice.attended) =
      (x.engines.select document choice).attended (x.server document choice) := by
  have ofFormat (f : Format) :
      x.attended.engines.ofFormat f = (x.engines.ofFormat f).attended (.engine f) := by
    cases f <;> rfl
  match choice with
  | some (.engine e) => rfl
  | some (.format f) => exact ofFormat f
  | none => exact ofFormat _

end Extractor

/-! ## Taking notes changes nothing -/

/-- The state of collaborators whose calls are noted. -/
def Attended.Of (w : Attended σ) (s : σ) : Prop := w.state = s

theorem Attended.Of.noted {w : Attended σ} {s : σ} (h : w.Of s) (history : List Note) :
    { w with history }.Of s := h

namespace Async

variable {β : Type} {receipt : Receipt} {event : α → Event} {call : Async σ α}
  {f : α → Async (Attended σ) β}

theorem attend_bind : call.attend receipt event >>= f =
    .act (fun w => { w with history := w.history ++ [.received receipt] }) fun _ =>
      (call.within Attended.state fun w s => { w with state := s }) >>= fun a =>
        .act (fun w => { w with history := w.history ++ [.answered (event a)] }) fun _ => f a :=
  congrArg (Async.act _) <| funext fun _ =>
    bind_assoc (call.within Attended.state fun w s => { w with state := s }) _ f

/-- A call that is noted, and what is done with its answer, next to a call that is not. -/
theorem alike_attend {rel : Attended σ → τ → Prop} {call' : Async τ α} {g : α → Async τ β}
    (hreceived : ∀ w t, rel w t → rel { w with history := w.history ++ [.received receipt] } t)
    (hcall : Alike rel (call.within Attended.state fun w s => { w with state := s }) call')
    (hf : ∀ a w t, rel w t →
      Lockstep rel { w with history := w.history ++ [.answered (event a)] } (f a) t (g a)) :
    Alike rel (call.attend receipt event >>= f) (call' >>= g) := by
  intro w t hr
  rw [attend_bind]
  refine .left ((hcall _ t (hreceived w t hr)).bind fun a w t hr => ?_)
  exact .left (hf a w t hr)

end Async

namespace Extractor

variable (x : Extractor (Async σ))

theorem alike_evalStep_attended (engine : Engine (Async σ)) (who : Party)
    (document reference : Value) (step : Step) :
    Async.Alike Attended.Of
      (x.attended.evalStep (engine.attended who) document reference step).run
      (x.evalStep engine document reference step).run := by
  have hcall {α : Type} (call : Async σ α) : Async.Alike Attended.Of
      (call.within Attended.state fun w s => { w with state := s }) call :=
    Async.alike_within (fun _ _ h => h) (fun _ _ _ _ => rfl) call
  rw [evalStep_run, evalStep_run]
  refine Async.alike_attend (fun _ _ h => h) (hcall _) fun answer w s hr => ?_
  cases answer with
  | error e => exact .done (hr.noted _) _
  | ok raw =>
    dsimp only
    split
    · exact .done (hr.noted _) _
    · refine Async.alike_attend (fun _ _ h => h) (hcall _) (fun answer w s hr => ?_) _ _
        (hr.noted _)
      cases answer <;> exact .done (hr.noted _) _

/-- A request gives the same whether notes are taken or not, and leaves the same state. -/
theorem execAsync_attended (document : Value) (request : Request (Async σ)) (w : Scheduled σ) :
    let attended := x.attended.execAsync document request.attended
    let start : Scheduled (Attended σ) := ⟨⟨w.state, []⟩, w.schedule⟩
    Async.outcome attended start = Async.outcome (x.execAsync document request) w ∧
      (Async.after attended start).state.state =
        (Async.after (x.execAsync document request) w).state := by
  intro attended start
  have hsteps := fun element reference step => by
    have h := x.alike_evalStep_attended (x.engines.select document request.engine)
      (x.server document request.engine) element reference step
    rwa [← select_attended] at h
  have hserve :=
    alike_execAsync (x := x.attended) (y := x) rfl hsteps request.schema request.reference
  obtain ⟨houtcome, hstate, -⟩ := (hserve start w ⟨rfl, rfl⟩).run_eq
  exact ⟨houtcome, hstate⟩

end Extractor

/-! ## Calls that are answered before the next one is made -/

/-- An engine whose answers come at once. -/
def Engine.NeverSuspends (e : Engine (Async σ)) : Prop :=
  ∀ document step reference, (e.resolve document step reference).NeverSuspends

/-- A pipeline whose answers come at once. -/
def Pipeline.NeverSuspends (p : Pipeline (Async σ)) : Prop :=
  ∀ records request, (p.exec records request).NeverSuspends

/-- The calls of a journal, each of them received after the one before it was answered. -/
structure Attended.InTurn (w : Attended σ) (v : Watched σ) : Prop where
  state : w.state = v.state
  history : w.history = v.journal.flatMap Event.notes

theorem Async.matches_attend {may : Prop} {β : Type} {receipt : Receipt} {event : α → Event}
    {call : Async σ α} {f : α → Async (Attended σ) β} {g : α → StateM (Watched σ) β}
    (hreceipt : ∀ a, (event a).receipt = receipt) (hcall : ¬may → call.NeverSuspends)
    (hf : ∀ a, Matches may Attended.InTurn (f a) (g a)) :
    Matches may Attended.InTurn (call.attend receipt event >>= f) (watch event call.run >>= g) := by
  rintro ⟨s, history⟩ v ⟨rfl, rfl⟩
  have hrun := (call.straight_run hcall v.state).within Attended.state
    (fun w s => { w with state := s }) (fun _ => rfl) (fun _ _ => rfl) (fun _ _ _ => rfl)
    (t := ⟨v.state, v.journal.flatMap Event.notes ++ [.received receipt]⟩) rfl
  let answer := event (call.run.run v.state).1
  have hnotes : v.journal.flatMap Event.notes ++ [.received receipt] ++ [.answered answer] =
      (v.journal ++ [answer]).flatMap Event.notes := by
    rw [List.flatMap_append, List.append_assoc, ← hreceipt (call.run.run v.state).1]
    rfl
  obtain ⟨w', hrest, hr⟩ := hf (call.run.run v.state).1
    ⟨(call.run.run v.state).2,
      v.journal.flatMap Event.notes ++ [.received receipt] ++ [.answered answer]⟩
    ⟨(call.run.run v.state).2, v.journal ++ [answer]⟩ ⟨rfl, hnotes⟩
  refine ⟨w', ?_, hr⟩
  rw [attend_bind]
  exact .act (hrun.bind (.act hrest))

namespace Extractor

variable (x : Extractor (Async σ))

theorem matches_evalStep_attended (may : Prop) {engine : Engine (Async σ)} (who : Party)
    (hengine : ¬may → engine.NeverSuspends) (hpipeline : ¬may → x.pipeline.NeverSuspends)
    (document reference : Value) (step : Step) :
    Async.Matches may Attended.InTurn
      (x.attended.evalStep (engine.attended who) document reference step).run
      ((x.hoist Async.run).watched.evalStep ((engine.hoist Async.run).watched who) document
        reference step).run := by
  rw [evalStep_run, evalStep_run]
  refine Async.matches_attend (fun _ => rfl) (fun h => hengine h _ _ _) fun answer => ?_
  cases answer with
  | error e => exact Async.Matches.pure _
  | ok raw =>
    dsimp only
    split
    · exact Async.Matches.pure _
    · refine Async.matches_attend (fun _ => rfl) (fun h => hpipeline h _ _) fun answer => ?_
      cases answer <;> exact Async.Matches.pure _

theorem server_hoist {m n : Type → Type} (f : {α : Type} → m α → n α) (x : Extractor m)
    (document : Value) (choice : Option (EngineChoice m)) :
    (x.hoist f).server document (choice.map (EngineChoice.hoist f)) = x.server document choice := by
  match choice with
  | none | some (.format _) | some (.engine _) => rfl

/-- If the answers come at once, or tasks are run one at a time, then a request is served as it is
    by collaborators whose answers come at once, and every call is answered before the next one is
    received. -/
theorem history_eq (document : Value) (request : Request (Async σ)) (w : Scheduled σ)
    (h : x.settings.concurrency ≤ 1 ∨
      (x.engines.select document request.engine).NeverSuspends ∧ x.pipeline.NeverSuspends) :
    let y := x.hoist Async.run
    let journal := y.journal document (request.hoist Async.run) w.state
    Async.outcome (x.execAsync document request) w =
        Run.outcome (y.exec document (request.hoist Async.run)) w.state ∧
      x.history document request w = journal.flatMap Event.notes := by
  intro y journal
  have hsteps := fun element reference step => by
    have hstep := x.matches_evalStep_attended (x.settings.concurrency ≤ 1)
      (x.server document request.engine) (fun hm => (h.resolve_left hm).1)
      (fun hm => (h.resolve_left hm).2) element reference step
    rwa [← select_attended, ← select_hoist, ← x.server_hoist Async.run, ← select_watched] at hstep
  have hserve := straight_execAsync (x := x.attended) (y := y.watched) id hsteps request.schema
    request.reference
  obtain ⟨w', hrun, -, hhistory⟩ := hserve ⟨⟨w.state, []⟩, w.schedule⟩ ⟨w.state, []⟩ ⟨rfl, rfl⟩
  have hpair := hrun.run_eq
  obtain ⟨houtcome, -⟩ := x.execAsync_attended document request w
  obtain ⟨hshadow, -⟩ := y.exec_watched document (request.hoist Async.run) ⟨w.state, []⟩
  refine ⟨houtcome.symm.trans ((congrArg Prod.fst hpair).trans hshadow), ?_⟩
  exact (congrArg (fun pair => pair.2.state.history) hpair).trans hhistory

end Extractor
end SchemaExtraction
