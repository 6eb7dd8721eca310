import Mathlib.Data.List.Destutter
import SchemaExtraction.Proofs.Extraction.CallOrder
import SchemaExtraction.Proofs.Extraction.Lifecycle

/-!
# Starts and stops in turn

An extractor is started and stopped, and asked for documents in between, in any order. As long as
its collaborators do not refuse, each of them is started and stopped in turn, and all of them at the
same calls: those that change whether the extractor counts as started.

Results:
* `Extractor.lifecycleOf_exec`, `Extractor.lifecycleOf_clean`: serving a document starts and stops
  nobody.
* `Extractor.lifecycleOf_perform`: what a start or a stop reaches.
* `Extractor.lifecycle_alternates`: what the collaborators receive in a whole session.
-/

namespace SchemaExtraction

variable {σ : Type}

/-! ## Calls of all kinds -/

/-- A call to an extractor. -/
inductive Call (σ : Type) where
  | lifecycle (c : LifecycleCall)
  | exec (document : Value) (request : Request (StateM σ))
  | clean (document : Value) (selectors : List String)

/-- The start or stop that a call is. -/
def Call.lifecycle? : Call σ → Option LifecycleCall
  | lifecycle c => some c
  | _ => none

/-- The start or stop that somebody receives by a call. -/
def Event.lifecycle? (who : Party) : Event → Option LifecycleCall
  | started p _ => if p = who then some .start else none
  | stopped p _ => if p = who then some .stop else none
  | _ => none

/-- The starts and stops that somebody has received. -/
def lifecycleOf (who : Party) (journal : List Event) : List LifecycleCall :=
  journal.filterMap (Event.lifecycle? who)

theorem lifecycleOf_append (who : Party) (journal events : List Event) :
    lifecycleOf who (journal ++ events) = lifecycleOf who journal ++ lifecycleOf who events :=
  List.filterMap_append

/-- A call with a reference context is neither a start nor a stop. -/
theorem Event.lifecycle?_of_context? {e : Event} (h : e.context? ≠ none) (who : Party) :
    e.lifecycle? who = none := by
  cases e <;> first | rfl | exact absurd rfl h

/-- The collaborators of an extractor start and stop whenever they are asked to. -/
structure Extractor.NeverRefuses (x : Extractor (StateM σ)) : Prop where
  pipeline : ∀ s, (x.pipeline.start.run s).1 = .ok () ∧ (x.pipeline.stop.run s).1 = .ok ()
  engine : ∀ f s, ((x.engines.ofFormat f).start.run s).1 = .ok () ∧
    ((x.engines.ofFormat f).stop.run s).1 = .ok ()

namespace Extractor

variable (x : Extractor (StateM σ))

/-- Serves a call in a session. -/
def serve (t : Session σ) : Call σ → Session σ
  | .lifecycle c => (x.perform t c).2
  | .exec document request =>
    { t with collaborators := Run.after (x.watched.exec document request.watched) t.collaborators }
  | .clean document selectors =>
    { t with collaborators := Run.after (x.watched.clean document selectors) t.collaborators }

/-- The session after some calls to an extractor that was never started. -/
def sessionOf (s : σ) (calls : List (Call σ)) : Session σ :=
  calls.foldl x.serve ⟨.fresh, ⟨s, []⟩⟩

/-! ## Serving documents -/

variable (who : Party)

theorem lifecycleOf_exec (document : Value) (request : Request (StateM σ)) (w : Watched σ) :
    lifecycleOf who (Run.after (x.watched.exec document request.watched) w).journal =
      lifecycleOf who w.journal := by
  obtain ⟨events, values, hj, h⟩ := x.follows_exec document request w
  -- every call that is made for a request carries a context
  have hcontexts : events.map Event.context? <+:
      (Trace.ofCall document (values ++ []) request.schema).flatMap
        (Visit.contexts (x.server document request.engine) request.reference.entriesOf) := by
    have hnone := h []
    cases ho : Run.outcome (x.watched.exec document request.watched) w with
    | ok v =>
      rw [ho] at hnone
      exact ⟨[], (List.append_nil _).trans hnone.1.contexts_eq⟩
    | error e =>
      rw [ho] at hnone
      exact hnone.contexts_prefix
  have hquiet : lifecycleOf who events = [] := by
    refine List.filterMap_eq_nil_iff.2 fun e he => Event.lifecycle?_of_context? (fun hc => ?_) who
    obtain ⟨v, -, hv⟩ := List.mem_flatMap.1 (hcontexts.subset (List.mem_map_of_mem he))
    exact Visit.none_not_mem_contexts (hc ▸ hv)
  rw [hj, lifecycleOf_append, hquiet, List.append_nil]

theorem lifecycleOf_clean (document : Value) (selectors : List String) (w : Watched σ) :
    lifecycleOf who (Run.after (x.watched.clean document selectors) w).journal =
      lifecycleOf who w.journal := by
  have hselect := x.select_watched document none
  rw [Option.map_none] at hselect
  rw [clean, hselect]
  rcases Run.watch_cases .step (.cleaned (x.server document none) document selectors)
    ((x.engines.select document none).clean document selectors) w with
    ⟨v, -, hj⟩ | ⟨e, -, hj⟩
  all_goals
    rw [Engine.watched, hj, lifecycleOf_append]
    exact List.append_nil _

/-! ## Starts and stops -/

variable {x} {who}

theorem outcome_watch {ε : Type} (wrap : ε → ExtractionError) (event : Except ε Unit → Event)
    {call : StateM σ (Except ε Unit)} (h : ∀ s, (call.run s).1 = .ok ()) (w : Watched σ) :
    Run.outcome (lift wrap (watch event call)) w = .ok () :=
  congrArg (Except.mapError wrap) (h w.state)

theorem outcome_seq {p q : Run σ Unit} (hp : ∀ s, p.outcome s = .ok ())
    (hq : ∀ s, q.outcome s = .ok ()) (s : σ) : (p >>= fun _ => q).outcome s = .ok () :=
  (Run.bind_of_ok (hp s)).1.trans (hq _)

/-- The work of a start or a stop succeeds if nobody refuses. -/
theorem NeverRefuses.outcome_work (hx : x.NeverRefuses) (c : LifecycleCall) (w : Watched σ) :
    (x.work c).outcome w = .ok () := by
  cases c with
  | start =>
    have hpipeline := outcome_watch .filter
      (fun answer => Event.started .pipeline (succeeded answer)) fun s => (hx.pipeline s).1
    have hengine (f : Format) := outcome_watch .step
      (fun answer => Event.started (.engine f) (succeeded answer)) fun s => (hx.engine f s).1
    exact outcome_seq hpipeline (outcome_seq (hengine .structured) (hengine .markup)) w
  | stop =>
    have hpipeline := outcome_watch .filter
      (fun answer => Event.stopped .pipeline (succeeded answer)) fun s => (hx.pipeline s).2
    have hengine (f : Format) := outcome_watch .step
      (fun answer => Event.stopped (.engine f) (succeeded answer)) fun s => (hx.engine f s).2
    exact outcome_seq hpipeline (outcome_seq (hengine .structured) (hengine .markup)) w

/-- A start or a stop reaches every collaborator once, unless the extractor already counts as what
    it should become. -/
theorem lifecycleOf_perform (hx : x.NeverRefuses) (hwho : who ∈ collaborators) (t : Session σ)
    (c : LifecycleCall) : lifecycleOf who (x.perform t c).2.collaborators.journal =
      lifecycleOf who t.collaborators.journal ++
        if t.lifecycle.started = c.target then [] else [c] := by
  rw [perform_eq]
  split
  case isTrue => exact (List.append_nil _).symm
  case isFalse =>
    rw [x.makes_work c t.collaborators (hx.outcome_work c t.collaborators), lifecycleOf_append]
    simp only [collaborators, List.mem_cons, List.not_mem_nil, or_false] at hwho
    cases c <;> rcases hwho with rfl | rfl | rfl <;> rfl

/-- What happens in a session from a point on at which the last start or stop is known: everybody
    receives the starts and stops that are not like the one before. -/
theorem received_of_started (hx : x.NeverRefuses) (calls : List (Call σ)) {t : Session σ}
    {last : LifecycleCall} (ht : t.lifecycle.started = last.target) :
    ∃ received, last :: received = (calls.filterMap Call.lifecycle?).destutter' (· ≠ ·) last ∧
      (∀ who ∈ collaborators, lifecycleOf who (calls.foldl x.serve t).collaborators.journal =
        lifecycleOf who t.collaborators.journal ++ received) ∧
      (calls.foldl x.serve t).lifecycle.started = (received.getLast?.getD last).target := by
  induction calls generalizing t last with
  | nil => exact ⟨[], rfl, fun who _ => (List.append_nil _).symm, ht⟩
  | cons call calls ih =>
    rw [List.foldl_cons]
    cases call with
    | lifecycle c =>
      have hstarted : (x.serve t (.lifecycle c)).lifecycle.started = c.target := by
        rw [serve, perform_eq]
        split <;> rfl
      obtain ⟨received, hlist, hjournal, hflag⟩ := ih hstarted
      have hcons : (Call.lifecycle c :: calls).filterMap Call.lifecycle? =
          c :: calls.filterMap Call.lifecycle? := rfl
      rw [hcons]
      -- a call like the last one reaches nobody, any other one everybody
      by_cases hc : last = c
      · subst hc
        refine ⟨received, ?_, fun who hwho => ?_, hflag⟩
        · rw [List.destutter'_cons_neg _ (not_not_intro rfl), hlist]
        · rw [hjournal who hwho, serve, lifecycleOf_perform hx hwho, if_pos ht, List.append_nil]
      · refine ⟨c :: received, ?_, fun who hwho => ?_, ?_⟩
        · rw [List.destutter'_cons_pos _ hc, hlist]
        · have hne : t.lifecycle.started ≠ c.target := fun h =>
            hc (LifecycleCall.eq_of_target_eq (ht.symm.trans h))
          rw [hjournal who hwho, serve, lifecycleOf_perform hx hwho, if_neg hne, List.append_assoc,
            List.singleton_append]
        · rw [hflag, List.getLast?_cons, Option.getD_some]
    | exec document request =>
      obtain ⟨received, hlist, hjournal, hflag⟩ := ih (t := x.serve t (.exec document request)) ht
      refine ⟨received, hlist, fun who hwho => ?_, hflag⟩
      rw [hjournal who hwho, serve, lifecycleOf_exec]
    | clean document selectors =>
      obtain ⟨received, hlist, hjournal, hflag⟩ :=
        ih (t := x.serve t (.clean document selectors)) ht
      refine ⟨received, hlist, fun who hwho => ?_, hflag⟩
      rw [hjournal who hwho, serve, lifecycleOf_clean]

/-- When nobody refuses, all collaborators receive the same starts and stops in a session, in turn
    and beginning with a start, and the extractor counts as started while the last of them is a
    start. They are the starts and stops of the session that are not like the one before, an
    extractor being stopped before its first one. -/
theorem lifecycle_alternates (hx : x.NeverRefuses) (s : σ) (calls : List (Call σ)) :
    let t := x.sessionOf s calls
    ∃ history : List LifecycleCall,
      (∀ who ∈ collaborators, lifecycleOf who t.collaborators.journal = history) ∧
      history.IsChain (· ≠ ·) ∧ (∀ c ∈ history.head?, c = .start) ∧
      (t.lifecycle.started = true ↔ history.getLast? = some .start) ∧
      .stop :: history = (calls.filterMap Call.lifecycle?).destutter' (· ≠ ·) .stop := by
  intro t
  have hfresh : (⟨.fresh, ⟨s, []⟩⟩ : Session σ).lifecycle.started = LifecycleCall.stop.target := rfl
  obtain ⟨history, hlist, hjournal, hflag⟩ := received_of_started hx calls hfresh
  have hchain : (.stop :: history : List LifecycleCall).IsChain (· ≠ ·) := by
    rw [hlist]
    exact List.isChain_destutter' _ _ _
  refine ⟨history, hjournal, hchain.tail, fun c hc => ?_, ?_, hlist⟩
  · cases c with
    | start => rfl
    | stop => exact absurd rfl (hchain.rel_head? hc)
  · rw [show t.lifecycle.started = _ from hflag]
    cases hlast : history.getLast? with
    | none => exact ⟨nofun, nofun⟩
    | some c => cases c <;> simp [LifecycleCall.target]

/-- A stop and a start that change nothing are passed on to nobody. -/
theorem lifecycle_alternates_busy :
    let x := stubborn true true
    let schema := (Schema.ofScope [Step.ofSelector "a"]).withSteps "b" [Step.ofSelector "b"]
    let calls := [.lifecycle .stop, .lifecycle .start, .exec (.str "a") ⟨some schema, .null, none⟩,
      .lifecycle .start, .clean (.str "a") ["b"], .lifecycle .stop, .lifecycle .start]
    let t := x.sessionOf () calls
    x.NeverRefuses ∧
      (∀ who ∈ collaborators,
        lifecycleOf who t.collaborators.journal = [.start, .stop, .start]) ∧
      t.lifecycle.started = true := by
  intro x schema calls t
  have hx : x.NeverRefuses := ⟨fun _ => ⟨rfl, rfl⟩, fun f _ => by cases f <;> exact ⟨rfl, rfl⟩⟩
  obtain ⟨history, hjournal, -, -, hstarted, hlist⟩ := lifecycle_alternates hx () calls
  obtain rfl : history = [.start, .stop, .start] := (List.cons.inj hlist).2
  exact ⟨hx, hjournal, hstarted.2 rfl⟩

end Extractor
end SchemaExtraction
