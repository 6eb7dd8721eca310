import Mathlib.Data.List.Induction
import SchemaExtraction.Proofs.Extraction.Journal

/-!
# Starting and stopping under failure

An extractor is started and stopped in any order, and each of its collaborators may refuse. A
collaborator is running when the last of its starts and stops that succeeded is a start. A call
keeps its promise when it leaves all collaborators running, or none of them.

Results:
* `Extractor.fulfilled_iff_not_repeatsFailure`: a call that succeeds keeps its promise unless it
  repeats one of its kind that failed without keeping it.
* `Extractor.repeated_call_breaks_promise`: there are calls that do so.
-/

namespace SchemaExtraction

variable {σ α : Type}

/-- A call that starts or stops an extractor. -/
inductive LifecycleCall where
  | start
  | stop
deriving DecidableEq, Repr

/-- Whether the extractor counts as started after a call. -/
def LifecycleCall.target : LifecycleCall → Bool
  | start => true
  | stop => false

theorem LifecycleCall.eq_of_target_eq {c d : LifecycleCall} (h : c.target = d.target) : c = d := by
  cases c <;> cases d <;> simp_all [target]

/-! ## Who is running -/

/-- Whether a call leaves a collaborator running; a call that fails changes nothing. -/
def Event.running? (who : Party) : Event → Option Bool
  | started p true => if p = who then some true else none
  | stopped p true => if p = who then some false else none
  | _ => none

/-- Whether a collaborator has completed a start that no later stop has undone. -/
def isRunning (who : Party) (journal : List Event) : Bool :=
  journal.foldl (fun running e => (e.running? who).getD running) false

/-- The collaborators that an extractor starts and stops. -/
def Extractor.collaborators : List Party := [.pipeline, .engine .structured, .engine .markup]

/-- A start has left every collaborator running, a stop none. -/
def LifecycleCall.Fulfilled (c : LifecycleCall) (journal : List Event) : Prop :=
  ∀ who ∈ Extractor.collaborators, isRunning who journal = c.target

instance (c : LifecycleCall) (journal : List Event) : Decidable (c.Fulfilled journal) :=
  inferInstanceAs (Decidable (∀ who ∈ Extractor.collaborators, _))

/-! ## Sessions -/

/-- An extractor in use: whether it counts as started, and the collaborators. -/
structure Session (σ : Type) where
  lifecycle : Lifecycle
  collaborators : Watched σ

namespace Extractor

variable (x : Extractor (StateM σ))

/-- Makes a call in a session. -/
def perform (t : Session σ) (c : LifecycleCall) : Except ExtractionError Unit × Session σ :=
  let call := match c with
    | .start => x.watched.start t.lifecycle
    | .stop => x.watched.stop t.lifecycle
  let ((result, l), w) := call.run t.collaborators
  (result, ⟨l, w⟩)

/-- The session after some calls to an extractor that was never started. -/
def session (s : σ) (calls : List LifecycleCall) : Session σ :=
  calls.foldl (fun t c => (x.perform t c).2) ⟨.fresh, ⟨s, []⟩⟩

/-- What a call gives after some earlier calls. -/
def resultAfter (s : σ) (earlier : List LifecycleCall) (c : LifecycleCall) :
    Except ExtractionError Unit :=
  (x.perform (x.session s earlier) c).1

/-- The calls that the collaborators have received. -/
def journalAfter (s : σ) (calls : List LifecycleCall) : List Event :=
  (x.session s calls).collaborators.journal

/-- What a call does when it is not passed over. -/
def work : LifecycleCall → Run (Watched σ) Unit
  | .start => x.watched.startAll
  | .stop => x.watched.stopAll

/-- A call is passed over when the extractor already counts as what it should become. Whatever
    comes of the work, the extractor counts as started after a start and as stopped after a
    stop. -/
theorem perform_eq (t : Session σ) (c : LifecycleCall) :
    x.perform t c =
      if t.lifecycle.started = c.target then (.ok (), ⟨⟨c.target⟩, t.collaborators⟩)
      else
        ((x.work c).outcome t.collaborators, ⟨⟨c.target⟩, (x.work c).after t.collaborators⟩) := by
  obtain ⟨⟨b⟩, w⟩ := t
  cases c <;> cases b <;> rfl

/-! ## What the work comes to -/

/-- When a part succeeds, these are the calls that it has made. -/
def Makes (p : Run (Watched σ) Unit) (events : List Event) : Prop :=
  ∀ w, p.outcome w = .ok () → (p.after w).journal = w.journal ++ events

theorem Makes.bind {p q : Run (Watched σ) Unit} {es fs : List Event} (hp : Makes p es)
    (hq : Makes q fs) : Makes (p >>= fun _ => q) (es ++ fs) := by
  intro w h
  cases ho : p.outcome w with
  | error e => rw [(Run.bind_of_error ho).1] at h; cases h
  | ok a =>
    rw [(Run.bind_of_ok ho).1] at h
    rw [(Run.bind_of_ok ho).2, hq _ h, hp w ho, List.append_assoc]

theorem Makes.watch {ε : Type} (wrap : ε → ExtractionError) (event : Except ε Unit → Event)
    (call : StateM σ (Except ε Unit)) :
    Makes (lift wrap (watch event call)) [event (.ok ())] := by
  intro w h
  rcases Run.watch_cases wrap event call w with ⟨a, _, hj⟩ | ⟨e, ho, _⟩
  · exact hj
  · rw [ho] at h
    cases h

/-- Work that succeeds has reached every collaborator. -/
theorem makes_work (c : LifecycleCall) :
    Makes (x.work c) (collaborators.map fun who =>
      match c with
      | .start => .started who true
      | .stop => .stopped who true) := by
  cases c with
  | start =>
    exact Makes.bind (Makes.watch _ (fun answer => Event.started .pipeline (succeeded answer)) _)
      (Makes.bind (Makes.watch _ (fun answer => Event.started _ (succeeded answer)) _)
        (Makes.watch _ (fun answer => Event.started _ (succeeded answer)) _))
  | stop =>
    exact Makes.bind (Makes.watch _ (fun answer => Event.stopped .pipeline (succeeded answer)) _)
      (Makes.bind (Makes.watch _ (fun answer => Event.stopped _ (succeeded answer)) _)
        (Makes.watch _ (fun answer => Event.stopped _ (succeeded answer)) _))

theorem fulfilled_of_work {c : LifecycleCall} {w : Watched σ} (h : (x.work c).outcome w = .ok ()) :
    c.Fulfilled ((x.work c).after w).journal := by
  rw [x.makes_work c w h]
  generalize w.journal = journal
  intro who hwho
  simp only [collaborators, List.mem_cons, List.not_mem_nil, or_false] at hwho
  cases c <;> rcases hwho with rfl | rfl | rfl <;>
    simp [isRunning, collaborators, Event.running?, LifecycleCall.target]

/-! ## Sessions call by call -/

variable (s : σ)

theorem session_append (calls : List LifecycleCall) (c : LifecycleCall) :
    x.session s (calls ++ [c]) = (x.perform (x.session s calls) c).2 := by
  simp [session]

/-- An extractor counts as started after a start, and only then. -/
theorem started_append (calls : List LifecycleCall) (c : LifecycleCall) :
    (x.session s (calls ++ [c])).lifecycle.started = c.target := by
  rw [session_append, perform_eq]
  split <;> rfl

/-- A call that is passed over succeeds and reaches nobody. -/
theorem perform_of_started {earlier : List LifecycleCall} {c : LifecycleCall}
    (h : (x.session s earlier).lifecycle.started = c.target) :
    x.resultAfter s earlier c = .ok () ∧
      x.journalAfter s (earlier ++ [c]) = x.journalAfter s earlier := by
  unfold resultAfter journalAfter
  rw [session_append, perform_eq, if_pos h]
  exact ⟨rfl, rfl⟩

/-- A call that is not passed over keeps its promise if it succeeds. -/
theorem fulfilled_of_not_started {earlier : List LifecycleCall} {c : LifecycleCall}
    (hs : (x.session s earlier).lifecycle.started ≠ c.target)
    (h : x.resultAfter s earlier c = .ok ()) : c.Fulfilled (x.journalAfter s (earlier ++ [c])) := by
  unfold resultAfter at h
  unfold journalAfter
  rw [perform_eq, if_neg hs] at h
  rw [session_append, perform_eq, if_neg hs]
  exact x.fulfilled_of_work h

/-- Calls of a kind in a row reach nobody after the first one. -/
theorem journalAfter_repeats (before : List LifecycleCall) (c : LifecycleCall)
    {repeats : List LifecycleCall} (h : ∀ d ∈ repeats, d = c) :
    x.journalAfter s (before ++ c :: repeats) = x.journalAfter s (before ++ [c]) := by
  induction repeats generalizing before with
  | nil => rfl
  | cons d repeats ih =>
    obtain rfl : d = c := h d (by simp)
    have hr := ih (before ++ [d]) fun e he => h e (by simp [he])
    rw [List.append_assoc, List.singleton_append] at hr
    rw [hr]
    exact (x.perform_of_started s (x.started_append s before d)).2

/-! ## Promises -/

/-- A call repeats one of its kind that failed and did not keep its promise, with nothing but
    such calls in between. -/
def RepeatsFailure (earlier : List LifecycleCall) (c : LifecycleCall) : Prop :=
  ∃ before repeats, earlier = before ++ c :: repeats ∧ (∀ d ∈ repeats, d = c) ∧
    (∃ e, x.resultAfter s before c = .error e) ∧ ¬ c.Fulfilled (x.journalAfter s (before ++ [c]))

theorem RepeatsFailure.append {earlier : List LifecycleCall} {c : LifecycleCall}
    (h : x.RepeatsFailure s earlier c) : x.RepeatsFailure s (earlier ++ [c]) c := by
  obtain ⟨before, repeats, rfl, hr, he, hn⟩ := h
  refine ⟨before, repeats ++ [c], by simp, fun d hd => ?_, he, hn⟩
  rcases List.mem_append.1 hd with hd | hd
  · exact hr d hd
  · exact List.mem_singleton.1 hd

/-- A call that repeats a failure leaves its promise as it was. -/
theorem not_fulfilled_of_repeatsFailure {earlier : List LifecycleCall} {c : LifecycleCall}
    (h : x.RepeatsFailure s earlier c) : ¬ c.Fulfilled (x.journalAfter s (earlier ++ [c])) := by
  obtain ⟨before, repeats, rfl, hr, _, hn⟩ := h
  have hj :
      x.journalAfter s (before ++ c :: repeats ++ [c]) = x.journalAfter s (before ++ [c]) := by
    rw [List.append_assoc, List.cons_append]
    refine x.journalAfter_repeats s before c fun d hd => ?_
    rcases List.mem_append.1 hd with hd | hd
    · exact hr d hd
    · exact List.mem_singleton.1 hd
  rw [hj]
  exact hn

/-- A call that does not repeat a failure keeps its promise if it succeeds. -/
theorem fulfilled_of_not_repeatsFailure {earlier : List LifecycleCall} {c : LifecycleCall}
    (h : x.resultAfter s earlier c = .ok ()) (hr : ¬ x.RepeatsFailure s earlier c) :
    c.Fulfilled (x.journalAfter s (earlier ++ [c])) := by
  induction earlier using List.reverseRecOn with
  | nil =>
    cases c with
    | start => exact x.fulfilled_of_not_started s Bool.false_ne_true h
    | stop =>
      -- nobody runs before the first call
      rw [(x.perform_of_started s rfl).2]
      intro who _
      rfl
  | append_singleton init d ih =>
    by_cases hs : (x.session s (init ++ [d])).lifecycle.started = c.target
    · -- the call before was of the same kind, so this one is passed over
      rw [started_append] at hs
      obtain rfl := LifecycleCall.eq_of_target_eq hs
      rw [(x.perform_of_started s (x.started_append s init d)).2]
      cases hi : x.resultAfter s init d with
      | ok a => exact ih hi fun h' => hr (RepeatsFailure.append x s h')
      | error e =>
        by_contra hn
        exact hr ⟨init, [], rfl, by simp, ⟨e, hi⟩, hn⟩
    · exact x.fulfilled_of_not_started s hs h

/-- Exactly the calls that repeat a failure succeed without keeping their promise. -/
theorem fulfilled_iff_not_repeatsFailure (earlier : List LifecycleCall) (c : LifecycleCall)
    (h : x.resultAfter s earlier c = .ok ()) :
    c.Fulfilled (x.journalAfter s (earlier ++ [c])) ↔ ¬ x.RepeatsFailure s earlier c :=
  ⟨fun hf hr => x.not_fulfilled_of_repeatsFailure s hr hf, x.fulfilled_of_not_repeatsFailure s h⟩

/-- An engine that finds nothing, starts when `start` is set and stops when `stop` is set. -/
def stubbornEngine (start stop : Bool) : Engine (StateM Unit) where
  name := "stubborn"
  resolve _ _ _ := pure (.ok .null)
  clean document _ := pure (.ok document)
  start := pure (if start then .ok () else .error (.badSelector "stuck" ""))
  stop := pure (if stop then .ok () else .error (.badSelector "stuck" ""))

/-- An extractor whose engine for structured documents may refuse to start or to stop. -/
def stubborn (start stop : Bool) : Extractor (StateM Unit) where
  structured := stubbornEngine start stop
  markup := stubbornEngine true true
  pipeline := Pipeline.ofFunction fun records _ => .ok records
  settings := .standard

/-- A second start succeeds where the first one failed, and so does a second stop. -/
theorem repeated_call_breaks_promise :
    ((stubborn false true).resultAfter () [.start] .start = .ok () ∧
      ¬ LifecycleCall.start.Fulfilled ((stubborn false true).journalAfter () [.start, .start])) ∧
    ((stubborn true false).resultAfter () [.start, .stop] .stop = .ok () ∧
      ¬ LifecycleCall.stop.Fulfilled
        ((stubborn true false).journalAfter () [.start, .stop, .stop])) :=
  ⟨⟨rfl, by decide⟩, ⟨rfl, by decide⟩⟩

/-- A start that repeats one after a failed stop. -/
theorem fulfilled_iff_not_repeatsFailure_stubborn :
    (stubborn true false).resultAfter () [.start, .stop, .start] .start = .ok () ∧
      (LifecycleCall.start.Fulfilled
          ((stubborn true false).journalAfter () ([.start, .stop, .start] ++ [.start])) ↔
        ¬ (stubborn true false).RepeatsFailure () [.start, .stop, .start] .start) :=
  ⟨rfl, fulfilled_iff_not_repeatsFailure _ () _ .start rfl⟩

end Extractor
end SchemaExtraction
