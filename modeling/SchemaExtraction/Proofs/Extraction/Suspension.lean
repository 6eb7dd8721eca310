import SchemaExtraction.Extraction.Hoisting
import SchemaExtraction.Proofs.Extraction.Agreement

/-!
# Computations that suspend

Extractions over collaborators that may suspend are compared in two ways. Two computations are
alike if they suspend at the same points, where their states are related; they are then alike as
tasks too, in the same surroundings. And a computation comes straight to its end if the turns that
the surroundings give make no difference to it, which is so if one task at most is under way at a
time, and if no call suspends.

Results:
* `Async.Lockstep.run_eq`, `Async.Lockstep.poll`: computations that are alike.
* `Async.alike`: being alike is a simulation.
* `Async.Straight.run_eq`, `Async.Straight.poll`: computations that come straight to their end.
* `Async.straight`: coming straight to one's end is a simulation.
* `Extractor.evalStep_scheduled`: the steps of an extraction in surroundings.
* `Extractor.simulates_execAsync`, `Extractor.alike_execAsync`, `Extractor.straight_execAsync`:
  requests, if the steps compare.
-/

namespace SchemaExtraction

variable {σ τ α β : Type}

/-- States are related, and the turns that are given are the same. -/
def Scheduled.Rel (rel : σ → τ → Prop) (v : Scheduled σ) (w : Scheduled τ) : Prop :=
  rel v.state w.state ∧ v.schedule = w.schedule

namespace Async

instance : LawfulMonad (Async σ) :=
  LawfulMonad.mk' (Async σ)
    (by
      intro α p
      induction p with
      | done a => rfl
      | act after next ih => exact congrArg (act after) (funext ih)
      | suspend rest ih => exact congrArg suspend ih)
    (fun _ _ => rfl)
    (by
      intro α β γ p f g
      induction p with
      | done a => rfl
      | act after next ih => exact congrArg (act after) (funext ih)
      | suspend rest ih => exact congrArg suspend ih)

theorem within_bind (get : τ → σ) (set : τ → σ → τ) (p : Async σ α) (f : α → Async σ β) :
    (p >>= f).within get set = p.within get set >>= fun a => (f a).within get set := by
  induction p with
  | done a => rfl
  | act after next ih => exact congrArg (act _) (funext fun t => ih (get t))
  | suspend rest ih => exact congrArg suspend ih

/-- A part of a part is a part. -/
theorem within_within {υ : Type} (get : τ → σ) (set : τ → σ → τ) (get' : υ → τ) (set' : υ → τ → υ)
    (p : Async σ α) : (p.within get set).within get' set' =
      p.within (fun u => get (get' u)) fun u s => set' u (set (get' u) s) := by
  induction p with
  | done a => rfl
  | act after next ih => exact congrArg (act _) (funext fun u => ih (get (get' u)))
  | suspend rest ih => exact congrArg suspend ih

/-! ## Computations that are alike -/

theorem forall₂_getElem? {R : α → β → Prop} {as : List α} {bs : List β} (h : List.Forall₂ R as bs)
    (i : Nat) : Option.Rel R as[i]? bs[i]? := by
  induction h generalizing i with
  | nil => exact .none
  | cons hab _ ih =>
    cases i with
    | zero => exact .some hab
    | succ i => exact ih i

theorem forall₂_set {R : α → β → Prop} {as : List α} {bs : List β} (h : List.Forall₂ R as bs)
    {a : α} {b : β} (hab : R a b) (i : Nat) : List.Forall₂ R (as.set i a) (bs.set i b) := by
  induction h generalizing i with
  | nil => exact .nil
  | cons h hs ih =>
    cases i with
    | zero => exact .cons hab hs
    | succ i => exact .cons h (ih i)

/-- Two computations, each from a state, suspend and end at the same points, with the same value in
    the end. Their states are related there, and they go on in the same way whatever related states
    they find then. -/
inductive Lockstep (rel : σ → τ → Prop) : σ → Async σ α → τ → Async τ α → Prop
  | done {s : σ} {t : τ} (h : rel s t) (a : α) : Lockstep rel s (done a) t (done a)
  | left {s : σ} {t : τ} {after : σ → σ} {next : σ → Async σ α} {q : Async τ α}
      (h : Lockstep rel (after s) (next s) t q) : Lockstep rel s (act after next) t q
  | right {s : σ} {t : τ} {p : Async σ α} {after : τ → τ} {next : τ → Async τ α}
      (h : Lockstep rel s p (after t) (next t)) : Lockstep rel s p t (act after next)
  | suspend {s : σ} {t : τ} {p : Async σ α} {q : Async τ α} (h : rel s t)
      (hrest : ∀ s t, rel s t → Lockstep rel s p t q) : Lockstep rel s (suspend p) t (suspend q)

/-- Two computations are in lockstep from all related states. -/
def Alike (rel : σ → τ → Prop) (p : Async σ α) (q : Async τ α) : Prop :=
  ∀ s t, rel s t → Lockstep rel s p t q

/-- Two started tasks have the same result, or what is left to do of them is alike. -/
inductive Task.Alike (rel : σ → τ → Prop) : Task σ α → Task τ α → Prop
  | suspended {p : ExceptT ExtractionError (Async σ) α} {q : ExceptT ExtractionError (Async τ) α}
      (h : Async.Alike rel p.run q.run) : Alike rel (.suspended p) (.suspended q)
  | finished (result : Except ExtractionError α) :
      Alike rel (.finished result) (.finished result)

variable {rel : σ → τ → Prop}

theorem Lockstep.run_eq {s : σ} {t : τ} {p : Async σ α} {q : Async τ α}
    (h : Lockstep rel s p t q) :
    (p.run.run s).1 = (q.run.run t).1 ∧ rel (p.run.run s).2 (q.run.run t).2 := by
  induction h with
  | done h a => exact ⟨rfl, h⟩
  | left _ ih => exact ih
  | right _ ih => exact ih
  | suspend h _ ih => exact ih _ _ h

theorem Lockstep.bind {s : σ} {t : τ} {p : Async σ α} {q : Async τ α} {f : α → Async σ β}
    {g : α → Async τ β} (h : Lockstep rel s p t q) (hf : ∀ a, Alike rel (f a) (g a)) :
    Lockstep rel s (p >>= f) t (q >>= g) := by
  induction h with
  | done h a => exact hf a _ _ h
  | left _ ih => exact .left ih
  | right _ ih => exact .right ih
  | suspend h _ ih => exact .suspend h ih

/-- Tasks that are alike are so far along at the same time. -/
theorem Lockstep.poll {s : σ} {t : τ} {p : Async σ (Except ExtractionError α)}
    {q : Async τ (Except ExtractionError α)} {k : Task σ α → Async σ β} {k' : Task τ α → Async τ β}
    (h : Lockstep rel s p t q)
    (hk : ∀ task task', Task.Alike rel task task' → Alike rel (k task) (k' task')) :
    Lockstep rel s (poll p k) t (poll q k') := by
  induction h with
  | done h result => exact hk _ _ (.finished result) _ _ h
  | left _ ih => exact .left ih
  | right _ ih => exact .right ih
  | suspend h hrest _ => exact .suspend h (hk _ _ (.suspended hrest))

namespace Alike

theorem pure (a : α) : Alike rel (pure a) (pure a) := fun _ _ h => .done h a

theorem bind {p : Async σ α} {q : Async τ α} {f : α → Async σ β} {g : α → Async τ β}
    (h : Alike rel p q) (hf : ∀ a, Alike rel (f a) (g a)) : Alike rel (p >>= f) (q >>= g) :=
  fun s t hr => (h s t hr).bind hf

/-- The same for computations that may fail. -/
theorem bindExcept {p : ExceptT ExtractionError (Async σ) α}
    {q : ExceptT ExtractionError (Async τ) α} {f : α → ExceptT ExtractionError (Async σ) β}
    {g : α → ExceptT ExtractionError (Async τ) β} (h : Alike rel p.run q.run)
    (hf : ∀ a, Alike rel (f a).run (g a).run) : Alike rel (p >>= f).run (q >>= g).run := by
  rw [ExceptT.run_bind, ExceptT.run_bind]
  refine h.bind fun result => ?_
  cases result with
  | error e => exact pure (Except.error e)
  | ok a => exact hf a

theorem mapExcept {p : ExceptT ExtractionError (Async σ) α}
    {q : ExceptT ExtractionError (Async τ) α} (h : Alike rel p.run q.run) (f : α → β) :
    Alike rel (f <$> p).run (f <$> q).run := by
  rw [← bind_pure_comp, ← bind_pure_comp]
  exact bindExcept h fun a => pure (Except.ok (f a))

theorem inOrder {tasks : List (ExceptT ExtractionError (Async σ) α)}
    {tasks' : List (ExceptT ExtractionError (Async τ) α)}
    (h : List.Forall₂ (fun p q => Alike rel p.run q.run) tasks tasks') :
    Alike rel (inOrder tasks).run (inOrder tasks').run := by
  induction h with
  | nil => exact pure (Except.ok [])
  | cons hp _ ih => exact bindExcept hp fun a => bindExcept ih fun as => pure (Except.ok (a :: as))

end Alike

/-- Tasks that are alike hand over the same results. -/
theorem handOver_alike {started : List (Task σ α)} {started' : List (Task τ α)}
    (h : List.Forall₂ (Task.Alike rel) started started') :
    (∃ e, handOver started = .error e ∧ handOver started' = .error e) ∨
      ∃ as rest rest', handOver started = .ok (as, rest) ∧ handOver started' = .ok (as, rest') ∧
        List.Forall₂ (Task.Alike rel) rest rest' := by
  induction h with
  | nil => exact Or.inr ⟨[], [], [], rfl, rfl, .nil⟩
  | cons htask hrest ih =>
    cases htask with
    | suspended hp => exact Or.inr ⟨[], _, _, rfl, rfl, .cons (.suspended hp) hrest⟩
    | finished result =>
      cases result with
      | error e => exact Or.inl ⟨e, rfl, rfl⟩
      | ok a =>
        rcases ih with ⟨e, h, h'⟩ | ⟨as, rest, rest', h, h', hr⟩
        · exact Or.inl ⟨e, by rw [handOver, h]; rfl, by rw [handOver, h']; rfl⟩
        · exact Or.inr
            ⟨a :: as, rest, rest', by rw [handOver, h]; rfl, by rw [handOver, h']; rfl, hr⟩

theorem Task.Alike.rest {task : Task σ α} {task' : Task τ α} (h : Task.Alike rel task task') :
    Async.Alike rel task.rest.run task'.rest.run := by
  cases h with
  | suspended h => exact h
  | finished result => exact Async.Alike.pure result

/-- Tasks that are alike take their turns together. -/
theorem takeTurns_alike (limit : Nat) (turns : List Nat) {started : List (Task σ α)}
    {started' : List (Task τ α)} {waiting : List (ExceptT ExtractionError (Async σ) α)}
    {waiting' : List (ExceptT ExtractionError (Async τ) α)}
    (hs : List.Forall₂ (Task.Alike rel) started started')
    (hw : List.Forall₂ (fun p q => Alike rel p.run q.run) waiting waiting') :
    Alike rel (takeTurns limit turns started waiting).run
      (takeTurns limit turns started' waiting').run := by
  induction turns generalizing started started' waiting waiting' with
  | nil => exact Alike.inOrder (List.rel_append (List.rel_map (fun _ _ h => h.rest) hs) hw)
  | cons turn turns ih =>
    rw [takeTurns, takeTurns]
    rcases handOver_alike hs with ⟨e, h, h'⟩ | ⟨as, rest, rest', h, h', hr⟩
    · rw [h, h']
      exact Alike.pure (Except.error e)
    rw [h, h']
    refine Alike.mapExcept ?_ (as ++ ·)
    -- the turn is for a task under way or, if it is for none of them, for the next one
    have hturn := forall₂_getElem? hr turn
    revert hturn
    generalize rest[turn]? = task, rest'[turn]? = task'
    rintro (⟨hp | result⟩ | _)
    · exact fun s t h => (hp s t h).poll fun task task' ht => ih (forall₂_set hr ht turn) hw
    · exact ih hr hw
    · cases hw with
      | nil => exact ih hr .nil
      | cons hp hw =>
        dsimp only
        rw [hr.length_eq]
        split
        · exact fun s t h => (hp s t h).poll fun task task' ht =>
            ih (List.rel_append hr (.cons ht .nil)) hw
        · exact ih hr (.cons hp hw)

/-- Being alike is a simulation, in the same surroundings. -/
def alike (rel : σ → τ → Prop) {limit limit' : Nat} (hlimit : limit = limit') :
    Simulation (Async (Scheduled σ)) (Async (Scheduled τ)) limit limit' where
  rel p q := Alike (Scheduled.Rel rel) p.run q.run
  pure a := Alike.pure (Except.ok a)
  throw e := Alike.pure (Except.error e)
  bind := Alike.bindExcept
  buffered := by
    subst hlimit
    rintro α tasks tasks' h ⟨s, schedule⟩ ⟨t, _⟩ ⟨hr, rfl⟩
    exact .left (.right (takeTurns_alike limit _ .nil h _ _ ⟨hr, rfl⟩))

/-! ## Computations that come straight to their end -/

/-- From a state a computation gives a value and leaves a state, and whatever may be done where it
    suspends is not done. Whether it may suspend at all is up to `may`. -/
inductive Straight (may : Prop) : σ → Async σ α → α → σ → Prop
  | done (s : σ) (a : α) : Straight may s (done a) a s
  | act {s s' : σ} {a : α} {after : σ → σ} {next : σ → Async σ α}
      (h : Straight may (after s) (next s) a s') : Straight may s (act after next) a s'
  | suspend {s s' : σ} {a : α} {rest : Async σ α} (hm : may) (h : Straight may s rest a s') :
      Straight may s (suspend rest) a s'

/-- A started task comes straight to its result. -/
inductive Task.Straight (may : Prop) : σ → Task σ α → Except ExtractionError α → σ → Prop
  | suspended {s s' : σ} {rest : ExceptT ExtractionError (Async σ) α}
      {result : Except ExtractionError α} (hm : may) (h : Async.Straight may s rest.run result s') :
      Straight may s (.suspended rest) result s'
  | finished (s : σ) (result : Except ExtractionError α) :
      Straight may s (.finished result) result s

/-- From a state a computation comes straight to the value that a call, answered at once from
    another state, gives. The states that they leave are related. -/
def Settles (may : Prop) (rel : σ → τ → Prop) (s : σ) (p : Async σ α) (t : τ) (q : StateM τ α) :
    Prop :=
  ∃ s', Straight may s p (q.run t).1 s' ∧ rel s' (q.run t).2

/-- From related states a computation comes straight to what a call gives. -/
def Matches (may : Prop) (rel : σ → τ → Prop) (p : Async σ α) (q : StateM τ α) : Prop :=
  ∀ s t, rel s t → Settles may rel s p t q

variable {may : Prop}

theorem Straight.run_eq {s s' : σ} {p : Async σ α} {a : α} (h : Straight may s p a s') :
    p.run.run s = (a, s') := by
  induction h with
  | done s a => rfl
  | act _ ih => exact ih
  | suspend _ _ ih => exact ih

/-- A computation that never suspends. -/
def NeverSuspends : Async σ α → Prop
  | done _ => True
  | act _ next => ∀ s, (next s).NeverSuspends
  | suspend _ => False

theorem straight_run (p : Async σ α) (h : ¬may → p.NeverSuspends) (s : σ) :
    Straight may s p (p.run.run s).1 (p.run.run s).2 := by
  induction p generalizing s with
  | done a => exact .done s a
  | act after next ih => exact .act (ih s (fun hm => h hm s) (after s))
  | suspend rest ih =>
    have hm : may := Classical.byContradiction h
    exact .suspend hm (ih (absurd hm) s)

theorem Straight.bind {s s' s'' : σ} {p : Async σ α} {f : α → Async σ β} {a : α} {b : β}
    (h : Straight may s p a s') (hf : Straight may s' (f a) b s'') :
    Straight may s (p >>= f) b s'' := by
  induction h with
  | done s a => exact hf
  | act _ ih => exact .act (ih hf)
  | suspend hm _ ih => exact .suspend hm (ih hf)

namespace Settles

variable {s : σ} {t : τ}

theorem bind {p : Async σ α} {q : StateM τ α} {f : α → Async σ β} {g : α → StateM τ β}
    (h : Settles may rel s p t q) (hf : ∀ a, Matches may rel (f a) (g a)) :
    Settles may rel s (p >>= f) t (q >>= g) := by
  obtain ⟨s', hp, hr⟩ := h
  obtain ⟨s'', ha, hr'⟩ := hf _ _ _ hr
  exact ⟨s'', hp.bind ha, hr'⟩

/-- The same for computations that may fail. -/
theorem bindExcept {p : ExceptT ExtractionError (Async σ) α} {q : Run τ α}
    {f : α → ExceptT ExtractionError (Async σ) β} {g : α → Run τ β}
    (h : Settles may rel s p.run t q.run) (hf : ∀ a, Matches may rel (f a).run (g a).run) :
    Settles may rel s (p >>= f).run t (q >>= g).run := by
  rw [ExceptT.run_bind, ExceptT.run_bind]
  refine h.bind fun result => ?_
  cases result with
  | error e => exact fun s t h => ⟨s, .done s _, h⟩
  | ok a => exact hf a

/-- A task that has not been finished goes on as long as it is its turn, and what comes after it
    is settled wherever it suspends. -/
theorem poll {s' : σ} {p : Async σ (Except ExtractionError α)} {result : Except ExtractionError α}
    {k : Task σ α → Async σ β} {q : StateM τ β} (h : Straight may s p result s')
    (hk : ∀ s task, Task.Straight may s task result s' → Settles may rel s (k task) t q) :
    Settles may rel s (poll p k) t q := by
  induction h with
  | done s result => exact hk _ _ (.finished s result)
  | act _ ih =>
    obtain ⟨s'', h, hr⟩ := ih hk
    exact ⟨s'', .act h, hr⟩
  | suspend hm h _ =>
    obtain ⟨s'', h, hr⟩ := hk _ _ (.suspended hm h)
    exact ⟨s'', .suspend hm h, hr⟩

end Settles

namespace Matches

theorem pure (a : α) : Matches may rel (pure a) (pure a) := fun s _ h => ⟨s, .done s a, h⟩

theorem bindExcept {p : ExceptT ExtractionError (Async σ) α} {q : Run τ α}
    {f : α → ExceptT ExtractionError (Async σ) β} {g : α → Run τ β}
    (h : Matches may rel p.run q.run) (hf : ∀ a, Matches may rel (f a).run (g a).run) :
    Matches may rel (p >>= f).run (q >>= g).run :=
  fun s t hr => (h s t hr).bindExcept hf

theorem inOrder {tasks : List (ExceptT ExtractionError (Async σ) α)} {tasks' : List (Run τ α)}
    (h : List.Forall₂ (fun p q => Matches may rel p.run q.run) tasks tasks') :
    Matches may rel (inOrder tasks).run (inOrder tasks').run := by
  induction h with
  | nil => exact pure (Except.ok [])
  | cons hp _ ih => exact bindExcept hp fun a => bindExcept ih fun as => pure (Except.ok (a :: as))

end Matches

/-- The result of a task that is finished first is handed over. -/
theorem takeTurns_finished (limit : Nat) (turns : List Nat) (a : α) (started : List (Task σ α))
    (waiting : List (ExceptT ExtractionError (Async σ) α)) :
    takeTurns limit turns (.finished (.ok a) :: started) waiting =
      (a :: ·) <$> takeTurns limit turns started waiting := by
  cases turns with
  | nil => exact bind_pure_comp (a :: ·) (inOrder (started.map Task.rest ++ waiting))
  | cons turn turns =>
    rw [takeTurns, takeTurns, handOver]
    cases handOver started with
    | error e => rfl
    | ok rest =>
      obtain ⟨as, rest⟩ := rest
      exact comp_map (as ++ ·) (a :: ·) _

/-- A failure of the first task is that of all. -/
theorem takeTurns_failed (limit : Nat) (turns : List Nat) (e : ExtractionError)
    (started : List (Task σ α)) (waiting : List (ExceptT ExtractionError (Async σ) α)) :
    takeTurns limit turns (.finished (.error e) :: started) waiting = throw e := by
  cases turns with
  | nil => rfl
  | cons turn turns => rfl

theorem nil_append_map (p : ExceptT ExtractionError (Async σ) (List α)) :
    (([] : List α) ++ ·) <$> p = p := id_map p

/-- A task that has its result settles what it is the first of. -/
theorem takeTurns_settles_finished {limit : Nat} {turns : List Nat}
    {waiting : List (ExceptT ExtractionError (Async σ) α)} {waiting' : List (Run τ α)}
    (h : Matches may rel (takeTurns limit turns [] waiting).run (inOrder waiting').run)
    {s : σ} {t : τ} (hr : rel s t) (result : Except ExtractionError α) :
    Settles may rel s (takeTurns limit turns [.finished result] waiting).run t
      (inOrder (ExceptT.mk (pure result) :: waiting')).run := by
  cases result with
  | error e =>
    rw [takeTurns_failed]
    exact ⟨s, .done s _, hr⟩
  | ok a =>
    rw [takeTurns_finished, ← bind_pure_comp]
    exact (h s t hr).bindExcept fun as => Matches.pure (Except.ok (a :: as))

/-- One task at most is under way, where tasks that suspend leave no room for another. -/
theorem takeTurns_settles {limit : Nat} (hlimit : may → limit ≤ 1) (turns : List Nat)
    {waiting : List (ExceptT ExtractionError (Async σ) α)} {waiting' : List (Run τ α)}
    (hw : List.Forall₂ (fun p q => Matches may rel p.run q.run) waiting waiting') :
    Matches may rel (takeTurns limit turns [] waiting).run (inOrder waiting').run ∧
      ∀ {s s' t} (task : Task σ α) {result : Except ExtractionError α},
        Task.Straight may s task result s' → rel s' t →
          Settles may rel s (takeTurns limit turns [task] waiting).run t
            (inOrder (ExceptT.mk (pure result) :: waiting')).run := by
  induction turns generalizing waiting waiting' with
  | nil =>
    have hnone := Matches.inOrder hw
    refine ⟨hnone, fun task result ht hr => ?_⟩
    cases ht with
    | suspended hm h =>
      refine Settles.bindExcept ⟨_, h, hr⟩ fun a => ?_
      exact hnone.bindExcept fun as => Matches.pure (Except.ok (a :: as))
    | finished => exact takeTurns_settles_finished hnone hr result
  | cons turn turns ih =>
    have hnone : Matches may rel (takeTurns limit (turn :: turns) [] waiting).run
        (inOrder waiting').run := by
      intro s t hr
      rw [takeTurns]
      simp only [handOver, nil_append_map]
      cases hw with
      | nil => exact (ih .nil).1 s t hr
      | cons hp hw =>
        dsimp only [List.getElem?_nil]
        split
        · obtain ⟨s', h, hr'⟩ := hp s t hr
          exact Settles.poll h fun s₁ task ht => (ih hw).2 task ht hr'
        · exact (ih (.cons hp hw)).1 s t hr
    refine ⟨hnone, fun {s s' t} task result ht hr => ?_⟩
    cases ht with
    | finished => exact takeTurns_settles_finished hnone hr result
    | suspended hm h =>
      rw [takeTurns]
      simp only [handOver, nil_append_map]
      cases turn with
      | zero => exact Settles.poll h fun s₁ task ht => (ih hw).2 task ht hr
      | succ turn =>
        -- the turn is not for the task under way, and there is no room for another one
        have hroom : ¬1 < limit := Nat.not_lt.2 (hlimit hm)
        cases hw with
        | nil => exact (ih .nil).2 _ (.suspended hm h) hr
        | cons hp hw =>
          dsimp only [List.getElem?_cons_succ, List.getElem?_nil, List.length_singleton]
          rw [if_neg hroom]
          exact (ih (.cons hp hw)).2 _ (.suspended hm h) hr

/-- Coming straight to one's end is a simulation, where tasks that suspend are run one at a time. -/
def straight (may : Prop) (rel : σ → τ → Prop) {limit : Nat} (hlimit : may → limit ≤ 1)
    (limit' : Nat) : Simulation (Async (Scheduled σ)) (StateM τ) limit limit' where
  rel p q := Matches may (fun w t => rel w.state t) p.run q.run
  pure a := Matches.pure (Except.ok a)
  throw e := Matches.pure (Except.error e)
  bind := Matches.bindExcept
  buffered := by
    intro α tasks tasks' h w t hr
    obtain ⟨w', hp, hr'⟩ := (takeTurns_settles hlimit (w.schedule.headD []) h).1
      { w with schedule := w.schedule.tail } t hr
    exact ⟨w', .act hp, hr'⟩

/-! ## In surroundings -/

theorem Lockstep.scheduled {s : σ} {t : τ} {p : Async σ α} {q : Async τ α}
    (h : Lockstep rel s p t q) (schedule : List (List Nat)) :
    Lockstep (Scheduled.Rel rel) ⟨s, schedule⟩ p.scheduled ⟨t, schedule⟩ q.scheduled := by
  induction h generalizing schedule with
  | done h a => exact .done ⟨h, rfl⟩ a
  | left _ ih => exact .left (ih schedule)
  | right _ ih => exact .right (ih schedule)
  | suspend h _ ih =>
    refine .suspend ⟨h, rfl⟩ ?_
    rintro ⟨s, schedule⟩ ⟨t, _⟩ ⟨hr, rfl⟩
    exact ih s t hr schedule

theorem Alike.scheduled {p : Async σ α} {q : Async τ α} (h : Alike rel p q) :
    Alike (Scheduled.Rel rel) p.scheduled q.scheduled := by
  rintro ⟨s, schedule⟩ ⟨t, _⟩ ⟨hr, rfl⟩
  exact (h s t hr).scheduled schedule

/-- A computation over a part of a state, by the laws of getting and setting a part. -/
theorem Straight.within (get : τ → σ) (set : τ → σ → τ) (hself : ∀ t, set t (get t) = t)
    (hget : ∀ t s, get (set t s) = s) (hset : ∀ t s s', set (set t s) s' = set t s') {t : τ}
    {s s' : σ} {p : Async σ α} {a : α} (hs : get t = s) (h : Straight may s p a s') :
    Straight may t (p.within get set) a (set t s') := by
  induction h generalizing t with
  | done s a =>
    subst hs
    rw [hself]
    exact .done t a
  | act h ih =>
    subst hs
    have hnext := ih (hget t _)
    rw [hset] at hnext
    exact .act hnext
  | suspend hm _ ih => exact .suspend hm (ih hs)

/-- A call over a part of a state, next to the same call by itself. -/
theorem alike_within {rel : τ → σ → Prop} {get : τ → σ} {set : τ → σ → τ}
    (hget : ∀ t s, rel t s → get t = s) (hset : ∀ t s s', rel t s → rel (set t s') s')
    (p : Async σ α) : Alike rel (p.within get set) p := by
  induction p with
  | done a => exact Alike.pure a
  | act after next ih =>
    intro t s hr
    refine .left (.right ?_)
    rw [hget t s hr]
    exact ih s _ _ (hset t s _ hr)
  | suspend rest ih => exact fun t s hr => .suspend hr ih

theorem Matches.scheduled {p : Async σ α} {q : StateM τ α} (h : Matches may rel p q) :
    Matches may (fun w t => rel w.state t) p.scheduled q := by
  intro w t hr
  obtain ⟨s', hp, hr'⟩ := h _ _ hr
  refine ⟨{ w with state := s' }, ?_, hr'⟩
  exact hp.within Scheduled.state (fun w s => { w with state := s }) (fun _ => rfl)
    (fun _ _ => rfl) (fun _ _ _ => rfl) rfl

end Async

/-! ## Serving requests -/

namespace Extractor

/-- What a step does: the engine is called and then, if there are filters, the pipeline. -/
theorem evalStep_run {m : Type → Type} [Monad m] [LawfulMonad m] (x : Extractor m)
    (engine : Engine m) (document reference : Value) (step : Step) :
    (x.evalStep engine document reference step).run = (do
      match ← engine.resolve document step reference with
      | .error e => pure (.error (.step e))
      | .ok raw =>
        if step.filters.isEmpty then pure (.ok raw)
        else
          let field := x.settings.filterField
          match ← x.pipeline.exec [.obj [(field, raw)]] (.ofField field step.filters reference) with
          | .error e => pure (.error (.filter e))
          | .ok records => pure (.ok (filteredValue field records))) := by
  have hlift {ε α β : Type} (wrap : ε → ExtractionError) (call : m (Except ε α))
      (f : α → ExceptT ExtractionError m β) : (lift wrap call >>= f).run = (do
        match ← call with
        | .error e => pure (.error (wrap e))
        | .ok a => (f a).run) := by
    rw [ExceptT.run_bind, lift, ExceptT.run_mk, bind_assoc]
    refine congrArg (call >>= ·) (funext fun answer => ?_)
    rw [pure_bind]
    cases answer <;> rfl
  rw [evalStep, hlift]
  refine congrArg (_ >>= ·) (funext fun answer => ?_)
  cases answer with
  | error e => rfl
  | ok raw =>
    dsimp only
    split
    · rfl
    · rw [filterValue, hlift]
      refine congrArg (_ >>= ·) (funext fun answer => ?_)
      cases answer <;> rfl

theorem scheduled_lift {ε : Type} (wrap : ε → ExtractionError) (call : Async σ (Except ε α)) :
    lift wrap call.scheduled = ExceptT.mk (lift wrap call).run.scheduled :=
  congrArg ExceptT.mk (Async.within_bind _ _ call fun a => pure (a.mapError wrap)).symm

theorem scheduled_bind (p : ExceptT ExtractionError (Async σ) α)
    (f : α → ExceptT ExtractionError (Async σ) β) :
    ExceptT.mk (p >>= f).run.scheduled =
      ExceptT.mk p.run.scheduled >>= fun a => ExceptT.mk (f a).run.scheduled := by
  refine congrArg ExceptT.mk ((Async.within_bind _ _ p.run _).trans ?_)
  refine congrArg (p.run.scheduled >>= ·) (funext fun result => ?_)
  cases result <;> rfl

/-- In surroundings a step is evaluated as it is without them. -/
theorem evalStep_scheduled (x : Extractor (Async σ)) (engine : Engine (Async σ))
    (document reference : Value) (step : Step) :
    (x.hoist Async.scheduled).evalStep (engine.hoist Async.scheduled) document reference step =
      ExceptT.mk (x.evalStep engine document reference step).run.scheduled := by
  rw [evalStep, evalStep, scheduled_bind, ← scheduled_lift]
  refine congrArg (_ >>= ·) (funext fun v => ?_)
  split
  · rfl
  · rw [filterValue, filterValue, scheduled_bind, ← scheduled_lift]
    rfl

variable {rel : σ → τ → Prop} {document : Value} {choice : Option (EngineChoice (Async σ))}

/-- In surroundings a request has a related result if its steps have. -/
theorem simulates_execAsync {n : Type → Type} [Monad n] [Buffering n] {x : Extractor (Async σ)}
    {y : Extractor n} {choice' : Option (EngineChoice n)}
    {S : Simulation (Async (Scheduled σ)) n x.settings.concurrency y.settings.concurrency}
    (h : ∀ element reference step, S.rel
      (ExceptT.mk
        (x.evalStep (x.engines.select document choice) element reference step).run.scheduled)
      (y.evalStep (y.engines.select document choice') element reference step))
    (schema : Option Schema) (reference : Value) :
    S.rel (x.execAsync document ⟨schema, reference, choice⟩)
      (y.exec document ⟨schema, reference, choice'⟩) := by
  have hsteps : StepsAgree (x.hoist Async.scheduled)
      ((x.hoist Async.scheduled).engines.select document
        (choice.map (EngineChoice.hoist Async.scheduled)))
      y (y.engines.select document choice') S id := by
    refine ⟨fun _ => rfl, fun element reference step => ?_⟩
    rw [select_hoist, evalStep_scheduled]
    exact h element reference step
  have hexec := simulates_exec hsteps schema reference
  rwa [Schema.map_mapSteps_id] at hexec

/-- A request is served alike by two extractors if their steps are evaluated alike. -/
theorem alike_execAsync {x : Extractor (Async σ)} {y : Extractor (Async τ)}
    (hlimit : x.settings.concurrency = y.settings.concurrency)
    {choice' : Option (EngineChoice (Async τ))}
    (h : ∀ element reference step, Async.Alike rel
      (x.evalStep (x.engines.select document choice) element reference step).run
      (y.evalStep (y.engines.select document choice') element reference step).run)
    (schema : Option Schema) (reference : Value) :
    Async.Alike (Scheduled.Rel rel) (x.execAsync document ⟨schema, reference, choice⟩).run
      (y.execAsync document ⟨schema, reference, choice'⟩).run := by
  refine simulates_execAsync (y := y.hoist Async.scheduled) (S := Async.alike rel hlimit)
    (fun element reference step => ?_) schema reference
  rw [select_hoist, evalStep_scheduled]
  exact (h element reference step).scheduled

/-- A request is served as it is by an extractor whose calls are answered at once, if the steps
    are evaluated so, and one task at most is under way at a time where calls may suspend. -/
theorem straight_execAsync {x : Extractor (Async σ)} {y : Extractor (StateM τ)} {may : Prop}
    (hlimit : may → x.settings.concurrency ≤ 1) {choice' : Option (EngineChoice (StateM τ))}
    (h : ∀ element reference step, Async.Matches may rel
      (x.evalStep (x.engines.select document choice) element reference step).run
      (y.evalStep (y.engines.select document choice') element reference step).run)
    (schema : Option Schema) (reference : Value) :
    Async.Matches may (fun w t => rel w.state t)
      (x.execAsync document ⟨schema, reference, choice⟩).run
      (y.exec document ⟨schema, reference, choice'⟩).run :=
  simulates_execAsync (S := Async.straight may rel hlimit _)
    (fun element reference step => (h element reference step).scheduled) schema reference

end Extractor
end SchemaExtraction
