import SchemaExtraction.Error

/-!
# Tasks side by side

The elements of a scope are resolved side by side, as far as the settings allow it, and so are the
fields of an element. What this comes to depends on the collaborators that are called. If they
answer at once, every task is finished before the next one is started. If they suspend, the next
tasks are started meanwhile, and which of the tasks under way goes on first is up to the
surroundings.
-/

namespace SchemaExtraction

/-- Runs tasks one after the other, up to the first failure. -/
def inOrder {m : Type → Type} [Monad m] {α : Type} :
    List (ExceptT ExtractionError m α) → ExceptT ExtractionError m (List α)
  | [] => pure []
  | task :: tasks => do return (← task) :: (← inOrder tasks)

/-- How tasks are run side by side. -/
class Buffering (m : Type → Type) where
  /-- runs tasks, at most so many at a time; the results are in the order of the tasks, and the
      first failure in this order ends the run -/
  buffered {α : Type} (limit : Nat) (tasks : List (ExceptT ExtractionError m α)) :
    ExceptT ExtractionError m (List α)

export Buffering (buffered)

/-- Where calls are answered at once, no two tasks are ever under way. -/
instance {σ : Type} : Buffering (StateM σ) where
  buffered _ tasks := inOrder tasks

/-! ## Computations that suspend -/

/-- A computation over a shared state that may suspend on its way. -/
inductive Async (σ α : Type) where
  | done (a : α)
  /-- changes the state, and goes on with what it was -/
  | act (after : σ → σ) (next : σ → Async σ α)
  /-- lets others go on first -/
  | suspend (rest : Async σ α)

namespace Async

variable {σ τ α β : Type}

protected def bind : Async σ α → (α → Async σ β) → Async σ β
  | done a, f => f a
  | act after next, f => act after fun s => (next s).bind f
  | suspend rest, f => suspend (rest.bind f)

instance : Monad (Async σ) where
  pure := done
  bind := Async.bind

/-- Runs a computation to its end, with nobody else going on. -/
def run : Async σ α → StateM σ α
  | done a => pure a
  | act after next => fun s => (next s).run (after s)
  | suspend rest => rest.run

/-- A computation over a part of a larger state. -/
def within (get : τ → σ) (set : τ → σ → τ) : Async σ α → Async τ α
  | done a => done a
  | act after next =>
    act (fun t => set t (after (get t))) fun t => (next (get t)).within get set
  | suspend rest => suspend (rest.within get set)

/-! ## Taking turns -/

/-- A task that has been started. -/
inductive Task (σ α : Type) where
  | suspended (rest : ExceptT ExtractionError (Async σ) α)
  | finished (result : Except ExtractionError α)

/-- What is left to do of a task. -/
def Task.rest : Task σ α → ExceptT ExtractionError (Async σ) α
  | suspended rest => rest
  | finished result => ExceptT.mk (done result)

/-- Runs a task until it is finished or suspends, and goes on with what has become of it. -/
def poll : Async σ (Except ExtractionError α) → (Task σ α → Async σ β) → Async σ β
  | done result, k => k (.finished result)
  | act after next, k => act after fun s => poll (next s) k
  | suspend rest, k => suspend (k (.suspended rest))

/-- Takes the results of the tasks that are finished before any that is not, unless one of them is
    a failure. -/
def handOver : List (Task σ α) → Except ExtractionError (List α × List (Task σ α))
  | .finished (.error e) :: _ => .error e
  | .finished (.ok a) :: started => (handOver started).map fun (as, rest) => (a :: as, rest)
  | .suspended rest :: started => .ok ([], .suspended rest :: started)
  | [] => .ok ([], [])

/-- Runs tasks, some of which have been started. A turn goes to one of these tasks or, if it is for
    none of them and there is room for another one, starts the next task. When no more turns are
    given, the tasks are finished one after the other. -/
def takeTurns (limit : Nat) : (turns : List Nat) → (started : List (Task σ α)) →
    (waiting : List (ExceptT ExtractionError (Async σ) α)) →
    ExceptT ExtractionError (Async σ) (List α)
  | [], started, waiting => inOrder (started.map Task.rest ++ waiting)
  | turn :: turns, started, waiting =>
    match handOver started with
    | .error e => throw e
    | .ok (as, started) => (as ++ ·) <$>
      match started[turn]?, waiting with
      | some (.suspended rest), waiting =>
        ExceptT.mk (poll rest fun task => takeTurns limit turns (started.set turn task) waiting)
      | none, next :: waiting =>
        if started.length < limit then
          ExceptT.mk (poll next fun task => takeTurns limit turns (started ++ [task]) waiting)
        else takeTurns limit turns started (next :: waiting)
      | _, waiting => takeTurns limit turns started waiting

end Async

/-- The state of collaborators, and the turns that the surroundings give to the tasks that are
    started side by side, time after time. -/
structure Scheduled (σ : Type) where
  state : σ
  schedule : List (List Nat)

/-- Makes a call that leaves the turns alone. -/
def Async.scheduled {σ α : Type} (call : Async σ α) : Async (Scheduled σ) α :=
  call.within Scheduled.state fun w s => { w with state := s }

instance {σ : Type} : Buffering (Async (Scheduled σ)) where
  buffered limit tasks := ExceptT.mk <|
    .act (fun w => { w with schedule := w.schedule.tail })
      fun w => Async.takeTurns limit (w.schedule.headD []) [] tasks

end SchemaExtraction
