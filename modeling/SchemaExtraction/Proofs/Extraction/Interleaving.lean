import SchemaExtraction.Proofs.Extraction.Receipts

/-!
# Calls that overlap

Where tasks are run side by side, calls of one task come between those of another. What a task does
must then be said in a way that holds whatever the others do to the state meanwhile. Said so, the
calls of all tasks come to what they are if the tasks are run one after the other, in another order
and, after a failure, with calls of the tasks behind the one that fails. So every history is, up to
that, the history of a run in which calls are answered as a script says, one after the other.

Results:
* `Async.Ensures.run`: what a computation ensures whatever is done meanwhile, it does.
* `Async.ensures_takeTurns`: tasks side by side do what they do one after the other.
* `Async.serial`: being a scripted run, up to the order of the calls, is a simulation.
* `Extractor.history_serial`: every request is served as it is by a script.
-/

namespace SchemaExtraction

variable {σ τ α β ν : Type}

namespace Async

section

variable (view : τ → List ν) (may : ν → Prop)

/-- Whatever others do to the state wherever a computation looks at it, the computation adds notes
    to what is seen of the state, all of a kind that it may add, and in the end the notes and the
    value are as they should be. -/
def Ensures : Async τ α → (List ν → α → Prop) → Prop
  | done a, P => P [] a
  | act after next, P => ∀ t, ∃ notes, (∀ n ∈ notes, may n) ∧ view (after t) = view t ++ notes ∧
      (next t).Ensures fun notes' a => P (notes ++ notes') a
  | suspend rest, P => rest.Ensures P

variable {view may}

namespace Ensures

theorem mono {p : Async τ α} {P Q : List ν → α → Prop} (h : p.Ensures view may P)
    (hPQ : ∀ notes a, P notes a → Q notes a) : p.Ensures view may Q := by
  induction p generalizing P Q with
  | done a => exact hPQ _ _ h
  | act after next ih =>
    intro t
    obtain ⟨notes, hm, hv, hn⟩ := h t
    exact ⟨notes, hm, hv, ih t hn fun notes' a => hPQ _ a⟩
  | suspend rest ih => exact ih h hPQ

theorem bind {p : Async τ α} {f : α → Async τ β} {P : List ν → β → Prop}
    (h : p.Ensures view may fun notes a =>
      (f a).Ensures view may fun notes' b => P (notes ++ notes') b) :
    (p >>= f).Ensures view may P := by
  induction p generalizing P with
  | done a => exact h
  | act after next ih =>
    intro t
    obtain ⟨notes, hm, hv, hn⟩ := h t
    refine ⟨notes, hm, hv, ih t (hn.mono fun notes' a ha => ?_)⟩
    simpa only [List.append_assoc] using ha
  | suspend rest ih => exact ih h

/-- With nobody else going on, a computation does what it ensures. -/
theorem run {p : Async τ α} {P : List ν → α → Prop} (h : p.Ensures view may P) (t : τ) :
    ∃ notes, (∀ n ∈ notes, may n) ∧ view (p.run.run t).2 = view t ++ notes ∧
      P notes (p.run.run t).1 := by
  induction p generalizing P t with
  | done a => exact ⟨[], fun _ h => (List.not_mem_nil h).elim, (List.append_nil _).symm, h⟩
  | act after next ih =>
    obtain ⟨notes, hm, hv, hn⟩ := h t
    obtain ⟨notes', hm', hv', hp⟩ := ih t hn (after t)
    refine ⟨notes ++ notes', fun n hn => (List.mem_append.1 hn).elim (hm n) (hm' n), ?_, hp⟩
    rw [← List.append_assoc, ← hv]
    exact hv'
  | suspend rest ih => exact ih h t

/-- A computation over a part of a state that all of its view is about. -/
theorem within {p : Async σ α} {view : σ → List ν} {P : List ν → α → Prop}
    (h : p.Ensures view may P) {get : τ → σ} {set : τ → σ → τ}
    (hget : ∀ t s, get (set t s) = s) :
    (p.within get set).Ensures (fun t => view (get t)) may P := by
  induction p generalizing P with
  | done a => exact h
  | act after next ih =>
    intro t
    obtain ⟨notes, hm, hv, hn⟩ := h (get t)
    exact ⟨notes, hm, (congrArg view (hget t _)).trans hv, ih _ hn⟩
  | suspend rest ih => exact ih h

/-- A computation over a part of a state that none of the view is about. -/
theorem aside (p : Async σ α) {get : τ → σ} {set : τ → σ → τ}
    (hset : ∀ t s, view (set t s) = view t) {P : List ν → α → Prop} (h : ∀ a, P [] a) :
    (p.within get set).Ensures view may P := by
  induction p with
  | done a => exact h a
  | act after next ih =>
    refine fun t => ⟨[], fun _ h => (List.not_mem_nil h).elim, ?_, ih _⟩
    rw [hset, List.append_nil]
  | suspend rest ih => exact ih

/-- Wherever a task suspends, what is left of it ensures what is left to ensure. -/
theorem poll {p : Async τ (Except ExtractionError α)} {P : List ν → Except ExtractionError α → Prop}
    {k : Task τ α → Async τ β} {Q : List ν → β → Prop} (h : p.Ensures view may P)
    (hk : ∀ (task : Task τ α) notes,
      (task.rest.run.Ensures view may fun notes' result => P (notes ++ notes') result) →
        (k task).Ensures view may fun notes' b => Q (notes ++ notes') b) :
    (poll p k).Ensures view may Q := by
  induction p generalizing P Q with
  | done result => exact hk (.finished result) [] h
  | act after next ih =>
    intro t
    obtain ⟨notes, hm, hv, hn⟩ := h t
    refine ⟨notes, hm, hv, ih t hn fun task notes' htask => ?_⟩
    simp only [← List.append_assoc] at htask ⊢
    exact hk task (notes ++ notes') htask
  | suspend rest ih => exact hk (.suspended (ExceptT.mk rest)) [] h

/-- The same for computations that may fail. -/
theorem bindExcept {p : ExceptT ExtractionError (Async τ) α}
    {f : α → ExceptT ExtractionError (Async τ) β} {P : List ν → Except ExtractionError β → Prop}
    (h : p.run.Ensures view may fun notes result =>
      match result with
      | .ok a => (f a).run.Ensures view may fun notes' b => P (notes ++ notes') b
      | .error e => P notes (.error e)) :
    (p >>= f).run.Ensures view may P := by
  rw [ExceptT.run_bind]
  refine bind (h.mono fun notes result hr => ?_)
  cases result with
  | ok a => exact hr
  | error e =>
    change P (notes ++ []) (.error e)
    rwa [List.append_nil]

theorem mapExcept {p : ExceptT ExtractionError (Async τ) α} {f : α → β}
    {P : List ν → Except ExtractionError β → Prop}
    (h : p.run.Ensures view may fun notes result => P notes (result.map f)) :
    (f <$> p).run.Ensures view may P := by
  rw [← bind_pure_comp]
  refine bindExcept (h.mono fun notes result hr => ?_)
  cases result with
  | ok a =>
    change P (notes ++ []) (.ok (f a))
    rwa [List.append_nil]
  | error e => exact hr

end Ensures

/-! ## Tasks side by side -/

/-- What comes of tasks, given what comes of each of them: their notes in any order. Next to those
    of a task that fails, and of the tasks before it, there may be others. -/
inductive Gathers : List (List ν → Except ExtractionError α → Prop) → List ν →
    Except ExtractionError (List α) → Prop
  | nil : Gathers [] [] (.ok [])
  | cons {P : List ν → Except ExtractionError α → Prop}
      {Ps : List (List ν → Except ExtractionError α → Prop)} {notes notes' : List ν} {a : α}
      {result : Except ExtractionError (List α)} (h : P notes (.ok a))
      (hs : Gathers Ps notes' result) : Gathers (P :: Ps) (notes ++ notes') (result.map (a :: ·))
  | failed {P : List ν → Except ExtractionError α → Prop} {notes : List ν} {e : ExtractionError}
      (h : P notes (.error e)) (Ps : List (List ν → Except ExtractionError α → Prop))
      (others : List ν) : Gathers (P :: Ps) (notes ++ others) (.error e)
  | perm {Ps : List (List ν → Except ExtractionError α → Prop)} {notes notes' : List ν}
      {result : Except ExtractionError (List α)} (h : Gathers Ps notes result)
      (hp : notes.Perm notes') : Gathers Ps notes' result

/-- Notes that a task has made earlier count as well. -/
theorem Gathers.earlier {Ps Ps' : List (List ν → Except ExtractionError α → Prop)}
    {P : List ν → Except ExtractionError α → Prop} {earlier notes : List ν}
    {result : Except ExtractionError (List α)}
    (h : Gathers (Ps ++ (fun notes a => P (earlier ++ notes) a) :: Ps') notes result) :
    Gathers (Ps ++ P :: Ps') (earlier ++ notes) result := by
  generalize hall : Ps ++ (fun notes a => P (earlier ++ notes) a) :: Ps' = all at h
  induction h generalizing Ps with
  | nil => cases Ps <;> cases hall
  | cons h hs ih =>
    cases Ps with
    | nil =>
      obtain ⟨rfl, rfl⟩ := List.cons.inj hall
      rw [← List.append_assoc]
      exact .cons h hs
    | cons Q Ps =>
      obtain ⟨rfl, rfl⟩ := List.cons.inj hall
      refine (Gathers.cons h (ih rfl)).perm ?_
      rw [← List.append_assoc, ← List.append_assoc]
      exact List.perm_append_comm.append_right _
  | failed h others extra =>
    cases Ps with
    | nil =>
      obtain ⟨rfl, rfl⟩ := List.cons.inj hall
      rw [← List.append_assoc]
      exact .failed h _ extra
    | cons Q Ps =>
      obtain ⟨rfl, rfl⟩ := List.cons.inj hall
      refine (Gathers.failed h _ (earlier ++ extra)).perm ?_
      rw [← List.append_assoc, ← List.append_assoc]
      exact List.perm_append_comm.append_right _
  | perm _ hp ih => exact (ih hall).perm (hp.append_left earlier)

theorem ensures_inOrder {tasks : List (ExceptT ExtractionError (Async τ) α)}
    {Ps : List (List ν → Except ExtractionError α → Prop)}
    (h : List.Forall₂ (fun p P => p.run.Ensures view may P) tasks Ps) :
    (inOrder tasks).run.Ensures view may (Gathers Ps) := by
  induction h with
  | nil => exact Gathers.nil
  | @cons p P tasks Ps hp _ ih =>
    refine Ensures.bindExcept (hp.mono fun notes result h => ?_)
    cases result with
    | error e => simpa only [List.append_nil] using Gathers.failed h Ps []
    | ok a =>
      refine Ensures.bindExcept (ih.mono fun notes' result h' => ?_)
      cases result with
      | error e => exact .cons h h'
      | ok as =>
        change Gathers _ (notes ++ (notes' ++ [])) (.ok (a :: as))
        rw [List.append_nil]
        exact .cons h h'

/-- What is handed over is what comes of tasks that are finished. -/
theorem gathers_handOver {started : List (Task τ α)}
    {Ps : List (List ν → Except ExtractionError α → Prop)}
    (h : List.Forall₂ (fun task P => task.rest.run.Ensures view may P) started Ps) :
    (∃ e, handOver started = .error e ∧ ∀ Ps', Gathers (Ps ++ Ps') [] (.error e)) ∨
      ∃ as rest Qs, handOver started = .ok (as, rest) ∧
        List.Forall₂ (fun task P => task.rest.run.Ensures view may P) rest Qs ∧
        ∀ Ps' notes result, Gathers (Qs ++ Ps') notes result →
          Gathers (Ps ++ Ps') notes (result.map (as ++ ·)) := by
  induction h with
  | nil =>
    refine Or.inr ⟨[], [], [], rfl, .nil, fun Ps' notes result hg => ?_⟩
    cases result <;> exact hg
  | @cons task P started Ps hp hs ih =>
    cases task with
    | suspended p =>
      refine Or.inr ⟨[], _, _, rfl, .cons hp hs, fun Ps' notes result hg => ?_⟩
      cases result <;> exact hg
    | finished result =>
      cases result with
      | error e => exact Or.inl ⟨e, rfl, fun Ps' => Gathers.failed hp (Ps ++ Ps') []⟩
      | ok a =>
        rcases ih with ⟨e, h, hg⟩ | ⟨as, rest, Qs, h, hr, hg⟩
        · exact Or.inl ⟨e, by rw [handOver, h]; rfl, fun Ps' => Gathers.cons hp (hg Ps')⟩
        · refine Or.inr ⟨a :: as, rest, Qs, by rw [handOver, h]; rfl, hr, ?_⟩
          intro Ps' notes result hg'
          have hcons := Gathers.cons hp (hg Ps' notes result hg')
          cases result <;> exact hcons

/-- Tasks that take turns make the notes that each of them makes. -/
theorem ensures_takeTurns (limit : Nat) (turns : List Nat) {started : List (Task τ α)}
    {waiting : List (ExceptT ExtractionError (Async τ) α)}
    {Ps Ps' : List (List ν → Except ExtractionError α → Prop)}
    (hs : List.Forall₂ (fun task P => task.rest.run.Ensures view may P) started Ps)
    (hw : List.Forall₂ (fun p P => p.run.Ensures view may P) waiting Ps') :
    (takeTurns limit turns started waiting).run.Ensures view may (Gathers (Ps ++ Ps')) := by
  induction turns generalizing started waiting Ps Ps' with
  | nil => exact ensures_inOrder (List.rel_append (List.forall₂_map_left_iff.2 hs) hw)
  | cons turn turns ih =>
    rw [takeTurns]
    rcases gathers_handOver hs with ⟨e, h, hg⟩ | ⟨as, rest, Qs, h, hr, hg⟩
    · rw [h]
      exact hg Ps'
    rw [h]
    refine Ensures.mapExcept (Ensures.mono ?_ (hg Ps'))
    -- the turn is for a task under way or, if it is for none of them, for the next one
    have hturn := forall₂_getElem? hr turn
    cases htask : rest[turn]? with
    | none =>
      cases hw with
      | nil => exact ih hr .nil
      | @cons p P waiting Ps' hp hw =>
        dsimp only
        split
        · refine hp.poll fun task notes ht => ?_
          have hnext := ih (List.rel_append hr (.cons ht .nil)) hw
          simp only [List.append_assoc, List.cons_append, List.nil_append] at hnext
          exact hnext.mono fun notes' result hg => hg.earlier
        · exact ih hr (.cons hp hw)
    | some task =>
      cases task with
      | finished result => exact ih hr hw
      | suspended p =>
        obtain ⟨hlt, -⟩ := List.getElem?_eq_some_iff.1 htask
        rw [hr.length_eq] at hlt
        rw [htask, List.getElem?_eq_getElem hlt] at hturn
        cases hturn with
        | some hp =>
          refine Ensures.poll hp fun task notes ht => ?_
          refine (ih (forall₂_set hr ht turn) hw).mono fun notes' result hg => ?_
          rw [List.set_eq_take_append_cons_drop, if_pos hlt, List.append_assoc,
            List.cons_append] at hg
          have hearlier := hg.earlier
          rwa [← List.cons_append, List.getElem_cons_drop, ← List.append_assoc,
            List.take_append_drop] at hearlier

end

end Async

/-! ## Serial runs -/

/-- Answers a call by the next entry of a script, which is used up. -/
def fromScript (answer? : Event → Option α) (otherwise : α) : StateM (List Event) α :=
  modifyGet fun
    | [] => (otherwise, [])
    | event :: script => ((answer? event).getD otherwise, script)

/-- An engine that answers as a script says. -/
def Engine.scripted : Engine (StateM (List Event)) where
  name := "scripted"
  resolve _ _ _ := fromScript
    (fun | .resolved _ _ _ _ answer => some answer | _ => none) (.ok .null)
  clean document _ := fromScript
    (fun | .cleaned _ _ _ answer => some answer | _ => none) (.ok document)
  start := pure (.ok ())
  stop := pure (.ok ())

/-- A pipeline that answers as a script says. -/
def Pipeline.scripted : Pipeline (StateM (List Event)) where
  exec records _ := fromScript (fun | .filtered _ _ answer => some answer | _ => none) (.ok records)
  start := pure (.ok ())
  stop := pure (.ok ())

/-- A choice of an engine where all engines answer as a script says. -/
def EngineChoice.scripted {m : Type → Type} : EngineChoice m → EngineChoice (StateM (List Event))
  | format f => format f
  | engine _ => engine Engine.scripted

/-- A request where all engines answer as a script says. -/
def Request.scripted {m : Type → Type} (r : Request m) : Request (StateM (List Event)) :=
  ⟨r.schema, r.reference, r.engine.map EngineChoice.scripted⟩

/-- An extractor whose collaborators answer as a script says. -/
def Extractor.scripted {m : Type → Type} (x : Extractor m) : Extractor (StateM (List Event)) where
  structured := Engine.scripted
  markup := Engine.scripted
  pipeline := Pipeline.scripted
  settings := x.settings

/-- Notes and a result are those of a run that a script gives the answers for, in some order. If
    the run fails, there may be other notes. -/
def Serial (q : Run (Watched (List Event)) α) (notes : List Note)
    (result : Except ExtractionError α) : Prop :=
  ∃ events others, notes.Perm (events.flatMap Event.notes ++ others) ∧
    (result.isOk → others = []) ∧
    ∀ script journal, q.run.run ⟨events ++ script, journal⟩ = (result, ⟨script, journal ++ events⟩)

namespace Serial

theorem pure (a : α) : Serial (pure a) [] (.ok a) :=
  ⟨[], [], .refl _, fun _ => rfl, fun script journal => by rw [List.append_nil]; rfl⟩

theorem throw (e : ExtractionError) :
    Serial (throw e : Run (Watched (List Event)) α) [] (.error e) :=
  ⟨[], [], .refl _, fun _ => rfl, fun script journal => by rw [List.append_nil]; rfl⟩

/-- What fails, fails whatever would come next, and other notes may have been made. -/
theorem bind_error {p : Run (Watched (List Event)) α} {f : α → Run (Watched (List Event)) β}
    {notes : List Note} {e : ExtractionError} (h : Serial p notes (.error e)) (more : List Note) :
    Serial (p >>= f) (notes ++ more) (.error e) := by
  obtain ⟨events, others, hp, -, hrun⟩ := h
  refine ⟨events, others ++ more, ?_, fun hok => (nomatch hok), fun script journal => ?_⟩
  · rw [← List.append_assoc]
    exact hp.append_right more
  · rw [ExceptT.run_bind, StateT.run_bind, hrun]
    rfl

theorem bind_ok {p : Run (Watched (List Event)) α} {f : α → Run (Watched (List Event)) β}
    {notes notes' : List Note} {a : α} {result : Except ExtractionError β}
    (h : Serial p notes (.ok a)) (hf : Serial (f a) notes' result) :
    Serial (p >>= f) (notes ++ notes') result := by
  obtain ⟨events, others, hp, hnone, hrun⟩ := h
  obtain ⟨events', others', hp', hnone', hrun'⟩ := hf
  obtain rfl := hnone rfl
  refine ⟨events ++ events', others', ?_, hnone', fun script journal => ?_⟩
  · rw [List.flatMap_append, List.append_assoc]
    rw [List.append_nil] at hp
    exact hp.append hp'
  · rw [ExceptT.run_bind, StateT.run_bind, List.append_assoc, hrun, ← List.append_assoc]
    exact hrun' script (journal ++ events)

theorem perm {q : Run (Watched (List Event)) α} {notes notes' : List Note}
    {result : Except ExtractionError α} (h : Serial q notes result) (hp : notes.Perm notes') :
    Serial q notes' result := by
  obtain ⟨events, others, hperm, h⟩ := h
  exact ⟨events, others, hp.symm.trans hperm, h⟩

theorem inOrder {tasks : List (Run (Watched (List Event)) α)} {notes : List Note}
    {result : Except ExtractionError (List α)} (h : Async.Gathers (tasks.map Serial) notes result) :
    Serial (inOrder tasks) notes result := by
  generalize hall : tasks.map Serial = Ps at h
  induction h generalizing tasks with
  | nil =>
    obtain rfl := List.map_eq_nil_iff.1 hall
    exact pure []
  | @cons P Ps notes notes' a result h _ ih =>
    obtain ⟨q, tasks, rfl, rfl, rfl⟩ := List.map_eq_cons_iff.1 hall
    have hs := ih rfl
    refine bind_ok h ?_
    rw [← List.append_nil notes']
    cases result with
    | error e => exact bind_error hs []
    | ok as => exact bind_ok hs (pure (a :: as))
  | failed h others extra =>
    obtain ⟨q, tasks, rfl, rfl, rfl⟩ := List.map_eq_cons_iff.1 hall
    exact bind_error h extra
  | perm _ hp ih => exact (ih hall).perm hp

end Serial

/-- What is seen of collaborators in surroundings: the history of their calls. -/
def Scheduled.history (w : Scheduled (Attended σ)) : List Note := w.state.history

/-- Being a scripted run, up to the order of the calls, is a simulation. -/
def Async.serial (may : Note → Prop) (limit limit' : Nat) :
    Simulation (Async (Scheduled (Attended σ))) (StateM (Watched (List Event))) limit limit' where
  rel p q := p.run.Ensures Scheduled.history may (Serial q)
  pure a := Serial.pure a
  throw e := Serial.throw e
  bind := by
    intro α β p q f g hp hf
    refine Ensures.bindExcept (hp.mono fun notes result h => ?_)
    cases result with
    | ok a => exact (hf a).mono fun notes' result h' => h.bind_ok h'
    | error e => simpa only [List.append_nil] using h.bind_error (f := g) []
  buffered := by
    intro α tasks tasks' h w
    have hturns := ensures_takeTurns limit (w.schedule.headD []) .nil
      (List.forall₂_map_right_iff.2 h)
    exact ⟨[], fun _ h => (List.not_mem_nil h).elim, (List.append_nil _).symm,
      hturns.mono fun notes result hg => .inOrder hg⟩

/-! ## Serving requests -/

/-- A note that is made where one engine serves a request: it and the pipeline receive calls. -/
def Note.By (who : Party) (note : Note) : Prop :=
  ∀ receipt, note.receipt? = some receipt → receipt.receiver = who ∨ receipt.receiver = .pipeline

theorem Note.By.received {who : Party} {receipt : Receipt}
    (h : receipt.receiver = who ∨ receipt.receiver = .pipeline) : By who (.received receipt) := by
  rintro _ ⟨⟩
  exact h

theorem Note.By.answered (who : Party) (event : Event) : By who (.answered event) := by
  rintro _ ⟨⟩

/-- A call that is noted, and what is done with its answer. -/
theorem Async.ensures_attend {may : Note → Prop} {receipt : Receipt} {event : α → Event}
    {call : Async σ α} {f : α → Async (Attended σ) β} {P : List Note → β → Prop}
    (hreceived : may (.received receipt)) (hanswered : ∀ a, may (.answered (event a)))
    (hf : ∀ a, (f a).Ensures Attended.history may fun notes b =>
      P (.received receipt :: .answered (event a) :: notes) b) :
    (call.attend receipt event >>= f).Ensures Attended.history may P := by
  rw [attend_bind]
  refine fun w => ⟨[.received receipt], by simpa using hreceived, rfl, Ensures.bind ?_⟩
  have hset : ∀ (w : Attended σ) (s : σ), Attended.history { w with state := s } = w.history :=
    fun _ _ => rfl
  refine Ensures.aside call hset fun a w => ?_
  exact ⟨[.answered (event a)], by simpa using hanswered a, rfl, hf a⟩

namespace Extractor

theorem select_scripted {m : Type → Type} (x : Extractor m) (document : Value)
    (choice : Option (EngineChoice m)) :
    x.scripted.engines.select document (choice.map EngineChoice.scripted) = Engine.scripted := by
  have ofFormat (f : Format) : x.scripted.engines.ofFormat f = Engine.scripted := by
    cases f <;> rfl
  match choice with
  | some (.engine e) => rfl
  | some (.format f) => exact ofFormat f
  | none => exact ofFormat _

theorem server_scripted {m : Type → Type} (x : Extractor m) (document : Value)
    (choice : Option (EngineChoice m)) :
    x.scripted.server document (choice.map EngineChoice.scripted) = x.server document choice := by
  match choice with
  | none | some (.format _) | some (.engine _) => rfl

variable (x : Extractor (Async σ))

/-- A step makes its calls as a script says that is made of their answers. -/
theorem ensures_evalStep (engine : Engine (Async σ)) (who : Party) (document reference : Value)
    (step : Step) :
    (x.attended.evalStep (engine.attended who) document reference step).run.Ensures
      Attended.history (Note.By who)
      (Serial (x.scripted.watched.evalStep (Engine.scripted.watched who) document reference
        step)) := by
  have hq := evalStep_run x.scripted.watched (Engine.scripted.watched who) document reference step
  rw [evalStep_run]
  refine Async.ensures_attend (.received (Or.inl rfl)) (fun _ => .answered who _) fun answer => ?_
  cases answer with
  | error e =>
    refine ⟨[.resolved who document step reference (.error e)], [], .refl _, fun _ => rfl,
      fun script journal => ?_⟩
    rw [hq]
    rfl
  | ok raw =>
    dsimp only
    split
    case isTrue hf =>
      refine ⟨[.resolved who document step reference (.ok raw)], [], .refl _, fun _ => rfl,
        fun script journal => ?_⟩
      simp only [hf, if_true] at hq
      rw [hq]
      rfl
    case isFalse hf =>
      simp only [hf] at hq
      let field := x.settings.filterField
      let asked : Event := .resolved who document step reference (.ok raw)
      let sent answer : Event :=
        .filtered [.obj [(field, raw)]] (.ofField field step.filters reference) answer
      have happend journal answer :
          journal ++ [asked] ++ [sent answer] = journal ++ [asked, sent answer] :=
        List.append_assoc journal [asked] [sent answer]
      refine Async.ensures_attend (.received (Or.inr rfl)) (fun _ => .answered who _)
        fun answer => ?_
      cases answer with
      | error e =>
        refine ⟨[asked, sent (.error e)], [], .refl _, fun _ => rfl, fun script journal => ?_⟩
        rw [hq, ← happend]
        rfl
      | ok records =>
        refine ⟨[asked, sent (.ok records)], [], .refl _, fun _ => rfl, fun script journal => ?_⟩
        rw [hq, ← happend]
        rfl

/-- Whoever goes on wherever a call suspends, a request is served as it is by collaborators that
    answer as some script says, one call after the other. Its history has the notes of this run in
    some order and, if it fails, maybe others. -/
theorem history_serial (document : Value) (request : Request (Async σ)) (w : Scheduled σ) :
    let outcome := Async.outcome (x.execAsync document request) w
    let history := x.history document request w
    ∃ events others,
      (history.Perm (events.flatMap Event.notes ++ others) ∧ (outcome.isOk → others = [])) ∧
      (∀ note ∈ history, note.By (x.server document request.engine)) ∧
      Run.outcome (x.scripted.exec document request.scripted) events = outcome ∧
      x.scripted.journal document request.scripted events = events := by
  intro outcome history
  have hget (w : Scheduled (Attended σ)) (v : Attended σ) :
      Scheduled.state { w with state := v } = v := rfl
  have hsteps := fun element reference step => by
    have hstep := (x.ensures_evalStep (x.engines.select document request.engine)
      (x.server document request.engine) element reference step).within hget
    rwa [← select_attended, ← x.select_scripted document request.engine,
      ← x.server_scripted document request.engine, ← select_watched] at hstep
  have hexec := simulates_execAsync (x := x.attended) (y := x.scripted.watched)
    (S := Async.serial _ _ _) hsteps request.schema request.reference
  obtain ⟨notes, hby, hview, events, others, hperm, hnone, hrun⟩ :=
    Async.Ensures.run hexec ⟨⟨w.state, []⟩, w.schedule⟩
  have hhistory : history = notes := hview
  rw [server_scripted] at hby
  obtain ⟨houtcome, -⟩ := x.execAsync_attended document request w
  have hserial := hrun [] []
  rw [List.append_nil] at hserial
  obtain ⟨hshadow, -⟩ :=
    x.scripted.exec_watched document request.scripted (⟨events, []⟩ : Watched (List Event))
  refine ⟨events, others, ⟨hhistory ▸ hperm, fun hok => hnone ?_⟩, hhistory ▸ hby, ?_, ?_⟩
  · exact (congrArg Except.isOk houtcome).trans hok
  · exact hshadow.symm.trans ((congrArg Prod.fst hserial).trans houtcome)
  · exact congrArg (fun pair => pair.2.journal) hserial

end Extractor
end SchemaExtraction
