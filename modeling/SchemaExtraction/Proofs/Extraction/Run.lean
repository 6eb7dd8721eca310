import SchemaExtraction.Extraction.Extractor

/-!
# Runs of an extraction

The collaborators of an extractor keep a state `σ` that they change as they like with every call,
and answer a call before the next one is made. A part of an extraction run from a state gives an
outcome and leaves a state. Tasks side by side come down to one task after the other here, whatever
the settings allow.

Results:
* `Run.bind_eq`: a run of two parts, one after the other.
* `Run.Returns`: what holds of every value that a part can give; `Run.Returns.bind` and
  `Run.Returns.mapM` are its rules.
* `Extractor.accumulate_of_absent`, `Extractor.accumulate_absent`, `Extractor.accumulate_fallback`:
  what becomes of the value of a chain at a step.
* `Extractor.evalStep_of_filters_eq_nil`, `Extractor.evalChain_single`: steps without filters.
* `Extractor.buffered_leafTasks`, `Extractor.buffered_childTasks`: the fields of an element, one
  after the other.
* `Extractor.extract_scoped`, `Extractor.extract_unscoped`: resolving a schema with a scope, and
  one without.
-/

namespace SchemaExtraction

/-- A part of an extraction over collaborators with a state. -/
abbrev Run (σ α : Type) := ExceptT ExtractionError (StateM σ) α

namespace Run

variable {σ α β : Type}

instance {ε α : Type} [DecidableEq ε] [DecidableEq α] : DecidableEq (Except ε α)
  | .ok a, .ok b => decidable_of_iff (a = b) (by simp)
  | .error e, .error f => decidable_of_iff (e = f) (by simp)
  | .ok _, .error _ => isFalse (by simp)
  | .error _, .ok _ => isFalse (by simp)

/-- What a part gives when it is run from a state. -/
def outcome (p : Run σ α) (s : σ) : Except ExtractionError α := (p.run.run s).1

/-- The state that a part leaves. -/
def after (p : Run σ α) (s : σ) : σ := (p.run.run s).2

@[simp] theorem outcome_pure (a : α) (s : σ) : (pure a : Run σ α).outcome s = .ok a := rfl

@[simp] theorem after_pure (a : α) (s : σ) : (pure a : Run σ α).after s = s := rfl

@[simp] theorem outcome_throw (e : ExtractionError) (s : σ) :
    (throw e : Run σ α).outcome s = .error e := rfl

@[simp] theorem after_throw (e : ExtractionError) (s : σ) : (throw e : Run σ α).after s = s := rfl

/-- The second part runs from the state that the first one leaves, if that one gives a value. -/
theorem bind_eq (p : Run σ α) (f : α → Run σ β) (s : σ) :
    ((p >>= f).outcome s, (p >>= f).after s) =
      match p.outcome s with
      | .ok a => ((f a).outcome (p.after s), (f a).after (p.after s))
      | .error e => (.error e, p.after s) := by
  have h : (p >>= f).run.run s =
      match p.run.run s with
      | (.ok a, s') => (f a).run.run s'
      | (.error e, s') => (.error e, s') := by
    simp only [ExceptT.run_bind, StateT.run_bind]
    cases h : p.run.run s with
    | mk r s' => cases r <;> rfl
  unfold outcome after
  rw [h]
  cases p.run.run s with
  | mk r s' => cases r <;> rfl

theorem bind_of_ok {p : Run σ α} {f : α → Run σ β} {s : σ} {a : α} (h : p.outcome s = .ok a) :
    (p >>= f).outcome s = (f a).outcome (p.after s) ∧
      (p >>= f).after s = (f a).after (p.after s) := by
  have hb := bind_eq p f s
  rw [h] at hb
  exact Prod.ext_iff.1 hb

theorem bind_of_error {p : Run σ α} {f : α → Run σ β} {s : σ} {e : ExtractionError}
    (h : p.outcome s = .error e) :
    (p >>= f).outcome s = .error e ∧ (p >>= f).after s = p.after s := by
  have hb := bind_eq p f s
  rw [h] at hb
  exact Prod.ext_iff.1 hb

/-- A value that is only reshaped. -/
theorem outcome_bind_pure (p : Run σ α) (g : α → β) (s : σ) :
    (p >>= fun a => pure (g a)).outcome s = (p.outcome s).map g := by
  cases h : p.outcome s with
  | error e => exact (bind_of_error h).1
  | ok a => exact (bind_of_ok h).1

theorem outcome_map (p : Run σ α) (g : α → β) (s : σ) :
    (g <$> p : Run σ β).outcome s = (p.outcome s).map g := by
  rw [← bind_pure_comp]
  exact outcome_bind_pure p g s

/-! ## What a part can return -/

/-- Every value that a part gives, from whatever state, has a property. -/
def Returns (p : Run σ α) (P : α → Prop) : Prop := ∀ s a, p.outcome s = .ok a → P a

theorem Returns.pure {a : α} {P : α → Prop} (h : P a) : Returns (pure a : Run σ α) P := by
  rintro s b ⟨⟩
  exact h

theorem Returns.throw (e : ExtractionError) (P : α → Prop) : Returns (throw e : Run σ α) P := by
  rintro s b ⟨⟩

theorem Returns.bind {p : Run σ α} {f : α → Run σ β} {P : α → Prop} {Q : β → Prop}
    (hp : Returns p P) (hf : ∀ a, P a → Returns (f a) Q) : Returns (p >>= f) Q := by
  intro s b hb
  cases h : p.outcome s with
  | error e => rw [(bind_of_error h).1] at hb; cases hb
  | ok a =>
    rw [(bind_of_ok h).1] at hb
    exact hf a (hp s a h) _ b hb

theorem Returns.mono {p : Run σ α} {P Q : α → Prop} (hp : Returns p P) (h : ∀ a, P a → Q a) :
    Returns p Q := fun s a ha => h a (hp s a ha)

/-- Every part gives some value. -/
theorem Returns.any (p : Run σ α) : Returns p fun _ => True := fun _ _ _ => trivial

theorem Returns.mapM {f : α → Run σ β} {P : β → Prop} {as : List α}
    (hf : ∀ a ∈ as, Returns (f a) P) : Returns (as.mapM f) fun bs => ∀ b ∈ bs, P b := by
  induction as with
  | nil => exact Returns.pure (by simp)
  | cons a as ih =>
    rw [List.mapM_cons]
    refine Returns.bind (hf a (by simp)) fun b hb => ?_
    refine Returns.bind (ih fun a' ha' => hf a' (by simp [ha'])) fun bs hbs => ?_
    exact Returns.pure (by simpa [hb] using hbs)

/-- The tasks of some values are run as the values come. -/
theorem buffered_map (limit : Nat) (f : α → Run σ β) (as : List α) :
    buffered limit (as.map f) = as.mapM f := by
  change inOrder _ = _
  induction as with
  | nil => rfl
  | cons a as ih => rw [List.map_cons, inOrder, ih, List.mapM_cons]

end Run

/-! ## Single steps -/

namespace Extractor

variable {σ : Type}

/-- A chain that has nothing takes the value of any step. -/
theorem accumulate_of_absent {acc : Value} (h : acc.truthy = false) (step : Step) (v : Value) :
    accumulate acc step v = v := by
  simp [accumulate, Value.merge_of_absent h, h]

theorem accumulate_null (step : Step) (v : Value) : accumulate .null step v = v :=
  accumulate_of_absent rfl step v

/-- A chain that has a value keeps it at a step that has none. -/
theorem accumulate_absent {acc v : Value} (ha : acc.truthy = true) (hv : v.truthy = false)
    (step : Step) : accumulate acc step v = acc := by
  simp [accumulate, Value.merge_absent ha hv, ha]

/-- A chain that has a value keeps it at a fallback. -/
theorem accumulate_fallback {acc : Value} (ha : acc.truthy = true) {step : Step}
    (hs : step.fallback = true) (v : Value) : accumulate acc step v = acc := by
  simp [accumulate, hs, ha]

/-- A step without filters has the value that the engine gives. -/
theorem evalStep_of_filters_eq_nil {m : Type → Type} [Monad m] [LawfulMonad m] (x : Extractor m)
    (engine : Engine m) (document reference : Value) {step : Step} (hf : step.filters = []) :
    x.evalStep engine document reference step =
      lift .step (engine.resolve document step reference) := by
  rw [evalStep, hf]
  exact bind_pure _

/-- So has a chain of one step without filters. -/
theorem evalChain_single (x : Extractor (StateM σ)) (engine : Engine (StateM σ))
    (document reference : Value) {step : Step} (hf : step.filters = []) :
    x.evalChain engine document reference [step] =
      (lift .step (engine.resolve document step reference) : Run σ Value) := by
  have hstep := x.evalStep_of_filters_eq_nil engine document reference hf
  have hnull (v : Value) : x.foldSteps engine document reference (accumulate .null step v) [] =
      (pure v : Run σ Value) := congrArg pure (accumulate_null step v)
  rw [evalChain, foldSteps, hstep]
  simp only [hnull]
  exact bind_pure _

/-- A collaborator without state gives what it is asked for, or fails. -/
theorem returns_lift_pure {ε α : Type} (wrap : ε → ExtractionError) (answer : Except ε α) :
    Run.Returns (lift wrap (pure answer) : Run σ α) fun a => answer = .ok a := by
  intro s a ha
  cases answer with
  | error e => cases ha
  | ok b =>
    cases ha
    rfl

/-! ## One task after the other -/

/-- The values of the fields with chains on an element, one field after the other. -/
def evalLeaves (x : Extractor (StateM σ)) (engine : Engine (StateM σ)) (element reference : Value) :
    List (String × Field Schema) → Run σ (List (String × Value))
  | [] => pure []
  | (name, .steps chain) :: fields => do
    let v ← x.evalChain engine element reference chain
    return (name, v) :: (← evalLeaves x engine element reference fields)
  | (_, .nested _) :: fields => evalLeaves x engine element reference fields

/-- The results of the nested schemas of an element, one field after the other. -/
def extractChildren (x : Extractor (StateM σ)) (engine : Engine (StateM σ)) (element : Value)
    (reference : List (String × Value)) :
    List (String × Field Schema) → Run σ (List (String × Value))
  | [] => pure []
  | (_, .steps _) :: fields => extractChildren x engine element reference fields
  | (name, .nested schema) :: fields => do
    let v ← x.extract engine element reference schema
    return (name, v) :: (← extractChildren x engine element reference fields)

theorem buffered_leafTasks (x : Extractor (StateM σ)) (engine : Engine (StateM σ))
    (element reference : Value) (limit : Nat) (fields : List (String × Field Schema)) :
    buffered limit (x.leafTasks engine element reference fields) =
      x.evalLeaves engine element reference fields := by
  change inOrder _ = _
  induction fields with
  | nil => rfl
  | cons field fields ih =>
    obtain ⟨name, chain | child⟩ := field
    · rw [leafTasks, inOrder, evalLeaves, ih]
      simp only [bind_assoc, pure_bind]
    · exact ih

theorem buffered_childTasks (x : Extractor (StateM σ)) (engine : Engine (StateM σ))
    (element : Value) (reference : List (String × Value)) (limit : Nat)
    (fields : List (String × Field Schema)) :
    buffered limit (x.childTasks engine element reference fields) =
      x.extractChildren engine element reference fields := by
  change inOrder _ = _
  induction fields with
  | nil => rfl
  | cons field fields ih =>
    obtain ⟨name, chain | child⟩ := field
    · exact ih
    · rw [childTasks, inOrder, extractChildren, ih]
      simp only [bind_assoc, pure_bind]

/-! ## Resolving a schema -/

/-- The record of an element: its chains, and the nested schemas on top of them. -/
def evalElement (x : Extractor (StateM σ)) (engine : Engine (StateM σ))
    (reference : List (String × Value)) (fields : List (String × Field Schema)) (element : Value) :
    Run σ (List (String × Value)) := do
  let leaves ← x.evalLeaves engine element (.obj reference) fields
  let children ← x.extractChildren engine element (childReference reference leaves) fields
  return Entries.insertAll leaves children

/-- With a scope, the elements of the scope give the records. -/
theorem extract_scoped (x : Extractor (StateM σ)) (engine : Engine (StateM σ)) {document : Value}
    (hd : document.truthy = true) (reference : List (String × Value)) (step : Step)
    (steps : List Step) (merged : Bool) (fields : List (String × Field Schema)) :
    x.extract engine document reference ⟨some (step :: steps), merged, fields⟩ = (do
      let resolved ← x.evalChain engine document (.obj reference) (step :: steps)
      let records ← (elementsOf resolved).mapM (x.evalElement engine reference fields)
      return collect merged records : Run σ Value) := by
  rw [extract]
  simp only [hd, Bool.not_true, Bool.false_eq_true, if_false, Option.isNone_some, Bool.false_and,
    buffered_leafTasks, buffered_childTasks, Run.buffered_map]
  rfl

/-- A schema has no scope, or one with a first step. -/
theorem scope_cases (schema : Schema) : schema.scope.getD [] = [] ∨
    ∃ step steps merged fields, schema = ⟨some (step :: steps), merged, fields⟩ := by
  obtain ⟨_ | _ | ⟨step, steps⟩, merged, fields⟩ := schema
  · exact Or.inl rfl
  · exact Or.inl rfl
  · exact Or.inr ⟨step, steps, merged, fields, rfl⟩

/-- What is wrong with a schema that has no scope. -/
def scopeError (schema : Schema) : ExtractionError :=
  if schema.isEmpty then .noSchema else .noScope

/-- Without a scope there is no result, and nothing is asked of an engine. -/
theorem extract_unscoped (x : Extractor (StateM σ)) (engine : Engine (StateM σ)) {document : Value}
    (hd : document.truthy = true) (reference : List (String × Value)) {schema : Schema}
    (hs : schema.scope.getD [] = []) :
    x.extract engine document reference schema = (throw (scopeError schema) : Run σ Value) := by
  obtain ⟨scope, merged, fields⟩ := schema
  rw [extract.eq_def, scopeError, Schema.isEmpty]
  cases he : scope.isNone && !merged && fields.isEmpty with
  | true => simp only [hd, he, Bool.not_true, Bool.false_eq_true, if_false, if_true]
  | false =>
    simp only [hd, he, Bool.not_true, Bool.false_eq_true, if_false]
    match scope with
    | none => rfl
    | some [] => rfl
    | some (step :: steps) => cases hs

/-- A document that does not count as present gives the empty text. -/
theorem extract_absent (x : Extractor (StateM σ)) (engine : Engine (StateM σ)) {document : Value}
    (hd : document.truthy = false) (reference : List (String × Value)) (schema : Schema) :
    x.extract engine document reference schema = (pure .empty : Run σ Value) := by
  obtain ⟨scope, merged, fields⟩ := schema
  rw [extract.eq_def]
  simp [hd]

/-- On a document that counts as present, the schema of a request is resolved. -/
theorem exec_present (x : Extractor (StateM σ)) {document : Value} (hd : document.truthy = true)
    (schema : Schema) (reference : Value) (choice : Option (EngineChoice (StateM σ))) :
    x.exec document ⟨some schema, reference, choice⟩ =
      (x.extract (x.engines.select document choice) document reference.entriesOf schema :
        Run σ Value) := by
  rw [exec, hd]
  rfl

end Extractor
end SchemaExtraction
