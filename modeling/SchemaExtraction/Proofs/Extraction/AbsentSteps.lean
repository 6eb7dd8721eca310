import SchemaExtraction.Proofs.Extraction.Purity
import SchemaExtraction.Proofs.Traversal

/-!
# Steps without a value

A step that finds nothing adds nothing to its chain, whether it is a fallback or is combined with
the steps before it. This is so up to the values that do not count as present: a chain that has
nothing may hold another such value when the step is left out. A scope does not see the difference,
since what does not count as present is dropped from its elements.

Results:
* `Extractor.present?_foldSteps`: a chain with and without absent steps.
* `Extractor.extract_thinned`: a schema with and without absent steps in its scopes.
* `Extractor.exec_thinned`: what follows for chains and for requests.
-/

namespace SchemaExtraction

/-- The second list is the first one without some items, all of which have a property. -/
inductive LeavesOut {α : Type} (P : α → Prop) : List α → List α → Prop
  | nil : LeavesOut P [] []
  | keep {as bs : List α} (a : α) (h : LeavesOut P as bs) : LeavesOut P (a :: as) (a :: bs)
  | drop {as bs : List α} {a : α} (ha : P a) (h : LeavesOut P as bs) : LeavesOut P (a :: as) bs

theorem LeavesOut.ne_nil {α : Type} {P : α → Prop} {as bs : List α} (h : LeavesOut P as bs)
    (hb : bs ≠ []) : as ≠ [] := by
  cases h with
  | nil => exact hb
  | keep | drop => exact List.cons_ne_nil _ _

/-! ## What counts as present -/

/-- A value, if it counts as present. -/
def Value.present? (v : Value) : Option Value := Option.guard Value.truthy v

theorem Value.present?_of_truthy {v : Value} (h : v.truthy = true) : v.present? = some v := by
  simp [present?, h]

theorem Value.present?_of_absent {v : Value} (h : v.truthy = false) : v.present? = none := by
  simp [present?, h]

theorem Value.present?_eq_iff {v w : Value} :
    v.present? = w.present? ↔ v = w ∨ v.truthy = false ∧ w.truthy = false := by
  constructor
  · intro h
    cases hv : v.truthy with
    | true =>
      rw [present?_of_truthy hv, eq_comm, present?, Option.guard_eq_some_iff] at h
      exact Or.inl h.1.symm
    | false =>
      rw [present?_of_absent hv, eq_comm, present?, Option.guard_eq_none_iff] at h
      exact Or.inr ⟨rfl, h⟩
  · rintro (rfl | ⟨hv, hw⟩)
    · rfl
    · rw [present?_of_absent hv, present?_of_absent hw]

namespace Extractor

/-- Of the value so far a step sees only whether it counts as present, and then the value. -/
theorem accumulate_congr_present {acc acc' : Value} (h : acc.present? = acc'.present?)
    (step : Step) (v : Value) :
    (accumulate acc step v).present? = (accumulate acc' step v).present? := by
  obtain rfl | ⟨ha, ha'⟩ := Value.present?_eq_iff.1 h
  · rfl
  · rw [accumulate_of_absent ha, accumulate_of_absent ha']

theorem present?_accumulate_absent (acc : Value) (step : Step) {v : Value}
    (hv : v.truthy = false) : (accumulate acc step v).present? = acc.present? := by
  cases ha : acc.truthy with
  | true => rw [accumulate_absent ha hv]
  | false => rw [accumulate_of_absent ha, Value.present?_of_absent hv, Value.present?_of_absent ha]

/-- A scope that has nothing has no elements. -/
theorem elementsOf_eq_present (v : Value) : elementsOf v = v.present?.elim [] elementsOf := by
  cases hv : v.truthy with
  | true => rw [Value.present?_of_truthy hv, Option.elim_some]
  | false =>
    rw [Value.present?_of_absent hv, Option.elim_none]
    cases v with
    | arr => cases hv
    | _ => exact List.filter_cons_of_neg (by simp [hv])

/-! ## Chains -/

variable {σ : Type} {x : Extractor (StateM σ)} {engine : Engine (StateM σ)} {s : σ}

/-- A step has a value that does not count as present, after its filters. -/
def Absent (x : Extractor (StateM σ)) (engine : Engine (StateM σ)) (document reference : Value)
    (s : σ) (step : Step) : Prop :=
  ∃ v, Run.outcome (x.evalStep engine document reference step) s = .ok v ∧ v.truthy = false

/-- Steps that are absent can be left out, up to values that do not count as present. -/
theorem present?_foldSteps (hp : x.PureWith engine) {document reference acc acc' : Value}
    {chain kept : List Step} (h : LeavesOut (x.Absent engine document reference s) chain kept)
    (ha : acc.present? = acc'.present?) :
    (Value.present? <$> x.foldSteps engine document reference acc chain : Run σ (Option Value)) =
      Value.present? <$> x.foldSteps engine document reference acc' kept := by
  -- the two folds need not have the same value so far, but they agree on whether there is one
  induction h generalizing acc acc' with
  | nil => rw [foldSteps, foldSteps, map_pure, map_pure, ha]
  | keep step _ ih =>
    rw [foldSteps, foldSteps, map_bind, map_bind]
    exact bind_congr fun v => ih (accumulate_congr_present ha step v)
  | @drop steps kept step hs _ ih =>
    obtain ⟨v, he, hv⟩ := hs
    rw [foldSteps, (isPure_evalStep hp document reference step).eq_pure he, pure_bind]
    exact ih ((present?_accumulate_absent acc step hv).trans ha)

theorem present?_evalChain (hp : x.PureWith engine) {document reference : Value}
    {chain kept : List Step} (h : LeavesOut (x.Absent engine document reference s) chain kept) :
    (Value.present? <$> x.evalChain engine document reference chain : Run σ (Option Value)) =
      Value.present? <$> x.evalChain engine document reference kept :=
  present?_foldSteps hp h rfl

/-- Without its absent steps a chain gives a value where it does with them. -/
theorem exists_outcome_evalChain (hp : x.PureWith engine) {document reference v : Value}
    {chain kept : List Step} (h : LeavesOut (x.Absent engine document reference s) chain kept)
    (hv : Run.outcome (x.evalChain engine document reference chain) s = .ok v) :
    ∃ w, Run.outcome (x.evalChain engine document reference kept) s = .ok w ∧
      v.present? = w.present? := by
  have ho := congrArg (Run.outcome · s) (present?_evalChain hp h)
  simp only [Run.outcome_map, hv] at ho
  cases hw : Run.outcome (x.evalChain engine document reference kept) s with
  | error e =>
    rw [hw] at ho
    cases ho
  | ok w =>
    rw [hw] at ho
    exact ⟨w, rfl, Except.ok.inj ho⟩

/-! ## Schemas -/

/-- A schema without some of the absent steps of its scopes, for a document and a reference context.
    The steps of a nested schema are absent on every element that it is resolved on; if there is no
    such element, it does not matter what is nested. -/
inductive Thinned (x : Extractor (StateM σ)) (engine : Engine (StateM σ)) (s : σ) :
    Value → List (String × Value) → Schema → Schema → Prop
  | scope {document : Value} {context : List (String × Value)} {chain kept : List Step}
      {merged : Bool} {fields : List (String × Field Schema)}
      (h : LeavesOut (x.Absent engine document (.obj context) s) chain kept) (hk : kept ≠ []) :
      Thinned x engine s document context ⟨some chain, merged, fields⟩ ⟨some kept, merged, fields⟩
  | nested {document : Value} {context : List (String × Value)} {scope : List Step} {merged : Bool}
      (before after : List (String × Field Schema)) {name : String} {child child' : Schema}
      (h : ∀ resolved element leaves,
        Run.outcome (x.evalChain engine document (.obj context) scope) s = .ok resolved →
        element ∈ elementsOf resolved →
        Run.outcome (x.evalLeaves engine element (.obj context) (before ++ after)) s = .ok leaves →
        Thinned x engine s element (childReference context leaves) child child') :
      Thinned x engine s document context
        ⟨some scope, merged, before ++ (name, .nested child) :: after⟩
        ⟨some scope, merged, before ++ (name, .nested child') :: after⟩
  | trans {document : Value} {context : List (String × Value)} {a b c : Schema}
      (h : Thinned x engine s document context a b) (h' : Thinned x engine s document context b c) :
      Thinned x engine s document context a c

/-- A nested schema has no part in the leaves. -/
theorem evalLeaves_nested (x : Extractor (StateM σ)) (engine : Engine (StateM σ))
    (element reference : Value) (before after : List (String × Field Schema)) (name : String)
    (child : Schema) :
    x.evalLeaves engine element reference (before ++ (name, .nested child) :: after) =
      (x.evalLeaves engine element reference (before ++ after) :
        Run σ (List (String × Value))) := by
  induction before with
  | nil => rfl
  | cons field fields ih =>
    obtain ⟨name, chain | child⟩ := field
    · simp only [List.cons_append, evalLeaves, ih]
    · exact ih

theorem extractChildren_congr {element : Value} {reference : List (String × Value)}
    {child child' : Schema}
    (h : x.extract engine element reference child =
      (x.extract engine element reference child' : Run σ Value))
    (before after : List (String × Field Schema)) (name : String) :
    x.extractChildren engine element reference (before ++ (name, .nested child) :: after) =
      (x.extractChildren engine element reference (before ++ (name, .nested child') :: after) :
        Run σ (List (String × Value))) := by
  induction before with
  | nil => simp only [List.nil_append, extractChildren, h]
  | cons field fields ih =>
    obtain ⟨name, chain | child⟩ := field
    · exact ih
    · simp only [List.cons_append, extractChildren, ih]

/-- Whoever asks for the elements only does not see absent values. -/
theorem bind_elementsOf_congr {p q : Run σ Value}
    (h : (Value.present? <$> p : Run σ (Option Value)) = Value.present? <$> q)
    {α : Type} (f : List Value → Run σ α) :
    (p >>= fun v => f (elementsOf v)) = q >>= fun v => f (elementsOf v) := by
  have hf (r : Run σ Value) : (r >>= fun v => f (elementsOf v)) =
      (Value.present? <$> r) >>= fun v => f (v.elim [] elementsOf) := by
    simp only [bind_map_left, ← elementsOf_eq_present]
  rw [hf, hf, h]

theorem evalElement_congr (hp : x.PureWith engine) {element : Value}
    {context : List (String × Value)} {before after : List (String × Field Schema)}
    {child child' : Schema}
    (h : ∀ leaves,
      Run.outcome (x.evalLeaves engine element (.obj context) (before ++ after)) s = .ok leaves →
      x.extract engine element (childReference context leaves) child =
        (x.extract engine element (childReference context leaves) child' : Run σ Value))
    (name : String) :
    x.evalElement engine context (before ++ (name, .nested child) :: after) element =
      x.evalElement engine context (before ++ (name, .nested child') :: after) element := by
  have hl := isPure_evalLeaves hp element (.obj context) (before ++ after)
  rw [evalElement, evalElement, evalLeaves_nested, evalLeaves_nested]
  cases ho : Run.outcome (x.evalLeaves engine element (.obj context) (before ++ after)) s with
  | error e =>
    rw [hl.eq_throw ho]
    rfl
  | ok leaves => rw [hl.eq_pure ho, pure_bind, pure_bind, extractChildren_congr (h leaves ho)]

/-- Absent steps can be left out of scopes. -/
theorem extract_thinned (hp : x.PureWith engine) {document : Value}
    {context : List (String × Value)} {schema schema' : Schema}
    (h : Thinned x engine s document context schema schema') :
    x.extract engine document context schema =
      (x.extract engine document context schema' : Run σ Value) := by
  induction h with
  | @scope document context chain kept merged fields h hk =>
    cases hd : document.truthy with
    | false => rw [extract_absent x _ hd, extract_absent x _ hd]
    | true =>
      obtain ⟨step, steps, rfl⟩ := List.exists_cons_of_ne_nil hk
      obtain ⟨step', steps', rfl⟩ := List.exists_cons_of_ne_nil (h.ne_nil hk)
      rw [extract_scoped x _ hd, extract_scoped x _ hd]
      exact bind_elementsOf_congr (present?_evalChain hp h) fun elements => do
        let records ← elements.mapM (x.evalElement engine context fields)
        return collect merged records
  | @nested document context scope merged before after name child child' _ ih =>
    cases hd : document.truthy with
    | false => rw [extract_absent x _ hd, extract_absent x _ hd]
    | true =>
      match scope with
      | [] =>
        rw [extract_unscoped x _ hd _ rfl, extract_unscoped x _ hd _ rfl]
        rfl
      | step :: steps =>
        have hc := isPure_evalChain hp document (.obj context) (step :: steps)
        rw [extract_scoped x _ hd, extract_scoped x _ hd]
        cases ho : Run.outcome (x.evalChain engine document (.obj context) (step :: steps)) s with
        | error e =>
          rw [hc.eq_throw ho]
          rfl
        | ok resolved =>
          -- the elements are the same ones, and on each of them so are the leaves
          rw [hc.eq_pure ho, pure_bind, pure_bind, mapM_congr fun element he => ?_]
          exact evalElement_congr hp (fun leaves hl => ih resolved element leaves ho he hl) name
  | trans _ _ ih ih' => rw [ih, ih']

/-! ## Requests -/

/-- Over pure collaborators, steps that are absent can be left out of a chain, which keeps its value
    if that counts as present, and else has a value that does not count either. So they can be left
    out of the scopes of a request, as long as a step is left, and the result stays what it is. -/
theorem exec_thinned (hp : x.PureWith engine) (s : σ) :
    (∀ document reference chain kept v,
      LeavesOut (x.Absent engine document reference s) chain kept →
      Run.outcome (x.evalChain engine document reference chain) s = .ok v →
      ∃ w, Run.outcome (x.evalChain engine document reference kept) s = .ok w ∧
        (v.truthy = true → w = v) ∧ (v.truthy = false → w.truthy = false)) ∧
    ∀ document reference choice schema schema', x.engines.select document choice = engine →
      Thinned x engine s document reference.entriesOf schema schema' →
      Run.outcome (x.exec document ⟨some schema, reference, choice⟩) s =
        Run.outcome (x.exec document ⟨some schema', reference, choice⟩) s := by
  constructor
  · intro document reference chain kept v hl hv
    obtain ⟨w, hw, h⟩ := exists_outcome_evalChain hp hl hv
    refine ⟨w, hw, ?_⟩
    obtain rfl | ⟨hva, hwa⟩ := Value.present?_eq_iff.1 h
    · exact ⟨fun _ => rfl, id⟩
    · exact ⟨fun hvt => by simp [hva] at hvt, fun _ => hwa⟩
  · rintro document reference choice schema schema' rfl h
    simp only [exec, extract_thinned hp h]

/-- Rows that stand at one of two places in a page, with tags that stand at one of two places in a
    row. -/
def rowsOf (places tagPlaces : List Step) : Schema :=
  ⟨some places, false, [("name", .steps [.ofSelector "name"]),
    ("tags", .nested ⟨some tagPlaces, false, [("tag", .steps [.root])]⟩)]⟩

/-- Neither the rows nor their tags are at the first place. -/
theorem exec_thinned_rows :
    let x : Extractor (StateM Unit) := builtin .standard
    let tag := Value.obj [("t", .null)]
    let rows := [Value.obj [("name", .str "a"), ("tags", .arr [tag])],
      .obj [("name", .str "b"), ("tags", tag)]]
    let page := Value.obj [("note", .empty), ("rows", .arr rows)]
    let context := Value.obj []
    let value chain := Run.outcome (x.evalChain Structured.engine page context chain) ()
    let result schema := Run.outcome (x.exec page ⟨some schema, context, none⟩) ()
    let tags := Value.arr [.obj [("tag", tag)]]
    let both := rowsOf [.ofSelector "entries", .ofSelector "rows"]
      [.ofSelector "labels", .ofSelector "tags"]
    let one := rowsOf [.ofSelector "rows"] [.ofSelector "tags"]
    let leavesOut := LeavesOut (x.Absent Structured.engine page context ())
    x.PureWith Structured.engine ∧ x.engines.select page none = Structured.engine ∧
      leavesOut [.ofSelector "entries", .ofSelector "rows"] [.ofSelector "rows"] ∧
      value [.ofSelector "entries", .ofSelector "rows"] = .ok (.arr rows) ∧
      value [.ofSelector "rows"] = .ok (.arr rows) ∧
      leavesOut [.ofSelector "entries", .ofSelector "note"] [.ofSelector "entries"] ∧
      value [.ofSelector "entries", .ofSelector "note"] = .ok .empty ∧
      (∃ w, value [.ofSelector "entries"] = .ok w ∧ w.truthy = false) ∧
      Thinned x Structured.engine () page context.entriesOf both one ∧
      result one = .ok (.arr [.obj [("name", .str "a"), ("tags", tags)],
        .obj [("name", .str "b"), ("tags", tags)]]) ∧
      result both = result one := by
  intro x tag rows page context value result tags both one leavesOut
  have hp : x.PureWith Structured.engine := pureWith_builtin .standard .structured
  have hrows : leavesOut [.ofSelector "entries", .ofSelector "rows"] [.ofSelector "rows"] :=
    .drop ⟨.null, rfl, rfl⟩ (.keep _ .nil)
  have hnote : leavesOut [.ofSelector "entries", .ofSelector "note"] [.ofSelector "entries"] :=
    .keep _ (.drop ⟨.empty, rfl, rfl⟩ .nil)
  have hlabels (element reference : Value) (he : element ∈ rows) :
      LeavesOut (x.Absent Structured.engine element reference ())
        [.ofSelector "labels", .ofSelector "tags"] [.ofSelector "tags"] := by
    simp only [rows, List.mem_cons, List.not_mem_nil, or_false] at he
    obtain rfl | rfl := he <;> exact .drop ⟨.null, rfl, rfl⟩ (.keep _ .nil)
  have ht : Thinned x Structured.engine () page context.entriesOf both one := by
    refine .trans (.scope hrows (List.cons_ne_nil _ _)) ?_
    refine .nested [("name", .steps [.ofSelector "name"])] [] fun resolved element _ hr he _ => ?_
    obtain rfl : resolved = .arr rows := (Except.ok.inj hr).symm
    exact .scope (hlabels element _ (List.mem_filter.1 he).1) (List.cons_ne_nil _ _)
  obtain ⟨hchain, hexec⟩ := exec_thinned hp ()
  obtain ⟨w, hw, hpresent, -⟩ := hchain page context _ _ (.arr rows) hrows rfl
  obtain ⟨w', hw', -, habsent⟩ := hchain page context _ _ .empty hnote rfl
  exact ⟨hp, rfl, hrows, rfl, hw.trans (congrArg _ (hpresent rfl)), hnote, rfl,
    ⟨w', hw', habsent rfl⟩, ht, by decide, hexec page context none _ _ rfl ht⟩

end Extractor
end SchemaExtraction
