import SchemaExtraction.Extraction.Builtin
import SchemaExtraction.Proofs.Extraction.Records
import SchemaExtraction.Proofs.Schema.Order
import SchemaExtraction.Proofs.Schema.Throughout

/-!
# Elements of structured documents

The elements of a scope can be values of any kind, and a field may ask for the element itself or
for a path in the reference context, which takes no document format. Without filters the engine for
structured documents gives both on objects and on lists. On an element of any other kind it gives
the empty text, for these steps as for all others.

Results:
* `Extractor.evalChain_eq`: a chain without filters asks nothing of the pipeline.
* `Structured.chain_root`, `Structured.chain_reference`: the two kinds of steps on an element.
* `Extractor.exec_reads`: the records of all elements at every depth.
* `Extractor.exec_loses_texts`: a list of texts that do not come back.
-/

namespace SchemaExtraction

/-! ## Chains without filters -/

namespace Structured

/-- The value of a chain of steps without filters, from the value so far. -/
def chainFrom (document reference acc : Value) : List Step → Except StepError Value
  | [] => .ok acc
  | step :: steps => do
    let v ← resolve document step reference
    chainFrom document reference (Extractor.accumulate acc step v) steps

/-- The value of a chain of steps without filters. -/
def chain (document reference : Value) (steps : List Step) : Except StepError Value :=
  chainFrom document reference .null steps

/-- What becomes on an element of a value that takes no document format. -/
def onElement (element v : Value) : Value := if accepts element then v else .empty

theorem chain_single (document reference : Value) (step : Step) :
    chain document reference [step] = resolve document step reference := by
  rw [chain, chainFrom]
  cases resolve document step reference with
  | error e => rfl
  | ok v => exact congrArg Except.ok (Extractor.accumulate_null step v)

variable (element reference : Value) {step : Step}

/-- A step for the whole document. -/
theorem chain_root (hr : step.reference = none) (hs : step.selector = some Reserved.root) :
    chain element reference [step] = .ok (onElement element element) := by
  rw [chain_single, resolve, onElement, Engine.plan, hr, hs, Step.isRoot, hs]
  split <;> rfl

/-- A step for a path in the reference context. -/
theorem chain_reference {path : String} (hr : step.reference = some path)
    (hs : step.selector = none) :
    chain element reference [step] =
      .ok (onElement element ((Path.lookup? reference path).getD .null)) := by
  rw [chain_single, resolve, onElement, Engine.plan, hr, hs]
  split <;> rfl

end Structured

namespace Extractor

variable {σ : Type} (x : Extractor (StateM σ))

theorem foldSteps_eq (document reference acc : Value) {steps : List Step}
    (h : ∀ s ∈ steps, s.filters = []) :
    x.foldSteps Structured.engine document reference acc steps =
      lift .step (pure (Structured.chainFrom document reference acc steps)) := by
  induction steps generalizing acc with
  | nil => rfl
  | cons step steps ih =>
    have hv : x.evalStep Structured.engine document reference step =
        lift .step (pure (Structured.resolve document step reference)) :=
      x.evalStep_of_filters_eq_nil Structured.engine document reference (h step (by simp))
    rw [foldSteps, hv, Structured.chainFrom]
    cases Structured.resolve document step reference with
    | error e => rfl
    | ok v => exact ih _ fun s hs => h s (by simp [hs])

/-- The pipeline has no part in a chain without filters. -/
theorem evalChain_eq (document reference : Value) {steps : List Step}
    (h : ∀ s ∈ steps, s.filters = []) :
    x.evalChain Structured.engine document reference steps =
      lift .step (pure (Structured.chain document reference steps)) :=
  x.foldSteps_eq document reference .null h

theorem returns_chain (document reference : Value) {steps : List Step}
    (h : ∀ s ∈ steps, s.filters = []) :
    Run.Returns (x.evalChain Structured.engine document reference steps) fun v =>
      Structured.chain document reference steps = .ok v := by
  rw [x.evalChain_eq document reference h]
  exact returns_lift_pure _ _

end Extractor

/-! ## Records -/

namespace Schema

/-- No step has filters. -/
def Unfiltered : Schema → Prop :=
  Throughout (fun scope => ∀ s ∈ scope, s.filters = []) fun chain => ∀ s ∈ chain, s.filters = []

/-- A record in which the fields with a single step that takes no document format read the element
    and the reference context. -/
structure ReadsLeaves (element context : Value) (fields : List (String × Field Schema))
    (record : List (String × Value)) : Prop where
  keys : Entries.keys record = Entries.keys fields
  /-- the element itself -/
  root : ∀ name step, (name, Field.steps [step]) ∈ fields → step.reference = none →
    step.selector = some Reserved.root →
    Entries.get? name record = some (Structured.onElement element element)
  /-- a path in the reference context -/
  reference : ∀ name step path, (name, Field.steps [step]) ∈ fields →
    step.reference = some path → step.selector = none →
    Entries.get? name record =
      some (Structured.onElement element ((Path.lookup? context path).getD .null))

/-- The results of a schema on a document in a reference context: the records of the elements of
    its scope in order, each with what its element and the context have at the steps that take no
    document format; and so on under the names of the nested schemas, with the leaves of the record
    added to the context. -/
inductive Reads : Value → List (String × Value) → Schema → Value → Prop
  | absent {document : Value} {context : List (String × Value)} {schema : Schema}
      (h : document.truthy = false) : Reads document context schema .empty
  | records {document : Value} {context : List (String × Value)} {scope : List Step}
      {merged : Bool} {fields : List (String × Field Schema)} {resolved : Value}
      {records : List (List (String × Value))}
      (scope_eq : Structured.chain document (.obj context) scope = .ok resolved)
      (length_eq : (Extractor.elementsOf resolved).length = records.length)
      (leaves : ∀ (i : Nat) (element : Value) (record : List (String × Value)),
        (Extractor.elementsOf resolved)[i]? = some element → records[i]? = some record →
        ReadsLeaves element (.obj context) fields record)
      (nested : ∀ (i : Nat) (element : Value) (record : List (String × Value)),
        (Extractor.elementsOf resolved)[i]? = some element → records[i]? = some record →
        ∀ name child v, (name, Field.nested child) ∈ fields → Entries.get? name record = some v →
          Reads element (Extractor.childReference context (leavesOf fields record)) child v) :
      Reads document context ⟨some scope, merged, fields⟩ (Extractor.collect merged records)

variable {fields : List (String × Field Schema)}

theorem Filled.readsLeaves {element context : Value} {record : List (String × Value)}
    {N : List (String × Value) → Schema → Value → Prop}
    (h : Filled (fun chain v => Structured.chain element context chain = .ok v) N fields record) :
    ReadsLeaves element context fields record where
  keys := h.keys
  root name step hm hr hs := by
    obtain ⟨v, hv, hc⟩ := h.leaf name _ hm
    cases hc.symm.trans (Structured.chain_root element context hr hs)
    exact hv
  reference name step path hm hr hs := by
    obtain ⟨v, hv, hc⟩ := h.leaf name _ hm
    cases hc.symm.trans (Structured.chain_reference element context hr hs)
    exact hv

end Schema

namespace Extractor

variable {σ : Type} (x : Extractor (StateM σ))

theorem returns_reads {schema : Schema} (hf : schema.Unfiltered) (ho : schema.Ordered)
    (document : Value) (context : List (String × Value)) :
    Run.Returns (x.extract Structured.engine document context schema)
      (Schema.Reads document context schema) := by
  induction hf generalizing document context with
  | @intro scope merged fields steps chains nested ih =>
    cases hd : document.truthy with
    | false =>
      rw [extract_absent x _ hd]
      exact Run.Returns.pure (.absent hd)
    | true =>
      match scope with
      | none | some [] =>
        rw [extract_unscoped x _ hd context rfl]
        exact Run.Returns.throw _ _
      | some (step :: rest) =>
        refine (x.returns_extract_scoped Structured.engine ho.ascending hd merged
          (x.returns_chain document (.obj context) steps)
          (fun element name chain hm => x.returns_chain element (.obj context) (chains _ _ hm))
          fun element leaves name child hm => ih name child hm (ho.child hm) element
            (childReference context leaves)).mono ?_
        rintro v ⟨resolved, records, rfl, hr, hrec⟩
        refine .records hr hrec.length_eq (fun i element record he hi => ?_) ?_
        · exact (at_position hrec he hi).readsLeaves
        · intro i element record he hi name child v hm hv
          obtain ⟨w, hw, hn⟩ := (at_position hrec he hi).nested name child hm
          cases hv.symm.trans hw
          exact hn

/-- Without filters and with the engine for structured documents, every record that comes back has
    what its element and its reference context have at the steps that take no document format, if
    the element is an object or a list. On an element of another kind the fields of such steps are
    the empty text. -/
theorem exec_reads {schema : Schema} (hf : schema.Unfiltered) (ho : schema.Ordered)
    (document reference : Value) {choice : Option (EngineChoice (StateM σ))}
    (he : x.engines.select document choice = Structured.engine) (s : σ) {v : Value}
    (h : Run.outcome (x.exec document ⟨some schema, reference, choice⟩) s = .ok v) :
    Schema.Reads document reference.entriesOf schema v := by
  rw [exec] at h
  split at h
  next hd =>
    cases h
    exact .absent (by simpa using hd)
  next hd =>
    simp only [he] at h
    exact x.returns_reads hf ho document _ s v h

/-- The labels of tags, each of them the tag itself, and with every tag the title of the page. -/
def labels : Schema :=
  (Schema.ofScope [.root]).withSteps "title" [.ofSelector "title"]
    |>.withNested "tags" ((Schema.ofScope [.ofSelector "tags"])
      |>.withSteps "label" [.root] |>.withSteps "title" [.ofReference "$parent.title"])

/-- A page with a text, a list and an object as its tags. -/
def tagged : Value :=
  .obj [("tags", .arr [.str "a", .arr [.str "b"], .obj [("c", .null)]]), ("title", .str "t")]

/-- The tag that is a text comes back as the empty text, and so does the title next to it. -/
theorem exec_reads_labels :
    let x : Extractor (StateM Unit) := builtin .standard
    let row label title := Value.obj [("label", label), ("title", title)]
    let rows := [row .empty .empty, row (.arr [.str "b"]) (.str "t"),
      row (.obj [("c", .null)]) (.str "t")]
    let v := Value.arr [.obj [("tags", .arr rows), ("title", .str "t")]]
    labels.Unfiltered ∧ labels.Ordered ∧ x.engines.select tagged none = Structured.engine ∧
      Run.outcome (x.exec tagged ⟨some labels, .null, none⟩) () = .ok v ∧
      Schema.Reads tagged [] labels v := by
  have hf : labels.Unfiltered := by
    refine (((Schema.Throughout.ofScope ?_).withSteps _ ?_).withNested _
      (((Schema.Throughout.ofScope ?_).withSteps _ ?_).withSteps _ ?_)) <;>
    · simp only [List.mem_singleton, forall_eq]
      rfl
  have ho : labels.Ordered :=
    ((Schema.Ordered.ofScope _).withSteps _ _).withNested _
      (((Schema.Ordered.ofScope _).withSteps _ _).withSteps _ _)
  have he : (builtin .standard : Extractor (StateM Unit)).engines.select tagged none =
      Structured.engine := rfl
  exact ⟨hf, ho, he, rfl, exec_reads _ hf ho tagged .null he () rfl⟩

/-- A list of texts does not come back from its own items: the records have empty texts. -/
theorem exec_loses_texts :
    let x : Extractor (StateM Unit) := builtin .standard
    let schema := (Schema.ofScope [.ofSelector "tags"]).withSteps "label" [.root]
    let document := Value.obj [("tags", .arr [.str "a", .str "b"])]
    let texts a b := Value.arr [.obj [("label", .str a)], .obj [("label", .str b)]]
    Run.outcome (x.exec document ⟨some schema, .null, none⟩) () = .ok (texts "" "") ∧
      texts "" "" ≠ texts "a" "b" := by
  refine ⟨rfl, by simp⟩

end Extractor
end SchemaExtraction
