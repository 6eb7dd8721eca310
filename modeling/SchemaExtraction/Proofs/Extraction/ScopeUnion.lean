import SchemaExtraction.Proofs.Extraction.Elementwise

/-!
# Scopes of several steps

The lists that the steps of a chain resolve to are joined in the order of the steps, and an empty
one is as good as any other. So a scope of such steps has the elements of its steps, and over pure
collaborators the records of each step on its own, one after the other.

Results:
* `Value.merge_lists`: no other rule comes before that for two lists.
* `Extractor.evalChain_lists`: a chain of steps that resolve to lists.
* `Extractor.evalRecords_union`: the records of a scope of such steps.
* `Extractor.exec_union`: the same for the results of requests.
-/

namespace SchemaExtraction

/-- Lists are joined, whatever is in them. -/
theorem Value.merge_lists (vs ws : List Value) : merge (.arr vs) (.arr ws) = .arr (vs ++ ws) := rfl

namespace Extractor

variable {σ : Type} {x : Extractor (StateM σ)} {engine : Engine (StateM σ)} {s : σ}

/-! ## Chains -/

/-- A step that is no fallback and has a list as its value, after its filters. -/
structure FindsList (x : Extractor (StateM σ)) (engine : Engine (StateM σ))
    (document reference : Value) (s : σ) (step : Step) (items : List Value) : Prop where
  combined : step.fallback = false
  value : Run.outcome (x.evalStep engine document reference step) s = .ok (.arr items)

theorem accumulate_list {step : Step} (h : step.fallback = false) (vs ws : List Value) :
    accumulate (.arr vs) step (.arr ws) = .arr (vs ++ ws) := by
  rw [accumulate, h, if_neg Bool.false_ne_true, Value.merge_lists]

variable (hp : x.PureWith engine)
include hp

/-- The steps add their lists to the list so far. -/
theorem foldSteps_lists {document reference : Value} {chain : List Step}
    {lists : List (List Value)}
    (h : List.Forall₂ (x.FindsList engine document reference s) chain lists)
    (items : List Value) :
    Run.outcome (x.foldSteps engine document reference (.arr items) chain) s =
      .ok (.arr (items ++ lists.flatten)) := by
  induction h generalizing items with
  | nil => rw [List.flatten_nil, List.append_nil, foldSteps, Run.outcome_pure]
  | @cons step found chain lists hs _ ih =>
    have hstep := isPure_evalStep hp document reference step
    rw [foldSteps, hstep.eq_pure hs.value, pure_bind, accumulate_list hs.combined, ih,
      List.flatten_cons, List.append_assoc]

theorem evalChain_lists {document reference : Value} {chain : List Step}
    {lists : List (List Value)} (hne : chain ≠ [])
    (h : List.Forall₂ (x.FindsList engine document reference s) chain lists) :
    Run.outcome (x.evalChain engine document reference chain) s = .ok (.arr lists.flatten) := by
  cases h with
  | nil => exact absurd rfl hne
  | @cons step found chain lists hs h =>
    have hstep := isPure_evalStep hp document reference step
    rw [evalChain, foldSteps, hstep.eq_pure hs.value, pure_bind, accumulate_null,
      foldSteps_lists hp h, List.flatten_cons]

/-! ## Records -/

/-- The records of a scope of several steps are those of the steps. -/
theorem evalRecords_union {document : Value} {context : List (String × Value)}
    {fields : List (String × Field Schema)} {chain : List Step} {lists : List (List Value)}
    {records : List (List (List (String × Value)))} (hne : chain ≠ [])
    (hl : List.Forall₂ (x.FindsList engine document (.obj context) s) chain lists)
    (hr : List.Forall₂ (fun step rs =>
      (x.evalRecords engine document context [step] fields).outcome s = .ok rs) chain records) :
    (x.evalRecords engine document context chain fields).outcome s = .ok records.flatten := by
  refine (evalRecords_eq_ok_iff hp).2 ⟨_, evalChain_lists hp hne hl, ?_⟩
  clear hne
  -- along the chain, the elements that are added are those of the next step alone
  induction hl generalizing records with
  | nil =>
    cases hr
    exact .nil
  | @cons step found chain lists hs hl ih =>
    obtain ⟨rs, rest, hstep, hrest, rfl⟩ := List.forall₂_cons_left_iff.1 hr
    obtain ⟨resolved, hresolved, helements⟩ := (evalRecords_eq_ok_iff hp).1 hstep
    have halone := evalChain_lists hp (List.cons_ne_nil step []) (.cons hs .nil)
    cases hresolved.symm.trans halone
    rw [List.flatten_cons, List.flatten_nil, List.append_nil] at helements
    rw [List.flatten_cons, elementsOf_append, List.flatten_cons]
    exact List.rel_append helements (ih hrest)

omit hp

/-! ## Requests -/

/-- With a scope of steps that all resolve to lists, and each of which is a scope with a result, a
    request gives the lists of records of the steps, one after the other. On a document that does
    not count as present all these results are the empty text. -/
theorem exec_union (hp : x.PureWith engine) {document : Value}
    {choice : Option (EngineChoice (StateM σ))} (he : x.engines.select document choice = engine)
    (reference : Value) (s : σ) {schema : Schema} (hm : schema.merged = false)
    {chain : List Step} (hne : chain ≠ [])
    (hl : ∀ step ∈ chain, ∃ items,
      x.FindsList engine document (.obj reference.entriesOf) s step items) :
    let result scope :=
      Run.outcome (x.exec document ⟨some { schema with scope := some scope }, reference, choice⟩) s
    (∀ step ∈ chain, ∃ v, result [step] = .ok v) →
      if document.truthy then
        ∃ results : List (List Value),
          List.Forall₂ (fun step vs => result [step] = .ok (.arr vs)) chain results ∧
            result chain = .ok (.arr results.flatten)
      else (∀ step ∈ chain, result [step] = .ok .empty) ∧ result chain = .ok .empty := by
  intro result hresult
  split_ifs with hd
  · have exec_eq (scope : List Step) (hs : scope ≠ []) (v : Value) : result scope = .ok v ↔
        ∃ records, (x.evalRecords engine document reference.entriesOf scope schema.fields).outcome s
          = .ok records ∧ v = .arr (records.map .obj) := by
      simp only [result, x.exec_present hd, he, x.extract_eq_ok_iff engine hd, Option.getD_some,
        hm, collect, Bool.false_eq_true, if_false]
      exact and_iff_right hs
    have hrecords : ∀ step ∈ chain, ∃ rs,
        (x.evalRecords engine document reference.entriesOf [step] schema.fields).outcome s =
          .ok rs := by
      intro step hstep
      obtain ⟨v, hv⟩ := hresult step hstep
      obtain ⟨rs, hrs, -⟩ := (exec_eq [step] (by simp) v).1 hv
      exact ⟨rs, hrs⟩
    choose! items hitems using hl
    choose! found hfound using hrecords
    have hlists : List.Forall₂ _ chain (chain.map items) :=
      List.forall₂_map_right_iff.2 (List.forall₂_same.2 hitems)
    have hrecords : List.Forall₂ (fun step rs =>
        (x.evalRecords engine document reference.entriesOf [step] schema.fields).outcome s = .ok rs)
        chain (chain.map found) := List.forall₂_map_right_iff.2 (List.forall₂_same.2 hfound)
    refine ⟨(chain.map found).map (List.map .obj), ?_, ?_⟩
    · rw [List.forall₂_map_right_iff]
      exact hrecords.imp fun step rs hrs => (exec_eq [step] (by simp) _).2 ⟨rs, hrs, rfl⟩
    · rw [← List.map_flatten]
      exact (exec_eq chain hne _).2 ⟨_, evalRecords_union hp hne hlists hrecords, rfl⟩
  · have habsent (scope : List Step) : result scope = .ok .empty := by
      simp only [result, exec, Bool.eq_false_iff.2 hd]
      rfl
    exact ⟨fun step _ => habsent [step], habsent chain⟩

/-- The rows of a shelf, those that have been lent, and the titles that are on order. -/
def shelves : List Step :=
  [.ofSelector "shelf", .ofSelector "lent",
    (Step.ofSelector "orders").withFilter (.new "filter.split" 0)]

/-- The titles of books, with their tags. -/
def books : Schema :=
  Schema.blank.withSteps "title" [.ofSelector "title"]
    |>.withNested "tags" ((Schema.ofScope [.ofSelector "tags"]).withSteps "of"
      [.ofReference "$parent.title"])

/-- Two books on the shelf, none lent, and two on order, of which a filter makes a list. -/
theorem exec_union_books :
    let x : Extractor (StateM Unit) := builtin .standard
    let book title tags := Value.obj [("tags", .arr tags), ("title", .str title)]
    let shelf := Value.arr [book "a" [.obj []], book "b" []]
    let library := Value.obj [("lent", .arr []), ("orders", .str "c,d"), ("shelf", shelf)]
    let result scope :=
      Run.outcome (x.exec library ⟨some { books with scope := some scope }, .null, none⟩) ()
    let record title tags := Value.obj [("tags", .arr tags), ("title", title)]
    let records := [record (.str "a") [.obj [("of", .str "a")]], record (.str "b") [],
      record (.str "") [], record (.str "") []]
    x.PureWith Structured.engine ∧ x.engines.select library none = Structured.engine ∧
      books.merged = false ∧ shelves ≠ [] ∧
      (∀ step ∈ shelves, ∃ items, x.FindsList Structured.engine library (.obj []) () step items) ∧
      (∀ step ∈ shelves, ∃ v, result [step] = .ok v) ∧ library.truthy = true ∧
      ∃ results : List (List Value),
        List.Forall₂ (fun step vs => result [step] = .ok (.arr vs)) shelves results ∧
          result shelves = .ok (.arr results.flatten) ∧ results.flatten = records := by
  intro x book shelf library result record records
  have hp : x.PureWith Structured.engine := pureWith_builtin .standard .structured
  have hl : ∀ step ∈ shelves, ∃ items,
      x.FindsList Structured.engine library (.obj []) () step items := by
    simp only [shelves, List.mem_cons, List.not_mem_nil, or_false]
    rintro step (rfl | rfl | rfl)
    · exact ⟨_, rfl, rfl⟩
    · exact ⟨_, rfl, rfl⟩
    · exact ⟨[.str "c", .str "d"], rfl, by decide +kernel⟩
  have hv : ∀ step ∈ shelves, ∃ v, result [step] = .ok v := by
    simp only [shelves, List.mem_cons, List.not_mem_nil, or_false]
    rintro step (rfl | rfl | rfl)
    · exact ⟨.arr (records.take 2), by decide +kernel⟩
    · exact ⟨.arr [], by decide +kernel⟩
    · exact ⟨.arr (records.drop 2), by decide +kernel⟩
  have hrecords : result shelves = .ok (.arr records) := by decide +kernel
  obtain ⟨results, hr, hflat⟩ := exec_union hp rfl .null () rfl (List.cons_ne_nil _ _) hl hv
  refine ⟨hp, rfl, rfl, List.cons_ne_nil _ _, hl, hv, rfl, results, hr, hflat, ?_⟩
  exact Value.arr.inj (Except.ok.inj (hflat.symm.trans hrecords))

end Extractor
end SchemaExtraction
