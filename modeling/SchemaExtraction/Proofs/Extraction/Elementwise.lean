import SchemaExtraction.Proofs.Extraction.Purity

/-!
# Element by element

Over pure collaborators a record of a result comes from one element of the scope, whatever document
the element was found in and whatever elements stand before and after it. So results are put
together like the scopes are.

Results:
* `Extractor.extract_congr`: documents whose scopes have the same elements have the same result.
* `Extractor.evalRecords_append`: the records of two scopes, one after the other.
* `Extractor.exec_elementwise`: what the results of requests owe to the elements.
-/

namespace SchemaExtraction.Extractor

variable {σ : Type} {x : Extractor (StateM σ)} {engine : Engine (StateM σ)}

/-! ## Elements -/

theorem elementsOf_append (as bs : List Value) :
    elementsOf (.arr (as ++ bs)) = elementsOf (.arr as) ++ elementsOf (.arr bs) :=
  List.filter_append as bs

/-- A single value counts as a list of one item. -/
theorem elementsOf_single {v : Value} (h : ∀ items, v ≠ .arr items) :
    elementsOf v = elementsOf (.arr [v]) := by
  cases v with
  | arr items => exact absurd rfl (h items)
  | _ => rfl

/-! ## Schemas -/

variable (hp : x.PureWith engine) {context : List (String × Value)} {s : σ}
include hp

/-- Of a document nothing but the elements of its scope goes into the records. -/
theorem evalRecords_congr {a b v w : Value} {scope : List Step}
    (hv : Run.outcome (x.evalChain engine a (.obj context) scope) s = .ok v)
    (hw : Run.outcome (x.evalChain engine b (.obj context) scope) s = .ok w)
    (h : elementsOf v = elementsOf w) (fields : List (String × Field Schema)) :
    (x.evalRecords engine a context scope fields).outcome s =
      (x.evalRecords engine b context scope fields).outcome s := by
  rw [evalRecords, evalRecords, (isPure_evalChain hp _ _ _).outcome_bind,
    (isPure_evalChain hp _ _ _).outcome_bind, hv, hw]
  show Run.outcome ((elementsOf v).mapM (x.evalElement engine context fields)) s = _
  rw [h]
  rfl

theorem extract_congr {a b v w : Value} (ha : a.truthy = true) (hb : b.truthy = true)
    {schema : Schema}
    (hv : Run.outcome (x.evalChain engine a (.obj context) (schema.scope.getD [])) s = .ok v)
    (hw : Run.outcome (x.evalChain engine b (.obj context) (schema.scope.getD [])) s = .ok w)
    (h : elementsOf v = elementsOf w) :
    Run.outcome (x.extract engine a context schema) s =
      Run.outcome (x.extract engine b context schema) s := by
  obtain hs | ⟨step, steps, merged, fields, rfl⟩ := scope_cases schema
  · rw [extract_unscoped x engine ha context hs, extract_unscoped x engine hb context hs]
  · have hr := evalRecords_congr hp hv hw h fields
    rw [outcome_extract_scoped x engine ha, outcome_extract_scoped x engine hb]
    exact congrArg (Except.map (collect merged)) hr

/-- The records of a scope that is made of two others. -/
theorem evalRecords_append {a b c : Value} {as bs : List Value} {scope : List Step}
    {fields : List (String × Field Schema)} {rs ts : List (List (String × Value))}
    (ha : Run.outcome (x.evalChain engine a (.obj context) scope) s = .ok (.arr as))
    (hb : Run.outcome (x.evalChain engine b (.obj context) scope) s = .ok (.arr bs))
    (hc : Run.outcome (x.evalChain engine c (.obj context) scope) s = .ok (.arr (as ++ bs)))
    (hr : (x.evalRecords engine a context scope fields).outcome s = .ok rs)
    (ht : (x.evalRecords engine b context scope fields).outcome s = .ok ts) :
    (x.evalRecords engine c context scope fields).outcome s = .ok (rs ++ ts) := by
  obtain ⟨v, hv, hrs⟩ := (evalRecords_eq_ok_iff hp).1 hr
  obtain ⟨w, hw, hts⟩ := (evalRecords_eq_ok_iff hp).1 ht
  cases hv.symm.trans ha
  cases hw.symm.trans hb
  refine (evalRecords_eq_ok_iff hp).2 ⟨_, hc, ?_⟩
  rw [elementsOf_append]
  exact List.rel_append hrs hts

omit hp

/-! ## Requests -/

/-- A document that counts as present, that is served by an engine, and on which the scope of a
    schema resolves to a value. -/
structure HasScope (x : Extractor (StateM σ)) (engine : Engine (StateM σ)) (schema : Schema)
    (reference : Value) (choice : Option (EngineChoice (StateM σ))) (s : σ)
    (document resolved : Value) : Prop where
  present : document.truthy = true
  served : x.engines.select document choice = engine
  resolves : Run.outcome (x.evalChain engine document (.obj reference.entriesOf)
    (schema.scope.getD [])) s = .ok resolved

/-- Over pure collaborators, a scope that is made of two others gives the records of the one and
    then those of the other; items that do not count as present do not matter; and a single value
    gives what a list of one item gives. -/
theorem exec_elementwise (hp : x.PureWith engine) (schema : Schema) (reference : Value)
    (choice : Option (EngineChoice (StateM σ))) (s : σ) :
    let result document := Run.outcome (x.exec document ⟨some schema, reference, choice⟩) s
    let scope := HasScope x engine schema reference choice s
    (schema.merged = false → ∀ a b c as bs v w,
      scope a (.arr as) → scope b (.arr bs) → scope c (.arr (as ++ bs)) →
      result a = .ok v → result b = .ok w →
        ∃ vs ws, v = .arr vs ∧ w = .arr ws ∧ result c = .ok (.arr (vs ++ ws))) ∧
    (∀ a b as bs, scope a (.arr as) → scope b (.arr bs) →
      as.filter Value.truthy = bs.filter Value.truthy → result a = result b) ∧
    ∀ a b v, (∀ items, v ≠ .arr items) → scope a v → scope b (.arr [v]) → result a = result b := by
  intro result scope
  have same {a b v w : Value} (ha : scope a v) (hb : scope b w)
      (h : elementsOf v = elementsOf w) : result a = result b := by
    simp only [result, x.exec_present ha.present, x.exec_present hb.present, ha.served, hb.served]
    exact extract_congr hp ha.present hb.present ha.resolves hb.resolves h
  refine ⟨?_, fun a b as bs ha hb h => same ha hb h,
    fun a b v hv ha hb => same ha hb (elementsOf_single hv)⟩
  intro hm a b c as bs v w ha hb hc hv hw
  simp only [result, x.exec_present ha.present, ha.served] at hv
  simp only [result, x.exec_present hb.present, hb.served] at hw
  simp only [result, x.exec_present hc.present, hc.served]
  obtain ⟨hs, rs, hr, rfl⟩ := (x.extract_eq_ok_iff engine ha.present).1 hv
  obtain ⟨-, ts, ht, rfl⟩ := (x.extract_eq_ok_iff engine hb.present).1 hw
  have hrt := evalRecords_append hp ha.resolves hb.resolves hc.resolves hr ht
  rw [hm]
  refine ⟨rs.map .obj, ts.map .obj, rfl, rfl, ?_⟩
  refine (x.extract_eq_ok_iff engine hc.present).2 ⟨hs, rs ++ ts, hrt, ?_⟩
  rw [hm, collect, List.map_append]
  rfl

/-- Rows with their names, and for every tag of a row the name of the row. -/
def tagRows : Schema :=
  (Schema.ofScope [.ofSelector "rows"]).withSteps "name" [.ofSelector "name"]
    |>.withNested "tags" ((Schema.ofScope [.ofSelector "tags"])
      |>.withSteps "of" [.ofReference "$parent.name"])

/-- Two rows apart and together, together with items that do not count, and the first row without
    a list around it. -/
theorem exec_elementwise_rows :
    let x : Extractor (StateM Unit) := builtin .standard
    let row name tags := Value.obj [("name", .str name), ("tags", .arr tags)]
    let first := row "a" [.bool true, .null, .obj []]
    let second := row "b" []
    let page v := Value.obj [("rows", v)]
    let result v := Run.outcome (x.exec (page v) ⟨some tagRows, .null, none⟩) ()
    let scope v := HasScope x Structured.engine tagRows .null none () (page v) v
    let both := Value.arr [first, second]
    let padded := Value.arr [.null, first, .str "", second, .bool false]
    x.PureWith Structured.engine ∧ tagRows.merged = false ∧
      (∀ v ∈ [.arr [first], .arr [second], both, padded, first], scope v) ∧
      (∃ vs ws, result (.arr [first]) = .ok (.arr vs) ∧ result (.arr [second]) = .ok (.arr ws) ∧
        result both = .ok (.arr (vs ++ ws))) ∧
      result padded = result both ∧ result first = result (.arr [first]) := by
  intro x row first second page result scope both padded
  have hp : x.PureWith Structured.engine := pureWith_builtin .standard .structured
  have hs (v : Value) (hv : v ∈ [.arr [first], .arr [second], both, padded, first]) : scope v := by
    simp only [List.mem_cons, List.not_mem_nil, or_false] at hv
    rcases hv with rfl | rfl | rfl | rfl | rfl <;> exact ⟨rfl, rfl, rfl⟩
  obtain ⟨happend, hpad, hsingle⟩ := exec_elementwise hp tagRows .null none ()
  obtain ⟨vs, ws, hv, hw, hr⟩ := happend rfl _ _ _ _ _ _ _ (hs (.arr [first]) (by simp))
    (hs (.arr [second]) (by simp)) (hs both (by simp)) rfl rfl
  refine ⟨hp, rfl, hs, ⟨vs, ws, congrArg Except.ok hv, congrArg Except.ok hw, hr⟩, ?_, ?_⟩
  · exact hpad _ _ _ _ (hs padded (by simp)) (hs both (by simp)) rfl
  · have hf : ∀ items, first ≠ .arr items := by simp [first, row]
    exact hsingle _ _ first hf (hs first (by simp)) (hs (.arr [first]) (by simp))

end SchemaExtraction.Extractor
