import SchemaExtraction.Proofs.Extraction.TraceRun
import SchemaExtraction.Proofs.Schema.Throughout

/-!
# Reference contexts

Every call that is made for a step carries a reference context. For the steps of the schema of a
request it is the one that the caller gave. For the steps of a nested schema it is the same with
one key set, under which stands the record of the chains of the element that the schema is nested
in.

Results:
* `get?_contextOf`: what is found in the context of a nested schema.
* `Trace.parent_of_mem_ofSchema`: the records that contexts are made of.
* `Extractor.exec_contexts`: the contexts of the calls that are made for a request.
-/

namespace SchemaExtraction

/-- Who a call about a step goes to, and the reference context that it carries. -/
def Event.context? : Event → Option (Party × Value)
  | resolved who _ _ reference _ => some (who, reference)
  | filtered _ request _ => some (.pipeline, request.reference)
  | _ => none

/-- Only the key of the parent differs from the context of the caller. -/
theorem get?_contextOf (caller record : List (String × Value)) (k : String) :
    Entries.get? k (contextOf caller (some record)) =
      if Reserved.parent = k then some (.obj record) else Entries.get? k caller :=
  Entries.get?_insert _ _ _ _

/-! ## Visits -/

namespace Visit

/-- The contexts of the calls of a visit: the engine is called and, if there are filters, the
    pipeline. -/
def contexts (who : Party) (caller : List (String × Value)) (v : Visit) :
    List (Option (Party × Value)) :=
  let context := .obj (contextOf caller v.parent)
  some (who, context) :: if v.step.filters.isEmpty then [] else [some (.pipeline, context)]

variable {who : Party} {field : String} {caller : List (String × Value)} {v : Visit} {a : Value}
  {e : ExtractionError} {vs : List Visit} {es : List Event} {as : List Value}

theorem Gives.contexts_eq (h : Gives who field caller v es a) :
    es.map Event.context? = v.contexts who caller := by
  cases h with
  | plain hf => simp [contexts, Event.context?, asking, hf]
  | filtered hf => simp [contexts, Event.context?, asking, filtering, FilterRequest.ofField, hf]

theorem Fails.contexts_prefix (h : Fails who field caller v es e) :
    es.map Event.context? <+: v.contexts who caller := by
  cases h with
  | step => exact List.prefix_append [_] _
  | filter hf =>
    simp [contexts, Event.context?, asking, filtering, FilterRequest.ofField, hf]

theorem Complete.contexts_eq (h : Complete who field caller vs es as) :
    es.map Event.context? = vs.flatMap (contexts who caller) := by
  induction h with
  | nil => rfl
  | cons hv _ ih => rw [List.map_append, hv.contexts_eq, ih, List.flatMap_cons]

theorem Stop.contexts_prefix (h : Stop who field caller vs es as e) :
    es.map Event.context? <+: vs.flatMap (contexts who caller) := by
  induction h with
  | fail hv =>
    rw [List.flatMap_cons]
    exact hv.contexts_prefix.trans (List.prefix_append _ _)
  | schema => exact List.nil_prefix
  | cons hv _ ih =>
    rw [List.map_append, hv.contexts_eq, List.flatMap_cons, List.prefix_append_right_inj]
    exact ih

end Visit

/-! ## The records of elements -/

namespace Trace

/-- The record of the chains has their names, and no others, as its keys. -/
theorem keys_leafRecord (values : List Value) (fields : List (String × Field Schema)) :
    Entries.keys (leafRecord values fields) =
      Entries.keys (fields.filter fun f => !f.2.isNested) := by
  induction fields generalizing values with
  | nil => rfl
  | cons field fields ih =>
    obtain ⟨name, chain | child⟩ := field
    · simpa [Entries.keys, leafRecord, Field.isNested] using ih _
    · simpa [leafRecord, Field.isNested] using ih values

theorem mem_inTurn {α : Type} {visits : List Value → α → List Visit} {v : Visit} {as : List α}
    {values : List Value} (h : v ∈ inTurn visits values as) :
    ∃ values', ∃ a ∈ as, v ∈ visits values' a := by
  induction as generalizing values with
  | nil => cases h
  | cons a as ih =>
    rcases List.mem_append.1 h with h | h
    · exact ⟨values, a, by simp, h⟩
    · obtain ⟨values', a', ha, hv⟩ := ih h
      exact ⟨values', a', by simp [ha], hv⟩

theorem parent_of_mem_ofChain {parent : Option (List (String × Value))} {document : Value}
    {chain : List Step} {v : Visit} (h : v ∈ ofChain parent document chain) :
    v.parent = parent := by
  obtain ⟨step, _, rfl⟩ := List.mem_map.1 h
  rfl

theorem parent_of_mem_ofLeaves {parent : Option (List (String × Value))} {element : Value}
    {fields : List (String × Field Schema)} {v : Visit} (h : v ∈ ofLeaves parent element fields) :
    v.parent = parent := by
  induction fields with
  | nil => cases h
  | cons field fields ih =>
    obtain ⟨name, chain | child⟩ := field
    · rcases List.mem_append.1 h with h | h
      · exact parent_of_mem_ofChain h
      · exact ih h
    · exact ih h

/-- The record of the chains of some schema in a schema: no nested schema has a value in it. -/
def IsRecordWithin (schema : Schema) (record : List (String × Value)) : Prop :=
  ∃ s : Schema, s.Within schema ∧
    Entries.keys record = Entries.keys (s.fields.filter fun f => !f.2.isNested)

theorem IsRecordWithin.nested {schema child : Schema} {name : String}
    (hc : (name, .nested child) ∈ schema.fields) {record : List (String × Value)}
    (h : IsRecordWithin child record) : IsRecordWithin schema record := by
  obtain ⟨s, hs, hr⟩ := h
  exact ⟨s, .nested hc hs, hr⟩

mutual

/-- A visit is made for the schema itself, or in an element with such a record. -/
theorem parent_of_mem_ofSchema {parent : Option (List (String × Value))} {document : Value}
    {values : List Value} {schema : Schema} {v : Visit}
    (h : v ∈ ofSchema parent document values schema) :
    v.parent = parent ∨ ∃ record, v.parent = some record ∧ IsRecordWithin schema record := by
  obtain ⟨scope, merged, fields⟩ := schema
  rw [ofSchema_eq] at h
  rcases List.mem_append.1 h with h | h
  · exact Or.inl (parent_of_mem_ofChain h)
  · obtain ⟨values', element, _, h⟩ := mem_inTurn h
    rcases List.mem_append.1 h with h | h
    · exact Or.inl (parent_of_mem_ofLeaves h)
    · refine Or.inr ?_
      rcases parent_of_mem_ofChildren h with hp | ⟨name, child, hc, record, hp, hr⟩
      · exact ⟨_, hp, _, .refl _, keys_leafRecord _ _⟩
      · exact ⟨record, hp, hr.nested hc⟩

theorem parent_of_mem_ofChildren {record : List (String × Value)} {element : Value}
    {values : List Value} {fields : List (String × Field Schema)} {v : Visit}
    (h : v ∈ ofChildren record element values fields) :
    v.parent = some record ∨ ∃ name child, (name, Field.nested child) ∈ fields ∧
      ∃ record', v.parent = some record' ∧ IsRecordWithin child record' := by
  match fields with
  | [] => simp [ofChildren] at h
  | (_, .steps _) :: fields =>
    rw [ofChildren] at h
    refine (parent_of_mem_ofChildren h).imp_right ?_
    rintro ⟨name, child, hc, hr⟩
    exact ⟨name, child, List.mem_cons_of_mem _ hc, hr⟩
  | (name, .nested schema) :: fields =>
    rw [ofChildren] at h
    rcases List.mem_append.1 h with h | h
    · refine (parent_of_mem_ofSchema h).imp_right fun hr => ?_
      exact ⟨name, schema, by simp, hr⟩
    · refine (parent_of_mem_ofChildren h).imp_right ?_
      rintro ⟨name, child, hc, hr⟩
      exact ⟨name, child, List.mem_cons_of_mem _ hc, hr⟩

end

theorem parent_of_mem_ofCall {document : Value} {values : List Value} {schema? : Option Schema}
    {v : Visit} (h : v ∈ ofCall document values schema?) :
    v.parent = none ∨ ∃ schema record, schema? = some schema ∧ v.parent = some record ∧
      IsRecordWithin schema record := by
  cases schema? with
  | none => cases h
  | some schema =>
    rw [ofCall] at h
    split at h
    · refine (parent_of_mem_ofSchema h).imp_right ?_
      rintro ⟨record, hp, hr⟩
      exact ⟨schema, record, rfl, hp, hr⟩
    · cases h

end Trace

/-! ## Serving a request -/

namespace Extractor

variable {σ : Type} (x : Extractor (StateM σ))

theorem contexts_prefix (document : Value) (request : Request (StateM σ)) (s : σ) :
    let journal := x.journal document request s
    let trace := Trace.ofCall document (stepValues x.settings.filterField journal) request.schema
    journal.map Event.context? <+:
      trace.flatMap (Visit.contexts (x.server document request.engine)
        request.reference.entriesOf) := by
  have h := x.exec_visits document request s []
  simp only [List.append_nil] at h
  cases hr : Run.outcome (x.exec document request) s with
  | ok v =>
    rw [hr] at h
    exact ⟨[], (List.append_nil _).trans h.contexts_eq⟩
  | error e =>
    rw [hr] at h
    exact h.contexts_prefix

/-- The calls that are made for a request carry the contexts of the visits of its trace, each of
    them the context of the caller or, in an element, the same with the record of its chains as
    the parent. -/
theorem exec_contexts (document : Value) (request : Request (StateM σ)) (s : σ) :
    let caller := request.reference.entriesOf
    let journal := x.journal document request s
    let trace := Trace.ofCall document (stepValues x.settings.filterField journal) request.schema
    let contexts := trace.flatMap (Visit.contexts (x.server document request.engine) caller)
    (match Run.outcome (x.exec document request) s with
      | .ok _ => journal.map Event.context? = contexts
      | .error _ => journal.map Event.context? <+: contexts) ∧
    ∀ v ∈ trace, (v.parent = none ∧ contextOf caller v.parent = caller) ∨
      ∃ schema record, request.schema = some schema ∧ v.parent = some record ∧
        Trace.IsRecordWithin schema record ∧
        ∀ k, Entries.get? k (contextOf caller v.parent) =
          if Reserved.parent = k then some (.obj record) else Entries.get? k caller := by
  intro caller journal trace contexts
  constructor
  · cases hr : Run.outcome (x.exec document request) s with
    | ok v =>
      have h := x.exec_visits document request s []
      simp only [List.append_nil, hr] at h
      exact h.contexts_eq
    | error e => exact x.contexts_prefix document request s
  · intro v hv
    rcases Trace.parent_of_mem_ofCall hv with hp | ⟨schema, record, hs, hp, hr⟩
    · exact Or.inl ⟨hp, by rw [hp]; rfl⟩
    · exact Or.inr ⟨schema, record, hs, hp, hr, fun k => by rw [hp, get?_contextOf]⟩

end Extractor
end SchemaExtraction
