import Mathlib.Data.List.Induction
import SchemaExtraction.Proofs.Extraction.Records
import SchemaExtraction.Proofs.Schema.Order

/-!
# The shape of results

The result of a schema has its shape: records with exactly the fields of the schema, and under the
name of every nested schema a result of that schema's shape. Whatever the engine and the pipeline
answer, an extraction that succeeds gives a result of the shape of its schema.

Results:
* `Extractor.returns_extract`: resolving an ordered schema gives a result of its shape.
* `Extractor.exec_conforms`: so does serving a request.
* `Schema.Conforms.ne_empty`: no such result is the empty text.
-/

namespace SchemaExtraction

/-! ## Shapes -/

namespace Schema

/-- The results of the shape of a schema: a list of records or, for a schema that merges its
    records, a single record or the empty object. Every record has the fields of the schema as its
    keys, and under the name of a nested schema a result of the shape of that schema. -/
inductive Conforms : Schema → Value → Prop
  | list {scope : Option (List Step)} {fields : List (String × Field Schema)}
      {records : List (List (String × Value))}
      (keys : ∀ r ∈ records, Entries.keys r = Entries.keys fields)
      (nested : ∀ r ∈ records, ∀ name child v, (name, Field.nested child) ∈ fields →
        Entries.get? name r = some v → child.Conforms v) :
      Conforms ⟨scope, false, fields⟩ (.arr (records.map .obj))
  | record {scope : Option (List Step)} {fields : List (String × Field Schema)}
      {record : List (String × Value)}
      (keys : Entries.keys record = Entries.keys fields)
      (nested : ∀ name child v, (name, Field.nested child) ∈ fields →
        Entries.get? name record = some v → child.Conforms v) :
      Conforms ⟨scope, true, fields⟩ (.obj record)
  | none {scope : Option (List Step)} {fields : List (String × Field Schema)} :
      Conforms ⟨scope, true, fields⟩ (.obj [])

theorem Conforms.ne_empty {s : Schema} {v : Value} (h : s.Conforms v) : v ≠ .empty := by
  cases h <;> exact Value.noConfusion

/-- A record with the fields of a schema. -/
structure Fits (fields : List (String × Field Schema)) (record : List (String × Value)) : Prop where
  keys : Entries.keys record = Entries.keys fields
  nested : ∀ name child v, (name, Field.nested child) ∈ fields → Entries.get? name record = some v →
    child.Conforms v

variable {fields : List (String × Field Schema)}

/-- Of records with the same keys only the last one is left when they are merged. -/
theorem foldl_insertAll_eq_last (hf : Entries.Ascending fields)
    {records : List (List (String × Value))}
    (h : ∀ r ∈ records, Entries.keys r = Entries.keys fields) :
    records.foldl Entries.insertAll [] = records.getLast?.getD [] := by
  induction records using List.reverseRecOn with
  | nil => rfl
  | append_singleton init r ih =>
    have hr : Entries.keys r = Entries.keys fields := h r (by simp)
    have hi := ih fun r' hr' => h r' (by simp [hr'])
    rw [List.foldl_append, List.foldl_cons, List.foldl_nil, hi, List.getLast?_concat,
      Option.getD_some]
    have asc {r' : List (String × Value)} (he : Entries.keys r' = Entries.keys fields) :
        Entries.Ascending r' := by rw [Entries.Ascending, he]; exact hf
    cases hl : init.getLast? with
    | none =>
      exact Entries.insertAll_eq_right Entries.ascending_nil (asc hr) (by simp [Entries.keys])
    | some r' =>
      have hr' := h r' (by simp [List.mem_of_getLast? hl])
      refine Entries.insertAll_eq_right (asc hr') (asc hr) fun k hk => ?_
      rw [Option.getD_some, hr'] at hk
      rw [hr]
      exact hk

theorem conforms_collect {scope : Option (List Step)} (merged : Bool)
    (hf : Entries.Ascending fields) {records : List (List (String × Value))}
    (h : ∀ r ∈ records, Fits fields r) :
    Conforms ⟨scope, merged, fields⟩ (Extractor.collect merged records) := by
  cases merged with
  | false => exact .list (fun r hr => (h r hr).keys) fun r hr => (h r hr).nested
  | true =>
    rw [Extractor.collect, if_pos rfl, foldl_insertAll_eq_last hf fun r hr => (h r hr).keys]
    cases hl : records.getLast? with
    | none => exact .none
    | some r =>
      have hr := h r (List.mem_of_getLast? hl)
      exact .record hr.keys hr.nested

end Schema

/-! ## Extraction -/

namespace Extractor

variable {σ : Type} (x : Extractor (StateM σ)) (engine : Engine (StateM σ))

theorem returns_extract {schema : Schema} (ho : schema.Ordered) {document : Value}
    (hd : document.truthy = true) (reference : List (String × Value)) :
    Run.Returns (x.extract engine document reference schema) schema.Conforms := by
  induction ho generalizing document reference with
  | @intro scope merged fields keys nested ih =>
    obtain hs | ⟨step, steps, _, _, ⟨⟩⟩ := scope_cases ⟨scope, merged, fields⟩
    · rw [extract_unscoped x engine hd reference hs]
      exact Run.Returns.throw _ _
    · rw [extract_scoped x engine hd]
      refine Run.Returns.bind (Run.Returns.any _) fun resolved _ => ?_
      -- each element gives a record that fits, by the hypothesis for the nested schemas
      refine Run.Returns.bind (P := fun records => ∀ r ∈ records, Schema.Fits fields r)
        (Run.Returns.mapM fun element he => ?_) fun records hr =>
          Run.Returns.pure (Schema.conforms_collect merged keys hr)
      have ht : element.truthy = true := (List.mem_filter.1 he).2
      have hL name chain (_ : (name, Field.steps chain) ∈ fields) :=
        Run.Returns.any (x.evalChain engine element (.obj reference) chain)
      have hN leaves name child (hm : (name, Field.nested child) ∈ fields) :
          Run.Returns (x.extract engine element (childReference reference leaves) child)
            child.Conforms :=
        ih name child hm ht _
      refine (x.returns_evalElement engine keys hL hN).mono fun r hr => ⟨hr.keys, ?_⟩
      intro name child v hm hv
      obtain ⟨w, hw, hs⟩ := hr.nested name child hm
      cases hv.symm.trans hw
      exact hs

/-- Whatever the engine and the pipeline answer, serving a request for an ordered schema gives a
    result of its shape if it succeeds. -/
theorem exec_conforms {schema : Schema} (ho : schema.Ordered) {document : Value}
    (hd : document.truthy = true) (reference : Value) (choice : Option (EngineChoice (StateM σ)))
    (s : σ) {v : Value}
    (h : Run.outcome (x.exec document ⟨some schema, reference, choice⟩) s = .ok v) :
    schema.Conforms v := by
  rw [exec, hd] at h
  exact x.returns_extract _ ho hd _ s v h

/-- An extractor whose engines find the same list for every step and count their calls, and whose
    pipeline loses every record. -/
def careless : Extractor (StateM Nat) where
  structured := engine
  markup := engine
  pipeline := Pipeline.ofFunction fun _ _ => .ok []
  settings := .standard
where
  engine : Engine (StateM Nat) :=
    { Engine.ofFunctions "careless" (fun _ _ _ => .ok .null) fun document _ => .ok document with
      resolve := fun _ _ _ => modifyGet fun n => (.ok (.arr [.bool true, .str "", .null]), n + 1) }

/-- A schema with a chain that is filtered and a nested schema that merges its records. -/
def twoLevels : Schema :=
  (Schema.ofScope [.root]).withSteps "filtered" [Step.root.withFilter (.new "any" 0)]
    |>.withNested "nested" ((Schema.ofScope [.root]).withSteps "list" [.root]).asMerged

theorem exec_conforms_careless :
    twoLevels.Ordered ∧ (Value.bool true).truthy = true ∧
      Run.outcome (careless.exec (.bool true) ⟨some twoLevels, .null, none⟩) 0 =
        .ok (.arr [.obj [("filtered", .null),
          ("nested", .obj [("list", .arr [.bool true, .str "", .null])])]]) ∧
      twoLevels.Conforms (.arr [.obj [("filtered", .null),
        ("nested", .obj [("list", .arr [.bool true, .str "", .null])])]]) := by
  have ho : twoLevels.Ordered :=
    ((Schema.Ordered.ofScope _).withSteps _ _).withNested _
      ((Schema.Ordered.ofScope _).withSteps _ _).asMerged
  have hd : (Value.bool true).truthy = true := rfl
  exact ⟨ho, hd, rfl, exec_conforms careless ho hd .null none 0 rfl⟩

end Extractor
end SchemaExtraction
