import SchemaExtraction.Proofs.Extraction.Journal

/-!
# The steps of an extraction in order

A schema has its steps evaluated in one order only: those of its scope on the document, and then
for each element the steps of its chains and the steps of its nested schemas. Which elements there
are depends on the values that the steps have had so far, so the trace of a schema is a function of
these values.

Results:
* `Trace.ofSchema_eq`: the trace of a schema, element by element.
* `Visit.Complete.append`, `Visit.Complete.stop_append`: the calls of visits, one part after the
  other.
* `Visit.Complete.stepValues_eq`, `Visit.Stop.stepValues_eq`: the values of the steps can be read
  off the calls.
-/

namespace SchemaExtraction

/-- The evaluation of a step: the document that it is evaluated on, and the record of the element
    that the schema of the step is nested in, if it is nested. -/
structure Visit where
  document : Value
  step : Step
  parent : Option (List (String × Value))

/-- The reference context of a schema: that of the caller or, in an element, that of the caller
    with the record of the element. -/
def contextOf (caller : List (String × Value)) :
    Option (List (String × Value)) → List (String × Value)
  | none => caller
  | some record => Entries.insert Reserved.parent (.obj record) caller

/-! ## The trace of a schema

The functions below take the values of the steps from here on, in the order of their evaluation. -/

namespace Trace

/-- The value of a chain, from the value so far. -/
def foldValues (acc : Value) (values : List Value) (chain : List Step) : Value :=
  (chain.zip values).foldl (fun acc (step, v) => Extractor.accumulate acc step v) acc

/-- The visits of a chain. -/
def ofChain (parent : Option (List (String × Value))) (document : Value) (chain : List Step) :
    List Visit :=
  chain.map fun step => ⟨document, step, parent⟩

/-- The visits of one thing after the other. -/
def inTurn {α : Type} (visits : List Value → α → List Visit) : List Value → List α → List Visit
  | _, [] => []
  | values, a :: as =>
    visits values a ++ inTurn visits (values.drop (visits values a).length) as

/-- The visits of the chains among some fields. -/
def ofLeaves (parent : Option (List (String × Value))) (element : Value) :
    List (String × Field Schema) → List Visit
  | [] => []
  | (_, .steps chain) :: fields => ofChain parent element chain ++ ofLeaves parent element fields
  | (_, .nested _) :: fields => ofLeaves parent element fields

/-- The record of the chains among some fields. -/
def leafRecord (values : List Value) : List (String × Field Schema) → List (String × Value)
  | [] => []
  | (name, .steps chain) :: fields =>
    (name, foldValues .null values chain) :: leafRecord (values.drop chain.length) fields
  | (_, .nested _) :: fields => leafRecord values fields

mutual

/-- The visits of a schema: the steps of its scope on the document, and then for every element
    those of its chains and those of its nested schemas on that element. -/
def ofSchema (parent : Option (List (String × Value))) (document : Value) (values : List Value) :
    Schema → List Visit
  | ⟨scope, _, fields⟩ =>
    let chain := scope.getD []
    ofChain parent document chain ++
      inTurn (fun values element =>
          ofLeaves parent element fields ++
            ofChildren (leafRecord values fields) element
              (values.drop (ofLeaves parent element fields).length) fields)
        (values.drop chain.length) (Extractor.elementsOf (foldValues .null values chain))

/-- The visits of the nested schemas among some fields, in an element with a record. -/
def ofChildren (record : List (String × Value)) (element : Value) (values : List Value) :
    List (String × Field Schema) → List Visit
  | [] => []
  | (_, .steps _) :: fields => ofChildren record element values fields
  | (_, .nested schema) :: fields =>
    ofSchema (some record) element values schema ++
      ofChildren record element
        (values.drop (ofSchema (some record) element values schema).length) fields

end

/-- The visits of an element. -/
def ofElement (parent : Option (List (String × Value))) (fields : List (String × Field Schema))
    (values : List Value) (element : Value) : List Visit :=
  ofLeaves parent element fields ++
    ofChildren (leafRecord values fields) element
      (values.drop (ofLeaves parent element fields).length) fields

/-- The visits of a call. -/
def ofCall (document : Value) (values : List Value) : Option Schema → List Visit
  | none => []
  | some schema => if document.truthy then ofSchema none document values schema else []

theorem ofSchema_eq (parent : Option (List (String × Value))) (document : Value)
    (values : List Value) (scope : Option (List Step)) (merged : Bool)
    (fields : List (String × Field Schema)) :
    ofSchema parent document values ⟨scope, merged, fields⟩ =
      ofChain parent document (scope.getD []) ++
        inTurn (ofElement parent fields) (values.drop (scope.getD []).length)
          (Extractor.elementsOf (foldValues .null values (scope.getD []))) := by
  rw [ofSchema]
  rfl

/-- Two elements; the scope of the nested schema finds nothing in the second one. -/
example :
    let inner := (Schema.ofScope [.root]).withSteps "b" [.root]
    let outer := ((Schema.ofScope [.root]).withSteps "a" [.root]).withNested "n" inner
    let values : List Value := [.arr [.str "x", .str "y"], .str "1", .str "x", .str "2", .str "3"]
    (ofSchema none (.bool true) values outer).map (fun v => (v.document, v.parent)) =
      [(.bool true, none), (.str "x", none), (.str "x", some [("a", .str "1")]),
        (.str "x", some [("a", .str "1")]), (.str "y", none),
        (.str "y", some [("a", .str "3")])] := rfl

end Trace

/-! ## The values of the steps -/

/-- The value that a step has by a call: that of the engine if there are no filters, else what the
    pipeline leaves in the field. -/
def Event.value? (field : String) : Event → Option Value
  | resolved _ _ step _ (.ok v) => if step.filters.isEmpty then some v else none
  | filtered _ _ (.ok records) => some (Extractor.filteredValue field records)
  | _ => none

/-- The values that the steps have had. -/
def stepValues (field : String) (journal : List Event) : List Value :=
  journal.filterMap (Event.value? field)

theorem stepValues_append (field : String) (journal journal' : List Event) :
    stepValues field (journal ++ journal') =
      stepValues field journal ++ stepValues field journal' := by
  simp [stepValues]

/-! ## What becomes of the visits -/

section Visits

variable (who : Party) (field : String) (caller : List (String × Value))

namespace Visit

/-- What the engine is asked in a visit. -/
def asking (v : Visit) (answer : Except StepError Value) : Event :=
  .resolved who v.document v.step (.obj (contextOf caller v.parent)) answer

/-- What the pipeline is asked in a visit. -/
def filtering (v : Visit) (raw : Value) (answer : Except FilterError (List Value)) : Event :=
  .filtered [.obj [(field, raw)]]
    (FilterRequest.ofField field v.step.filters (.obj (contextOf caller v.parent))) answer

/-- The calls of a visit that gives a value. -/
inductive Gives : Visit → List Event → Value → Prop
  | plain {v : Visit} {a : Value} (hf : v.step.filters.isEmpty = true) :
      Gives v [v.asking who caller (.ok a)] a
  | filtered {v : Visit} {raw : Value} {records : List Value}
      (hf : v.step.filters.isEmpty = false) :
      Gives v [v.asking who caller (.ok raw), v.filtering field caller raw (.ok records)]
        (Extractor.filteredValue field records)

/-- The calls of a visit that fails. -/
inductive Fails : Visit → List Event → ExtractionError → Prop
  | step {v : Visit} {e : StepError} : Fails v [v.asking who caller (.error e)] (.step e)
  | filter {v : Visit} {raw : Value} {e : FilterError} (hf : v.step.filters.isEmpty = false) :
      Fails v [v.asking who caller (.ok raw), v.filtering field caller raw (.error e)] (.filter e)

/-- The calls of visits that all give a value, and these values. -/
inductive Complete : List Visit → List Event → List Value → Prop
  | nil : Complete [] [] []
  | cons {v : Visit} {a : Value} {es es' : List Event} {vs : List Visit} {as : List Value}
      (hv : Gives who field caller v es a) (h : Complete vs es' as) :
      Complete (v :: vs) (es ++ es') (a :: as)

/-- The calls of visits up to a failure, and the values up to there. The visit fails, or the
    schema whose turn it is has no scope. -/
inductive Stop : List Visit → List Event → List Value → ExtractionError → Prop
  | fail {v : Visit} {es : List Event} {vs : List Visit} {e : ExtractionError}
      (hv : Fails who field caller v es e) : Stop (v :: vs) es [] e
  | schema (vs : List Visit) (s : Schema) : Stop vs [] [] (Extractor.scopeError s)
  | cons {v : Visit} {a : Value} {es es' : List Event} {vs : List Visit} {as : List Value}
      {e : ExtractionError} (hv : Gives who field caller v es a) (h : Stop vs es' as e) :
      Stop (v :: vs) (es ++ es') (a :: as) e

variable {who field caller} {vs vs' : List Visit} {es es' : List Event} {as as' : List Value}
  {e : ExtractionError}

theorem Complete.length_eq (h : Complete who field caller vs es as) : vs.length = as.length := by
  induction h with
  | nil => rfl
  | cons _ _ ih => simp [ih]

theorem Complete.single {v : Visit} {a : Value} (hv : Gives who field caller v es a) :
    Complete who field caller [v] es [a] := by
  rw [← List.append_nil es]
  exact .cons hv .nil

theorem Complete.append (h : Complete who field caller vs es as)
    (h' : Complete who field caller vs' es' as') :
    Complete who field caller (vs ++ vs') (es ++ es') (as ++ as') := by
  induction h with
  | nil => exact h'
  | cons hv _ ih =>
    rw [List.append_assoc]
    exact .cons hv ih

theorem Complete.stop_append (h : Complete who field caller vs es as)
    (h' : Stop who field caller vs' es' as' e) :
    Stop who field caller (vs ++ vs') (es ++ es') (as ++ as') e := by
  induction h with
  | nil => exact h'
  | cons hv _ ih =>
    rw [List.append_assoc]
    exact .cons hv ih

theorem Gives.stepValues_eq {v : Visit} {a : Value} (h : Gives who field caller v es a) :
    stepValues field es = [a] := by
  cases h with
  | plain hf => simp [stepValues, Event.value?, asking, hf]
  | filtered hf => simp [stepValues, Event.value?, asking, filtering, hf]

theorem Fails.stepValues_eq {v : Visit} (h : Fails who field caller v es e) :
    stepValues field es = [] := by
  cases h with
  | step => simp [stepValues, Event.value?, asking]
  | filter hf => simp [stepValues, Event.value?, asking, filtering, hf]

theorem Complete.stepValues_eq (h : Complete who field caller vs es as) :
    stepValues field es = as := by
  induction h with
  | nil => rfl
  | cons hv _ ih => rw [stepValues_append, hv.stepValues_eq, ih, List.singleton_append]

theorem Stop.stepValues_eq (h : Stop who field caller vs es as e) : stepValues field es = as := by
  induction h with
  | fail hv => exact hv.stepValues_eq
  | schema => rfl
  | cons hv _ ih => rw [stepValues_append, hv.stepValues_eq, ih, List.singleton_append]

/-- What comes after a failure does not matter. -/
theorem Stop.append_right (h : Stop who field caller vs es as e) (vs' : List Visit) :
    Stop who field caller (vs ++ vs') es as e := by
  induction h with
  | fail hv => exact .fail hv
  | schema vs s => exact .schema _ s
  | cons hv _ ih => exact .cons hv ih

end Visit

end Visits
end SchemaExtraction
