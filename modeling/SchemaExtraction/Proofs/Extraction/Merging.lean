import SchemaExtraction.Extraction.Builtin
import SchemaExtraction.Proofs.Extraction.Records
import SchemaExtraction.Proofs.Extraction.Shape

/-!
# Merged records

A schema that merges its records has them put into one, key by key, and the last value of a key
stays. As every record has all fields of the schema, this is the last record as a whole. Up to there
the two ways to collect records run alike, so they fail alike; only the schema that declares nothing
is no longer one when it asks for merged records.

Results:
* `Extractor.exec_asMerged`: a request with merged records beside the one with a list of them.
* `Extractor.exec_asMerged_blank`: the schema that declares nothing fails in two ways.
-/

namespace SchemaExtraction.Extractor

variable {σ : Type} (x : Extractor (StateM σ)) (engine : Engine (StateM σ))

/-- Merged, the records of a schema are the last one of them. -/
theorem collect_merged {fields : List (String × Field Schema)} (hf : Entries.Ascending fields)
    {records : List (List (String × Value))}
    (h : ∀ r ∈ records, Entries.keys r = Entries.keys fields) :
    collect true records = .obj (records.getLast?.getD []) := by
  rw [collect, if_pos rfl, Schema.foldl_insertAll_eq_last hf h]

/-- A schema that asks for merged records says something. -/
theorem scopeError_asMerged (schema : Schema) : scopeError schema.asMerged = .noScope := by
  rw [scopeError, Schema.isEmpty, Schema.asMerged]
  simp

theorem extract_asMerged {document : Value} (hd : document.truthy = true) {schema : Schema}
    (hf : Entries.Ascending schema.fields) (context : List (String × Value)) (s : σ) :
    let result t := Run.outcome (x.extract engine document context t) s
    let listed := { schema with merged := false }
    let folded := schema.asMerged
    match result listed with
    | .ok v => ∃ records : List (List (String × Value)), v = .arr (records.map .obj) ∧
        result folded = .ok (.obj (records.getLast?.getD []))
    | .error e => if listed.isEmpty then e = .noSchema ∧ result folded = .error .noScope
        else result folded = .error e := by
  intro result listed folded
  -- without a scope both fail before any step, else both collect the same records
  obtain hs | ⟨step, steps, merged, fields, rfl⟩ := scope_cases schema
  · have unscoped (t : Schema) (ht : t.scope.getD [] = []) : result t = .error (scopeError t) :=
      congrArg (Run.outcome · s) (extract_unscoped x engine hd context ht)
    have hl := unscoped listed hs
    have hm := unscoped folded hs
    rw [hl, hm, scopeError_asMerged, scopeError]
    cases listed.isEmpty <;> simp
  · have hl : result listed = _ :=
      x.outcome_extract_scoped engine hd context step steps false fields s
    have hm : result folded = _ :=
      x.outcome_extract_scoped engine hd context step steps true fields s
    rw [hl, hm]
    cases hr : (x.evalRecords engine document context (step :: steps) fields).outcome s with
    | error e => rfl
    | ok records =>
      have hk := x.returns_keys engine hf document (step :: steps) s records hr
      exact ⟨records, rfl, congrArg Except.ok (collect_merged hf hk)⟩

/-- With merged records a request gives the last record of the list that it gives without them, or
    the empty object if the list is empty, and it fails where it fails without them, with the same
    error. Only the schema that declares neither a scope nor a field is missing without merged
    records, and lacks a scope with them. -/
theorem exec_asMerged {schema : Schema} (ho : schema.Ordered) {document : Value}
    (hd : document.truthy = true) (reference : Value) (choice : Option (EngineChoice (StateM σ)))
    (s : σ) :
    let result t := Run.outcome (x.exec document ⟨some t, reference, choice⟩) s
    let listed := { schema with merged := false }
    let folded := schema.asMerged
    match result listed with
    | .ok v => ∃ records : List (List (String × Value)), v = .arr (records.map .obj) ∧
        result folded = .ok (.obj (records.getLast?.getD []))
    | .error e => if listed.isEmpty then e = .noSchema ∧ result folded = .error .noScope
        else result folded = .error e := by
  intro result listed folded
  simp only [result, x.exec_present hd]
  exact x.extract_asMerged _ hd ho.ascending reference.entriesOf s

/-- The names of rows, with their tags. -/
def nameRows : Schema :=
  (Schema.ofScope [.ofSelector "rows"]).withSteps "name" [.ofSelector "name"]
    |>.withNested "tags" ((Schema.ofScope [.ofSelector "tags"]).withSteps "tag" [.root]).asMerged

/-- Of two rows the second one is left, although its name is missing. -/
theorem exec_asMerged_rows :
    let x : Extractor (StateM Unit) := builtin .standard
    let tag := Value.obj [("t", .null)]
    let rows := [Value.obj [("name", .str "a"), ("tags", .arr [tag])], .obj [("tags", tag)]]
    let page := Value.obj [("rows", .arr rows)]
    let result t := Run.outcome (x.exec page ⟨some t, .null, none⟩) ()
    let tags := Value.obj [("tag", tag)]
    let records := [Value.obj [("name", .str "a"), ("tags", tags)],
      .obj [("name", .null), ("tags", tags)]]
    nameRows.Ordered ∧ page.truthy = true ∧ result nameRows = .ok (.arr records) ∧
      ∃ found : List (List (String × Value)), Value.arr records = .arr (found.map .obj) ∧
        result nameRows.asMerged = .ok (.obj (found.getLast?.getD [])) := by
  intro x tag rows page result tags records
  have ho : nameRows.Ordered :=
    ((Schema.Ordered.ofScope _).withSteps _ _).withNested _
      ((Schema.Ordered.ofScope _).withSteps _ _).asMerged
  have hd : page.truthy = true := rfl
  have hr : result nameRows = .ok (.arr records) := by decide
  have hl : { nameRows with merged := false } = nameRows := rfl
  have h := exec_asMerged x ho hd .null none ()
  simp only [hl, show Run.outcome (x.exec page ⟨some nameRows, .null, none⟩) () = _ from hr] at h
  exact ⟨ho, hd, hr, h⟩

/-- The schema that declares nothing is no schema, but with merged records it lacks a scope. -/
theorem exec_asMerged_blank :
    let x : Extractor (StateM Unit) := builtin .standard
    let document := Value.obj [("a", .null)]
    let result t := Run.outcome (x.exec document ⟨some t, .null, none⟩) ()
    document.truthy = true ∧ result .blank = .error .noSchema ∧
      result Schema.blank.asMerged = .error .noScope ∧
      result Schema.blank.asMerged ≠ result .blank :=
  ⟨rfl, rfl, rfl, fun h => by cases h⟩

end SchemaExtraction.Extractor
