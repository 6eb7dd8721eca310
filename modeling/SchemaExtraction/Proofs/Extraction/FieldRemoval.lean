import SchemaExtraction.Proofs.Extraction.Purity
import SchemaExtraction.Proofs.Schema.Order

/-!
# Removing a field

A chain does not see the values of other chains, and a nested schema sees the chains of its element
but not the results of other nested schemas. So over pure collaborators a field that no nested
schema can look at is removed from the result by removing it from the schema: the field of a nested
schema, or any field as long as no schema is nested.

Results:
* `Extractor.evalLeaves_erase`, `Extractor.extractChildren_erase`: the two parts of a record without
  a field.
* `Extractor.evalElement_erase`: the record of an element without a field.
* `Extractor.exec_without`: the result of a request without a field.
-/

namespace SchemaExtraction

/-! ## Without a field -/

/-- A schema without one of its fields. -/
def Schema.without (schema : Schema) (name : String) : Schema :=
  { schema with fields := Entries.erase name schema.fields }

/-- A name whose field no nested schema is told about: that of a nested schema, as the nested
    schemas are told about the chains only, or any name where no schema is nested. -/
def Schema.IsUnread (fields : List (String × Field Schema)) (name : String) : Prop :=
  (∃ child, (name, Field.nested child) ∈ fields) ∨ ∀ f ∈ fields, f.2.isNested = false

theorem Schema.Ordered.without {schema : Schema} (h : schema.Ordered) (name : String) :
    (schema.without name).Ordered :=
  .intro (Entries.ascending_erase name h.ascending) fun _ _ hm => h.child (List.mem_filter.1 hm).1

/-- An object without one of its keys. -/
def Value.withoutKey (name : String) : Value → Value
  | obj entries => obj (Entries.erase name entries)
  | v => v

/-- A result without one of its fields, which is missing in every record of a list or in the single
    record. -/
def Value.withoutField (name : String) : Value → Value
  | arr records => arr (records.map (withoutKey name))
  | v => v.withoutKey name

/-- Merging records without a key gives the merged records without it. -/
theorem Entries.foldl_insertAll_erase (name : String) {records : List (List (String × Value))}
    (h : ∀ r ∈ records, Ascending r) {dest : List (String × Value)} (hd : Ascending dest) :
    (records.map (erase name)).foldl insertAll (erase name dest) =
      erase name (records.foldl insertAll dest) := by
  induction records generalizing dest with
  | nil => rfl
  | cons r records ih =>
    have hr := h r (by simp)
    have hrest := fun r' hr' => h r' (List.mem_cons_of_mem r hr')
    rw [List.map_cons, List.foldl_cons, List.foldl_cons, ← erase_insertAll name hd hr]
    exact ih hrest (ascending_insertAll hd r)

namespace Extractor

theorem collect_without (merged : Bool) (name : String) {records : List (List (String × Value))}
    (h : ∀ r ∈ records, Entries.Ascending r) :
    collect merged (records.map (Entries.erase name)) =
      (collect merged records).withoutField name := by
  cases merged with
  | false =>
    have hm : (records.map (Entries.erase name)).map Value.obj =
        (records.map Value.obj).map (Value.withoutKey name) := by
      rw [List.map_map, List.map_map]
      rfl
    exact congrArg Value.arr hm
  | true => exact congrArg Value.obj (Entries.foldl_insertAll_erase name h Entries.ascending_nil)

/-! ## Records -/

variable {σ : Type} {x : Extractor (StateM σ)} {engine : Engine (StateM σ)}

/-- Without nested schemas there is nothing to resolve after the chains. -/
theorem extractChildren_flat (x : Extractor (StateM σ)) (engine : Engine (StateM σ))
    {fields : List (String × Field Schema)} (h : ∀ f ∈ fields, f.2.isNested = false)
    (element : Value) (reference : List (String × Value)) :
    x.extractChildren engine element reference fields =
      (pure [] : Run σ (List (String × Value))) := by
  induction fields with
  | nil => rfl
  | cons field fields ih =>
    obtain ⟨name, chain | child⟩ := field
    · exact ih fun f hf => h f (List.mem_cons_of_mem _ hf)
    · cases h (name, .nested child) (by simp)

variable (hp : x.PureWith engine) {s : σ}
include hp

/-- The chains do not see each other. -/
theorem evalLeaves_erase (name : String) {element reference : Value}
    {fields : List (String × Field Schema)} {leaves : List (String × Value)}
    (h : Run.outcome (x.evalLeaves engine element reference fields) s = .ok leaves) :
    Run.outcome (x.evalLeaves engine element reference (Entries.erase name fields)) s =
      .ok (Entries.erase name leaves) := by
  induction fields generalizing leaves with
  | nil =>
    cases h
    rfl
  | cons field fields ih =>
    obtain ⟨key, chain | child⟩ := field
    · have hchain := isPure_evalChain hp element reference chain
      have hleaves fields := isPure_evalLeaves hp element reference fields
      obtain ⟨v, hv, h⟩ := hchain.bind_eq_ok_iff.1 h
      obtain ⟨rest, hrest, ⟨⟩⟩ := (hleaves _).bind_eq_ok_iff.1 h
      rw [Entries.erase_cons, Entries.erase_cons]
      split
      · exact ih hrest
      · exact hchain.bind_eq_ok_iff.2 ⟨v, hv, (hleaves _).bind_eq_ok_iff.2 ⟨_, ih hrest, rfl⟩⟩
    · rw [Entries.erase_cons]
      split
      · exact ih h
      · exact ih h

/-- The nested schemas do not see the results of each other. -/
theorem extractChildren_erase (name : String) {element : Value}
    {reference : List (String × Value)} {fields : List (String × Field Schema)}
    {children : List (String × Value)}
    (h : Run.outcome (x.extractChildren engine element reference fields) s = .ok children) :
    Run.outcome (x.extractChildren engine element reference (Entries.erase name fields)) s =
      .ok (Entries.erase name children) := by
  induction fields generalizing children with
  | nil =>
    cases h
    rfl
  | cons field fields ih =>
    obtain ⟨key, chain | child⟩ := field
    · rw [Entries.erase_cons]
      split
      · exact ih h
      · exact ih h
    · have hchild := isPure_extract hp element reference child
      have hchildren fields := isPure_extractChildren hp element reference fields
      obtain ⟨v, hv, h⟩ := hchild.bind_eq_ok_iff.1 h
      obtain ⟨rest, hrest, ⟨⟩⟩ := (hchildren _).bind_eq_ok_iff.1 h
      rw [Entries.erase_cons, Entries.erase_cons]
      split
      · exact ih hrest
      · exact hchild.bind_eq_ok_iff.2 ⟨v, hv, (hchildren _).bind_eq_ok_iff.2 ⟨_, ih hrest, rfl⟩⟩

variable {fields : List (String × Field Schema)} (hf : Entries.Ascending fields)
include hf

/-- The record of an element loses what it has for a field that nothing nested is told about. -/
theorem evalElement_erase {name : String} (hn : Schema.IsUnread fields name)
    {context : List (String × Value)} {element : Value} {record : List (String × Value)}
    (h : (x.evalElement engine context fields element).outcome s = .ok record) :
    (x.evalElement engine context (Entries.erase name fields) element).outcome s =
      .ok (Entries.erase name record) := by
  have hleaves fields := isPure_evalLeaves hp element (.obj context) fields
  have hchildren context fields := isPure_extractChildren hp element context fields
  obtain ⟨leaves, hl, h⟩ := (hleaves _).bind_eq_ok_iff.1 h
  obtain ⟨children, hc, ⟨⟩⟩ := (hchildren _ _).bind_eq_ok_iff.1 h
  have hlk := (x.returns_leaves engine (fun _ _ _ => Run.Returns.any _) s leaves hl).1
  have hck := (x.returns_nested engine (fun _ _ _ => Run.Returns.any _) s children hc).1
  have parts : Parts fields leaves children := ⟨hf, hlk, hck⟩
  -- what the nested schemas are told does not change, or there are none
  have hc' : Run.outcome (x.extractChildren engine element
      (childReference context (Entries.erase name leaves)) (Entries.erase name fields)) s =
      .ok (Entries.erase name children) := by
    rcases hn with ⟨child, hm⟩ | hflat
    · have hleaf : name ∉ Entries.keys leaves := by
        rw [parts.mem_leaves_keys, parts.not_isLeaf hm]
        exact Bool.false_ne_true
      rw [Entries.erase_eq_self hleaf]
      exact extractChildren_erase hp name hc
    · have hflat' : ∀ f ∈ Entries.erase name fields, f.2.isNested = false :=
        fun f hm => hflat f (List.mem_filter.1 hm).1
      rw [x.extractChildren_flat engine hflat] at hc
      rw [x.extractChildren_flat engine hflat']
      cases hc
      rfl
  rw [Entries.erase_insertAll name parts.ascending_leaves parts.ascending_children]
  exact (hleaves _).bind_eq_ok_iff.2
    ⟨_, evalLeaves_erase hp name hl, (hchildren _ _).bind_eq_ok_iff.2 ⟨_, hc', rfl⟩⟩

theorem evalRecords_erase {name : String} (hn : Schema.IsUnread fields name) {document : Value}
    {context : List (String × Value)} {scope : List Step} {records : List (List (String × Value))}
    (h : (x.evalRecords engine document context scope fields).outcome s = .ok records) :
    (x.evalRecords engine document context scope (Entries.erase name fields)).outcome s =
      .ok (records.map (Entries.erase name)) := by
  obtain ⟨resolved, hs, hr⟩ := (evalRecords_eq_ok_iff hp).1 h
  refine (evalRecords_eq_ok_iff hp).2 ⟨resolved, hs, List.forall₂_map_right_iff.2 ?_⟩
  exact hr.imp fun element record => evalElement_erase hp hf hn

omit hp hf

/-! ## Requests -/

/-- Over pure collaborators a request that succeeds does so without a field that nothing nested is
    told about, and with the same result but for that field. -/
theorem exec_without {schema : Schema} (ho : schema.Ordered) {name : String}
    (hn : Schema.IsUnread schema.fields name) {document reference : Value}
    {choice : Option (EngineChoice (StateM σ))}
    (hp : x.PureWith (x.engines.select document choice)) {v : Value}
    (h : Run.outcome (x.exec document ⟨some schema, reference, choice⟩) s = .ok v) :
    Run.outcome (x.exec document ⟨some (schema.without name), reference, choice⟩) s =
      .ok (v.withoutField name) := by
  cases hd : document.truthy with
  | false =>
    rw [exec, hd] at h ⊢
    cases h
    rfl
  | true =>
    rw [x.exec_present hd] at h ⊢
    obtain ⟨hs, records, hr, rfl⟩ := (x.extract_eq_ok_iff _ hd).1 h
    have hk := x.returns_keys _ ho.ascending document _ s records hr
    have ha r (hm : r ∈ records) : Entries.Ascending r := by
      rw [Entries.Ascending, hk r hm]
      exact ho.ascending
    refine (x.extract_eq_ok_iff _ hd).2 ⟨hs, _, evalRecords_erase hp ho.ascending hn hr, ?_⟩
    exact (collect_without schema.merged name ha).symm

/-- Rows with their names and counts, and the tags of each row, every tag with the name of its
    row. -/
def taggedRows : Schema :=
  (Schema.ofScope [.ofSelector "rows"]).withSteps "name" [.ofSelector "name"]
    |>.withSteps "count" [(Step.ofSelector "tags").withProperty Reserved.length]
    |>.withNested "tags" ((Schema.ofScope [.ofSelector "tags"])
      |>.withSteps "of" [.ofReference "$parent.name"])

/-- The tags of two rows are left out, and then the names, which no tag is told about any more. -/
theorem exec_without_tags_names :
    let x : Extractor (StateM Unit) := builtin .standard
    let row name tags := Value.obj [("name", .str name), ("tags", .arr tags)]
    let page := Value.obj [("rows", .arr [row "a" [.obj []], row "b" []])]
    let result t := Run.outcome (x.exec page ⟨some t, .null, none⟩) ()
    let untagged := taggedRows.without "tags"
    let full := Value.arr [
      .obj [("count", .ofNat 1), ("name", .str "a"), ("tags", .arr [.obj [("of", .str "a")]])],
      .obj [("count", .ofNat 0), ("name", .str "b"), ("tags", .arr [])]]
    let both := Value.arr [.obj [("count", .ofNat 1), ("name", .str "a")],
      .obj [("count", .ofNat 0), ("name", .str "b")]]
    let counts := Value.arr [.obj [("count", .ofNat 1)], .obj [("count", .ofNat 0)]]
    x.PureWith (x.engines.select page none) ∧ taggedRows.Ordered ∧ untagged.Ordered ∧
      Schema.IsUnread taggedRows.fields "tags" ∧ Schema.IsUnread untagged.fields "name" ∧
      result taggedRows = .ok full ∧ result untagged = .ok both ∧
      result (untagged.without "name") = .ok counts := by
  intro x row page result untagged full both counts
  have hp : x.PureWith (x.engines.select page none) := pureWith_builtin .standard .structured
  have ho : taggedRows.Ordered :=
    (((Schema.Ordered.ofScope _).withSteps _ _).withSteps _ _).withNested _
      ((Schema.Ordered.ofScope _).withSteps _ _)
  have hu : untagged.Ordered := ho.without "tags"
  have ht : Schema.IsUnread taggedRows.fields "tags" := .inl ⟨_, .tail _ (.tail _ (.head _))⟩
  have hn : Schema.IsUnread untagged.fields "name" := .inr (by decide)
  have h : result taggedRows = .ok full := by decide
  have hb : result untagged = .ok both := exec_without ho ht hp h
  exact ⟨hp, ho, hu, ht, hn, h, hb, exec_without hu hn hp hb⟩

/-- A field that a nested schema reads is missed there when it is removed. -/
example :
    let x : Extractor (StateM Unit) := builtin .standard
    let page := Value.obj [("rows", .obj [("name", .str "a"), ("tags", .obj [])])]
    let result t := Run.outcome (x.exec page ⟨some t, .null, none⟩) ()
    let row v := [("count", .ofNat 0), ("tags", .arr [.obj [("of", v)]])]
    result taggedRows = .ok (.arr [.obj (Entries.insert "name" (.str "a") (row (.str "a")))]) ∧
      result (taggedRows.without "name") = .ok (.arr [.obj (row .null)]) := by decide

end Extractor
end SchemaExtraction
