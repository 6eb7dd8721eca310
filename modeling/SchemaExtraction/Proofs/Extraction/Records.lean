import Mathlib.Data.List.Forall2
import SchemaExtraction.Proofs.Extraction.Run

/-!
# Records

The record of an element is made of two parts, the values of the chains and the results of the
nested schemas. What holds of every part as it is resolved can be read off the record: a record has
the fields of its schema as its keys, and under each name what was resolved for it.

Results:
* `Parts.get?_leaf`, `Parts.get?_nested`: which part a field is read from.
* `Extractor.returns_evalElement`: the record of an element, field by field.
* `Extractor.extract_eq_collect`: the result of a schema is made of the records of its elements.
* `Extractor.returns_evalRecords`, `Extractor.returns_extract_scoped`: the records of a document,
  element by element.
* `Extractor.returns_keys`: every record has the fields of the schema.
-/

namespace SchemaExtraction

/-! ## The two parts of a record -/

/-- Whether a name is that of a field with a chain. -/
def Schema.isLeaf (fields : List (String × Field Schema)) (name : String) : Bool :=
  fields.any fun f => f.1 = name && !f.2.isNested

/-- The entries of a record for the fields with chains. -/
def Schema.leavesOf (fields : List (String × Field Schema)) (record : List (String × Value)) :
    List (String × Value) :=
  record.filter fun e => isLeaf fields e.1

/-- Leaves and nested results that are named like the fields with chains and the fields with nested
    schemas. -/
structure Parts (fields : List (String × Field Schema)) (leaves children : List (String × Value)) :
    Prop where
  ascending : Entries.Ascending fields
  leaves_keys : Entries.keys leaves = Entries.keys (fields.filter fun f => !f.2.isNested)
  children_keys : Entries.keys children = Entries.keys (fields.filter fun f => f.2.isNested)

namespace Parts

variable {fields : List (String × Field Schema)} {leaves children : List (String × Value)}

theorem ascending_of_keys (hf : Entries.Ascending fields) {es : List (String × Value)}
    {p : String × Field Schema → Bool} (h : Entries.keys es = Entries.keys (fields.filter p)) :
    Entries.Ascending es := by
  rw [Entries.Ascending, h]
  exact List.Pairwise.sublist (List.filter_sublist.map _) hf

variable (h : Parts fields leaves children)
include h

theorem ascending_leaves : Entries.Ascending leaves := ascending_of_keys h.ascending h.leaves_keys

theorem ascending_children : Entries.Ascending children :=
  ascending_of_keys h.ascending h.children_keys

theorem mem_leaves_keys (name : String) :
    name ∈ Entries.keys leaves ↔ Schema.isLeaf fields name = true := by
  rw [h.leaves_keys]
  simp only [Entries.keys, Schema.isLeaf, List.mem_map, List.mem_filter, List.any_eq_true,
    Bool.and_eq_true, decide_eq_true_eq]
  exact exists_congr fun f => by rw [and_assoc, and_congr_right_iff, and_comm]; exact fun _ => .rfl

theorem mem_children_keys (name : String) :
    name ∈ Entries.keys children ↔ ∃ child, (name, Field.nested child) ∈ fields := by
  rw [h.children_keys]
  simp only [Entries.keys, List.mem_map, List.mem_filter]
  constructor
  · rintro ⟨⟨name, _ | child⟩, ⟨hm, hn⟩, rfl⟩
    · cases hn
    · exact ⟨child, hm⟩
  · rintro ⟨child, hm⟩
    exact ⟨_, ⟨hm, rfl⟩, rfl⟩

/-- No name is in both parts. -/
theorem not_isLeaf {name : String} {child : Schema} (hm : (name, Field.nested child) ∈ fields) :
    Schema.isLeaf fields name = false := by
  rw [Schema.isLeaf, List.any_eq_false]
  rintro ⟨name', field⟩ hm' hb
  simp only [Bool.and_eq_true, decide_eq_true_eq, Bool.not_eq_true'] at hb
  obtain ⟨rfl, hb⟩ := hb
  obtain rfl := Entries.eq_of_mem h.ascending hm hm'
  cases hb

theorem get?_leaf {name : String} (hn : Schema.isLeaf fields name = true) :
    Entries.get? name (Entries.insertAll leaves children) = Entries.get? name leaves := by
  have hc : Entries.get? name children = none := by
    rw [← Option.not_isSome_iff_eq_none, ← Entries.mem_keys_iff, h.mem_children_keys]
    rintro ⟨child, hm⟩
    rw [h.not_isLeaf hm] at hn
    cases hn
  rw [Entries.get?_insertAll _ _ h.ascending_children, hc]
  rfl

theorem get?_nested {name : String} {child : Schema} (hm : (name, Field.nested child) ∈ fields) :
    Entries.get? name (Entries.insertAll leaves children) = Entries.get? name children := by
  have hl : Entries.get? name leaves = none := by
    rw [← Option.not_isSome_iff_eq_none, ← Entries.mem_keys_iff, h.mem_leaves_keys, h.not_isLeaf hm]
    exact Bool.false_ne_true
  rw [Entries.get?_insertAll _ _ h.ascending_children, hl, Option.or_none]

theorem keys_insertAll :
    Entries.keys (Entries.insertAll leaves children) = Entries.keys fields := by
  refine Entries.keys_eq_of_mem_iff (Entries.ascending_insertAll h.ascending_leaves _) h.ascending
    fun k => ?_
  rw [Entries.mem_keys_insertAll, h.leaves_keys, h.children_keys]
  simp only [Entries.keys, List.mem_map, List.mem_filter]
  constructor
  · rintro (⟨f, ⟨hm, _⟩, rfl⟩ | ⟨f, ⟨hm, _⟩, rfl⟩) <;> exact ⟨f, hm, rfl⟩
  · rintro ⟨f, hm, rfl⟩
    cases hn : f.2.isNested with
    | false => exact Or.inl ⟨f, ⟨hm, by simp [hn]⟩, rfl⟩
    | true => exact Or.inr ⟨f, ⟨hm, hn⟩, rfl⟩

theorem leavesOf_insertAll :
    Schema.leavesOf fields (Entries.insertAll leaves children) = leaves := by
  have ha := Entries.ascending_insertAll h.ascending_leaves children
  refine Entries.eq_of_get?_eq (ha.sublist (List.filter_sublist.map _)) h.ascending_leaves
    fun k => ?_
  rw [Schema.leavesOf, Entries.get?_filter]
  cases hk : Schema.isLeaf fields k with
  | true => exact h.get?_leaf hk
  | false =>
    rw [eq_comm, if_neg Bool.false_ne_true, ← Option.not_isSome_iff_eq_none,
      ← Entries.mem_keys_iff, h.mem_leaves_keys, hk]
    exact Bool.false_ne_true

/-- The value of a field with a chain, if every leaf is one of such a field. -/
theorem exists_leaf {L : List Step → Value → Prop}
    (hv : ∀ e ∈ leaves, ∃ chain, (e.1, Field.steps chain) ∈ fields ∧ L chain e.2)
    {name : String} {chain : List Step} (hm : (name, Field.steps chain) ∈ fields) :
    ∃ v, Entries.get? name (Entries.insertAll leaves children) = some v ∧ L chain v := by
  have hn : Schema.isLeaf fields name = true :=
    List.any_eq_true.2 ⟨_, hm, by simp [Field.isNested]⟩
  obtain ⟨v, hl⟩ := Option.isSome_iff_exists.1
    ((Entries.mem_keys_iff _ _).1 ((h.mem_leaves_keys name).2 hn))
  obtain ⟨chain', hm', hc⟩ := hv _ (Entries.mem_of_get? hl)
  cases Entries.eq_of_mem h.ascending hm hm'
  exact ⟨v, (h.get?_leaf hn).trans hl, hc⟩

/-- The value of a field with a nested schema, if every nested result is one of such a field. -/
theorem exists_nested {N : Schema → Value → Prop}
    (hv : ∀ e ∈ children, ∃ child, (e.1, Field.nested child) ∈ fields ∧ N child e.2)
    {name : String} {child : Schema} (hm : (name, Field.nested child) ∈ fields) :
    ∃ v, Entries.get? name (Entries.insertAll leaves children) = some v ∧ N child v := by
  obtain ⟨v, hl⟩ := Option.isSome_iff_exists.1
    ((Entries.mem_keys_iff _ _).1 ((h.mem_children_keys name).2 ⟨child, hm⟩))
  obtain ⟨child', hm', hc⟩ := hv _ (Entries.mem_of_get? hl)
  cases Entries.eq_of_mem h.ascending hm hm'
  exact ⟨v, (h.get?_nested hm).trans hl, hc⟩

end Parts

/-! ## Resolving the parts -/

/-- What holds of every value that is given for an item, item by item. -/
theorem Run.Returns.mapM_forall₂ {σ α β : Type} {f : α → Run σ β} {P : α → β → Prop} {as : List α}
    (hf : ∀ a ∈ as, Returns (f a) (P a)) : Returns (as.mapM f) (List.Forall₂ P as) := by
  induction as with
  | nil => exact Returns.pure .nil
  | cons a as ih =>
    rw [List.mapM_cons]
    refine Returns.bind (hf a (by simp)) fun b hb => ?_
    refine Returns.bind (ih fun a' ha' => hf a' (by simp [ha'])) fun bs hbs => ?_
    exact Returns.pure (.cons hb hbs)

theorem at_position {α β : Type} {P : α → β → Prop} {as : List α} {bs : List β}
    (h : List.Forall₂ P as bs) {i : Nat} {a : α} {b : β} (ha : as[i]? = some a)
    (hb : bs[i]? = some b) : P a b := by
  obtain ⟨hi, rfl⟩ := List.getElem?_eq_some_iff.1 ha
  obtain ⟨hj, rfl⟩ := List.getElem?_eq_some_iff.1 hb
  exact h.get hi hj

/-- A record of the fields of a schema: under the name of a chain a value that `L` holds of, and
    under that of a nested schema one that `N` holds of, given the leaves of the record. -/
structure Schema.Filled (L : List Step → Value → Prop)
    (N : List (String × Value) → Schema → Value → Prop) (fields : List (String × Field Schema))
    (record : List (String × Value)) : Prop where
  keys : Entries.keys record = Entries.keys fields
  leaf : ∀ name chain, (name, Field.steps chain) ∈ fields →
    ∃ v, Entries.get? name record = some v ∧ L chain v
  nested : ∀ name child, (name, Field.nested child) ∈ fields →
    ∃ v, Entries.get? name record = some v ∧ N (leavesOf fields record) child v

namespace Extractor

variable {σ : Type} (x : Extractor (StateM σ)) (engine : Engine (StateM σ))

theorem returns_leaves {element context : Value} {fields : List (String × Field Schema)}
    {L : List Step → Value → Prop}
    (h : ∀ name chain, (name, Field.steps chain) ∈ fields →
      Run.Returns (x.evalChain engine element context chain) (L chain)) :
    Run.Returns (x.evalLeaves engine element context fields) fun leaves =>
      Entries.keys leaves = Entries.keys (fields.filter fun f => !f.2.isNested) ∧
        ∀ e ∈ leaves, ∃ chain, (e.1, Field.steps chain) ∈ fields ∧ L chain e.2 := by
  induction fields with
  | nil => exact Run.Returns.pure ⟨rfl, by simp⟩
  | cons field fields ih =>
    have ih := ih fun name chain hm => h name chain (by simp [hm])
    obtain ⟨name, chain | child⟩ := field
    · refine Run.Returns.bind (h name chain (by simp)) fun v hv => ?_
      refine Run.Returns.bind ih fun leaves ⟨hk, hl⟩ => Run.Returns.pure ⟨?_, fun e he => ?_⟩
      · simpa [Entries.keys, Field.isNested] using hk
      · rcases List.mem_cons.1 he with rfl | he
        · exact ⟨chain, by simp, hv⟩
        · obtain ⟨chain', hm, hc⟩ := hl e he
          exact ⟨chain', List.mem_cons_of_mem _ hm, hc⟩
    · refine ih.mono fun leaves ⟨hk, hl⟩ => ⟨by simpa [Field.isNested] using hk, fun e he => ?_⟩
      obtain ⟨chain, hm, hc⟩ := hl e he
      exact ⟨chain, List.mem_cons_of_mem _ hm, hc⟩

theorem returns_nested {element : Value} {context : List (String × Value)}
    {fields : List (String × Field Schema)} {N : Schema → Value → Prop}
    (h : ∀ name child, (name, Field.nested child) ∈ fields →
      Run.Returns (x.extract engine element context child) (N child)) :
    Run.Returns (x.extractChildren engine element context fields) fun children =>
      Entries.keys children = Entries.keys (fields.filter fun f => f.2.isNested) ∧
        ∀ e ∈ children, ∃ child, (e.1, Field.nested child) ∈ fields ∧ N child e.2 := by
  induction fields with
  | nil => exact Run.Returns.pure ⟨rfl, by simp⟩
  | cons field fields ih =>
    have ih := ih fun name child hm => h name child (by simp [hm])
    obtain ⟨name, chain | schema⟩ := field
    · refine ih.mono fun children ⟨hk, hl⟩ => ⟨by simpa [Field.isNested] using hk, fun e he => ?_⟩
      obtain ⟨child, hm, hc⟩ := hl e he
      exact ⟨child, List.mem_cons_of_mem _ hm, hc⟩
    · refine Run.Returns.bind (h name schema (by simp)) fun v hv => ?_
      refine Run.Returns.bind ih fun children ⟨hk, hl⟩ => Run.Returns.pure ⟨?_, fun e he => ?_⟩
      · simpa [Entries.keys, Field.isNested] using hk
      · rcases List.mem_cons.1 he with rfl | he
        · exact ⟨schema, by simp, hv⟩
        · obtain ⟨child, hm, hc⟩ := hl e he
          exact ⟨child, List.mem_cons_of_mem _ hm, hc⟩

variable {context : List (String × Value)} {fields : List (String × Field Schema)}

/-- The records of the elements that a scope resolves to. -/
def evalRecords (document : Value) (context : List (String × Value)) (scope : List Step)
    (fields : List (String × Field Schema)) : Run σ (List (List (String × Value))) := do
  let resolved ← x.evalChain engine document (.obj context) scope
  (elementsOf resolved).mapM (x.evalElement engine context fields)

/-- With a scope, the records of its elements are all that goes into the result. -/
theorem extract_eq_collect {document : Value} (hd : document.truthy = true)
    (context : List (String × Value)) (step : Step) (steps : List Step) (merged : Bool)
    (fields : List (String × Field Schema)) :
    x.extract engine document context ⟨some (step :: steps), merged, fields⟩ =
      (x.evalRecords engine document context (step :: steps) fields >>= fun records =>
        pure (collect merged records)) := by
  rw [extract_scoped x engine hd, evalRecords, bind_assoc]

theorem outcome_extract_scoped {document : Value} (hd : document.truthy = true)
    (context : List (String × Value)) (step : Step) (steps : List Step) (merged : Bool)
    (fields : List (String × Field Schema)) (s : σ) :
    Run.outcome (x.extract engine document context ⟨some (step :: steps), merged, fields⟩) s =
      ((x.evalRecords engine document context (step :: steps) fields).outcome s).map
        (collect merged) := by
  rw [extract_eq_collect x engine hd, Run.outcome_bind_pure]

/-- A schema has a result when it has a scope and all elements of the scope have records. -/
theorem extract_eq_ok_iff {document : Value} (hd : document.truthy = true) {schema : Schema} {s : σ}
    {v : Value} :
    Run.outcome (x.extract engine document context schema) s = .ok v ↔
      schema.scope.getD [] ≠ [] ∧ ∃ records,
        (x.evalRecords engine document context (schema.scope.getD []) schema.fields).outcome s =
          .ok records ∧ v = collect schema.merged records := by
  obtain hs | ⟨step, steps, merged, fields, rfl⟩ := scope_cases schema
  · rw [extract_unscoped x engine hd context hs]
    constructor
    · rintro ⟨⟩
    · rintro ⟨hs', _⟩
      exact absurd hs hs'
  · rw [outcome_extract_scoped x engine hd]
    cases h : (x.evalRecords engine document context (step :: steps) fields).outcome s with
    | error e => simp [h, Except.map]
    | ok records => simp [h, Except.map, eq_comm]

variable (hf : Entries.Ascending fields)
include hf

/-- The record of an element has what is resolved for its fields. -/
theorem returns_evalElement {element : Value} {L : List Step → Value → Prop}
    {N : List (String × Value) → Schema → Value → Prop}
    (hL : ∀ name chain, (name, Field.steps chain) ∈ fields →
      Run.Returns (x.evalChain engine element (.obj context) chain) (L chain))
    (hN : ∀ leaves name child, (name, Field.nested child) ∈ fields →
      Run.Returns (x.extract engine element (childReference context leaves) child)
        (N leaves child)) :
    Run.Returns (x.evalElement engine context fields element) (Schema.Filled L N fields) := by
  refine Run.Returns.bind (x.returns_leaves engine hL) fun leaves ⟨hl, hlv⟩ => ?_
  refine Run.Returns.bind (x.returns_nested engine (hN leaves)) fun children ⟨hc, hcv⟩ => ?_
  have parts : Parts fields leaves children := ⟨hf, hl, hc⟩
  refine Run.Returns.pure ⟨parts.keys_insertAll, fun _ _ => parts.exists_leaf hlv, ?_⟩
  rw [parts.leavesOf_insertAll]
  exact fun _ _ => parts.exists_nested hcv

/-- The records of a document have what is resolved for the elements of the scope. -/
theorem returns_evalRecords {document : Value} {scope : List Step} {S : Value → Prop}
    {L : Value → List Step → Value → Prop}
    {N : Value → List (String × Value) → Schema → Value → Prop}
    (hS : Run.Returns (x.evalChain engine document (.obj context) scope) S)
    (hL : ∀ element name chain, (name, Field.steps chain) ∈ fields →
      Run.Returns (x.evalChain engine element (.obj context) chain) (L element chain))
    (hN : ∀ element leaves name child, (name, Field.nested child) ∈ fields →
      Run.Returns (x.extract engine element (childReference context leaves) child)
        (N element leaves child)) :
    Run.Returns (x.evalRecords engine document context scope fields) fun records =>
      ∃ resolved, S resolved ∧
        List.Forall₂ (fun element => Schema.Filled (L element) (N element) fields)
          (elementsOf resolved) records := by
  refine Run.Returns.bind hS fun resolved hr => ?_
  refine Run.Returns.mono (Run.Returns.mapM_forall₂ fun element _ => ?_) fun records h =>
    ⟨resolved, hr, h⟩
  exact x.returns_evalElement engine hf (hL element) (hN element)

/-- No record is without a field of the schema, whatever the collaborators answer. -/
theorem returns_keys (document : Value) (scope : List Step) :
    Run.Returns (x.evalRecords engine document context scope fields) fun records =>
      ∀ r ∈ records, Entries.keys r = Entries.keys fields := by
  refine Run.Returns.bind (Run.Returns.any _) fun resolved _ => ?_
  refine Run.Returns.mapM fun element _ => ?_
  have hL name chain (_ : (name, Field.steps chain) ∈ fields) :=
    Run.Returns.any (x.evalChain engine element (.obj context) chain)
  have hN leaves name child (_ : (name, Field.nested child) ∈ fields) :=
    Run.Returns.any (x.extract engine element (childReference context leaves) child)
  exact (x.returns_evalElement engine hf hL hN).mono fun r h => h.keys

/-- The result of a schema with a scope collects the records of the elements of the scope. -/
theorem returns_extract_scoped {document : Value} (hd : document.truthy = true) {step : Step}
    {steps : List Step} (merged : Bool) {S : Value → Prop} {L : Value → List Step → Value → Prop}
    {N : Value → List (String × Value) → Schema → Value → Prop}
    (hS : Run.Returns (x.evalChain engine document (.obj context) (step :: steps)) S)
    (hL : ∀ element name chain, (name, Field.steps chain) ∈ fields →
      Run.Returns (x.evalChain engine element (.obj context) chain) (L element chain))
    (hN : ∀ element leaves name child, (name, Field.nested child) ∈ fields →
      Run.Returns (x.extract engine element (childReference context leaves) child)
        (N element leaves child)) :
    Run.Returns (x.extract engine document context ⟨some (step :: steps), merged, fields⟩) fun v =>
      ∃ resolved records, v = collect merged records ∧ S resolved ∧
        List.Forall₂ (fun element => Schema.Filled (L element) (N element) fields)
          (elementsOf resolved) records := by
  rw [extract_eq_collect x engine hd]
  refine Run.Returns.bind (x.returns_evalRecords engine hf hS hL hN) fun records h => ?_
  obtain ⟨resolved, hr, hrec⟩ := h
  exact Run.Returns.pure ⟨resolved, records, rfl, hr, hrec⟩

end Extractor
end SchemaExtraction
