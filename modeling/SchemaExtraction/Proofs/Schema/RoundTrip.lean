import SchemaExtraction.Proofs.Schema.Spelling
import SchemaExtraction.Proofs.Schema.Throughout

/-!
# Writing schemas and reading them back

A schema that is written spells itself, unless a field takes a name that its schema keeps for
itself or the options of a filter use are null, which is read as no options at all. A schema that
is read has neither, so every wire form that is accepted comes back.

Results:
* `Wire.written_use`, `Wire.written_step`, `Wire.written_schema`: what is written spells what it is
  written for.
* `Wire.isWritable_of_schema?`: what is read can be written.
* `Wire.schema?_ofSchema_iff`: the schemas that come back from their wire form.
-/

namespace SchemaExtraction

/-! ## Schemas that can be written -/

namespace Schema

/-- The filter uses of a schema itself, in its scope and in the chains of its fields. -/
def HasUse (s : Schema) (u : FilterUse) : Prop :=
  ∃ chain, (s.scope = some chain ∨ ∃ name, (name, .steps chain) ∈ s.fields) ∧
    ∃ step ∈ chain, u ∈ step.filters

/-- No field, at any depth, has a name that schemas keep for themselves. -/
def Unreserved (s : Schema) : Prop :=
  ∀ t : Schema, t.Within s → ∀ name ∈ Entries.keys t.fields, ¬Wire.IsReserved name

/-- No filter use, at any depth, has null for its options. -/
def NullFree (s : Schema) : Prop :=
  ∀ t : Schema, t.Within s → ∀ u, t.HasUse u → u.options ≠ some .null

/-- The options of the filters in a chain are values with their keys in order. -/
def CanonicalOptions (chain : List Step) : Prop :=
  ∀ step ∈ chain, ∀ u ∈ step.filters, ∀ o, u.options = some o → Json.canonical o = o

/-- What the builders put together, from steps whose options are canonical values. -/
inductive Assembled : Schema → Prop
  | blank : Assembled .blank
  | ofScope {scope : List Step} (h : CanonicalOptions scope) : Assembled (.ofScope scope)
  | withSteps {s : Schema} (name : String) {chain : List Step} (hs : s.Assembled)
      (h : CanonicalOptions chain) : Assembled (s.withSteps name chain)
  | withNested {s child : Schema} (name : String) (hs : s.Assembled) (hc : child.Assembled) :
      Assembled (s.withNested name child)
  | asMerged {s : Schema} (hs : s.Assembled) : Assembled s.asMerged

namespace Assembled

variable {s : Schema}

theorem ordered (h : s.Assembled) : s.Ordered := by
  induction h with
  | blank => exact .blank
  | ofScope _ => exact .ofScope _
  | withSteps name _ _ ih => exact ih.withSteps name _
  | withNested name _ _ ih ihc => exact ih.withNested name ihc
  | asMerged _ ih => exact ih.asMerged

theorem child (h : s.Assembled) {name : String} {t : Schema}
    (ht : (name, .nested t) ∈ s.fields) : t.Assembled := by
  induction h generalizing name with
  | blank => cases ht
  | ofScope _ => cases ht
  | withSteps _ _ _ ih =>
    rcases Entries.mem_insert ht with ht | ht
    · cases ht
    · exact ih ht
  | withNested _ _ hc ih =>
    rcases Entries.mem_insert ht with ht | ht
    · cases ht
      exact hc
    · exact ih ht
  | asMerged _ ih => exact ih ht

theorem within (h : s.Assembled) {t : Schema} (ht : t.Within s) : t.Assembled := by
  induction ht with
  | refl => exact h
  | nested ht _ ih => exact ih (h.child ht)

theorem canonical (h : s.Assembled) {u : FilterUse} (hu : s.HasUse u) {o : Value}
    (ho : u.options = some o) : Json.canonical o = o := by
  obtain ⟨chain, hc, step, hs, hu⟩ := hu
  induction h with
  | blank => rcases hc with hc | ⟨_, hc⟩ <;> cases hc
  | ofScope h =>
    rcases hc with hc | ⟨_, hc⟩ <;> cases hc
    exact h step hs u hu o ho
  | withSteps _ _ h ih =>
    rcases hc with hc | ⟨_, hc⟩
    · exact ih (.inl hc)
    · rcases Entries.mem_insert hc with hc | hc
      · cases hc
        exact h step hs u hu o ho
      · exact ih (.inr ⟨_, hc⟩)
  | withNested _ _ _ ih _ =>
    rcases hc with hc | ⟨_, hc⟩
    · exact ih (.inl hc)
    · rcases Entries.mem_insert hc with hc | hc
      · cases hc
      · exact ih (.inr ⟨_, hc⟩)
  | asMerged _ ih => exact ih hc

end Assembled

/-- What a schema itself needs to be written so that it can be read back. -/
structure IsWritable (s : Schema) : Prop where
  ascending : Entries.Ascending s.fields
  unreserved : ∀ name ∈ Entries.keys s.fields, ¬Wire.IsReserved name
  uses : ∀ u, s.HasUse u → ∀ o, u.options = some o → Json.canonical o = o ∧ o ≠ .null

end Schema

/-! ## Values that are written -/

namespace Wire

variable {α : Type}

/-- A value that spells a thing and has no key twice, so that the thing is read back from it. -/
structure Written (R : Spelling α) (v : Value) (a : α) : Prop where
  noRepeats : v.NoRepeats
  spelled : R v a

theorem get?_optional (k name : String) (v : Option Value) :
    Entries.get? k (optional name v) = if name = k then v else none := by
  cases v <;> simp [optional, Entries.get?]

theorem keys_optional (name : String) (v : Option Value) :
    (Entries.keys (optional name v)).Sublist [name] := by
  cases v <;> simp [optional, Entries.keys]

theorem mem_optional {e : String × Value} {name : String} {v : Option Value}
    (h : e ∈ optional name v) : e.1 = name ∧ v = some e.2 := by
  cases v with
  | none => cases h
  | some w =>
    cases List.mem_singleton.1 h
    exact ⟨rfl, rfl⟩

/-- What is written for a flag, if anything is. -/
def ofFlag (b : Bool) : Option Value := if b then some (.bool true) else none

/-- What is written for the filters of a step, if anything is. -/
def ofFilters (uses : List FilterUse) : Option Value :=
  if uses.isEmpty then none else some (.arr (uses.map ofFilterUse))

theorem flag_eq (name : String) (b : Bool) : flag name b = optional name (ofFlag b) := by
  cases b <;> rfl

/-- An optional field is written so that it spells what it is written for. -/
structure WrittenField (R : Option Value → α → Prop) (o : Option Value) (a : α) : Prop where
  noRepeats : ∀ v, o = some v → v.NoRepeats
  spelled : R o a

theorem written_text (s : Option String) :
    WrittenField Spelling.text.Optional (s.map .str) s := by
  cases s with
  | none => exact ⟨nofun, .absent⟩
  | some s => exact ⟨by rintro _ ⟨⟩; exact .scalar rfl, .given nofun rfl⟩

theorem written_flag (b : Bool) : WrittenField (Spelling.flag.OrDefault false) (ofFlag b) b := by
  cases b with
  | false => exact ⟨nofun, .absent⟩
  | true => exact ⟨by rintro _ ⟨⟩; exact .scalar rfl, .given rfl⟩

theorem written_options {options : Option Value}
    (h : ∀ o, options = some o → Json.canonical o = o ∧ o ≠ .null) :
    WrittenField Spelling.any.Optional options options := by
  cases options with
  | none => exact ⟨nofun, .absent⟩
  | some o =>
    obtain ⟨hc, hn⟩ := h o rfl
    refine ⟨?_, .given hn hc.symm⟩
    rintro _ ⟨⟩
    exact hc ▸ Value.noRepeats_canonical o

theorem written_list {write : α → Value} {R : Spelling α} {as : List α}
    (h : ∀ a ∈ as, Written R (write a) a) : Written R.list (.arr (as.map write)) as := by
  refine ⟨.arr fun v hv => ?_, _, rfl, ?_⟩
  · obtain ⟨a, ha, rfl⟩ := List.mem_map.1 hv
    exact (h a ha).noRepeats
  · rw [List.forall₂_map_left_iff, List.forall₂_same]
    exact fun a ha => (h a ha).spelled

theorem int32_ofInt32 (n : Int32) : Spelling.int32 (ofInt32 n) n := by
  have := n.toInt_lt
  have := n.le_toInt
  refine ⟨_, rfl, ?_⟩
  unfold WordInt.clamp WordInt.minSigned WordInt.maxSigned
  dsimp only
  omega

/-- The fields of a record are found under their names. -/
theorem held_record {names : List String} (name : String) {es : List (String × Value)}
    (h : (Entries.keys es).Nodup) :
    held names name (.obj (Entries.ofList es)) = Entries.get? name es :=
  Entries.get?_ofList name h

theorem written_use {u : FilterUse}
    (h : ∀ o, u.options = some o → Json.canonical o = o ∧ o ≠ .null) :
    Written .use (ofFilterUse u) u := by
  have hkeys : (Entries.keys ([("id", .str u.id), ("priority", ofInt32 u.priority)] ++
      optional "opts" u.options)).Nodup := by
    refine List.Nodup.sublist (?_ : List.Sublist _ useNames) (by decide)
    exact .cons_cons _ (.cons_cons _ (keys_optional "opts" u.options))
  refine ⟨Value.noRepeats_ofList fun e he => ?_, trivial, ?_, ?_, ?_⟩
  · simp only [List.cons_append, List.nil_append, List.mem_cons] at he
    rcases he with rfl | rfl | he
    · exact .scalar rfl
    · exact .scalar rfl
    · exact (written_options h).noRepeats _ (mem_optional he).2
  all_goals rw [ofFilterUse, held_record _ hkeys]
  · rfl
  · exact .given (int32_ofInt32 u.priority)
  · simpa [Entries.get?_append, Entries.get?, get?_optional] using (written_options h).spelled

/-- The entries of a step that is written. -/
def stepEntries (s : Step) : List (String × Value) :=
  optional "ref" (s.reference.map .str) ++ optional "selector" (s.selector.map .str) ++
    optional "unselector" (s.unselector.map .str) ++ optional "prop" (s.property.map .str) ++
    optional "or" (ofFlag s.fallback) ++ optional "filters" (ofFilters s.filters)

theorem ofStep_eq (s : Step) : ofStep s = .obj (Entries.ofList (stepEntries s)) := by
  rw [ofStep, flag_eq, stepEntries, ofFilters]
  split <;> rfl

/-- Each name of a step is written once at most. -/
theorem nodup_keys_stepEntries (s : Step) : (Entries.keys (stepEntries s)).Nodup := by
  refine List.Nodup.sublist (?_ : List.Sublist _ stepNames) (by decide)
  simp only [stepEntries, Entries.keys, List.map_append]
  exact (((((keys_optional "ref" _).append (keys_optional "selector" _)).append
    (keys_optional "unselector" _)).append (keys_optional "prop" _)).append
    (keys_optional "or" _)).append (keys_optional "filters" _)

theorem written_filters {uses : List FilterUse}
    (h : ∀ u ∈ uses, ∀ o, u.options = some o → Json.canonical o = o ∧ o ≠ .null) :
    WrittenField ((Spelling.list .use).OrDefault []) (ofFilters uses) uses := by
  have hlist := written_list fun u hu => written_use (h u hu)
  rw [ofFilters]
  split
  · rename_i he
    rw [List.isEmpty_iff.1 he]
    exact ⟨by rintro _ ⟨⟩, .absent⟩
  · exact ⟨by rintro _ ⟨⟩; exact hlist.noRepeats, .given hlist.spelled⟩

theorem written_step {s : Step}
    (h : ∀ u ∈ s.filters, ∀ o, u.options = some o → Json.canonical o = o ∧ o ≠ .null) :
    Written .step (ofStep s) s := by
  rw [ofStep_eq]
  refine ⟨Value.noRepeats_ofList fun e he => ?_, trivial, ?_, ?_, ?_, ?_, ?_, ?_⟩
  · simp only [stepEntries, List.mem_append] at he
    rcases he with ((((he | he) | he) | he) | he) | he <;> have he := (mem_optional he).2
    · exact (written_text s.reference).noRepeats _ he
    · exact (written_text s.selector).noRepeats _ he
    · exact (written_text s.unselector).noRepeats _ he
    · exact (written_text s.property).noRepeats _ he
    · exact (written_flag s.fallback).noRepeats _ he
    · exact (written_filters h).noRepeats _ he
  all_goals
    rw [held_record _ (nodup_keys_stepEntries s)]
    simp only [stepEntries, Entries.get?_append, get?_optional]
  · simpa using (written_text s.reference).spelled
  · simpa using (written_text s.selector).spelled
  · simpa using (written_text s.unselector).spelled
  · simpa using (written_text s.property).spelled
  · simpa using (written_flag s.fallback).spelled
  · simpa using (written_filters h).spelled

theorem written_chain {chain : List Step} (h : ∀ s ∈ chain, ∀ u ∈ s.filters, ∀ o,
    u.options = some o → Json.canonical o = o ∧ o ≠ .null) : Written .chain (ofChain chain) chain :=
  written_list fun s hs => written_step (h s hs)

/-! ## Schemas that are written -/

theorem ofFields_eq (fields : List (String × Field Schema)) :
    ofFields fields = fields.map fun f => (f.1, ofField f.2) := by
  induction fields with
  | nil => rfl
  | cons f fields ih => exact congrArg _ ih

theorem keys_ofFields (fields : List (String × Field Schema)) :
    Entries.keys (ofFields fields) = Entries.keys fields := by
  rw [ofFields_eq, Entries.keys, List.map_map]
  rfl

/-- The entries of a schema that is written. -/
def schemaEntries (s : Schema) : List (String × Value) :=
  optional scopeName (s.scope.map ofChain) ++ optional mergeName (ofFlag s.merged) ++
    ofFields s.fields

theorem ofSchema_eq (s : Schema) : ofSchema s = .obj (Entries.ofList (schemaEntries s)) := by
  obtain ⟨scope, merged, fields⟩ := s
  rw [ofSchema, flag_eq, schemaEntries]

variable {s : Schema}

/-- The reserved names and the names of the fields are all different. -/
theorem nodup_keys_schemaEntries (h : s.IsWritable) : (Entries.keys (schemaEntries s)).Nodup := by
  refine List.Nodup.sublist
    (?_ : List.Sublist _ (scopeName :: mergeName :: Entries.keys s.fields)) ?_
  · have hfields := keys_ofFields s.fields
    simp only [schemaEntries, Entries.keys, List.map_append] at hfields ⊢
    rw [hfields]
    exact ((keys_optional scopeName _).append (keys_optional mergeName _)).append
      (List.Sublist.refl _)
  · have hs : scopeName ∉ Entries.keys s.fields := fun hk => h.unreserved _ hk (.inl rfl)
    have hm : mergeName ∉ Entries.keys s.fields := fun hk => h.unreserved _ hk (.inr rfl)
    have hne : scopeName ≠ mergeName := by decide
    exact List.nodup_cons.2 ⟨List.not_mem_cons_of_ne_of_not_mem hne hs,
      List.nodup_cons.2 ⟨hm, Entries.nodup_keys h.ascending⟩⟩

theorem written_scope (h : s.IsWritable) :
    WrittenField Spelling.chain.Optional (s.scope.map ofChain) s.scope := by
  cases hs : s.scope with
  | none => exact ⟨nofun, .absent⟩
  | some scope =>
    have hscope := written_chain fun step hstep u hu =>
      h.uses u ⟨scope, .inl hs, step, hstep, hu⟩
    exact ⟨by rintro _ ⟨⟩; exact hscope.noRepeats, .given nofun hscope.spelled⟩

theorem mem_ofFields {e : String × Value} {fields : List (String × Field Schema)}
    (he : e ∈ ofFields fields) : ∃ f, (e.1, f) ∈ fields ∧ e.2 = ofField f := by
  rw [ofFields_eq] at he
  obtain ⟨f, hf, rfl⟩ := List.mem_map.1 he
  exact ⟨f.2, hf, rfl⟩

/-- What stands under a name that is not reserved is a field. -/
theorem mem_schemaEntries {e : String × Value} (he : e ∈ schemaEntries s) (hr : ¬IsReserved e.1) :
    ∃ f, (e.1, f) ∈ s.fields ∧ e.2 = ofField f := by
  simp only [schemaEntries, List.mem_append] at he
  rcases he with (he | he) | he
  · exact absurd (.inl (mem_optional he).1) hr
  · exact absurd (.inr (mem_optional he).1) hr
  · exact mem_ofFields he

theorem mem_ofList_schemaEntries {e : String × Value}
    (he : e ∈ Entries.ofList (schemaEntries s)) : e ∈ schemaEntries s :=
  (Entries.mem_insertAll he).resolve_left (List.not_mem_nil)

theorem get?_ofFields_reserved (h : s.IsWritable) {name : String} (hr : IsReserved name) :
    Entries.get? name (ofFields s.fields) = none :=
  Entries.get?_eq_none fun hk => h.unreserved name (keys_ofFields s.fields ▸ hk) hr

theorem get?_scopeName (h : s.IsWritable) :
    Entries.get? scopeName (Entries.ofList (schemaEntries s)) = s.scope.map ofChain := by
  have hne : mergeName ≠ scopeName := by decide
  rw [Entries.get?_ofList _ (nodup_keys_schemaEntries h), schemaEntries]
  simp [Entries.get?_append, get?_optional, get?_ofFields_reserved h (.inl rfl), hne]

theorem get?_mergeName (h : s.IsWritable) :
    Entries.get? mergeName (Entries.ofList (schemaEntries s)) = ofFlag s.merged := by
  have hne : scopeName ≠ mergeName := by decide
  rw [Entries.get?_ofList _ (nodup_keys_schemaEntries h), schemaEntries]
  simp [Entries.get?_append, get?_optional, get?_ofFields_reserved h (.inr rfl), hne]

/-- A schema is written properly if its fields are. -/
theorem written_of_fields (h : s.IsWritable)
    (hf : ∀ f ∈ s.fields, Written .field (ofField f.2) f.2) : Written .schema (ofSchema s) s := by
  rw [ofSchema_eq]
  refine ⟨Value.noRepeats_ofList fun e he => ?_, ?_⟩
  · simp only [schemaEntries, List.mem_append] at he
    rcases he with (he | he) | he
    · exact (written_scope h).noRepeats _ (mem_optional he).2
    · exact (written_flag s.merged).noRepeats _ (mem_optional he).2
    · obtain ⟨f, hm, hv⟩ := mem_ofFields he
      exact hv ▸ (hf _ hm).noRepeats
  · have hscope := get?_scopeName h ▸ (written_scope h).spelled
    have hmerged := get?_mergeName h ▸ (written_flag s.merged).spelled
    obtain ⟨scope, merged, fields⟩ := s
    -- the names that are written and not reserved are those of the fields, and what is written
    -- under one of them spells its field
    refine .intro hscope hmerged h.ascending
      (fun name => ⟨fun hk => ⟨?_, h.unreserved name hk⟩, fun ⟨hk, hr⟩ => ?_⟩)
      fun name v f hv hm => ?_
    · rw [Entries.ofList, Entries.mem_keys_insertAll]
      have hk : name ∈ Entries.keys (ofFields fields) := keys_ofFields fields ▸ hk
      simp only [schemaEntries, Entries.keys, List.map_append]
      exact .inr (List.mem_append_right _ hk)
    · obtain ⟨e, he, rfl⟩ := List.mem_map.1 hk
      obtain ⟨f, hm, -⟩ := mem_schemaEntries (mem_ofList_schemaEntries he) hr
      exact List.mem_map_of_mem hm
    · have hr := h.unreserved name (List.mem_map_of_mem hm)
      obtain ⟨f', hm', rfl⟩ := mem_schemaEntries (mem_ofList_schemaEntries hv) hr
      rw [Entries.eq_of_mem h.ascending hm hm']
      exact (hf _ hm').spelled

mutual

/-- A schema is written properly if every schema within it can be written. -/
theorem written_schema (s : Schema) (h : ∀ t : Schema, t.Within s → t.IsWritable) :
    Written .schema (ofSchema s) s := by
  obtain ⟨scope, merged, fields⟩ := s
  refine written_of_fields (h _ (.refl _)) (written_fields fields (fun name chain hc => ?_) ?_)
  · exact fun step hs u hu => (h _ (.refl _)).uses u ⟨chain, .inr ⟨name, hc⟩, step, hs, hu⟩
  · exact fun name child hc t ht => h t (.nested hc ht)

theorem written_fields (fields : List (String × Field Schema))
    (hc : ∀ name chain, (name, .steps chain) ∈ fields → ∀ s ∈ chain, ∀ u ∈ s.filters, ∀ o,
      u.options = some o → Json.canonical o = o ∧ o ≠ .null)
    (hn : ∀ name child, (name, .nested child) ∈ fields →
      ∀ t : Schema, t.Within child → t.IsWritable) :
    ∀ f ∈ fields, Written .field (ofField f.2) f.2 := by
  match fields with
  | [] => simp
  | (name, .steps chain) :: fields =>
    intro f hf
    rcases List.mem_cons.1 hf with rfl | hf
    · have hchain := written_chain (hc name chain (by simp))
      exact ⟨hchain.noRepeats, .steps hchain.spelled⟩
    · exact written_fields fields (fun name chain hm => hc name chain (by simp [hm]))
        (fun name child hm => hn name child (by simp [hm])) f hf
  | (name, .nested child) :: fields =>
    intro f hf
    rcases List.mem_cons.1 hf with rfl | hf
    · have hchild := written_schema child (hn name child (by simp))
      exact ⟨hchild.noRepeats, .nested hchild.spelled⟩
    · exact written_fields fields (fun name chain hm => hc name chain (by simp [hm]))
        (fun name child hm => hn name child (by simp [hm])) f hf

end

/-! ## Schemas that are read -/

theorem exists_of_mem_list? {read : Value → Option α} {v : Value} {as : List α}
    (h : list? read v = some as) {a : α} (ha : a ∈ as) : ∃ w, read w = some a := by
  cases v with
  | arr items =>
    obtain ⟨w, -, hw⟩ := exists_of_forall₂ (mapM_eq_some_iff.1 h) ha
    exact ⟨w, hw⟩
  | _ => cases h

/-- The options of a filter use that is read are canonical and not null. -/
theorem options_of_read {v : Value} {u : FilterUse} (h : filterUse? v = some u) {o : Value}
    (ho : u.options = some o) : Json.canonical o = o ∧ o ≠ .null := by
  simp only [filterUse?, Option.bind_eq_bind, Option.bind_eq_some_iff] at h
  obtain ⟨fields, -, h⟩ := h
  split at h
  · simp only [Option.bind_eq_some_iff, Option.pure_def, Option.some.injEq] at h
    obtain ⟨id, -, priority, -, options, hopts, rfl⟩ := h
    cases ho
    cases (optional?_eq_some_iff (fun w _ => reads_any w) _).1 hopts with
    | given hw hr =>
      rw [hr]
      exact ⟨Value.canonical_canonical _, Value.canonical_ne_null hw⟩
  · cases h

theorem exists_of_mem_filters {v : Value} {s : Step} (h : step? v = some s) {u : FilterUse}
    (hu : u ∈ s.filters) : ∃ w, filterUse? w = some u := by
  simp only [step?, Option.bind_eq_bind, Option.bind_eq_some_iff] at h
  obtain ⟨fields, -, h⟩ := h
  split at h
  · simp only [Option.bind_eq_some_iff, Option.pure_def, Option.some.injEq] at h
    obtain ⟨_, -, _, -, _, -, _, -, _, -, uses, huses, rfl⟩ := h
    unfold orDefault? at huses
    split at huses
    · cases huses
      cases hu
    · exact exists_of_mem_list? huses hu
  · cases h

/-- A field of a schema that is read was read as a field, and under a name of its own. -/
theorem exists_of_mem_fields {v : Value} (h : schema? v = some s) {name : String}
    {f : Field Schema} (hf : (name, f) ∈ s.fields) :
    ¬IsReserved name ∧ ∃ w, field? w = some f := by
  cases v with
  | obj entries =>
    simp only [schema?, Option.bind_eq_bind, Option.bind_eq_some_iff, Option.pure_def,
      Option.some.injEq] at h
    obtain ⟨_, -, _, -, _, -, _, -, fs, hfs, rfl⟩ := h
    rw [fields?_eq, mapM_eq_some_iff] at hfs
    have hm := (Entries.mem_insertAll hf).resolve_left List.not_mem_nil
    obtain ⟨e, he, hread⟩ := exists_of_forall₂ hfs hm
    obtain ⟨g, hg, ⟨⟩⟩ := Option.map_eq_some_iff.1 hread
    exact ⟨of_decide_eq_true (List.mem_filter.1 he).2, e.2, hg⟩
  | _ =>
    rw [schema?_eq_none (by simp)] at h
    cases h

theorem exists_of_scope {v : Value} (h : schema? v = some s) {chain : List Step}
    (hc : s.scope = some chain) : ∃ w, chain? w = some chain := by
  cases v with
  | obj entries =>
    simp only [schema?, Option.bind_eq_bind, Option.bind_eq_some_iff, Option.pure_def,
      Option.some.injEq] at h
    obtain ⟨_, -, scope, hscope, _, -, _, -, fs, -, rfl⟩ := h
    cases hc
    unfold optional? at hscope
    split at hscope
    · cases hscope
    · cases hscope
    · obtain ⟨_, hchain, ⟨⟩⟩ := Option.map_eq_some_iff.1 hscope
      exact ⟨_, hchain⟩
  | _ =>
    rw [schema?_eq_none (by simp)] at h
    cases h

theorem exists_of_steps {v : Value} {chain : List Step} (h : field? v = some (.steps chain)) :
    ∃ w, chain? w = some chain := by
  unfold field? at h
  split at h
  · rename_i items
    obtain ⟨_, hc, ⟨⟩⟩ := Option.map_eq_some_iff.1 h
    exact ⟨.arr items, hc⟩
  · obtain ⟨_, _, ⟨⟩⟩ := Option.map_eq_some_iff.1 h

theorem exists_of_nested {v : Value} {child : Schema} (h : field? v = some (.nested child)) :
    ∃ w, schema? w = some child := by
  unfold field? at h
  split at h
  · obtain ⟨_, _, ⟨⟩⟩ := Option.map_eq_some_iff.1 h
  · obtain ⟨_, hc, ⟨⟩⟩ := Option.map_eq_some_iff.1 h
    exact ⟨_, hc⟩

/-- A schema that is read can be written. -/
theorem isWritable_of_schema? {v : Value} (h : schema? v = some s) : s.IsWritable := by
  refine ⟨(Schema.ordered_of_schema? v s h).ascending, fun name hk => ?_, ?_⟩
  · obtain ⟨f, hf, rfl⟩ := List.mem_map.1 hk
    exact (exists_of_mem_fields h hf).1
  · rintro u ⟨chain, hc, step, hs, hu⟩ o ho
    have hread : ∃ w, chain? w = some chain := by
      rcases hc with hc | ⟨name, hc⟩
      · exact exists_of_scope h hc
      · obtain ⟨-, w, hw⟩ := exists_of_mem_fields h hc
        exact exists_of_steps hw
    obtain ⟨_, hchain⟩ := hread
    obtain ⟨_, hstep⟩ := exists_of_mem_list? hchain hs
    obtain ⟨_, huse⟩ := exists_of_mem_filters hstep hu
    exact options_of_read huse ho

/-- What is within a schema that is read was read too. -/
theorem exists_of_within {t : Schema} (ht : t.Within s) {v : Value} (h : schema? v = some s) :
    ∃ w, schema? w = some t := by
  induction ht generalizing v with
  | refl => exact ⟨v, h⟩
  | nested hc _ ih =>
    obtain ⟨-, w, hw⟩ := exists_of_mem_fields h hc
    obtain ⟨_, hchild⟩ := exists_of_nested hw
    exact ih hchild

/-! ## Round trip -/

theorem schema?_ofSchema (h : ∀ t : Schema, t.Within s → t.IsWritable) :
    schema? (ofSchema s) = some s := by
  have hw := written_schema s h
  exact (schema?_eq_some_iff hw.noRepeats s).2 hw.spelled

theorem isWritable_within {v : Value} (h : schema? v = some s) (t : Schema) (ht : t.Within s) :
    t.IsWritable := by
  obtain ⟨w, hw⟩ := exists_of_within ht h
  exact isWritable_of_schema? hw

theorem unreserved_and_nullFree (h : ∀ t : Schema, t.Within s → t.IsWritable) :
    s.Unreserved ∧ s.NullFree :=
  ⟨fun t ht => (h t ht).unreserved, fun t ht u hu ho => ((h t ht).uses u hu _ ho).2 rfl⟩

/-- A schema that the builders put together comes back from its wire form if and only if no field
    in it has a reserved name and no filter in it has null for its options. Every schema that is
    read is of this kind, so every wire form that is accepted comes back. -/
theorem schema?_ofSchema_iff :
    (∀ s : Schema, s.Assembled →
      (schema? (ofSchema s) = some s ↔ s.Unreserved ∧ s.NullFree)) ∧
    ∀ v s, schema? v = some s → s.Unreserved ∧ s.NullFree ∧ schema? (ofSchema s) = some s := by
  constructor
  · intro s hs
    constructor
    · intro h
      exact unreserved_and_nullFree (isWritable_within h)
    · rintro ⟨hu, hn⟩
      refine schema?_ofSchema fun t ht => ?_
      have hts := hs.within ht
      refine ⟨hts.ordered.ascending, hu t ht, fun u hm o ho => ⟨hts.canonical hm ho, ?_⟩⟩
      rintro rfl
      exact hn t ht u hm ho
  · intro v s h
    obtain ⟨hu, hn⟩ := unreserved_and_nullFree (isWritable_within h)
    exact ⟨hu, hn, schema?_ofSchema (isWritable_within h)⟩

/-- A schema with options and a nested schema comes back; with null for the options, or with a field
    of the name `_merge`, it does not. -/
theorem schema?_ofSchema_iff_titles :
    let title (options : Value) : Step :=
      (Step.ofSelector "h1").withFilter ((FilterUse.new "filter.default" 1).withOptions options)
    let page (options : Value) : Schema :=
      (Schema.ofScope [.root]).withNested "links"
        (((Schema.ofScope []).withSteps "title" [title options]).asMerged)
    let options : Value := .obj [("value", .null)]
    ((page options).Assembled ∧ (page options).Unreserved ∧ (page options).NullFree) ∧
      ((page .null).Assembled ∧ ¬((page .null).Unreserved ∧ (page .null).NullFree)) ∧
      (((page options).withSteps "_merge" []).Assembled ∧
        ¬(((page options).withSteps "_merge" []).Unreserved ∧
          ((page options).withSteps "_merge" []).NullFree)) ∧
      schema? (.obj [("_merge", .bool false), ("title", .arr [])]) =
        some (Schema.blank.withSteps "title" []) ∧
      schema? (ofSchema (Schema.blank.withSteps "title" [])) =
        some (Schema.blank.withSteps "title" []) := by
  intro title page options
  have hpage (o : Value) (ho : Json.canonical o = o) : (page o).Assembled := by
    refine .withNested "links" (.ofScope ?_) (.asMerged (.withSteps "title" (.ofScope ?_) ?_))
    · simp [Schema.CanonicalOptions, Step.root, Step.ofSelector, Step.blank]
    · simp [Schema.CanonicalOptions]
    · simpa [Schema.CanonicalOptions, title, Step.ofSelector, Step.blank, Step.withFilter,
        FilterUse.new, FilterUse.withOptions] using ho
  have hoptions : (page options).Assembled := hpage options (by decide)
  have hnull : (page .null).Assembled := hpage .null rfl
  have hmerge : ((page options).withSteps "_merge" []).Assembled :=
    .withSteps "_merge" hoptions (by simp [Schema.CanonicalOptions])
  have hread : schema? (.obj [("_merge", .bool false), ("title", .arr [])]) =
      some (Schema.blank.withSteps "title" []) := by decide
  refine ⟨⟨hoptions, (schema?_ofSchema_iff.1 _ hoptions).1 (by decide)⟩, ⟨hnull, fun h => ?_⟩,
    ⟨hmerge, fun h => ?_⟩, hread, (schema?_ofSchema_iff.2 _ _ hread).2.2⟩
  · have := (schema?_ofSchema_iff.1 _ hnull).2 h
    revert this
    decide
  · have := (schema?_ofSchema_iff.1 _ hmerge).2 h
    revert this
    decide

end Wire
end SchemaExtraction
