import SchemaExtraction.Schema.Wire

/-!
# Schemas in key order

The fields of a schema are keyed entries, so a schema that is put together by the operations of
the library has its fields in key order and no field twice, and so has every schema nested in it.

Results:
* `Schema.Ordered.withSteps`, `Schema.Ordered.withNested`: the builders keep the order.
* `Schema.ordered_of_schema?`: a schema that is read from its wire form is ordered.
-/

namespace SchemaExtraction.Schema

/-- The fields are in key order, none of them twice, in the schema and in all that are nested in
    it. -/
inductive Ordered : Schema → Prop
  | intro {scope : Option (List Step)} {merged : Bool} {fields : List (String × Field Schema)}
      (keys : Entries.Ascending fields)
      (nested : ∀ name child, (name, Field.nested child) ∈ fields → child.Ordered) :
      Ordered ⟨scope, merged, fields⟩

namespace Ordered

variable {s : Schema}

theorem ascending (h : s.Ordered) : Entries.Ascending s.fields := by
  cases h with
  | intro keys _ => exact keys

theorem child (h : s.Ordered) {name : String} {t : Schema} (ht : (name, .nested t) ∈ s.fields) :
    t.Ordered := by
  cases h with
  | intro _ nested => exact nested name t ht

/-! ## Builders -/

theorem blank : Schema.blank.Ordered := intro Entries.ascending_nil (by simp)

theorem ofScope (scope : List Step) : (Schema.ofScope scope).Ordered :=
  intro Entries.ascending_nil (by simp)

theorem asMerged (h : s.Ordered) : s.asMerged.Ordered :=
  intro h.ascending fun _ _ => h.child

theorem withSteps (h : s.Ordered) (name : String) (chain : List Step) :
    (s.withSteps name chain).Ordered := by
  refine intro (Entries.ascending_insert _ _ h.ascending) fun name' t ht => ?_
  rcases Entries.mem_insert ht with ht | ht
  · cases ht
  · exact h.child ht

theorem withNested (h : s.Ordered) (name : String) {t : Schema} (ht : t.Ordered) :
    (s.withNested name t).Ordered := by
  refine intro (Entries.ascending_insert _ _ h.ascending) fun name' t' ht' => ?_
  rcases Entries.mem_insert ht' with ht' | ht'
  · cases ht'
    exact ht
  · exact h.child ht'

end Ordered

/-! ## Reading -/

mutual

theorem ordered_of_schema? (v : Value) (s : Schema) (h : Wire.schema? v = some s) : s.Ordered := by
  cases v with
  | obj entries =>
    simp only [Wire.schema?, Option.bind_eq_bind, Option.bind_eq_some_iff] at h
    obtain ⟨_, _, scope, _, _, _, merged, _, fields, hf, ⟨⟩⟩ := h
    refine .intro (Entries.ascending_ofList fields) fun name t ht => ?_
    rcases Entries.mem_insertAll ht with ht | ht
    · simp at ht
    · exact nested_of_fields? entries fields hf name t ht
  | _ => simp [Wire.schema?] at h

theorem nested_of_fields? (es : List (String × Value)) (fs : List (String × Field Schema))
    (h : Wire.fields? es = some fs) (name : String) (t : Schema) (ht : (name, .nested t) ∈ fs) :
    t.Ordered := by
  match es with
  | [] =>
    simp only [Wire.fields?, Option.some.injEq] at h
    simp [← h] at ht
  | (key, v) :: es =>
    simp only [Wire.fields?] at h
    split at h
    · exact nested_of_fields? es fs h name t ht
    · split at h
      · simp only [Option.bind_eq_bind, Option.bind_eq_some_iff] at h
        obtain ⟨f, hf, rest, hr, ⟨⟩⟩ := h
        obtain ⟨chain, _, rfl⟩ := Option.map_eq_some_iff.1 hf
        rcases List.mem_cons.1 ht with ht | ht
        · cases ht
        · exact nested_of_fields? es rest hr name t ht
      · simp only [Option.bind_eq_bind, Option.bind_eq_some_iff] at h
        obtain ⟨f, hf, rest, hr, ⟨⟩⟩ := h
        obtain ⟨t', ht', rfl⟩ := Option.map_eq_some_iff.1 hf
        rcases List.mem_cons.1 ht with ht | ht
        · cases ht
          exact ordered_of_schema? v t ht'
        · exact nested_of_fields? es rest hr name t ht

end

end SchemaExtraction.Schema
