import SchemaExtraction.Schema.Basic

/-!
# What holds throughout a schema

A condition on scopes and one on chains hold throughout a schema if the scope meets the first and
the chains of the fields meet the second, and both hold throughout every schema nested in it. Other
conditions are put on each schema within it.

Results:
* `Schema.Throughout.ofScope`, `Schema.Throughout.withSteps`, `Schema.Throughout.withNested`: the
  builders keep what holds throughout.
-/

namespace SchemaExtraction.Schema

/-- A schema in another one: that one, or one that is nested in it at any depth. -/
inductive Within : Schema → Schema → Prop
  | refl (s : Schema) : Within s s
  | nested {s t u : Schema} {name : String} (ht : (name, .nested t) ∈ u.fields)
      (hs : Within s t) : Within s u

/-- A scope that is missing counts as one without steps. -/
inductive Throughout (scopes chains : List Step → Prop) : Schema → Prop
  | intro {scope : Option (List Step)} {merged : Bool} {fields : List (String × Field Schema)}
      (scope_holds : scopes (scope.getD []))
      (chains_hold : ∀ name chain, (name, Field.steps chain) ∈ fields → chains chain)
      (nested : ∀ name child, (name, Field.nested child) ∈ fields →
        child.Throughout scopes chains) :
      Throughout scopes chains ⟨scope, merged, fields⟩

namespace Throughout

variable {scopes chains : List Step → Prop} {schema : Schema}

theorem scope (h : schema.Throughout scopes chains) : scopes (schema.scope.getD []) := by
  cases h with
  | intro scope_holds _ _ => exact scope_holds

theorem chain (h : schema.Throughout scopes chains) {name : String} {chain : List Step}
    (hc : (name, .steps chain) ∈ schema.fields) : chains chain := by
  cases h with
  | intro _ chains_hold _ => exact chains_hold name chain hc

theorem child (h : schema.Throughout scopes chains) {name : String} {child : Schema}
    (hc : (name, .nested child) ∈ schema.fields) : child.Throughout scopes chains := by
  cases h with
  | intro _ _ nested => exact nested name child hc

/-! ## Builders -/

theorem ofScope {scope : List Step} (h : scopes scope) :
    (Schema.ofScope scope).Throughout scopes chains :=
  .intro h (by simp) (by simp)

theorem withSteps (h : schema.Throughout scopes chains) (name : String) {chain : List Step}
    (hc : chains chain) : (schema.withSteps name chain).Throughout scopes chains := by
  refine .intro h.scope (fun name' chain' hm => ?_) fun name' child hm => ?_
  · rcases Entries.mem_insert hm with he | hm
    · cases he
      exact hc
    · exact h.chain hm
  · rcases Entries.mem_insert hm with he | hm
    · cases he
    · exact h.child hm

theorem withNested (h : schema.Throughout scopes chains) (name : String) {child : Schema}
    (hc : child.Throughout scopes chains) :
    (schema.withNested name child).Throughout scopes chains := by
  refine .intro h.scope (fun name' chain hm => ?_) fun name' child' hm => ?_
  · rcases Entries.mem_insert hm with he | hm
    · cases he
    · exact h.chain hm
  · rcases Entries.mem_insert hm with he | hm
    · cases he
      exact hc
    · exact h.child hm

end Throughout
end SchemaExtraction.Schema
