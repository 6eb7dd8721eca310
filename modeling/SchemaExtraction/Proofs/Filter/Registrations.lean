import Mathlib.Data.List.Induction
import SchemaExtraction.Proofs.Filter.Strictness
import SchemaExtraction.Proofs.Text.ByteOrder

/-!
# Registering filters

Filters are registered one after the other, and a name that is registered again has its last filter.
So what a registry holds is determined by the calls that have been made: its names are those of the
calls, in the order of their bytes, and a use of a name runs the filter of the last call with that
name.

Results:
* `get?_registerAll`: the filter of a name after some calls.
* `applyAll_eq_foldlM`: running uses as a loop.
* `apply_register_of_forall_ne`: uses that do not have a name do not see its filter.
* `registerAll_session`: what a registry has and does after some calls.
-/

namespace SchemaExtraction.Registry

variable {r : Registry} {uses : List FilterUse} {id : String}

/-- Registers filters one after the other. -/
def registerAll (r : Registry) (calls : List (String × Filter)) : Registry :=
  calls.foldl (fun r call => r.register call.1 call.2) r

/-- The filter of the last call with a name. -/
def lastFilter? (calls : List (String × Filter)) (id : String) : Option Filter :=
  (calls.reverse.find? fun call => call.1 = id).map Prod.snd

/-- What a use makes of a value when these calls have been made: the filter of the last call with
    its name runs. A use without such a call is passed over, or is a failure if names are taken
    strictly. -/
def runLast (calls : List (String × Filter)) (strict : Bool) (reference v : Value)
    (use : FilterUse) : Except FilterError Value :=
  match lastFilter? calls use.id with
  | some filter => filter v ⟨use.id, use.options, reference⟩
  | none => if strict then .error (.unknownFilter use.id) else .ok v

/-! ## What is registered -/

theorem registerAll_eq (r : Registry) (calls : List (String × Filter)) :
    r.registerAll calls = { r with filters := Entries.insertAll r.filters calls } := by
  induction calls generalizing r with
  | nil => rfl
  | cons call calls ih => exact ih (r.register call.1 call.2)

theorem registerAll_append (r : Registry) (calls later : List (String × Filter)) :
    r.registerAll (calls ++ later) = (r.registerAll calls).registerAll later :=
  List.foldl_append

/-- The built-in filters are registered like any others. -/
theorem withBuiltins_eq (strict : Bool) :
    withBuiltins strict = (new strict).registerAll Filter.builtins :=
  (registerAll_eq (new strict) Filter.builtins).symm

theorem lastFilter?_append_singleton (calls : List (String × Filter)) (call : String × Filter)
    (id : String) : lastFilter? (calls ++ [call]) id =
      if call.1 = id then some call.2 else lastFilter? calls id := by
  rw [lastFilter?, List.reverse_append, List.reverse_singleton, List.singleton_append,
    List.find?_cons]
  by_cases h : call.1 = id <;> simp [h, lastFilter?]

theorem isSome_lastFilter? {calls : List (String × Filter)} :
    (lastFilter? calls id).isSome = true ↔ ∃ filter, (id, filter) ∈ calls := by
  simp [lastFilter?]

theorem get?_registerAll (strict : Bool) (calls : List (String × Filter)) (id : String) :
    Entries.get? id ((new strict).registerAll calls).filters = lastFilter? calls id := by
  induction calls using List.reverseRecOn with
  | nil => rfl
  | append_singleton calls call ih =>
    rw [registerAll_append, lastFilter?_append_singleton, ← ih]
    exact Entries.get?_insert call.1 id call.2 _

/-- The names are in the order of their bytes, none of them twice. -/
theorem pairwise_ids (h : Entries.Ascending r.filters) :
    r.ids.Pairwise fun a b => Text.bytes a < Text.bytes b :=
  h.imp Text.bytes_lt_bytes

/-! ## What runs -/

/-- Running uses is a loop that ends at the first failure. -/
theorem applyAll_eq_foldlM (r : Registry) (reference v : Value) (uses : List FilterUse) :
    r.applyAll reference v uses = uses.foldlM (r.applyUse reference) v := by
  induction uses generalizing v with
  | nil => rfl
  | cons use uses ih =>
    rw [applyAll, List.foldlM_cons]
    cases r.applyUse reference v use with
    | ok w => exact ih w
    | error e => rfl

theorem applyUse_registerAll (strict : Bool) (calls : List (String × Filter)) :
    ((new strict).registerAll calls).applyUse = runLast calls strict := by
  funext reference v use
  rw [applyUse, runLast, get?_registerAll, registerAll_eq]
  rfl

theorem apply_registerAll (strict : Bool) (calls : List (String × Filter)) (reference v : Value)
    {ordered : List FilterUse} (h : IsOrderOf ordered uses) :
    ((new strict).registerAll calls).apply v uses reference =
      ordered.foldlM (runLast calls strict reference) v := by
  rw [apply, ← h.eq_byPriority, applyAll_eq_foldlM, applyUse_registerAll]

/-- Uses that do not have a name do not see its filter. -/
theorem apply_register_of_forall_ne (h : ∀ use ∈ uses, use.id ≠ id) (filter : Filter)
    (v reference : Value) :
    (r.register id filter).apply v uses reference = r.apply v uses reference := by
  refine applyAll_congr_of_applyUse (fun use huse w => ?_) v
  have hne : id ≠ use.id := (h use (List.mem_mergeSort.1 huse)).symm
  rw [applyUse, applyUse, register, Entries.get?_insert, if_neg hne]

/-- Whether a registry starts empty or with the built-in filters: after any calls, its names are
    those of the calls, in the order of their bytes, each use runs the filter of the last call with
    its name, and one more call matters only to uses of its name. -/
theorem registerAll_session (strict builtins : Bool) (calls : List (String × Filter)) :
    let start := if builtins then withBuiltins strict else new strict
    let registered := (if builtins then Filter.builtins else []) ++ calls
    let r := start.registerAll calls
    r.ids.Pairwise (fun a b => Text.bytes a < Text.bytes b) ∧
    (∀ id, id ∈ r.ids ↔ ∃ filter, (id, filter) ∈ registered) ∧
    (∀ id, r.contains id = true ↔ ∃ filter, (id, filter) ∈ registered) ∧
    (∀ v uses reference ordered, IsOrderOf ordered uses →
      r.apply v uses reference = ordered.foldlM (runLast registered strict reference) v) ∧
    ∀ id filter v uses reference, (∀ use ∈ uses, use.id ≠ id) →
      (r.register id filter).apply v uses reference = r.apply v uses reference := by
  intro start registered r
  have hr : r = (new strict).registerAll registered := by
    cases builtins with
    | true =>
      have hstart : start = (new strict).registerAll Filter.builtins := withBuiltins_eq strict
      exact (congrArg (registerAll · calls) hstart).trans (registerAll_append _ _ calls).symm
    | false => rfl
  have hcontains (id : String) : r.contains id = true ↔ ∃ filter, (id, filter) ∈ registered := by
    rw [contains, hr, get?_registerAll, isSome_lastFilter?]
  refine ⟨pairwise_ids ?_, fun id => ?_, hcontains, fun v uses reference ordered h => ?_,
    fun id filter v uses reference h => apply_register_of_forall_ne h filter v reference⟩
  · rw [hr, registerAll_eq]
    exact Entries.ascending_insertAll Entries.ascending_nil registered
  · rw [ids, Entries.mem_keys_iff]
    exact hcontains id
  · rw [hr]
    exact apply_registerAll strict registered reference v h

/-- A built-in filter that is replaced twice runs as the last one, and replacing it once more does
    not touch the uses of another name. -/
theorem registerAll_session_replaced :
    let constant (s : String) : Filter := fun _ _ => .ok (.str s)
    let calls := [("filter.trim", constant "first"), ("filter.trim", constant "last")]
    let r := (withBuiltins true).registerAll calls
    let trim := FilterUse.new "filter.trim" 1
    let text := FilterUse.new "filter.toString" 0
    IsOrderOf [text, trim] [trim, text] ∧
      r.apply (.bool true) [trim, text] .null = .ok (.str "last") ∧
      (∀ use ∈ [text], use.id ≠ "filter.trim") ∧
      (r.register "filter.trim" (constant "more")).apply (.bool true) [text] .null =
        r.apply (.bool true) [text] .null := by
  intro constant calls r trim text
  have horder : IsOrderOf [text, trim] [trim, text] := by decide
  have hids : ∀ use ∈ [text], use.id ≠ "filter.trim" := by decide
  obtain ⟨-, -, -, hruns, hframe⟩ := registerAll_session true true calls
  have hlast : [text, trim].foldlM (runLast (Filter.builtins ++ calls) true .null) (.bool true) =
      .ok (.str "last") := rfl
  exact ⟨horder, (hruns _ _ _ _ horder).trans hlast, hids, hframe _ _ _ _ _ hids⟩

end SchemaExtraction.Registry
