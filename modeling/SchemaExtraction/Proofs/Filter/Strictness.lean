import SchemaExtraction.Proofs.Filter.Priorities

/-!
# Names without a filter

A lenient registry passes over the uses of names that have no filter, as if they were not written. A
strict registry does what a lenient one does up to the first such use, first in the order in which
uses run and not in that in which they are written, and fails there, unless a use before it has
failed.

Results:
* `applyAll_append`: running uses in two parts.
* `IsFirstUnknown`: the use at which a strict registry stops.
* `apply_strict`: both kinds of registries side by side.
-/

namespace SchemaExtraction.Registry

variable {r : Registry} {uses before after : List FilterUse} {unknown : FilterUse}

/-- What is run after the first part of a list goes on with its value. -/
theorem applyAll_append (r : Registry) (reference v : Value) (before after : List FilterUse) :
    r.applyAll reference v (before ++ after) =
      (r.applyAll reference v before).bind fun w => r.applyAll reference w after := by
  induction before generalizing v with
  | nil => rfl
  | cons use before ih =>
    rw [List.cons_append, applyAll, applyAll]
    cases r.applyUse reference v use with
    | ok w => exact ih w
    | error e => rfl

/-- Strictness makes no difference for a name with a filter. -/
theorem applyUse_congr {r' : Registry} (hfilters : r'.filters = r.filters) {use : FilterUse}
    (h : r.contains use.id = true) (reference v : Value) :
    r'.applyUse reference v use = r.applyUse reference v use := by
  rw [contains, Option.isSome_iff_exists] at h
  obtain ⟨filter, hfilter⟩ := h
  simp only [applyUse, hfilters, hfilter]

theorem applyUse_of_not_contains {use : FilterUse} (h : r.contains use.id = false)
    (reference v : Value) :
    r.applyUse reference v use = if r.strict then .error (.unknownFilter use.id) else .ok v := by
  rw [contains, Option.isSome_eq_false_iff, Option.isNone_iff_eq_none] at h
  simp only [applyUse, h]

/-- Registries that do the same at each use do the same at all of them. -/
theorem applyAll_congr_of_applyUse {r' : Registry} {reference : Value}
    (h : ∀ use ∈ uses, ∀ w, r'.applyUse reference w use = r.applyUse reference w use) (v : Value) :
    r'.applyAll reference v uses = r.applyAll reference v uses := by
  induction uses generalizing v with
  | nil => rfl
  | cons use uses ih =>
    rw [List.forall_mem_cons] at h
    rw [applyAll, applyAll, h.1 v]
    cases r.applyUse reference v use with
    | ok w => exact ih h.2 w
    | error e => rfl

theorem applyAll_congr {r' : Registry} (hfilters : r'.filters = r.filters)
    (h : ∀ use ∈ uses, r.contains use.id = true) (reference v : Value) :
    r'.applyAll reference v uses = r.applyAll reference v uses :=
  applyAll_congr_of_applyUse (fun use hu w => applyUse_congr hfilters (h use hu) reference w) v

/-- A lenient registry does nothing at a name without a filter. -/
theorem applyAll_filter_contains (hr : r.strict = false) (reference v : Value)
    (uses : List FilterUse) :
    r.applyAll reference v (uses.filter fun use => r.contains use.id) =
      r.applyAll reference v uses := by
  induction uses generalizing v with
  | nil => rfl
  | cons use uses ih =>
    cases h : r.contains use.id with
    | true =>
      rw [List.filter_cons_of_pos (by exact h), applyAll, applyAll]
      cases r.applyUse reference v use with
      | ok w => exact ih w
      | error e => rfl
    | false =>
      rw [List.filter_cons_of_neg (by simp [h]), ih, applyAll, applyUse_of_not_contains h, hr]
      rfl

theorem byPriority_filter (keep : FilterUse → Bool) (uses : List FilterUse) :
    byPriority (uses.filter keep) = (byPriority uses).filter keep := by
  have h := isOrderOf_byPriority uses
  exact (IsOrderOf.eq_byPriority ⟨h.ascending.filter keep, h.same.filter keep⟩).symm

/-- Whether a use is the first one of a name without a filter in the order in which uses run, and
    what runs before it. -/
structure IsFirstUnknown (r : Registry) (uses before : List FilterUse) (unknown : FilterUse) :
    Prop where
  order : ∃ after, IsOrderOf (before ++ unknown :: after) uses
  known : ∀ use ∈ before, r.contains use.id = true
  unknown : r.contains unknown.id = false

theorem exists_isFirstUnknown (h : ∃ use ∈ uses, r.contains use.id = false) :
    ∃ before unknown, r.IsFirstUnknown uses before unknown := by
  obtain ⟨use, huse, hid⟩ := h
  have hfind : ((byPriority uses).find? fun use => !r.contains use.id).isSome = true :=
    List.find?_isSome.2 ⟨use, List.mem_mergeSort.2 huse, by simp [hid]⟩
  obtain ⟨unknown, hunknown⟩ := Option.isSome_iff_exists.1 hfind
  obtain ⟨hid, before, after, hsplit, hknown⟩ := List.find?_eq_some_iff_append.1 hunknown
  refine ⟨before, unknown, ⟨after, hsplit ▸ isOrderOf_byPriority uses⟩, fun use hu => ?_, ?_⟩
  · simpa using hknown use hu
  · simpa using hid

/-- A strict registry fails at the first name without a filter, or before. -/
theorem IsFirstUnknown.apply_eq (h : r.IsFirstUnknown uses before unknown) (hr : r.strict = true)
    (reference v : Value) :
    r.apply v uses reference =
      (r.applyAll reference v before).bind fun _ => .error (.unknownFilter unknown.id) := by
  obtain ⟨after, horder⟩ := h.order
  rw [apply, ← horder.eq_byPriority, applyAll_append]
  congr 1
  funext w
  rw [applyAll, applyUse_of_not_contains h.unknown, hr]
  rfl

/-- A lenient registry does as if uses of names without a filter were not there. A strict one with
    the same filters does the same if there are none, and else fails at the first of them in the
    order by priority, with the failure of the uses before it if they fail. -/
theorem apply_strict (r : Registry) (v : Value) (uses : List FilterUse) (reference : Value) :
    let lenient : Registry := { r with strict := false }
    let strict : Registry := { r with strict := true }
    lenient.apply v uses reference =
        lenient.apply v (uses.filter fun use => r.contains use.id) reference ∧
      ((∀ use ∈ uses, r.contains use.id = true) →
        strict.apply v uses reference = lenient.apply v uses reference) ∧
      ((∃ use ∈ uses, r.contains use.id = false) →
        ∃ before unknown, r.IsFirstUnknown uses before unknown) ∧
      ∀ before unknown, r.IsFirstUnknown uses before unknown →
        ∃ outcome, lenient.Runs reference v before outcome ∧
          strict.apply v uses reference =
            match outcome with
            | .ok _ => .error (.unknownFilter unknown.id)
            | .error e => .error e := by
  intro lenient strict
  have hlenient : lenient.strict = false := rfl
  have hfilters : strict.filters = lenient.filters := rfl
  refine ⟨?_, fun h => ?_, exists_isFirstUnknown, fun before unknown h => ?_⟩
  · rw [apply, apply, byPriority_filter]
    exact (applyAll_filter_contains hlenient reference v (byPriority uses)).symm
  · rw [apply, apply]
    exact applyAll_congr hfilters (fun use hu => h use (List.mem_mergeSort.1 hu)) reference v
  · have hfirst : strict.IsFirstUnknown uses before unknown := ⟨h.order, h.known, h.unknown⟩
    have hsame : strict.applyAll reference v before = lenient.applyAll reference v before :=
      applyAll_congr hfilters h.known reference v
    refine ⟨_, runs_applyAll lenient reference v before, ?_⟩
    rw [hfirst.apply_eq rfl, hsame]
    cases lenient.applyAll reference v before <;> rfl

/-- Of two names without a filter the one of the lower priority is named, though it is written
    last, and not even that one if a filter before it fails. -/
theorem apply_strict_unknown :
    let trim := FilterUse.new "filter.trim" 1
    let replace := FilterUse.new "filter.replace" 0
    let late := FilterUse.new "filter.late" 3
    let early := FilterUse.new "filter.early" 2
    let r := withBuiltins false
    let lenient : Registry := { r with strict := false }
    let strict : Registry := { r with strict := true }
    let v := Value.str " a "
    (∀ use ∈ [trim, replace], r.contains use.id = true) ∧
      strict.apply v [trim, replace] .null = lenient.apply v [trim, replace] .null ∧
      (∃ use ∈ [late, early, trim], r.contains use.id = false) ∧
      (∃ before unknown, r.IsFirstUnknown [late, early, trim] before unknown) ∧
      r.IsFirstUnknown [late, early, trim] [trim] early ∧
      strict.apply v [late, early, trim] .null = .error (.unknownFilter "filter.early") ∧
      r.IsFirstUnknown [late, early, replace] [replace] early ∧
      strict.apply v [late, early, replace] .null =
        .error (.badOptions "filter.replace" "missing string option `pattern`") := by
  intro trim replace late early r lenient strict v
  have hknown : ∀ use ∈ [trim, replace], r.contains use.id = true := by decide +kernel
  have hunknown : ∃ use ∈ [late, early, trim], r.contains use.id = false := by decide +kernel
  have hfirst : r.IsFirstUnknown [late, early, trim] [trim] early :=
    ⟨⟨[late], by decide⟩, by decide +kernel, by decide +kernel⟩
  have hfailing : r.IsFirstUnknown [late, early, replace] [replace] early :=
    ⟨⟨[late], by decide⟩, by decide +kernel, by decide +kernel⟩
  have hplain := apply_strict r v [trim, replace] .null
  obtain ⟨-, -, hexists, hstops⟩ := apply_strict r v [late, early, trim] .null
  obtain ⟨outcome, hruns, hstrict⟩ := hstops [trim] early hfirst
  obtain ⟨outcome', hruns', hstrict'⟩ :=
    (apply_strict r v [late, early, replace] .null).2.2.2 [replace] early hfailing
  refine ⟨hknown, hplain.2.1 hknown, hunknown, hexists hunknown, hfirst, ?_, hfailing, ?_⟩
  · rw [hstrict, ← hruns.eq_applyAll]
    rfl
  · rw [hstrict', ← hruns'.eq_applyAll]
    rfl

end SchemaExtraction.Registry
