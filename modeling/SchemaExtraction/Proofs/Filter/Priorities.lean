import Mathlib.Logic.ExistsUnique
import SchemaExtraction.Filter.Registry

/-!
# Filters by priority

A registry runs the uses of filters in ascending priority, and those of one priority in the order in
which they are written. How uses of different priorities are mixed when they are written makes no
difference. Here the order is said by what it has of each priority and not by how it is found, and
what comes out is said use by use.

Results:
* `isOrderOf_byPriority`, `IsOrderOf.unique`: there is one order in which uses run.
* `runs_iff`: running uses one after the other.
* `apply_by_priority`: what a registry makes of a value.
-/

namespace SchemaExtraction.Registry

/-! ## The order of uses -/

/-- Whether two lists have the same uses of each priority in the same order. -/
def SameByPriority (uses others : List FilterUse) : Prop :=
  ∀ p : Int32, uses.filter (·.priority = p) = others.filter (·.priority = p)

/-- Whether no use has a higher priority than one after it. -/
def Ascends (uses : List FilterUse) : Prop := uses.Pairwise fun a b => a.priority ≤ b.priority

instance (uses : List FilterUse) : Decidable (Ascends uses) :=
  inferInstanceAs (Decidable (List.Pairwise _ _))

/-- Whether a list has the uses of another one in ascending priority, and those of one priority in
    the order in which they are written. -/
structure IsOrderOf (ordered uses : List FilterUse) : Prop where
  ascending : Ascends ordered
  same : SameByPriority ordered uses

variable {uses others ordered : List FilterUse}

theorem SameByPriority.symm (h : SameByPriority uses others) : SameByPriority others uses :=
  fun p => (h p).symm

theorem SameByPriority.trans {more : List FilterUse} (h : SameByPriority uses others)
    (h' : SameByPriority others more) : SameByPriority uses more :=
  fun p => (h p).trans (h' p)

theorem SameByPriority.mem_iff (h : SameByPriority uses others) (use : FilterUse) :
    use ∈ uses ↔ use ∈ others := by
  have hmem (us : List FilterUse) : use ∈ us ↔ use ∈ us.filter (·.priority = use.priority) := by
    simp
  rw [hmem uses, hmem others, h use.priority]

theorem SameByPriority.filter (h : SameByPriority uses others) (keep : FilterUse → Bool) :
    SameByPriority (uses.filter keep) (others.filter keep) := by
  intro p
  have hcomm (us : List FilterUse) : (us.filter keep).filter (·.priority = p) =
      (us.filter (·.priority = p)).filter keep := by
    simp only [List.filter_filter, Bool.and_comm]
  rw [hcomm uses, hcomm others, h p]

/-- Only the priorities that occur have to be looked at. -/
theorem sameByPriority_iff : SameByPriority uses others ↔
    ∀ use ∈ uses ++ others, uses.filter (·.priority = use.priority) =
      others.filter (·.priority = use.priority) := by
  refine ⟨fun h use _ => h use.priority, fun h p => ?_⟩
  by_cases hp : ∃ use ∈ uses ++ others, use.priority = p
  · obtain ⟨use, huse, rfl⟩ := hp
    exact h use huse
  · have hempty {us : List FilterUse} (hus : ∀ use ∈ us, use ∈ uses ++ others) :
        us.filter (·.priority = p) = [] :=
      List.filter_eq_nil_iff.2 fun use hu => by simpa using fun h => hp ⟨use, hus use hu, h⟩
    rw [hempty fun _ => List.mem_append_left others, hempty fun _ => List.mem_append_right uses]

instance (uses others : List FilterUse) : Decidable (SameByPriority uses others) :=
  decidable_of_iff _ sameByPriority_iff.symm

instance (ordered uses : List FilterUse) : Decidable (IsOrderOf ordered uses) :=
  decidable_of_iff (Ascends ordered ∧ SameByPriority ordered uses)
    ⟨fun h => ⟨h.1, h.2⟩, fun h => ⟨h.ascending, h.same⟩⟩

/-- Whether a use may run before another one. -/
def mayPrecede (a b : FilterUse) : Bool := a.priority.toInt ≤ b.priority.toInt

theorem mayPrecede_iff (a b : FilterUse) : mayPrecede a b = true ↔ a.priority ≤ b.priority := by
  rw [mayPrecede, decide_eq_true_eq, Int32.le_iff_toInt_le]

theorem mayPrecede_trans (a b c : FilterUse) (hab : mayPrecede a b = true)
    (hbc : mayPrecede b c = true) : mayPrecede a c = true :=
  decide_eq_true (Int.le_trans (of_decide_eq_true hab) (of_decide_eq_true hbc))

theorem mayPrecede_total (a b : FilterUse) : (mayPrecede a b || mayPrecede b a) = true := by
  rw [mayPrecede, mayPrecede, Bool.or_eq_true, decide_eq_true_eq, decide_eq_true_eq]
  exact Int.le_total _ _

/-- Sorting does not change the order of uses of one priority. -/
theorem filter_byPriority (p : Int32) (uses : List FilterUse) :
    (byPriority uses).filter (·.priority = p) = uses.filter (·.priority = p) := by
  have hsorted : (uses.filter (·.priority = p)).Pairwise fun a b => mayPrecede a b = true := by
    refine List.pairwise_of_forall_mem_list fun a ha b hb => ?_
    have hap : a.priority = p := by simpa using (List.mem_filter.1 ha).2
    have hbp : b.priority = p := by simpa using (List.mem_filter.1 hb).2
    exact decide_eq_true (Int.le_of_eq (congrArg Int32.toInt (hap.trans hbp.symm)))
  -- they are in order already, so they are still in it when the other uses are put in between
  have hpart : (uses.filter (·.priority = p)).Sublist (byPriority uses) :=
    List.sublist_mergeSort mayPrecede_trans mayPrecede_total hsorted List.filter_sublist
  have hsub : (uses.filter (·.priority = p)).Sublist
      ((byPriority uses).filter (·.priority = p)) := by
    simpa only [List.filter_filter, Bool.and_self] using hpart.filter (·.priority = p)
  have hlength : ((byPriority uses).filter (·.priority = p)).length =
      (uses.filter (·.priority = p)).length :=
    ((List.mergeSort_perm uses mayPrecede).filter _).length_eq
  exact (hsub.eq_of_length hlength.symm).symm

theorem isOrderOf_byPriority (uses : List FilterUse) : IsOrderOf (byPriority uses) uses where
  ascending := by
    have hsorted := List.pairwise_mergeSort mayPrecede_trans mayPrecede_total uses
    exact hsorted.imp fun {a b} hab => (mayPrecede_iff a b).1 hab
  same p := filter_byPriority p uses

theorem Ascends.head_le {a b : FilterUse} {as : List FilterUse} (h : Ascends (a :: as))
    (hb : b ∈ a :: as) : a.priority.toInt ≤ b.priority.toInt := by
  rcases List.mem_cons.1 hb with rfl | hb
  · exact Int.le_refl _
  · exact Int32.le_iff_toInt_le.1 (List.rel_of_pairwise_cons h hb)

/-- Uses in ascending priority are determined by what they have of each priority. -/
theorem Ascends.eq_of_sameByPriority {as bs : List FilterUse} (ha : Ascends as) (hb : Ascends bs)
    (h : SameByPriority as bs) : as = bs := by
  induction as generalizing bs with
  | nil =>
    cases bs with
    | nil => rfl
    | cons b bs => cases (h.mem_iff b).2 List.mem_cons_self
  | cons a as ih =>
    cases bs with
    | nil => cases (h.mem_iff a).1 List.mem_cons_self
    | cons b bs =>
      have hp : a.priority = b.priority := by
        have hle := ha.head_le ((h.mem_iff b).2 List.mem_cons_self)
        have hge := hb.head_le ((h.mem_iff a).1 List.mem_cons_self)
        exact Int32.toInt_inj.1 (Int.le_antisymm hle hge)
      -- both are the first ones of their priority
      have hfirst := h a.priority
      simp only [List.filter_cons, hp, decide_true, if_true, List.cons.injEq] at hfirst
      obtain ⟨rfl, -⟩ := hfirst
      have hrest : SameByPriority as bs := by
        intro p
        have hp := h p
        by_cases hap : a.priority = p
        · simpa [List.filter_cons, hap] using hp
        · simpa [List.filter_cons, hap] using hp
      rw [ih ha.of_cons hb.of_cons hrest]

theorem IsOrderOf.unique {ordered' : List FilterUse} (h : IsOrderOf ordered uses)
    (h' : IsOrderOf ordered' uses) : ordered = ordered' :=
  h.ascending.eq_of_sameByPriority h'.ascending (h.same.trans h'.same.symm)

theorem IsOrderOf.eq_byPriority (h : IsOrderOf ordered uses) : ordered = byPriority uses :=
  h.unique (isOrderOf_byPriority uses)

theorem byPriority_congr (h : SameByPriority uses others) :
    byPriority uses = byPriority others := by
  have horder := isOrderOf_byPriority uses
  exact IsOrderOf.eq_byPriority ⟨horder.ascending, horder.same.trans h⟩

/-! ## Running uses -/

/-- What running uses one after the other makes of a value: the last value, or the first failure.
    A use without a filter is passed over, or is a failure of a strict registry. -/
inductive Runs (r : Registry) (reference : Value) :
    Value → List FilterUse → Except FilterError Value → Prop
  | done (v : Value) : Runs r reference v [] (.ok v)
  | filtered {v w : Value} {use : FilterUse} {uses : List FilterUse} {filter : Filter}
      {outcome : Except FilterError Value}
      (known : Entries.get? use.id r.filters = some filter)
      (here : filter v ⟨use.id, use.options, reference⟩ = .ok w)
      (rest : Runs r reference w uses outcome) : Runs r reference v (use :: uses) outcome
  | failed {v : Value} {use : FilterUse} {uses : List FilterUse} {filter : Filter}
      {e : FilterError} (known : Entries.get? use.id r.filters = some filter)
      (here : filter v ⟨use.id, use.options, reference⟩ = .error e) :
      Runs r reference v (use :: uses) (.error e)
  | skipped {v : Value} {use : FilterUse} {uses : List FilterUse}
      {outcome : Except FilterError Value} (unknown : Entries.get? use.id r.filters = none)
      (lenient : r.strict = false) (rest : Runs r reference v uses outcome) :
      Runs r reference v (use :: uses) outcome
  | refused {v : Value} {use : FilterUse} {uses : List FilterUse}
      (unknown : Entries.get? use.id r.filters = none) (strict : r.strict = true) :
      Runs r reference v (use :: uses) (.error (.unknownFilter use.id))

variable {r : Registry} {reference v : Value} {outcome : Except FilterError Value}

theorem runs_applyAll (r : Registry) (reference v : Value) (uses : List FilterUse) :
    r.Runs reference v uses (r.applyAll reference v uses) := by
  induction uses generalizing v with
  | nil => exact .done v
  | cons use uses ih =>
    rw [applyAll, applyUse]
    cases hknown : Entries.get? use.id r.filters with
    | some filter =>
      dsimp only
      cases here : filter v ⟨use.id, use.options, reference⟩ with
      | ok w => exact .filtered hknown here (ih w)
      | error e => exact .failed hknown here
    | none =>
      cases hstrict : r.strict with
      | false => exact .skipped hknown hstrict (ih v)
      | true => exact .refused hknown hstrict

theorem Runs.eq_applyAll (h : r.Runs reference v uses outcome) :
    r.applyAll reference v uses = outcome := by
  induction h with
  | done v => rfl
  | filtered known here _ ih => simpa [applyAll, applyUse, known, here] using ih
  | failed known here => simp [applyAll, applyUse, known, here]
  | skipped unknown lenient _ ih => simpa [applyAll, applyUse, unknown, lenient] using ih
  | refused unknown strict => simp [applyAll, applyUse, unknown, strict]

/-- Running uses in the order given has one outcome. -/
theorem runs_iff : r.Runs reference v uses outcome ↔ r.applyAll reference v uses = outcome :=
  ⟨Runs.eq_applyAll, fun h => h ▸ runs_applyAll r reference v uses⟩

/-- A registry runs the uses one after the other in the one order by priority, so that another list
    with the same uses of each priority in the same order has the same outcome. -/
theorem apply_by_priority (r : Registry) (v : Value) (uses : List FilterUse) (reference : Value) :
    (∃! ordered, IsOrderOf ordered uses) ∧
    (∀ ordered, IsOrderOf ordered uses → ∀ outcome,
      r.Runs reference v ordered outcome ↔ r.apply v uses reference = outcome) ∧
    ∀ others, SameByPriority uses others →
      r.apply v others reference = r.apply v uses reference := by
  refine ⟨⟨byPriority uses, isOrderOf_byPriority uses, fun _ h => h.eq_byPriority⟩,
    fun ordered h outcome => ?_, fun others h => ?_⟩
  · rw [h.eq_byPriority, runs_iff, apply]
  · rw [apply, apply, byPriority_congr h]

/-- Splitting comes before joining wherever it is written, as its priority is lower, and a name
    without a filter is passed over. -/
theorem apply_by_priority_joined :
    let join : FilterUse := ⟨"filter.join", 2, some (.obj [("separator", .str "-")])⟩
    let split := FilterUse.new "filter.split" (-1)
    let unknown := FilterUse.new "filter.glue" (-1)
    let r := withBuiltins false
    let uses := [join, split, unknown]
    let others := [split, join, unknown]
    let ordered := [split, unknown, join]
    IsOrderOf ordered uses ∧ SameByPriority uses others ∧
      r.Runs .null (.str "a,b") ordered (.ok (.str "a-b")) ∧
      r.apply (.str "a,b") uses .null = .ok (.str "a-b") ∧
      r.apply (.str "a,b") others .null = r.apply (.str "a,b") uses .null := by
  intro join split unknown r uses others ordered
  have horder : IsOrderOf ordered uses := by decide
  have hsame : SameByPriority uses others := by decide
  have hsplit : Filter.split (.str "a,b") ⟨split.id, split.options, .null⟩ =
      .ok (.arr [.str "a", .str "b"]) := congrArg Except.ok (by decide +kernel)
  have hjoin : Filter.join (.arr [.str "a", .str "b"]) ⟨join.id, join.options, .null⟩ =
      .ok (.str "a-b") := congrArg Except.ok (by decide +kernel)
  have hruns : r.Runs .null (.str "a,b") ordered (.ok (.str "a-b")) :=
    .filtered (by rfl) hsplit (.skipped (by rfl) rfl (.filtered (by rfl) hjoin (.done _)))
  obtain ⟨-, hrun, hcongr⟩ := apply_by_priority r (.str "a,b") uses .null
  exact ⟨horder, hsame, hruns, (hrun ordered horder _).1 hruns, hcongr others hsame⟩

end SchemaExtraction.Registry
