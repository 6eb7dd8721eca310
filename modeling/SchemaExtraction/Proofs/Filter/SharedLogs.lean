import Mathlib.Data.List.DropRight
import Mathlib.Data.List.GetD
import Mathlib.Data.List.Induction
import Mathlib.Logic.Relation
import SchemaExtraction.Extraction.Builtin

/-!
# Shared logs

Recording pipelines are used through handles, which are copied at any time and share a log with
their copies. What a handle reports is determined by the steps through its family, which are the
handles that copies connect it with: the calls of the family since the family was last reset, in
their order. What is done through another family is not seen.

Results:
* `Recorders.family_run_append`: handles keep their logs.
* `Recorders.sameFamily_iff`: handles have one log if and only if copies connect them.
* `Recorders.log_perform`, `Recorders.log_run`: what a step and a session leave in a log.
* `Recorders.reports_own_family`: what a handle reports after a session.
-/

namespace SchemaExtraction

/-- A step of a session with recording pipelines. -/
inductive RecorderStep where
  /-- a request through a handle -/
  | exec (handle : Nat) (call : FilterCall)
  /-- the calls of a handle are forgotten -/
  | reset (handle : Nat)
  /-- a handle is copied -/
  | clone (handle : Nat)
  /-- there is one more pipeline, with a handle of its own -/
  | new
deriving DecidableEq

namespace RecorderStep

/-- The handle that a step is made through. -/
def handle? : RecorderStep → Option Nat
  | exec handle _ | reset handle | clone handle => some handle
  | new => none

/-- Whether there is one more handle after a step. -/
def addsHandle : RecorderStep → Bool
  | exec .. | reset _ => false
  | clone _ | new => true

/-- Whether a step resets the log of a family of handles. -/
def Resets (family : Nat → Prop) : RecorderStep → Prop
  | reset handle => family handle
  | _ => False

instance (family : Nat → Prop) [DecidablePred family] : DecidablePred (Resets family)
  | reset handle => inferInstanceAs (Decidable (family handle))
  | exec .. | clone _ | new => instDecidableFalse

/-- The call that a step makes through a family of handles. -/
def callThrough? (family : Nat → Prop) [DecidablePred family] : RecorderStep → Option FilterCall
  | exec handle call => if family handle then some call else none
  | _ => none

variable {family family' : Nat → Prop} {step : RecorderStep}

theorem resets_congr (h : ∀ handle ∈ step.handle?, family handle ↔ family' handle) :
    step.Resets family ↔ step.Resets family' := by
  cases step with
  | reset handle => exact h handle rfl
  | exec | clone | new => exact Iff.rfl

theorem not_resets (h : ∀ handle ∈ step.handle?, ¬ family handle) : ¬ step.Resets family := by
  cases step with
  | reset handle => exact h handle rfl
  | exec | clone | new => exact not_false

variable [DecidablePred family] [DecidablePred family']

theorem callThrough?_congr (h : ∀ handle ∈ step.handle?, family handle ↔ family' handle) :
    step.callThrough? family = step.callThrough? family' := by
  cases step with
  | exec handle call => exact if_congr (h handle rfl) rfl rfl
  | reset | clone | new => rfl

theorem callThrough?_eq_none (h : ∀ handle ∈ step.handle?, ¬ family handle) :
    step.callThrough? family = none := by
  cases step with
  | exec handle call => exact if_neg (h handle rfl)
  | reset | clone | new => rfl

end RecorderStep

namespace Recorders

/-! ## Sessions -/

/-- The pipeline behind a handle. -/
def pipeline (handle : Nat) : Pipeline (StateM Recorders) :=
  Pipeline.recording fun call => modify (·.record handle call)

/-- What there is after one more step. -/
def perform (rs : Recorders) : RecorderStep → Recorders
  | .exec handle call => (((pipeline handle).exec call.records call.request).run rs).2
  | .reset handle => rs.reset handle
  | .clone handle => rs.clone handle
  | .new => rs.add

/-- What there is after some steps, which begin without any handle. -/
def run (steps : List RecorderStep) : Recorders := steps.foldl perform ⟨[], []⟩

/-- The number of handles after some steps. Handles are numbered in the order in which they come. -/
def handleCount (steps : List RecorderStep) : Nat := steps.countP RecorderStep.addsHandle

/-- Whether steps can follow one another when there are some handles: each is made through a handle
    that there is by then. -/
def Possible : Nat → List RecorderStep → Prop
  | _, [] => True
  | count, step :: steps =>
    (∀ handle ∈ step.handle?, handle < count) ∧
      Possible (count + if step.addsHandle then 1 else 0) steps

instance decidablePossible : (count : Nat) → (steps : List RecorderStep) →
    Decidable (Possible count steps)
  | _, [] => instDecidableTrue
  | count, step :: steps =>
    have := decidablePossible (count + if step.addsHandle then 1 else 0) steps
    inferInstanceAs (Decidable (_ ∧ _))

/-- Whether a handle is a copy of another one. -/
def ClonedFrom (steps : List RecorderStep) (source copy : Nat) : Prop :=
  ∃ earlier later, steps = earlier ++ .clone source :: later ∧ copy = handleCount earlier

/-- Whether copies connect two handles. -/
def SameFamily (steps : List RecorderStep) : Nat → Nat → Prop :=
  Relation.EqvGen (ClonedFrom steps)

/-- The calls that steps make through a family of handles after its last reset. -/
def callsSinceReset (family : Nat → Prop) [DecidablePred family] (steps : List RecorderStep) :
    List FilterCall :=
  (steps.rtakeWhile fun step => ¬ step.Resets family).filterMap (·.callThrough? family)

variable {steps later : List RecorderStep} {step : RecorderStep} {rs : Recorders}
  {handle other : Nat}

theorem run_concat (steps : List RecorderStep) (step : RecorderStep) :
    run (steps ++ [step]) = (run steps).perform step := List.foldl_concat _ _ _ _

theorem handleCount_concat (steps : List RecorderStep) (step : RecorderStep) :
    handleCount (steps ++ [step]) = handleCount steps + if step.addsHandle then 1 else 0 := by
  rw [handleCount, List.countP_append, List.countP_singleton]
  rfl

theorem possible_append {count : Nat} : Possible count (steps ++ later) ↔
    Possible count steps ∧ Possible (count + handleCount steps) later := by
  induction steps generalizing count with
  | nil => exact (true_and _).symm.to_iff
  | cons step steps ih =>
    rw [List.cons_append, Possible, Possible, ih, and_assoc, handleCount, handleCount,
      List.countP_cons, Nat.add_assoc, Nat.add_comm (List.countP _ _)]

theorem possible_concat : Possible 0 (steps ++ [step]) ↔
    Possible 0 steps ∧ ∀ handle ∈ step.handle?, handle < handleCount steps := by
  rw [possible_append, Nat.zero_add, Possible, Possible, and_true]

theorem Possible.lt_handleCount (h : Possible 0 steps) (hstep : step ∈ steps)
    (hhandle : handle ∈ step.handle?) : handle < handleCount steps := by
  obtain ⟨earlier, later, rfl⟩ := List.append_of_mem hstep
  obtain ⟨-, hlater⟩ := possible_append.1 h
  calc handle < 0 + handleCount earlier := hlater.1 handle hhandle
    _ ≤ handleCount (earlier ++ step :: later) := by
      rw [Nat.zero_add, handleCount, handleCount, List.countP_append]
      exact Nat.le_add_right _ _

/-! ## The calls of a family -/

section CallsSinceReset

variable {family family' : Nat → Prop} [DecidablePred family] [DecidablePred family']

theorem callsSinceReset_concat (family : Nat → Prop) [DecidablePred family]
    (steps : List RecorderStep) (step : RecorderStep) :
    callsSinceReset family (steps ++ [step]) =
      if step.Resets family then []
      else callsSinceReset family steps ++ (step.callThrough? family).toList := by
  rw [callsSinceReset]
  split
  case isTrue h =>
    rw [List.rtakeWhile_concat_neg _ _ _ (by simpa using h)]
    rfl
  case isFalse h =>
    rw [List.rtakeWhile_concat_pos _ _ _ (by simpa using h), List.filterMap_append]
    cases hc : step.callThrough? family <;> simp [hc, callsSinceReset]

/-- Only the handles in use matter to the calls of a family. -/
theorem callsSinceReset_congr
    (h : ∀ step ∈ steps, ∀ handle ∈ step.handle?, family handle ↔ family' handle) :
    callsSinceReset family steps = callsSinceReset family' steps := by
  induction steps using List.reverseRecOn with
  | nil => rfl
  | append_singleton steps step ih =>
    have hsteps := ih fun step' hs => h step' (List.mem_append_left _ hs)
    have hstep := h step (List.mem_append_right _ (List.mem_singleton_self step))
    rw [callsSinceReset_concat, callsSinceReset_concat, hsteps,
      RecorderStep.callThrough?_congr hstep, if_congr (RecorderStep.resets_congr hstep) rfl rfl]

end CallsSinceReset

/-! ## Handles and their logs -/

theorem length_handles_perform (rs : Recorders) (step : RecorderStep) :
    (rs.perform step).handles.length = rs.handles.length + if step.addsHandle then 1 else 0 := by
  cases step with
  | exec | reset => rfl
  | clone | new => exact List.length_append

theorem length_handles_run (steps : List RecorderStep) :
    (run steps).handles.length = handleCount steps := by
  induction steps using List.reverseRecOn with
  | nil => rfl
  | append_singleton steps step ih =>
    rw [run_concat, length_handles_perform, ih, handleCount_concat]

/-- All handles have a log. -/
def AllInUse (rs : Recorders) : Prop := ∀ handle < rs.handles.length, rs.InUse handle

/-- The calls in a log. -/
def log (rs : Recorders) (i : Nat) : List FilterCall := rs.logs.getD i []

/-- A step leaves the handles with their logs. -/
theorem family_perform (h : handle < rs.handles.length) (step : RecorderStep) :
    (rs.perform step).family handle = rs.family handle := by
  cases step with
  | exec other call => exact family_record rs other call handle
  | reset other => rw [family, family, perform, reset, List.length_modify]
  | clone other => exact List.getD_append _ _ _ _ h
  | new =>
    have hlast : handle < (rs.handles ++ [rs.logs.length]).length := by
      rw [List.length_append]
      exact Nat.lt_add_right _ h
    calc (rs.perform .new).family handle
      _ = (rs.handles ++ [rs.logs.length])[handle] := List.getD_eq_getElem _ _ hlast
      _ = rs.handles[handle] := List.getElem_append_left h
      _ = rs.family handle := (List.getD_eq_getElem _ _ h).symm

/-- A handle keeps its log. -/
theorem family_run_append (h : handle < handleCount steps) (later : List RecorderStep) :
    (run (steps ++ later)).family handle = (run steps).family handle := by
  induction later using List.reverseRecOn with
  | nil => rw [List.append_nil]
  | append_singleton later step ih =>
    have hlt : handle < (run (steps ++ later)).handles.length := by
      rw [length_handles_run, handleCount, List.countP_append]
      exact Nat.lt_add_right _ h
    rw [← List.append_assoc, run_concat, family_perform hlt, ih]

theorem family_clone_last (rs : Recorders) (handle : Nat) :
    (rs.clone handle).family rs.handles.length = rs.family handle := by
  simp [family, clone]

theorem family_add_last (rs : Recorders) : rs.add.family rs.handles.length = rs.logs.length := by
  simp [family, add]

theorem family_run_clone_last (steps : List RecorderStep) (handle : Nat) :
    (run (steps ++ [.clone handle])).family (handleCount steps) = (run steps).family handle := by
  rw [run_concat, ← length_handles_run]
  exact family_clone_last _ _

theorem family_run_new_last (steps : List RecorderStep) :
    (run (steps ++ [.new])).family (handleCount steps) = (run steps).logs.length := by
  rw [run_concat, ← length_handles_run]
  exact family_add_last _

/-- A step takes no log away. -/
theorem length_logs_le_perform (rs : Recorders) (step : RecorderStep) :
    rs.logs.length ≤ (rs.perform step).logs.length := by
  cases step with
  | exec handle call => exact (List.length_modify _ _ _).ge
  | reset handle => exact (List.length_modify _ _ _).ge
  | clone handle => exact Nat.le_refl _
  | new =>
    rw [perform, add, List.length_append]
    exact Nat.le_add_right _ _

/-- The handle that a step makes has a log, too. -/
theorem AllInUse.perform (h : rs.AllInUse)
    (hstep : ∀ handle ∈ step.handle?, handle < rs.handles.length) :
    (rs.perform step).AllInUse := by
  intro handle hhandle
  rw [length_handles_perform] at hhandle
  by_cases hold : handle < rs.handles.length
  · rw [InUse, family_perform hold]
    exact (h handle hold).trans_le (length_logs_le_perform rs step)
  · obtain rfl : handle = rs.handles.length := by
      split at hhandle <;> omega
    cases step with
    | exec | reset => exact absurd hhandle hold
    | clone source =>
      rw [InUse, Recorders.perform, family_clone_last]
      exact h source (hstep source rfl)
    | new =>
      rw [InUse, Recorders.perform, family_add_last]
      simp [add]

theorem allInUse_run (h : Possible 0 steps) : (run steps).AllInUse := by
  induction steps using List.reverseRecOn with
  | nil => exact fun handle hhandle => absurd hhandle (Nat.not_lt_zero handle)
  | append_singleton steps step ih =>
    obtain ⟨hsteps, hstep⟩ := possible_concat.1 h
    rw [← length_handles_run] at hstep
    rw [run_concat]
    exact (ih hsteps).perform hstep

theorem calls_eq_log (rs : Recorders) (handle : Nat) :
    rs.calls handle = rs.log (rs.family handle) := rfl

theorem log_record (h : rs.InUse handle) (call : FilterCall) (i : Nat) :
    (rs.record handle call).log i =
      if rs.family handle = i then rs.log i ++ [call] else rs.log i := by
  split
  case isTrue hi =>
    rw [← hi, ← calls_eq_log, ← calls_record h, calls_eq_log, family_record]
  case isFalse hi =>
    rw [log, log, List.getD_eq_getElem?_getD, List.getD_eq_getElem?_getD, record,
      List.getElem?_modify_ne _ _ hi]

theorem log_reset (rs : Recorders) (handle i : Nat) :
    (rs.reset handle).log i = if rs.family handle = i then [] else rs.log i := by
  rw [log, log, List.getD_eq_getElem?_getD, List.getD_eq_getElem?_getD, reset]
  split
  case isTrue hi =>
    rw [hi, List.getElem?_modify_eq]
    cases rs.logs[i]? <;> rfl
  case isFalse hi => rw [List.getElem?_modify_ne _ _ hi]

theorem log_add (rs : Recorders) (i : Nat) : rs.add.log i = rs.log i := by
  rw [log, log, add]
  rcases Nat.lt_or_ge i rs.logs.length with hi | hi
  · exact List.getD_append _ _ _ _ hi
  · rw [List.getD_append_right _ _ _ _ hi, List.getD_eq_default _ _ hi,
      List.getD_eq_getElem?_getD]
    exact List.getElem?_getD_singleton_default_eq _ _

/-- What a step leaves in a log. -/
theorem log_perform (h : rs.AllInUse)
    (hstep : ∀ handle ∈ step.handle?, handle < rs.handles.length) (i : Nat) :
    (rs.perform step).log i =
      if step.Resets (rs.family · = i) then []
      else rs.log i ++ (step.callThrough? (rs.family · = i)).toList := by
  cases step with
  | exec handle call =>
    show (rs.record handle call).log i =
      rs.log i ++ (if rs.family handle = i then some call else none).toList
    rw [log_record (h handle (hstep handle rfl))]
    split
    · rfl
    · exact (List.append_nil _).symm
  | reset handle =>
    show (rs.reset handle).log i = if rs.family handle = i then [] else rs.log i ++ []
    rw [log_reset, List.append_nil]
  | clone handle => exact (List.append_nil _).symm
  | new => exact (log_add rs i).trans (List.append_nil _).symm

/-- A log holds the calls of the handles that have it since the last reset through one of them. -/
theorem log_run (h : Possible 0 steps) (i : Nat) :
    (run steps).log i = callsSinceReset ((run steps).family · = i) steps := by
  induction steps using List.reverseRecOn with
  | nil => rfl
  | append_singleton steps step ih =>
    obtain ⟨hsteps, hstep⟩ := possible_concat.1 h
    have hsame : callsSinceReset ((run (steps ++ [step])).family · = i) (steps ++ [step]) =
        callsSinceReset ((run steps).family · = i) (steps ++ [step]) := by
      refine callsSinceReset_congr fun step' hs handle hhandle => ?_
      have hlt : handle < handleCount steps := by
        rcases List.mem_append.1 hs with hs | hs
        · exact hsteps.lt_handleCount hs hhandle
        · exact hstep handle (List.eq_of_mem_singleton hs ▸ hhandle)
      rw [family_run_append hlt]
    rw [hsame, callsSinceReset_concat, ← ih hsteps, run_concat,
      log_perform (allInUse_run hsteps) (by rwa [length_handles_run])]

/-! ## Families -/

theorem ClonedFrom.append (h : ClonedFrom steps handle other) (later : List RecorderStep) :
    ClonedFrom (steps ++ later) handle other := by
  obtain ⟨earlier, rest, rfl, rfl⟩ := h
  exact ⟨earlier, rest ++ later, by rw [List.append_assoc, List.cons_append], rfl⟩

theorem SameFamily.append (h : SameFamily steps handle other) (later : List RecorderStep) :
    SameFamily (steps ++ later) handle other :=
  Relation.EqvGen.mono (fun _ _ hcloned => hcloned.append later) _ _ h

theorem clonedFrom_concat (steps : List RecorderStep) (handle : Nat) :
    ClonedFrom (steps ++ [.clone handle]) handle (handleCount steps) := ⟨steps, [], rfl, rfl⟩

/-- A copy has the log of the handle that it was made of. -/
theorem family_eq_of_clonedFrom (h : Possible 0 steps) (hcloned : ClonedFrom steps handle other) :
    (run steps).family handle = (run steps).family other := by
  obtain ⟨earlier, later, rfl, rfl⟩ := hcloned
  obtain ⟨-, hclone, -⟩ := possible_append.1 h
  have hlt : handle < handleCount earlier := Nat.zero_add (handleCount earlier) ▸ hclone handle rfl
  have hcopy : handleCount earlier < handleCount (earlier ++ [.clone handle]) := by
    rw [handleCount_concat]
    exact Nat.lt_succ_self _
  calc (run (earlier ++ .clone handle :: later)).family handle
    _ = (run earlier).family handle := family_run_append hlt _
    _ = (run (earlier ++ [.clone handle])).family (handleCount earlier) :=
      (family_run_clone_last earlier handle).symm
    _ = (run (earlier ++ .clone handle :: later)).family (handleCount earlier) := by
      rw [← family_run_append hcopy later, ← List.append_cons]

theorem family_eq_of_sameFamily (h : Possible 0 steps) (hsame : SameFamily steps handle other) :
    (run steps).family handle = (run steps).family other := by
  induction hsame with
  | rel _ _ hcloned => exact family_eq_of_clonedFrom h hcloned
  | refl => rfl
  | symm _ _ _ ih => exact ih.symm
  | trans _ _ _ _ _ ih ih' => exact ih.trans ih'

/-- All handles of a log are connected with one of them. -/
theorem exists_founder (h : Possible 0 steps) (i : Nat) : ∃ founder, ∀ handle < handleCount steps,
    (run steps).family handle = i → SameFamily steps founder handle := by
  induction steps using List.reverseRecOn with
  | nil => exact ⟨0, fun handle hhandle => absurd hhandle (Nat.not_lt_zero handle)⟩
  | append_singleton steps step ih =>
    obtain ⟨hsteps, hstep⟩ := possible_concat.1 h
    obtain ⟨founder, hfounder⟩ := ih hsteps
    have hearlier (handle : Nat) (hlt : handle < handleCount steps)
        (hfamily : (run (steps ++ [step])).family handle = i) :
        SameFamily (steps ++ [step]) founder handle := by
      rw [family_run_append hlt] at hfamily
      exact (hfounder handle hlt hfamily).append _
    rw [handleCount_concat]
    cases step with
    | exec | reset => exact ⟨founder, hearlier⟩
    | clone source =>
      refine ⟨founder, fun handle hlt hfamily => ?_⟩
      rcases Nat.lt_succ_iff_lt_or_eq.1 hlt with hlt | rfl
      · exact hearlier handle hlt hfamily
      · rw [family_run_clone_last] at hfamily
        exact .trans _ source _ ((hfounder source (hstep source rfl) hfamily).append _)
          (.rel _ _ (clonedFrom_concat steps source))
    | new =>
      by_cases hi : i = (run steps).logs.length
      · -- no earlier handle has the new log
        refine ⟨handleCount steps, fun handle hlt hfamily => ?_⟩
        rcases Nat.lt_succ_iff_lt_or_eq.1 hlt with hlt | rfl
        · have hused := allInUse_run hsteps handle ((length_handles_run steps).symm ▸ hlt)
          rw [family_run_append hlt, hi] at hfamily
          exact absurd hfamily hused.ne
        · exact .refl _
      · refine ⟨founder, fun handle hlt hfamily => ?_⟩
        rcases Nat.lt_succ_iff_lt_or_eq.1 hlt with hlt | rfl
        · exact hearlier handle hlt hfamily
        · exact absurd (hfamily.symm.trans (family_run_new_last steps)) hi

/-- Handles have one log if and only if copies connect them. -/
theorem sameFamily_iff (h : Possible 0 steps) (hhandle : handle < handleCount steps)
    (hother : other < handleCount steps) :
    SameFamily steps handle other ↔ (run steps).family handle = (run steps).family other := by
  refine ⟨family_eq_of_sameFamily h, fun hfamily => ?_⟩
  obtain ⟨founder, hfounder⟩ := exists_founder h ((run steps).family other)
  exact .trans _ _ _ (.symm _ _ (hfounder handle hhandle hfamily)) (hfounder other hother rfl)

/-- A step that is not made through the family of a handle does not change what it reports. -/
theorem calls_run_concat_of_ne (h : Possible 0 (steps ++ [step]))
    (hhandle : handle < handleCount steps)
    (hne : ∀ other ∈ step.handle?, ¬ SameFamily steps handle other) :
    (run (steps ++ [step])).calls handle = (run steps).calls handle := by
  obtain ⟨hsteps, hstep⟩ := possible_concat.1 h
  have hfamily : ∀ other ∈ step.handle?,
      ¬ (run steps).family other = (run steps).family handle := fun other hother heq =>
    hne other hother ((sameFamily_iff hsteps hhandle (hstep other hother)).2 heq.symm)
  rw [← length_handles_run] at hhandle hstep
  rw [run_concat, calls_eq_log, family_perform hhandle, log_perform (allInUse_run hsteps) hstep,
    if_neg (RecorderStep.not_resets hfamily), RecorderStep.callThrough?_eq_none hfamily,
    Option.toList_none, List.append_nil, calls_eq_log]

open Classical in
/-- After a session a handle reports the calls that were made through its family since the last
    reset through it, and their number. One more step through another family does not change what it
    reports. -/
theorem reports_own_family (h : Possible 0 steps) (hhandle : handle < handleCount steps) :
    (run steps).calls handle = callsSinceReset (SameFamily steps handle) steps ∧
    (run steps).count handle = ((run steps).calls handle).length ∧
    ∀ step, Possible 0 (steps ++ [step]) →
      (∀ other ∈ step.handle?, ¬ SameFamily steps handle other) →
      (run (steps ++ [step])).calls handle = (run steps).calls handle ∧
        (run (steps ++ [step])).count handle = (run steps).count handle := by
  refine ⟨?_, rfl, fun step hstep hne => ?_⟩
  · rw [calls_eq_log, log_run h]
    refine callsSinceReset_congr fun step hstep other hother => ?_
    rw [sameFamily_iff h hhandle (h.lt_handleCount hstep hother), eq_comm]
  · have hcalls := calls_run_concat_of_ne hstep hhandle hne
    exact ⟨hcalls, congrArg List.length hcalls⟩

open Classical in
/-- The copy of a copy reports a call that was made before there was a copy, none from before the
    reset, and no step of the other pipeline. -/
theorem reports_own_family_copied :
    let call (s : String) : FilterCall := ⟨[.str s], .ofField "field" [] .null⟩
    let steps : List RecorderStep :=
      [.new, .new, .exec 0 (call "a"), .reset 0, .exec 1 (call "b"), .exec 0 (call "c"), .clone 0,
        .clone 2, .exec 2 (call "d")]
    Possible 0 steps ∧ 3 < handleCount steps ∧
      callsSinceReset (SameFamily steps 3) steps = [call "c", call "d"] ∧
      Possible 0 (steps ++ [.reset 1]) ∧
      (∀ other ∈ (RecorderStep.reset 1).handle?, ¬ SameFamily steps 3 other) ∧
      (run (steps ++ [.reset 1])).calls 3 = (run steps).calls 3 := by
  intro call steps
  have h : Possible 0 steps := by decide
  have hreset : Possible 0 (steps ++ [.reset 1]) := by decide
  have hcount : 3 < handleCount steps := by decide
  have hother : ∀ other ∈ (RecorderStep.reset 1).handle?, ¬ SameFamily steps 3 other := by
    rintro _ ⟨⟩
    exact (sameFamily_iff h hcount (by decide)).not.2 (by decide)
  obtain ⟨hcalls, -, hframe⟩ := reports_own_family h hcount
  exact ⟨h, hcount, hcalls.symm.trans rfl, hreset, hother, (hframe _ hreset hother).1⟩

end Recorders
end SchemaExtraction
