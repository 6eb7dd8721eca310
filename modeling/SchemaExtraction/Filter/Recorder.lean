import SchemaExtraction.Filter.Basic

/-!
# Recording pipelines

A recording pipeline returns the records that it is given and keeps every request. It is used
through handles; the handles that were made from one another share one log.

Results:
* `Recorders.calls_record`: a call that is noted comes after the earlier ones.
-/

namespace SchemaExtraction

/-- One request to a pipeline. -/
structure FilterCall where
  records : List Value
  request : FilterRequest
deriving DecidableEq

/-- The logs, and for each handle the place of its log. -/
structure Recorders where
  logs : List (List FilterCall)
  handles : List Nat
deriving DecidableEq

namespace Recorders

/-- One recording pipeline with one handle. -/
def new : Recorders := ⟨[[]], [0]⟩

/-- The place of the log of a handle. -/
def family (rs : Recorders) (handle : Nat) : Nat := rs.handles.getD handle rs.logs.length

/-- The calls through the handles of a family since its last reset. -/
def calls (rs : Recorders) (handle : Nat) : List FilterCall := rs.logs.getD (rs.family handle) []

/-- The number of those calls. -/
def count (rs : Recorders) (handle : Nat) : Nat := (rs.calls handle).length

/-- Notes a call. -/
def record (rs : Recorders) (handle : Nat) (call : FilterCall) : Recorders :=
  { rs with logs := rs.logs.modify (rs.family handle) (· ++ [call]) }

/-- Forgets the calls of a family. -/
def reset (rs : Recorders) (handle : Nat) : Recorders :=
  { rs with logs := rs.logs.modify (rs.family handle) fun _ => [] }

/-- Adds a handle of the same family. -/
def clone (rs : Recorders) (handle : Nat) : Recorders :=
  { rs with handles := rs.handles ++ [rs.family handle] }

/-- Adds a recording pipeline with a handle of its own. -/
def add (rs : Recorders) : Recorders :=
  { logs := rs.logs ++ [[]], handles := rs.handles ++ [rs.logs.length] }

/-! ## Handles in use -/

/-- Whether a handle has a log. -/
def InUse (rs : Recorders) (handle : Nat) : Prop := rs.family handle < rs.logs.length

instance (rs : Recorders) (handle : Nat) : Decidable (rs.InUse handle) :=
  inferInstanceAs (Decidable (_ < _))

/-- Calls do not change which handles belong together. -/
theorem family_record (rs : Recorders) (handle : Nat) (call : FilterCall) (handle' : Nat) :
    (rs.record handle call).family handle' = rs.family handle' := by
  rw [family, family, record, List.length_modify]

theorem inUse_record {rs : Recorders} {handle : Nat} (h : rs.InUse handle) (handle' : Nat)
    (call : FilterCall) : (rs.record handle' call).InUse handle := by
  rw [InUse, family_record, record, List.length_modify]
  exact h

theorem calls_record {rs : Recorders} {handle : Nat} (h : rs.InUse handle) (call : FilterCall) :
    (rs.record handle call).calls handle = rs.calls handle ++ [call] := by
  rw [calls, calls, family_record, record, List.getD_eq_getElem?_getD, List.getD_eq_getElem?_getD,
    List.getElem?_modify_eq, List.getElem?_eq_getElem h]
  rfl

end Recorders
end SchemaExtraction
