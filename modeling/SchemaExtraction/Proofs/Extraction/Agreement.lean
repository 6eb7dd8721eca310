import SchemaExtraction.Proofs.Extraction.Run
import SchemaExtraction.Proofs.Extraction.Simulation

/-!
# Extractions that agree

Two extractors over collaborators with different states are compared, where every call is answered
before the next one is made: they agree if they give the same values and leave related states.

Results:
* `Run.Agrees.bind`, `Run.Agrees.inOrder`: parts that are put together agree if each of them does.
* `Run.simulation`: agreement is a simulation.
-/

namespace SchemaExtraction

variable {σ τ α β : Type}

namespace Run

variable {rel : σ → τ → Prop}

/-- Two parts that are run from related states give the same value or fail with the same error, and
    leave related states. -/
def Agrees (rel : σ → τ → Prop) (p : Run σ α) (q : Run τ α) : Prop :=
  ∀ s t, rel s t → p.outcome s = q.outcome t ∧ rel (p.after s) (q.after t)

namespace Agrees

theorem pure (a : α) : Agrees rel (pure a) (pure a) := fun _ _ h => ⟨rfl, h⟩

theorem throw (e : ExtractionError) : Agrees rel (throw e : Run σ α) (throw e) :=
  fun _ _ h => ⟨rfl, h⟩

theorem bind {p : Run σ α} {q : Run τ α} {f : α → Run σ β} {g : α → Run τ β}
    (h : Agrees rel p q) (hf : ∀ a, Agrees rel (f a) (g a)) :
    Agrees rel (p >>= f) (q >>= g) := by
  intro s t hr
  obtain ⟨ho, hs⟩ := h s t hr
  cases hp : p.outcome s with
  | error e =>
    rw [hp] at ho
    rw [(bind_of_error hp).1, (bind_of_error hp).2, (bind_of_error ho.symm).1,
      (bind_of_error ho.symm).2]
    exact ⟨rfl, hs⟩
  | ok a =>
    rw [hp] at ho
    rw [(bind_of_ok hp).1, (bind_of_ok hp).2, (bind_of_ok ho.symm).1, (bind_of_ok ho.symm).2]
    exact hf a _ _ hs

theorem inOrder {tasks : List (Run σ α)} {tasks' : List (Run τ α)}
    (h : List.Forall₂ (Agrees rel) tasks tasks') :
    Agrees rel (inOrder tasks) (inOrder tasks') := by
  induction h with
  | nil => exact pure []
  | cons hp _ ih => exact bind hp fun a => bind ih fun as => pure (a :: as)

end Agrees

/-- Agreement from related states, whatever may be under way at a time. -/
def simulation (rel : σ → τ → Prop) (limit limit' : Nat) :
    Simulation (StateM σ) (StateM τ) limit limit' where
  rel := Agrees rel
  pure := Agrees.pure
  throw := Agrees.throw
  bind := Agrees.bind
  buffered := Agrees.inOrder

end Run

end SchemaExtraction
