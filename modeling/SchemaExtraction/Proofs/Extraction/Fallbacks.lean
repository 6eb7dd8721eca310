import SchemaExtraction.Extraction.Builtin
import SchemaExtraction.Proofs.Extraction.Run

/-!
# Fallbacks

A fallback counts when the chain has nothing. All steps of a chain are evaluated, also the fallbacks
that do not count, and the first step goes through the same combination as any other, with null
for the value so far. What is left of this in a chain of fallbacks is a choice from the values of
its steps.

Results:
* `Extractor.foldSteps_append`: the steps of two chains, one after the other.
* `Extractor.foldSteps_fallbacks`: fallbacks from the value so far.
* `Extractor.evalChain_fallbacks`: the value of a chain of fallbacks, and of any chain with
  fallbacks behind it.
-/

namespace SchemaExtraction

/-- The first of some values that counts as present, and the last one if none does. -/
def firstPresent (v : Value) (values : List Value) : Value :=
  ((v :: values).find? Value.truthy).getD (values.getLastD v)

theorem firstPresent_of_truthy {v : Value} (h : v.truthy = true) (values : List Value) :
    firstPresent v values = v := by
  simp [firstPresent, h]

theorem firstPresent_of_absent {v : Value} (h : v.truthy = false) (w : Value)
    (values : List Value) : firstPresent v (w :: values) = firstPresent w values := by
  rw [firstPresent, firstPresent, List.getLastD_cons, List.find?_cons_of_neg (by simp [h])]

theorem firstPresent_nil (v : Value) : firstPresent v [] = v := by
  cases h : v.truthy <;> simp [firstPresent, h]

namespace Extractor

/-- A fallback chooses between the value so far and its own. -/
theorem firstPresent_accumulate {step : Step} (h : step.fallback = true) (acc v : Value)
    (values : List Value) :
    firstPresent (accumulate acc step v) values = firstPresent acc (v :: values) := by
  cases ha : acc.truthy with
  | true => rw [accumulate_fallback ha h, firstPresent_of_truthy ha, firstPresent_of_truthy ha]
  | false => rw [accumulate_of_absent ha, firstPresent_of_absent ha]

variable {σ : Type} (x : Extractor (StateM σ)) (engine : Engine (StateM σ))
  (document reference : Value)

theorem foldSteps_append (acc : Value) (chain rest : List Step) :
    x.foldSteps engine document reference acc (chain ++ rest) = (do
      let v ← x.foldSteps engine document reference acc chain
      x.foldSteps engine document reference v rest : Run σ Value) := by
  induction chain generalizing acc with
  | nil => rfl
  | cons step steps ih =>
    rw [List.cons_append, foldSteps, foldSteps, bind_assoc]
    exact bind_congr fun v => ih (accumulate acc step v)

/-- The value so far comes before the values of the fallbacks. -/
theorem foldSteps_fallbacks (acc : Value) {chain : List Step}
    (h : ∀ step ∈ chain, step.fallback = true) :
    x.foldSteps engine document reference acc chain = (do
      let values ← chain.mapM (x.evalStep engine document reference)
      return firstPresent acc values : Run σ Value) := by
  induction chain generalizing acc with
  | nil => rw [List.mapM_nil, pure_bind, firstPresent_nil, foldSteps]
  | cons step steps ih =>
    have hs := h step (by simp)
    rw [foldSteps, List.mapM_cons, bind_assoc]
    refine bind_congr fun v => ?_
    rw [ih _ fun s hm => h s (by simp [hm]), bind_assoc]
    simp only [firstPresent_accumulate hs, pure_bind]

/-- In a chain in which every step but the first one is a fallback, the value is that of the first
    step that has a value, as it is, and that of the last step if none has. A chain that has a
    value keeps it when fallbacks are added behind it, although these are evaluated as well. -/
theorem evalChain_fallbacks :
    (∀ first rest, (∀ step ∈ rest, step.fallback = true) →
      x.evalChain engine document reference (first :: rest) = (do
        let v ← x.evalStep engine document reference first
        let values ← rest.mapM (x.evalStep engine document reference)
        return firstPresent v values : Run σ Value)) ∧
    ∀ chain fallbacks s v, (∀ step ∈ fallbacks, step.fallback = true) →
      Run.outcome (x.evalChain engine document reference chain) s = .ok v → v.truthy = true →
      Run.outcome (x.evalChain engine document reference (chain ++ fallbacks)) s =
        (Run.outcome (fallbacks.mapM (x.evalStep engine document reference))
          (Run.after (x.evalChain engine document reference chain) s)).map fun _ => v := by
  constructor
  · intro first rest h
    have hrest (v : Value) := x.foldSteps_fallbacks engine document reference v h
    simp only [evalChain, foldSteps, accumulate_null, hrest]
  · intro chain fallbacks s v h hv ht
    -- from a value that counts as present no fallback is chosen
    have hkept := x.foldSteps_fallbacks engine document reference v h
    simp only [firstPresent_of_truthy ht] at hkept
    calc
      Run.outcome (x.evalChain engine document reference (chain ++ fallbacks)) s =
          Run.outcome (x.foldSteps engine document reference v fallbacks)
            (Run.after (x.evalChain engine document reference chain) s) := by
        rw [evalChain, foldSteps_append]
        exact (Run.bind_of_ok hv).1
      _ = _ := by
        rw [hkept]
        exact Run.outcome_bind_pure _ _ _

/-- The number of comments is missing and so is read from the other place, as the text that stands
    there. The name is read as well, but does not count. -/
theorem evalChain_fallbacks_count :
    let x : Extractor (StateM Unit) := builtin .standard
    let row := Value.obj [("comment_count", .str "4"), ("name", .str "b")]
    let eval := x.evalStep Structured.engine row .null
    let value chain := Run.outcome (x.evalChain Structured.engine row .null chain) ()
    let comments := (Step.ofSelector "comments").withFilter (.new "filter.toNumber" 1)
    let fallback (selector : String) := (Step.ofSelector selector).asFallback
    let chain := [comments, fallback "comment_count"]
    Run.outcome (chain.mapM eval) () = .ok [.null, .str "4"] ∧
      (∀ selector, ∀ step ∈ [fallback selector], step.fallback = true) ∧
      value chain = .ok (.str "4") ∧ value [comments, fallback "comments"] = .ok .null ∧
      Value.truthy (.str "4") = true ∧ value (chain ++ [fallback "name"]) = .ok (.str "4") := by
  intro x row eval value comments fallback chain
  obtain ⟨hfirst, hlast⟩ := evalChain_fallbacks x Structured.engine row .null
  have hf (selector : String) : ∀ step ∈ [fallback selector], step.fallback = true := by
    simp [fallback, Step.asFallback]
  have hv : value chain = .ok (.str "4") :=
    (congrArg (Run.outcome · ()) (hfirst comments _ (hf "comment_count"))).trans
      (by decide +kernel)
  have hnull : value [comments, fallback "comments"] = .ok .null :=
    (congrArg (Run.outcome · ()) (hfirst comments _ (hf "comments"))).trans (by decide +kernel)
  exact ⟨by decide +kernel, hf, hv, hnull, rfl, (hlast chain _ () _ (hf "name") hv rfl).trans rfl⟩

end Extractor
end SchemaExtraction
