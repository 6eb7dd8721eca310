import SchemaExtraction.Extraction.Builtin
import SchemaExtraction.Proofs.Extraction.Run
import SchemaExtraction.Proofs.Schema.Throughout

/-!
# Sound schemas

Whether an extraction from structured documents can fail is seen from the schema alone. A schema is
sound if it has steps in its scope, if each of its steps reads one thing, a reference path or a
selector, if replacements are told what to replace, and if all schemas nested in it are sound.

Results:
* `Registry.exec_succeeds`: built-in filters fail on no record, unknown filters being passed over,
  if replacements are told what to replace.
* `Structured.resolve_succeeds`: a step that reads one thing has a value on every document.
* `Extractor.exec_of_sound`: no extraction for a sound schema fails.
-/

namespace SchemaExtraction

/-! ## Soundness -/

/-- A replacement is told what to replace. -/
def FilterUse.Sound (u : FilterUse) : Prop :=
  u.id = "filter.replace" → ∃ pattern, u.options.bind (·.get? "pattern") = some (.str pattern)

/-- A step reads one thing, and its filters are sound. -/
structure Step.Sound (s : Step) : Prop where
  source : s.reference.isSome ≠ s.selector.isSome
  filters : ∀ u ∈ s.filters, u.Sound

namespace Step.Sound

theorem ofSelector (selector : String) : (Step.ofSelector selector).Sound :=
  ⟨by simp [Step.ofSelector, Step.blank], by simp [Step.ofSelector, Step.blank]⟩

theorem ofReference (path : String) : (Step.ofReference path).Sound :=
  ⟨by simp [Step.ofReference, Step.blank], by simp [Step.ofReference, Step.blank]⟩

theorem withFilter {s : Step} (h : s.Sound) {use : FilterUse} (hu : use.Sound) :
    (s.withFilter use).Sound := by
  refine ⟨h.source, fun u hm => ?_⟩
  rcases List.mem_append.1 hm with hm | hm
  · exact h.filters u hm
  · exact List.mem_singleton.1 hm ▸ hu

end Step.Sound

/-- Every scope has a step, and all steps are sound. -/
def Schema.Sound : Schema → Prop :=
  Schema.Throughout (fun scope => scope ≠ [] ∧ ∀ s ∈ scope, s.Sound) fun chain =>
    ∀ s ∈ chain, s.Sound

/-! ## Filters -/

namespace Filter

/-- A filter that gives a value whatever it is applied to. -/
def IsTotal (f : Filter) : Prop := ∀ v context, ∃ w, f v context = .ok w

/-- Of the built-in filters only the replacement can fail. -/
theorem isTotal_of_mem_builtins {id : String} {f : Filter} (h : (id, f) ∈ builtins) :
    f.IsTotal ∨ id = "filter.replace" ∧ f = replace := by
  simp only [builtins, List.mem_cons, Prod.mk.injEq, List.not_mem_nil, or_false] at h
  rcases h with ⟨-, rfl⟩ | ⟨-, rfl⟩ | ⟨-, rfl⟩ | ⟨-, rfl⟩ | ⟨-, rfl⟩ | ⟨-, rfl⟩ | ⟨-, rfl⟩ |
    ⟨-, rfl⟩ | hr | ⟨-, rfl⟩ | ⟨-, rfl⟩
  case inr.inr.inr.inr.inr.inr.inr.inr.inl => exact Or.inr hr
  all_goals exact Or.inl fun v context => ⟨_, rfl⟩

theorem replace_succeeds {context : FilterContext} {pattern : String}
    (h : context.options.bind (·.get? "pattern") = some (.str pattern)) (v : Value) :
    ∃ w, replace v context = .ok w := by
  have ho : (option? context "pattern").bind Value.text? = some pattern := by
    rw [option?, h]
    rfl
  exact ⟨_, by rw [replace, ho]⟩

end Filter

namespace Registry

/-- The built-in filters, unknown ones being passed over. -/
theorem applyUse_succeeds {u : FilterUse} (hu : u.Sound) (reference v : Value) :
    ∃ w, (withBuiltins false).applyUse reference v u = .ok w := by
  rw [applyUse]
  cases hf : Entries.get? u.id (withBuiltins false).filters with
  | none => exact ⟨v, rfl⟩
  | some f =>
    have hm : (u.id, f) ∈ Filter.builtins := by
      rcases Entries.mem_insertAll (Entries.mem_of_get? hf) with h | h
      · cases h
      · exact h
    rcases Filter.isTotal_of_mem_builtins hm with ht | ⟨hid, rfl⟩
    · exact ht v _
    · obtain ⟨pattern, hp⟩ := hu hid
      exact Filter.replace_succeeds hp v

variable {uses : List FilterUse} (hu : ∀ u ∈ uses, u.Sound)
include hu

theorem applyAll_succeeds (reference v : Value) :
    ∃ w, (withBuiltins false).applyAll reference v uses = .ok w := by
  induction uses generalizing v with
  | nil => exact ⟨v, rfl⟩
  | cons u uses ih =>
    obtain ⟨w, hw⟩ := applyUse_succeeds (hu u (by simp)) reference v
    rw [applyAll, hw]
    exact ih (fun u' hu' => hu u' (by simp [hu'])) w

theorem apply_succeeds (reference v : Value) :
    ∃ w, (withBuiltins false).apply v uses reference = .ok w :=
  applyAll_succeeds (fun u h => hu u (List.mem_mergeSort.1 h)) reference v

omit hu

theorem filterEntries_succeeds {uses : List (String × List FilterUse)}
    (hu : ∀ e ∈ uses, ∀ u ∈ e.2, u.Sound) (reference : Value) (entries : List (String × Value)) :
    ∃ es, (withBuiltins false).filterEntries reference entries uses = .ok es := by
  induction uses generalizing entries with
  | nil => exact ⟨entries, rfl⟩
  | cons e rest ih =>
    obtain ⟨field, uses⟩ := e
    obtain ⟨w, hw⟩ := apply_succeeds (hu (field, uses) (by simp)) reference
      ((Entries.get? field entries).getD .null)
    rw [filterEntries, hw]
    exact ih (fun e he => hu e (by simp [he])) _

/-- No record fails. -/
theorem exec_succeeds {request : FilterRequest} (hu : ∀ e ∈ request.uses, ∀ u ∈ e.2, u.Sound)
    (records : List Value) : ∃ vs, (withBuiltins false).exec request records = .ok vs := by
  induction records with
  | nil => exact ⟨[], rfl⟩
  | cons v records ih =>
    obtain ⟨ws, hws⟩ := ih
    have hv : ∃ w, (withBuiltins false).filterRecord request v = .ok w := by
      cases v with
      | obj entries =>
        obtain ⟨es, hes⟩ := filterEntries_succeeds hu request.reference entries
        exact ⟨.obj es, by rw [filterRecord, hes]; rfl⟩
      | _ => exact ⟨_, rfl⟩
    obtain ⟨w, hw⟩ := hv
    exact ⟨w :: ws, by rw [exec, hw, hws]; rfl⟩

end Registry

/-! ## Steps -/

theorem Engine.plan_succeeds {step : Step} (hs : step.Sound) (name : String)
    (document reference : Value) : ∃ plan, Engine.plan name document step reference = .ok plan := by
  have hsource := hs.source
  unfold Engine.plan
  cases hr : step.reference <;> cases hl : step.selector
  case none.none | some.some => simp [hr, hl] at hsource
  all_goals exact ⟨_, rfl⟩

theorem Structured.resolve_succeeds {step : Step} (hs : step.Sound) (document reference : Value) :
    ∃ v, Structured.resolve document step reference = .ok v := by
  obtain ⟨plan, hp⟩ := Engine.plan_succeeds hs Structured.name document reference
  rw [Structured.resolve, hp]
  split
  · cases plan <;> exact ⟨_, rfl⟩
  · exact ⟨_, rfl⟩

/-! ## Runs -/

namespace Run

variable {σ α β : Type}

/-- A part gives a value from whatever state it is run. -/
def Succeeds (p : Run σ α) : Prop := ∀ s, ∃ a, p.outcome s = .ok a

theorem Succeeds.pure (a : α) : Succeeds (pure a : Run σ α) := fun _ => ⟨a, rfl⟩

theorem Succeeds.bind {p : Run σ α} {f : α → Run σ β} (hp : Succeeds p)
    (hf : ∀ a, Succeeds (f a)) : Succeeds (p >>= f) := by
  intro s
  obtain ⟨a, ha⟩ := hp s
  obtain ⟨b, hb⟩ := hf a (p.after s)
  exact ⟨b, by rw [(bind_of_ok ha).1, hb]⟩

theorem Succeeds.mapM {f : α → Run σ β} (hf : ∀ a, Succeeds (f a)) (as : List α) :
    Succeeds (as.mapM f) := by
  induction as with
  | nil => exact Succeeds.pure []
  | cons a as ih =>
    rw [List.mapM_cons]
    exact (hf a).bind fun b => ih.bind fun bs => Succeeds.pure (b :: bs)

/-- A collaborator without state that answers with a value. -/
theorem Succeeds.lift {ε : Type} (wrap : ε → ExtractionError) {answer : Except ε α}
    (h : ∃ a, answer = .ok a) :
    Succeeds (Extractor.lift wrap (Pure.pure answer) : Run σ α) := by
  obtain ⟨a, rfl⟩ := h
  exact fun s => ⟨a, rfl⟩

end Run

/-! ## Extraction -/

namespace Extractor

variable {σ : Type} {x : Extractor (StateM σ)}
  (hx : x.pipeline = (Registry.withBuiltins false).pipeline)
include hx

theorem evalStep_succeeds (document reference : Value) {step : Step} (hs : step.Sound) :
    Run.Succeeds (x.evalStep Structured.engine document reference step) := by
  refine Run.Succeeds.bind
    (Run.Succeeds.lift _ (Structured.resolve_succeeds hs document reference)) fun v => ?_
  split
  · exact Run.Succeeds.pure v
  · refine Run.Succeeds.bind ?_ fun records => Run.Succeeds.pure _
    rw [hx]
    refine Run.Succeeds.lift _ (Registry.exec_succeeds ?_ _)
    rintro e he
    cases List.mem_singleton.1 he
    exact hs.filters

theorem foldSteps_succeeds (document reference acc : Value) {chain : List Step}
    (hs : ∀ s ∈ chain, s.Sound) :
    Run.Succeeds (x.foldSteps Structured.engine document reference acc chain) := by
  induction chain generalizing acc with
  | nil => exact Run.Succeeds.pure acc
  | cons step steps ih =>
    refine Run.Succeeds.bind (evalStep_succeeds hx document reference (hs step (by simp))) ?_
    exact fun v => ih _ fun s h => hs s (by simp [h])

theorem evalLeaves_succeeds (element reference : Value) {fields : List (String × Field Schema)}
    (hs : ∀ name chain, (name, Field.steps chain) ∈ fields → ∀ s ∈ chain, s.Sound) :
    Run.Succeeds (x.evalLeaves Structured.engine element reference fields) := by
  induction fields with
  | nil => exact Run.Succeeds.pure []
  | cons field fields ih =>
    have hs' name chain (h : (name, Field.steps chain) ∈ fields) := hs name chain (by simp [h])
    obtain ⟨name, chain | child⟩ := field
    · refine Run.Succeeds.bind (foldSteps_succeeds hx element reference _ (hs name chain ?_)) ?_
      · simp
      · exact fun v => (ih hs').bind fun leaves => Run.Succeeds.pure _
    · exact ih hs'

omit hx

mutual

theorem extract_succeeds (hx : x.pipeline = (Registry.withBuiltins false).pipeline)
    (document : Value) (reference : List (String × Value)) {schema : Schema}
    (hs : schema.Sound) : Run.Succeeds (x.extract Structured.engine document reference schema) := by
  obtain ⟨scope, merged, fields⟩ := schema
  cases hd : document.truthy with
  | false =>
    rw [extract_absent x _ hd]
    exact Run.Succeeds.pure _
  | true =>
    match scope with
    | none | some [] => exact absurd rfl hs.scope.1
    | some (step :: steps) =>
      rw [extract_scoped x _ hd]
      refine Run.Succeeds.bind (foldSteps_succeeds hx _ _ _ hs.scope.2) fun resolved => ?_
      refine Run.Succeeds.bind (Run.Succeeds.mapM (fun element => ?_) _) fun records =>
        Run.Succeeds.pure _
      have hl := evalLeaves_succeeds hx element (.obj reference)
        fun _ _ => Schema.Throughout.chain hs
      refine Run.Succeeds.bind hl fun leaves => ?_
      have hc := extractChildren_succeeds hx element (childReference reference leaves)
        fun _ _ => Schema.Throughout.child hs
      exact Run.Succeeds.bind hc fun children => Run.Succeeds.pure _

theorem extractChildren_succeeds (hx : x.pipeline = (Registry.withBuiltins false).pipeline)
    (element : Value) (reference : List (String × Value)) {fields : List (String × Field Schema)}
    (hs : ∀ name child, (name, Field.nested child) ∈ fields → child.Sound) :
    Run.Succeeds (x.extractChildren Structured.engine element reference fields) := by
  match fields with
  | [] => exact Run.Succeeds.pure []
  | (name, .steps chain) :: fields =>
    have hs' name child (hc : (name, Field.nested child) ∈ fields) := hs name child (by simp [hc])
    have ih := extractChildren_succeeds hx element reference hs'
    exact ih
  | (name, .nested schema) :: fields =>
    have hs' name child (hc : (name, Field.nested child) ∈ fields) := hs name child (by simp [hc])
    have ih := extractChildren_succeeds hx element reference hs'
    refine Run.Succeeds.bind (extract_succeeds hx element reference (hs name schema (by simp))) ?_
    exact fun v => ih.bind fun children => Run.Succeeds.pure _

end

/-- With the engine for structured documents and the built-in filters, unknown filters being passed
    over, serving a request for a sound schema gives a result on every document. -/
theorem exec_of_sound (hx : x.pipeline = (Registry.withBuiltins false).pipeline) {schema : Schema}
    (hs : schema.Sound) (document reference : Value) {choice : Option (EngineChoice (StateM σ))}
    (he : x.engines.select document choice = Structured.engine) (s : σ) :
    ∃ v, Run.outcome (x.exec document ⟨some schema, reference, choice⟩) s = .ok v := by
  rw [exec]
  split
  · exact ⟨_, rfl⟩
  · simp only [he]
    exact extract_succeeds hx document _ hs s

/-- Links with their texts tidied up by a replacement and by a filter that nobody knows, and in
    each of them a schema nested in it. -/
def links : Schema :=
  let tidy := FilterUse.withOptions (.new "filter.replace" 0) (.obj [("pattern", .str "-")])
  (Schema.ofScope [.ofSelector "links", .ofReference "more"])
    |>.withSteps "text" [(Step.ofSelector "text").withFilter tidy |>.withFilter (.new "unknown" 1)]
    |>.withNested "parent" ((Schema.ofScope [.root]).withSteps "text" [.ofReference "$parent.text"])

theorem links_sound : links.Sound := by
  have tidy : FilterUse.Sound <| .withOptions (.new "filter.replace" 0)
      (.obj [("pattern", .str "-")]) := fun _ => ⟨"-", rfl⟩
  have unknown : FilterUse.Sound (.new "unknown" 1) := fun h => absurd h (by decide)
  have single {s : Step} (h : s.Sound) : ∀ t ∈ [s], t.Sound := by simpa using h
  have text := ((Step.Sound.ofSelector "text").withFilter tidy).withFilter unknown
  have scope : ∀ s ∈ [Step.ofSelector "links", .ofReference "more"], s.Sound := by
    simp [Step.Sound.ofSelector, Step.Sound.ofReference]
  have nested : Schema.Sound ((Schema.ofScope [.root]).withSteps "text" [.ofReference _]) :=
    (Schema.Throughout.ofScope ⟨by simp, single (.ofSelector _)⟩).withSteps _
      (single (.ofReference "$parent.text"))
  exact ((Schema.Throughout.ofScope ⟨by simp, scope⟩).withSteps _ (single text)).withNested _ nested

/-- Links of a document, one of them a text that the schema nested in it cannot read. -/
theorem exec_of_sound_links :
    let x : Extractor (StateM Unit) := builtin .standard
    let document := Value.obj [("links", .arr [.obj [("text", .str "a-b")], .str "c"])]
    links.Sound ∧ x.engines.select document none = Structured.engine ∧
      ∃ v, Run.outcome (x.exec document ⟨some links, .null, none⟩) () = .ok v := by
  intro x document
  have he : x.engines.select document none = Structured.engine := rfl
  exact ⟨links_sound, he, exec_of_sound rfl links_sound document .null he ()⟩

end Extractor
end SchemaExtraction
