import SchemaExtraction.Extraction.Builtin
import SchemaExtraction.Proofs.Extraction.Records
import SchemaExtraction.Proofs.Markup.Matches
import SchemaExtraction.Proofs.Markup.Properties

/-!
# Counts inside the elements of a page

The elements of a scope of a page are handed on as they are written, and a field of their records
reads them as pages of their own. A field that counts matches counts those of the element and of
what is inside of it, as they stand in the page, if the element is read as it is written. Parts of
tables are not: on their own their tags mean nothing.

Results:
* `Markup.resolve_plain`: a step with a selector and nothing that changes the page.
* `Extractor.exec_counts`: the counts in the records of a page.
* `Extractor.exec_loses_cells`: a row of a table whose cells are not counted.
-/

namespace SchemaExtraction

/-! ## Steps -/

/-- A step that only has a selector and maybe a property. -/
structure Step.IsPlain (step : Step) (selector : String) (property : Option String) : Prop where
  reference : step.reference = none
  selector : step.selector = some selector
  unselector : step.unselector = none
  property : step.property = property
  filters : step.filters = []

namespace Markup

theorem resolve_plain {step : Step} {selector : String} {property : Option String}
    (hs : step.IsPlain selector property) {g : Group} (hg : Group.read? selector = some g)
    {text : String} (ht : text ≠ "") (reference : Value) :
    resolve (.str text) step reference = .ok (present ((Page.parse text).select g) property) := by
  have hroot : selector ≠ Reserved.root := fun h => by
    have hr : Group.read? Reserved.root = none := by decide +kernel
    rw [h, hr] at hg
    cases hg
  rw [resolve_selector ht hs.selector hroot hs.reference, select, hs.unselector, readGroup, hg,
    hs.property]
  rfl

end Markup

namespace Extractor

open Markup (Group Simple Page)

variable {σ : Type} (x : Extractor (StateM σ))

theorem returns_step (document reference : Value) {step : Step} (hf : step.filters = []) :
    Run.Returns (x.evalChain Markup.engine document reference [step]) fun v =>
      Markup.resolve document step reference = .ok v := by
  rw [x.evalChain_single _ _ _ hf]
  exact returns_lift_pure _ _

/-- The elements of a scope are its matches as they are written. -/
theorem elementsOf_present {found : List Markup.Place} (h : ∀ p ∈ found, p.outer ≠ []) :
    elementsOf (Markup.present found none) = found.map fun p => .str (String.ofList p.outer) := by
  refine List.filter_eq_self.2 fun v hv => ?_
  obtain ⟨p, hp, rfl⟩ := List.mem_map.1 hv
  simpa [Value.truthy] using h p hp

/-- In every record that comes back for a page, a field that counts the matches of a compound with
    a name has as many as there are in the page among the element and those inside of it, if the
    element is read as it is written. Every match of the scope has a record. -/
theorem exec_counts {scope field : Step} {S F name type : String} {g : Group}
    {tests : List Simple} (hS : Group.read? S = some g)
    (hF : Group.read? F = some [.mk (.type type :: tests) []])
    (hn : Markup.nameIn .html type ∉ Markup.commonNames) (ht : ∀ t ∈ tests, t.isPlain = true)
    (hscope : scope.IsPlain S none) (hfield : field.IsPlain F (some Reserved.length))
    (merged : Bool) {fields : List (String × Field Schema)} (ha : Entries.Ascending fields)
    (hm : (name, Field.steps [field]) ∈ fields) {text : String} (hne : text ≠ "")
    (reference : Value) {choice : Option (EngineChoice (StateM σ))}
    (he : x.engines.select (.str text) choice = Markup.engine) (s : σ) {v : Value}
    (h : Run.outcome (x.exec (.str text) ⟨some ⟨some [scope], merged, fields⟩, reference, choice⟩) s
      = .ok v) :
    ∃ records, v = collect merged records ∧
      records.length = ((Page.parse text).select g).length ∧
      ∀ (i : Nat) p record, ((Page.parse text).select g)[i]? = some p → records[i]? = some record →
        p.isRegular = true → Entries.get? name record =
          some (.ofNat (p.count [.mk (.type type :: tests) []])) := by
  have htruthy : Value.truthy (.str text) = true := by simpa [Value.truthy] using hne
  rw [exec, if_neg (by simp [htruthy])] at h
  simp only [he] at h
  have hleaf (element : Value) (name : String) (chain : List Step)
      (_ : (name, Field.steps chain) ∈ fields) :
      Run.Returns (x.evalChain Markup.engine element (.obj reference.entriesOf) chain) fun v =>
        chain = [field] → Markup.resolve element field (.obj reference.entriesOf) = .ok v := by
    by_cases hc : chain = [field]
    · subst hc
      exact (x.returns_step element _ hfield.filters).mono fun v hv _ => hv
    · exact (Run.Returns.any _).mono fun v _ h => absurd h hc
  obtain ⟨resolved, records, rfl, hr, hrec⟩ :=
    x.returns_extract_scoped Markup.engine ha htruthy merged
      (x.returns_step (.str text) _ hscope.filters) hleaf
      (fun _ _ _ _ _ => Run.Returns.any _) s v h
  rw [Markup.resolve_plain hscope hS hne] at hr
  cases hr
  have houter : ∀ p ∈ (Page.parse text).select g, p.outer ≠ [] := fun p hp =>
    Markup.Forest.outer_ne_nil (List.mem_of_mem_filter hp)
  rw [elementsOf_present houter, List.forall₂_map_left_iff] at hrec
  refine ⟨records, rfl, hrec.length_eq.symm, fun i p record hp hrecord hregular => ?_⟩
  obtain ⟨w, hw, hv⟩ := (at_position hrec hp hrecord).leaf name _ hm
  have hpouter : String.ofList p.outer ≠ "" := by
    simpa using houter p (List.mem_of_getElem? hp)
  have hcount := hv rfl
  rw [Markup.resolve_plain hfield hF hpouter, Markup.present_length,
    Markup.length_select_outer hn ht hregular] at hcount
  rw [hw, Except.ok.inj hcount]

/-- A step that finds cards. -/
def findCards : Step := .ofSelector ".card"

/-- A step that counts blocks. -/
def countBlocks : Step := (Step.ofSelector "div").withProperty Reserved.length

/-- How many blocks each card has. -/
def blocks : Schema := (Schema.ofScope [findCards]).withSteps "n" [countBlocks]

/-- A page with three cards: a block, a section and a block inside the section. -/
def cards : String :=
  "<div class=card>a <b>b</b></div><section class=card><p>c<div><div class='wide card'>d</div>"

/-- A block counts in its own record, and both blocks inside the section in that of the section. -/
theorem exec_counts_cards :
    let x : Extractor (StateM Unit) := builtin .standard
    let g : Group := [.mk [.ofClass "card"] []]
    let h : Group := [.mk [.type "div"] []]
    let v := Value.arr [.obj [("n", .ofNat 1)], .obj [("n", .ofNat 2)], .obj [("n", .ofNat 1)]]
    Group.read? ".card" = some g ∧ Group.read? "div" = some h ∧
      findCards.IsPlain ".card" none ∧ countBlocks.IsPlain "div" (some Reserved.length) ∧
      Entries.Ascending blocks.fields ∧ ("n", Field.steps [countBlocks]) ∈ blocks.fields ∧
      (∀ p ∈ (Page.parse cards).select g, p.isRegular = true) ∧
      Run.outcome (x.exec (.str cards) ⟨some blocks, .null, none⟩) () = .ok v ∧
      ∃ records, v = collect false records ∧
        records.length = ((Page.parse cards).select g).length ∧
        ∀ (i : Nat) p record, ((Page.parse cards).select g)[i]? = some p →
          records[i]? = some record → p.isRegular = true →
          Entries.get? "n" record = some (.ofNat (p.count h)) := by
  intro x g h v
  have hg : Group.read? ".card" = some g := rfl
  have hh : Group.read? "div" = some h := rfl
  have hfind : findCards.IsPlain ".card" none := ⟨rfl, rfl, rfl, rfl, rfl⟩
  have hcount : countBlocks.IsPlain "div" (some Reserved.length) := ⟨rfl, rfl, rfl, rfl, rfl⟩
  have ha : Entries.Ascending blocks.fields := by decide
  have hm : ("n", Field.steps [countBlocks]) ∈ blocks.fields := List.mem_singleton.2 rfl
  have hregular : ∀ p ∈ (Page.parse cards).select g, p.isRegular = true := by
    have hall : ((Page.parse cards).select g).all Markup.Place.isRegular = true := by decide +kernel
    exact List.all_eq_true.1 hall
  have hv : Run.outcome (x.exec (.str cards) ⟨some blocks, .null, none⟩) () = .ok v := by
    decide +kernel
  exact ⟨hg, hh, hfind, hcount, ha, hm, hregular, hv, exec_counts x hg hh (by decide) (by simp)
    hfind hcount false ha hm (by decide) .null rfl () hv⟩

/-- The cells of a row are not counted, because their tags mean nothing outside of a table. -/
theorem exec_loses_cells :
    let x : Extractor (StateM Unit) := builtin .standard
    let schema := (Schema.ofScope [.ofSelector "tr"]).withSteps "n"
      [(Step.ofSelector "td").withProperty Reserved.length]
    let page := "<table><tr><td>1</td><td>2</td></tr></table>"
    let g : Group := [.mk [.type "tr"] []]
    let h : Group := [.mk [.type "td"] []]
    Group.read? "tr" = some g ∧ Group.read? "td" = some h ∧
      ((Page.parse page).select g).map (Markup.Place.count h) = [2] ∧
      Run.outcome (x.exec (.str page) ⟨some schema, .null, none⟩) () =
        .ok (.arr [.obj [("n", .ofNat 0)]]) ∧ Value.ofNat 0 ≠ .ofNat 2 := by
  refine ⟨rfl, rfl, ?_, ?_, ?_⟩
  · decide +kernel
  · decide +kernel
  · decide +kernel

end Extractor
end SchemaExtraction
