import Mathlib.Data.List.Basic
import SchemaExtraction.Engine.Markup

/-!
# Properties of what a step finds

A step with a selector reads its locators, the unselector before the selector, and fails at the
first one that cannot be read. What it finds in a page then, and how it fails, does not depend on
the property that it asks for. The property only says what is shown of the elements that are found:
all of them as they are written, their number, or something of the first one.

Results:
* `select_eq`: what a step with a selector reads, finds and shows.
* `mapM_readGroup_of_faulty`, `exists_mapM_readGroup`: when all locators can be read.
* `resolve_properties`: the values of a step for all properties.
-/

namespace SchemaExtraction.Markup

variable {text selector : String} {step : Step} {reference : Value}

/-- A step with a selector looks for it in the page of a text. -/
theorem resolve_selector (htext : text ≠ "") (hs : step.selector = some selector)
    (hroot : selector ≠ Reserved.root) (hr : step.reference = none) :
    resolve (.str text) step reference =
      Markup.select (Page.parse text) selector step reference := by
  have hplan : Engine.plan name (.str text) step reference = .ok (.select selector) := by
    simp [Engine.plan, hr, hs, Step.isRoot, hroot]
  simp only [resolve, String.isEmpty_iff, htext, hplan, if_false]

/-! ## Reading locators -/

/-- What a step with a selector reads, in that order: its unselector with the placeholders filled
    in, unless that is blank, and its selector. -/
def locators (selector : String) (unselector : Option String) (reference : Value) : List String :=
  ((unselector.map fun template => Template.interpolate template reference).toList.filter
    fun locator => !(Text.trim locator.toList).isEmpty) ++ [selector]

/-- Whether a locator cannot be read. -/
def isFaulty (locator : String) : Bool := (Group.read? locator).isNone

theorem readGroup_of_faulty {locator : String} (h : isFaulty locator = true) :
    readGroup locator = .error (.badSelector locator "not a list of selectors") := by
  rw [isFaulty, Option.isNone_iff_eq_none] at h
  rw [readGroup, h]

theorem exists_readGroup {locator : String} (h : isFaulty locator = false) :
    ∃ group, readGroup locator = .ok group := by
  rw [isFaulty, Option.isNone_eq_false_iff, Option.isSome_iff_exists] at h
  obtain ⟨group, hgroup⟩ := h
  exact ⟨group, by rw [readGroup, hgroup]⟩

/-- Reading several locators fails at the first one that cannot be read. -/
theorem mapM_readGroup_of_faulty {locator : String} {ls : List String}
    (h : ls.find? isFaulty = some locator) :
    ls.mapM readGroup = .error (.badSelector locator "not a list of selectors") := by
  induction ls with
  | nil => cases h
  | cons l ls ih =>
    rw [List.mapM_cons]
    cases hl : isFaulty l with
    | true =>
      rw [List.find?_cons_of_pos hl] at h
      cases h
      rw [readGroup_of_faulty hl]
      rfl
    | false =>
      rw [List.find?_cons_of_neg (by simp [hl])] at h
      obtain ⟨group, hgroup⟩ := exists_readGroup hl
      rw [hgroup, ih h]
      rfl

theorem exists_mapM_readGroup {ls : List String} (h : ∀ l ∈ ls, isFaulty l = false) :
    ∃ groups, ls.mapM readGroup = .ok groups := by
  induction ls with
  | nil => exact ⟨[], rfl⟩
  | cons l ls ih =>
    rw [List.forall_mem_cons] at h
    obtain ⟨group, hgroup⟩ := exists_readGroup h.1
    obtain ⟨groups, hgroups⟩ := ih h.2
    exact ⟨group :: groups, by rw [List.mapM_cons, hgroup, hgroups]; rfl⟩

/-! ## Finding and showing -/

/-- What lists of selectors find in a page: the last one selects from what the ones before it
    leave. -/
def findIn (page : Page) : List Group → List Place
  | [] => []
  | [wanted] => page.select wanted
  | doomed :: rest => findIn (page.remove doomed) rest

/-- A step with a selector reads its locators, and shows what they find. -/
theorem select_eq (page : Page) (selector : String) (step : Step) (reference : Value) :
    Markup.select page selector step reference =
      ((locators selector step.unselector reference).mapM readGroup).map fun groups =>
        present (findIn page groups) step.property := by
  rw [Markup.select]
  cases step.unselector with
  | none =>
    simp only [locators, Option.map_none, Option.toList_none, List.filter_nil, List.nil_append,
      List.mapM_cons, List.mapM_nil]
    cases readGroup selector <;> rfl
  | some template =>
    simp only [locators, Option.map_some, Option.toList_some, Page.unselect]
    cases hblank : (Text.trim (Template.interpolate template reference).toList).isEmpty with
    | true =>
      simp only [↓reduceIte, bind_pure_comp, pure_bind, hblank, Bool.not_true, Bool.false_eq_true,
        not_false_eq_true, List.filter_cons_of_neg, List.filter_nil, List.nil_append,
        List.mapM_cons, List.mapM_nil, map_pure]
      cases readGroup selector <;> rfl
    | false =>
      simp only [Bool.false_eq_true, ↓reduceIte, bind_pure_comp, bind_map_left, hblank,
        Bool.not_false, List.filter_cons_of_pos, List.filter_nil, List.cons_append, List.nil_append,
        List.mapM_cons, List.mapM_nil, map_pure, Functor.map_map]
      cases readGroup (Template.interpolate template reference) with
      | error e => rfl
      | ok doomed => cases readGroup selector <;> rfl

/-- An element is written with its start tag. -/
theorem Forest.outer_ne_nil {f : Forest} {p parent previous : Place}
    (hp : p ∈ f.places parent previous) : p.outer ≠ [] := by
  induction f generalizing parent previous with
  | nil => simp [places] at hp
  | leaf l next ih => exact ih hp
  | element e content next ihc ih =>
    simp only [places, List.mem_cons, List.mem_append] at hp
    rcases hp with rfl | hp | hp
    · exact List.cons_ne_nil _ _
    · exact ihc hp
    · exact ih hp
  | fragment content next ihc ih =>
    simp only [places, List.mem_append] at hp
    rcases hp with hp | hp
    · exact ihc hp
    · exact ih hp

theorem outer_ne_nil_of_mem_findIn {page : Page} {groups : List Group} {p : Place}
    (hp : p ∈ findIn page groups) : p.outer ≠ [] := by
  induction page, groups using findIn.induct with
  | case1 page => cases hp
  | case2 page wanted => exact Forest.outer_ne_nil (List.mem_filter.1 hp).1
  | case3 page doomed rest hrest ih =>
    rw [findIn.eq_3 _ _ _ hrest] at hp
    exact ih hp

/-- Elements as they are written. -/
def written (found : List Place) : List String := found.map fun p => String.ofList p.outer

theorem present_none (found : List Place) :
    present found none = .arr ((written found).map .str) := by
  rw [present, written, List.map_map]
  rfl

theorem present_length (found : List Place) :
    present found (some Reserved.length) = .ofNat found.length := rfl

theorem present_outer (found : List Place) :
    present found (some "outerHTML") = .str ((written found).head?.getD "") := by
  cases found with
  | nil => rfl
  | cons p found => cases p <;> rfl

/-- Any other property than the number is a text, and the empty one if nothing is found. -/
theorem exists_present {property : String} (hp : property ≠ Reserved.length)
    (found : List Place) :
    ∃ content, present found (some property) = .str content ∧
      (written found = [] → content = "") := by
  cases found with
  | nil => exact ⟨"", if_neg hp, fun _ => rfl⟩
  | cons p found =>
    refine ⟨_, (if_neg hp).trans (apply_ite Value.str (property = Reserved.text) _ _).symm, ?_⟩
    exact fun h => absurd h (List.cons_ne_nil _ _)

theorem empty_not_mem_written {found : List Place} (h : ∀ p ∈ found, p.outer ≠ []) :
    "" ∉ written found := by
  intro hmem
  obtain ⟨p, hp, houter⟩ := List.mem_map.1 hmem
  exact h p hp (String.ofList_eq_empty_iff.1 houter)

/-- With every property a step with a selector fails in the same way, at the first locator that
    cannot be read, or it finds the same elements: without a property it gives them as they are
    written, of which none is empty, the length property is their number and the property for the
    written element the first of them. Every other property is a text, and the empty one if there
    is no element. -/
theorem resolve_properties (htext : text ≠ "") (hs : step.selector = some selector)
    (hroot : selector ≠ Reserved.root) (hr : step.reference = none) (reference : Value) :
    let read (property : Option String) : Except StepError Value :=
      resolve (.str text) { step with property := property } reference
    let sought := locators selector step.unselector reference
    (∃ locator reason, sought.find? isFaulty = some locator ∧
      ∀ property, read property = .error (.badSelector locator reason)) ∨
    (∀ locator ∈ sought, isFaulty locator = false) ∧
      ∃ raw : List String, "" ∉ raw ∧
        read none = .ok (.arr (raw.map .str)) ∧
        read (some Reserved.length) = .ok (.ofNat raw.length) ∧
        read (some "outerHTML") = .ok (.str (raw.head?.getD "")) ∧
        ∀ property, property ≠ Reserved.length →
          ∃ content, read (some property) = .ok (.str content) ∧ (raw = [] → content = "") := by
  intro read ls
  have hread (property : Option String) : read property =
      (ls.mapM readGroup).map fun groups => present (findIn (Page.parse text) groups) property := by
    have hselect : read property = Markup.select (Page.parse text) selector
        { step with property := property } reference := resolve_selector htext hs hroot hr
    rw [hselect, select_eq]
  cases hfaulty : ls.find? isFaulty with
  | some locator =>
    refine .inl ⟨locator, "not a list of selectors", rfl, fun property => ?_⟩
    rw [hread, mapM_readGroup_of_faulty hfaulty]
    rfl
  | none =>
    have hsound : ∀ locator ∈ ls, isFaulty locator = false := fun locator hl => by
      simpa using List.find?_eq_none.1 hfaulty locator hl
    obtain ⟨groups, hgroups⟩ := exists_mapM_readGroup hsound
    have hshow (property : Option String) :
        read property = .ok (present (findIn (Page.parse text) groups) property) := by
      rw [hread, hgroups]
      rfl
    refine .inr ⟨hsound, written (findIn (Page.parse text) groups),
      empty_not_mem_written fun p => outer_ne_nil_of_mem_findIn, ?_, ?_, ?_, fun property hp => ?_⟩
    · rw [hshow, present_none]
    · rw [hshow, present_length, written, List.length_map]
    · rw [hshow, present_outer]
    · obtain ⟨content, hcontent, hempty⟩ := exists_present hp (findIn (Page.parse text) groups)
      exact ⟨content, by rw [hshow, hcontent], hempty⟩

/-- Of two links, one has the class that the unselector takes from the reference. -/
theorem resolve_properties_links :
    let text := "<a class=ad>Buy</a><a>b</a><i>c</i>"
    let step := { Step.ofSelector "a" with unselector := some ".${skip}" }
    let reference := Value.obj [("skip", .str "ad")]
    let read (property : Option String) : Except StepError Value :=
      resolve (.str text) { step with property := property } reference
    text ≠ "" ∧ step.selector = some "a" ∧ "a" ≠ Reserved.root ∧ step.reference = none ∧
      read none = .ok (.arr [.str "<a>b</a>"]) ∧ read (some Reserved.length) = .ok (.ofNat 1) ∧
      read (some "outerHTML") = .ok (.str "<a>b</a>") := by
  intro text step reference read
  have htext : text ≠ "" := by decide
  have hs : step.selector = some "a" := rfl
  have hroot : "a" ≠ Reserved.root := by decide
  have hnone : read none = .ok (.arr ((["<a>b</a>"] : List String).map .str)) := by decide +kernel
  obtain ⟨locator, reason, -, hfail⟩ | ⟨-, raw, -, hraw, hlength, houter, -⟩ :=
    resolve_properties htext hs hroot rfl reference
  · cases (hfail none).symm.trans hnone
  · have hfound : raw = ["<a>b</a>"] :=
      List.map_injective_iff.2 (fun _ _ => Value.str.inj)
        (Value.arr.inj (Except.ok.inj (hraw.symm.trans hnone)))
    subst hfound
    exact ⟨htext, hs, hroot, rfl, hnone, hlength, houter⟩

end SchemaExtraction.Markup
