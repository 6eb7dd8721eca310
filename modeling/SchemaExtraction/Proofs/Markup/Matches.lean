import SchemaExtraction.Markup.Selector.Basic
import SchemaExtraction.Proofs.Markup.WrittenPage

/-!
# Matches in a page of one element

A compound of names, identifiers, classes and attributes asks for nothing around an element or in
it. What it matches in an element and inside of it can be counted among the elements alone, and so
it has the same number of matches in the page that is read when the element has been written.

Results:
* `matches_plain`: what a compound without positions and chains depends on.
* `Forest.countP_places`, `Forest.countP_enclosed`: counting places by their elements.
* `length_select_outer`: the matches in the page of a written element.
-/

namespace SchemaExtraction.Markup

/-! ## Matching by the element alone -/

/-- Tests for the name, an identifier, a class or an attribute. -/
def Simple.isPlain : Simple → Bool
  | .type _ | .id _ | .ofClass _ | .attribute _ => true
  | _ => false

/-- A place without anything around or in it. -/
def Place.lone (e : Element) : Place := .at e .nil .nil .nowhere .nowhere

/-- Whether a compound matches an element wherever it stands. -/
def Element.passes (compound : List Simple) (e : Element) : Bool := holdsAll compound (.lone e)

theorem Simple.holds_plain {s : Simple} (hs : s.isPlain = true) (e : Element)
    (content after : Forest) (previous parent : Place) :
    s.holds (.at e content after previous parent) = s.holds (.lone e) := by
  cases s <;> first | rfl | cases hs

theorem holdsAll_plain {compound : List Simple} (hc : ∀ s ∈ compound, s.isPlain = true)
    (e : Element) (content after : Forest) (previous parent : Place) :
    holdsAll compound (.at e content after previous parent) = e.passes compound := by
  induction compound with
  | nil => rfl
  | cons s compound ih =>
    rw [holdsAll, Simple.holds_plain (hc s (by simp)), ih fun s hs => hc s (by simp [hs])]
    rfl

theorem matches_plain {compound : List Simple} (hc : ∀ s ∈ compound, s.isPlain = true)
    (e : Element) (content after : Forest) (previous parent : Place) :
    Group.matches [.mk compound []] (.at e content after previous parent) = e.passes compound := by
  rw [Group.matches, Group.matches, Complex.matches, follow, holdsAll_plain hc, Bool.and_true,
    Bool.or_false]

theorem Element.passes_type {name : String} {tests : List Simple} {e : Element}
    (he : e.name ≠ nameIn e.vocabulary name) : e.passes (.type name :: tests) = false := by
  rw [Element.passes, holdsAll, Place.lone, Simple.holds, decide_eq_false he, Bool.false_and]

variable {t : Place → Bool} {t' : Element → Bool}

theorem Forest.countP_places
    (ht : ∀ e content after previous parent, t (.at e content after previous parent) = t' e)
    (f : Forest) (parent previous : Place) :
    (f.places parent previous).countP t = f.elements.countP t' := by
  induction f generalizing parent previous with
  | nil => rfl
  | leaf l next ih => exact ih parent previous
  | element e content next ihc ih =>
    simp only [places, elements, List.countP_cons, List.countP_append, ihc, ih, ht]
  | fragment content next ihc ih =>
    simp only [places, elements, List.countP_append, ihc, ih]

theorem Forest.countP_enclosed
    (ht : ∀ e content after previous parent, t (.at e content after previous parent) = t' e)
    {f : Forest} {outer : List Element} (hf : f.isRegular outer = true) (parent previous : Place) :
    (f.enclosed parent previous).countP t = f.elements.countP t' := by
  induction f generalizing outer parent previous with
  | nil => rfl
  | leaf l next ih =>
    rw [isRegular, Bool.and_eq_true] at hf
    exact ih hf.2 parent previous
  | element e content next ihc ih =>
    simp only [isRegular, Bool.and_eq_true] at hf
    obtain ⟨⟨-, hcontent⟩, hnext⟩ := hf
    have hc (parent previous : Place) :
        (content.enclosed parent previous).countP t = content.elements.countP t' := by
      split_ifs at hcontent
      · rw [of_decide_eq_true hcontent]
        rfl
      · exact ihc hcontent parent previous
    simp only [enclosed, elements, List.countP_cons, List.countP_append, hc, ih hnext, ht]
  | fragment content next => cases hf

/-! ## The element of a record -/

/-- Whether an element and its content are read as they are written. -/
def Place.isRegular : Place → Bool
  | .at e content _ _ _ => (Forest.element e content .nil).isRegular body
  | _ => false

/-- The number of elements that a list of selectors matches among an element and those inside. -/
def Place.count (g : Group) (p : Place) : Nat := (p :: p.descendants).countP (Group.matches g)

/-- The names of the elements that every page has. -/
def commonNames : List String := ["html", "head", "body"]

/-- A regular element that is written as a page of its own has the same matches in it. -/
theorem length_select_outer {name : String} {tests : List Simple}
    (hn : nameIn .html name ∉ commonNames) (ht : ∀ s ∈ tests, s.isPlain = true)
    {p : Place} (hp : p.isRegular = true) :
    ((Page.parse (String.ofList p.outer)).select [.mk (.type name :: tests) []]).length =
      p.count [.mk (.type name :: tests) []] := by
  have hplain : ∀ s ∈ Simple.type name :: tests, s.isPlain = true := by
    exact List.forall_mem_cons.2 ⟨rfl, ht⟩
  have hm := matches_plain hplain
  cases p with
  | nowhere => cases hp
  | document => cases hp
  | «at» e content after previous parent =>
    have hcontent : content.isRegular (e :: body) = true ∨ content = .nil := by
      simp only [Place.isRegular, Forest.isRegular, Bool.and_eq_true] at hp
      obtain ⟨⟨-, hc⟩, -⟩ := hp
      split_ifs at hc
      · exact Or.inr (of_decide_eq_true hc)
      · exact Or.inl hc
    -- the elements that the page adds are not matched
    have hbare {n : String} (hn' : n ∈ commonNames) :
        (bare n).passes (.type name :: tests) = false :=
      Element.passes_type fun h => hn (h ▸ hn')
    have henclosed : (content.enclosed (.at e content after previous parent) .nowhere).countP
        (Group.matches [.mk (.type name :: tests) []]) =
        content.elements.countP (Element.passes (.type name :: tests)) := by
      rcases hcontent with hc | rfl
      · exact Forest.countP_enclosed hm hc _ _
      · rfl
    rw [Page.select, ← List.countP_eq_length_filter, Page.places, Forest.countP_places hm,
      Place.outer, (Page.parse_write hp).countP_eq, List.countP_cons, List.countP_cons,
      hbare (by decide), hbare (by decide), Place.count, Place.descendants, List.countP_cons,
      List.countP_cons, henclosed, hm]
    rfl

end SchemaExtraction.Markup
