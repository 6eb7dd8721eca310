import Mathlib.Data.List.Forall2
import SchemaExtraction.Engine.Markup
import SchemaExtraction.Proofs.Markup.Removal

/-!
# What is left of a page

Which nodes of a page are left when elements are taken away is said node by node: those that are
not in one of the elements, in document order and each at its depth. As a forest is determined by
its nodes in document order with their depths, this says all about the page that is left, and about
the matches in it: each comes from an element of the page as it was that stays.

Results:
* `Forest.outline_injective`: a forest is determined by its nodes with their depths.
* `Forest.outline_prune`: the nodes that are left.
* `Forest.places_prune`: where the elements of the page that is left come from.
* `Page.remove_exact`: both for the elements that a list of selectors matches.
-/

namespace SchemaExtraction.Markup

/-! ## Nodes in document order -/

/-- A node of a forest. -/
structure Node where
  /-- the number of nodes that it is inside of -/
  depth : Nat
  kind : Kind
  /-- the places of the elements that the node is or is inside of, from the inside out -/
  lineage : List Place

namespace Node

/-- Whether a node is none of some elements and not inside of one. -/
def isSpared (doomed : Place → Bool) (x : Node) : Bool := x.lineage.all fun p => !doomed p

/-- What a node is and how deep it is. -/
def outline (x : Node) : Nat × Kind := (x.depth, x.kind)

/-- The place of an element. -/
def place? (x : Node) : Option Place :=
  match x.kind with
  | .element _ => x.lineage.head?
  | _ => none

end Node

namespace Forest

/-- The nodes of a forest at any depth in document order, `around` being the elements that the
    forest is inside of. -/
def entries (depth : Nat) (around : List Place) (parent previous : Place) : Forest → List Node
  | nil => []
  | leaf l next => ⟨depth, .leaf l, around⟩ :: next.entries depth around parent previous
  | element e content next =>
    let here := Place.at e content next previous parent
    ⟨depth, .element e, here :: around⟩ ::
      (content.entries (depth + 1) (here :: around) here .nowhere ++
        next.entries depth around parent here)
  | fragment content next =>
    ⟨depth, .fragment, around⟩ ::
      (content.entries (depth + 1) around .nowhere .nowhere ++
        next.entries depth around parent previous)

/-- The nodes of a forest at any depth in document order, each with its depth. -/
def outline (depth : Nat) : Forest → List (Nat × Kind)
  | nil => []
  | leaf l next => (depth, .leaf l) :: next.outline depth
  | element e content next =>
    (depth, .element e) :: (content.outline (depth + 1) ++ next.outline depth)
  | fragment content next =>
    (depth, .fragment) :: (content.outline (depth + 1) ++ next.outline depth)

theorem le_depth {depth : Nat} {f : Forest} {x : Nat × Kind} (h : x ∈ f.outline depth) :
    depth ≤ x.1 := by
  induction f generalizing depth with
  | nil => cases h
  | leaf l next ih =>
    rcases List.mem_cons.1 h with rfl | h
    · exact Nat.le_refl _
    · exact ih h
  | element e content next ihc ih =>
    rcases List.mem_cons.1 h with rfl | h
    · exact Nat.le_refl _
    · rcases List.mem_append.1 h with h | h
      · exact Nat.le_of_succ_le (ihc h)
      · exact ih h
  | fragment content next ihc ih =>
    rcases List.mem_cons.1 h with rfl | h
    · exact Nat.le_refl _
    · rcases List.mem_append.1 h with h | h
      · exact Nat.le_of_succ_le (ihc h)
      · exact ih h

/-- What is after a node begins where it is no deeper than the node. -/
theorem takeWhile_outline (depth : Nat) (content next : Forest) :
    (content.outline (depth + 1) ++ next.outline depth).takeWhile (fun x => depth < x.1) =
      content.outline (depth + 1) := by
  have hcontent : ∀ x ∈ content.outline (depth + 1), decide (depth < x.1) = true :=
    fun x hx => decide_eq_true (le_depth hx)
  have hnext : (next.outline depth).takeWhile (fun x => depth < x.1) = [] := by
    cases next <;> simp [outline]
  rw [List.takeWhile_append_of_pos hcontent, hnext, List.append_nil]

theorem eq_of_outline_append {depth : Nat} {content next content' next' : Forest}
    (h : content.outline (depth + 1) ++ next.outline depth =
      content'.outline (depth + 1) ++ next'.outline depth) :
    content.outline (depth + 1) = content'.outline (depth + 1) ∧
      next.outline depth = next'.outline depth := by
  have hc := congrArg (List.takeWhile fun x => depth < x.1) h
  rw [takeWhile_outline, takeWhile_outline] at hc
  exact ⟨hc, List.append_cancel_left (hc ▸ h)⟩

/-- A forest is determined by its nodes in document order with their depths. -/
theorem outline_injective {depth : Nat} {f g : Forest} (h : f.outline depth = g.outline depth) :
    f = g := by
  induction f generalizing depth g with
  | nil => cases g <;> first | rfl | cases h
  | leaf l next ih =>
    cases g with
    | leaf l' next' =>
      obtain ⟨hx, hnext⟩ := List.cons.inj h
      cases hx
      rw [ih hnext]
    | nil => cases h
    | element | fragment => exact nomatch congrArg Prod.snd (List.cons.inj h).1
  | element e content next ihc ih =>
    cases g with
    | element e' content' next' =>
      obtain ⟨hx, hrest⟩ := List.cons.inj h
      cases hx
      obtain ⟨hcontent, hnext⟩ := eq_of_outline_append hrest
      rw [ihc hcontent, ih hnext]
    | nil => cases h
    | leaf | fragment => exact nomatch congrArg Prod.snd (List.cons.inj h).1
  | fragment content next ihc ih =>
    cases g with
    | fragment content' next' =>
      obtain ⟨-, hrest⟩ := List.cons.inj h
      obtain ⟨hcontent, hnext⟩ := eq_of_outline_append hrest
      rw [ihc hcontent, ih hnext]
    | nil => cases h
    | leaf | element => exact nomatch congrArg Prod.snd (List.cons.inj h).1

/-! ## Nodes that are left -/

variable {doomed : Place → Bool}

/-- Whether elements around a forest stay. -/
theorem suffix_lineage {depth : Nat} {around : List Place} {parent previous : Place} {f : Forest}
    {x : Node} (h : x ∈ f.entries depth around parent previous) : around <:+ x.lineage := by
  induction f generalizing depth around parent previous with
  | nil => cases h
  | leaf l next ih =>
    rcases List.mem_cons.1 h with rfl | h
    · exact List.suffix_refl around
    · exact ih h
  | element e content next ihc ih =>
    rcases List.mem_cons.1 h with rfl | h
    · exact List.suffix_cons _ around
    · rcases List.mem_append.1 h with h | h
      · exact (List.suffix_cons _ around).trans (ihc h)
      · exact ih h
  | fragment content next ihc ih =>
    rcases List.mem_cons.1 h with rfl | h
    · exact List.suffix_refl around
    · rcases List.mem_append.1 h with h | h
      · exact ihc h
      · exact ih h

/-- The nodes of a forest that are left when some elements are taken away. -/
def spared (doomed : Place → Bool) (depth : Nat) (around : List Place) (parent previous : Place)
    (f : Forest) : List Node :=
  (f.entries depth around parent previous).filter (Node.isSpared doomed)

section

variable {depth : Nat} {around : List Place} {parent previous : Place} {e : Element}
variable {content next : Forest}

theorem spared_leaf (h : around.all (fun p => !doomed p) = true) (l : Leaf) :
    (leaf l next).spared doomed depth around parent previous =
      ⟨depth, .leaf l, around⟩ :: next.spared doomed depth around parent previous :=
  List.filter_cons_of_pos (p := Node.isSpared doomed) h

/-- Nothing is left of an element that goes. -/
theorem spared_element_of_doomed (hd : doomed (.at e content next previous parent) = true) :
    (element e content next).spared doomed depth around parent previous =
      next.spared doomed depth around parent (.at e content next previous parent) := by
  have hlineage {x : Node} (hx : Place.at e content next previous parent :: around <:+ x.lineage) :
      ¬ x.isSpared doomed = true := by
    intro hspared
    have := List.all_eq_true.1 hspared _ (hx.subset List.mem_cons_self)
    simp [hd] at this
  have hinside : (content.entries (depth + 1) (.at e content next previous parent :: around)
      (.at e content next previous parent) .nowhere).filter (Node.isSpared doomed) = [] :=
    List.filter_eq_nil_iff.2 fun x hx => hlineage (suffix_lineage hx)
  rw [spared, entries, List.filter_cons_of_neg (hlineage (List.suffix_refl _)),
    List.filter_append, hinside, List.nil_append, spared]

theorem spared_element (h : around.all (fun p => !doomed p) = true)
    (hd : doomed (.at e content next previous parent) = false) :
    (element e content next).spared doomed depth around parent previous =
      ⟨depth, .element e, .at e content next previous parent :: around⟩ ::
        (content.spared doomed (depth + 1) (.at e content next previous parent :: around)
            (.at e content next previous parent) .nowhere ++
          next.spared doomed depth around parent (.at e content next previous parent)) := by
  have hhere : Node.isSpared doomed
      ⟨depth, .element e, .at e content next previous parent :: around⟩ = true := by
    rw [Node.isSpared, List.all_cons, hd, h]
    rfl
  rw [spared, entries, List.filter_cons_of_pos hhere, List.filter_append, spared, spared]

theorem spared_fragment (h : around.all (fun p => !doomed p) = true) :
    (fragment content next).spared doomed depth around parent previous =
      ⟨depth, .fragment, around⟩ ::
        (content.spared doomed (depth + 1) around .nowhere .nowhere ++
          next.spared doomed depth around parent previous) := by
  have hhere : Node.isSpared doomed ⟨depth, .fragment, around⟩ = true := h
  rw [spared, entries, List.filter_cons_of_pos hhere, List.filter_append, spared, spared]

end

/-- The nodes of a pruned forest are those that are spared, at the depths where they were. -/
theorem outline_prune {f : Forest} {depth : Nat} {around : List Place} {parent previous : Place}
    (h : around.all (fun p => !doomed p) = true) :
    (f.prune doomed parent previous).outline depth =
      (f.spared doomed depth around parent previous).map Node.outline := by
  induction f generalizing depth around parent previous with
  | nil => rfl
  | leaf l next ih =>
    rw [spared_leaf h, List.map_cons, ← ih h]
    rfl
  | element e content next ihc ih =>
    cases hd : doomed (.at e content next previous parent) with
    | true => rw [spared_element_of_doomed hd, ← ih h, prune, if_pos hd]
    | false =>
      have hhere : (Place.at e content next previous parent :: around).all (!doomed ·) = true := by
        rw [List.all_cons, hd, h]
        rfl
      rw [spared_element h hd, List.map_cons, List.map_append, ← ihc hhere, ← ih h, prune, hd]
      rfl
  | fragment content next ihc ih =>
    rw [spared_fragment h, List.map_cons, List.map_append, ← ihc h, ← ih h]
    rfl

end Forest

/-- The text of a node itself. -/
def Kind.text : Kind → List Char
  | .leaf (.text s) => s.toList
  | _ => []

theorem Forest.text_outline (depth : Nat) (f : Forest) :
    f.text = (f.outline depth).flatMap fun x => x.2.text := by
  induction f generalizing depth with
  | nil => rfl
  | leaf l next ih =>
    rw [outline, List.flatMap_cons, ← ih]
    cases l <;> rfl
  | element e content next ihc ih =>
    rw [outline, List.flatMap_cons, List.flatMap_append, ← ihc, ← ih]
    rfl
  | fragment content next ihc ih =>
    rw [outline, List.flatMap_cons, List.flatMap_append, ← ihc, ← ih]
    rfl

/-! ## Where elements come from -/

namespace Place

/-- The nodes inside a place that are left when some elements are taken away. -/
def spared (doomed : Place → Bool) : Place → List Node
  | here@(.at _ content _ _ _) => content.spared doomed 0 [] here .nowhere
  | _ => []

/-- Whether an element of a page from which elements have been taken away is one of the page as it
    was: it says the same and holds what is left of what it held. -/
inductive Remains (doomed : Place → Bool) : Place → Place → Prop
  | intro {e : Element} {content left after after' : Forest}
      {previous previous' parent parent' : Place}
      (inside : left.outline 0 =
        ((Place.at e content after previous parent).spared doomed).map Node.outline) :
      Remains doomed (.at e left after' previous' parent') (.at e content after previous parent)

/-- The text of an element that remains is that of the texts in it that are left. -/
theorem Remains.text_eq {doomed : Place → Bool} {q p : Place} (h : q.Remains doomed p) :
    q.text = (p.spared doomed).flatMap fun x => x.kind.text := by
  obtain ⟨inside⟩ := h
  rw [text, Forest.text_outline 0, inside, List.flatMap_map]
  rfl

end Place

/-- The elements of a pruned forest are those that are spared. -/
theorem Forest.places_prune {doomed : Place → Bool} {f : Forest} {depth : Nat}
    {around : List Place} {parent previous parent' previous' : Place}
    (h : around.all (fun p => !doomed p) = true) :
    List.Forall₂ (Place.Remains doomed)
      ((f.prune doomed parent previous).places parent' previous')
      ((f.spared doomed depth around parent previous).filterMap Node.place?) := by
  induction f generalizing depth around parent previous parent' previous' with
  | nil => exact .nil
  | leaf l next ih =>
    rw [spared_leaf h, List.filterMap_cons_none rfl]
    exact ih h
  | element e content next ihc ih =>
    -- with a doomed element goes all that it holds
    cases hd : doomed (.at e content next previous parent) with
    | true =>
      rw [spared_element_of_doomed hd, prune, if_pos hd]
      exact ih h
    | false =>
      have hhere : (Place.at e content next previous parent :: around).all (!doomed ·) = true := by
        rw [List.all_cons, hd, h]
        rfl
      rw [spared_element h hd, List.filterMap_cons, List.filterMap_append, prune, hd]
      exact .cons ⟨outline_prune rfl⟩ (List.rel_append (ihc hhere) (ih h))
  | fragment content next ihc ih =>
    rw [spared_fragment h, List.filterMap_cons_none rfl, List.filterMap_append]
    exact List.rel_append (ihc h) (ih h)

theorem sublistForall₂_filter {α β : Type} {r : α → β → Prop} {as : List α} {bs : List β}
    (h : List.Forall₂ r as bs) (t : α → Bool) : List.SublistForall₂ r (as.filter t) bs := by
  induction h with
  | nil => exact .nil
  | @cons a b _ _ hab _ ih =>
    rw [List.filter_cons]
    split
    · exact .cons hab ih
    · exact .cons_right ih

/-! ## Pages -/

namespace Page

/-- The nodes below the root that are left when the elements at some places are taken away. -/
def spared (doomed : Place → Bool) (page : Page) : List Node :=
  page.content.spared doomed 0 [] page.rootPlace .nowhere

theorem outline_remove (group : Group) (page : Page) :
    (page.remove group).content.outline 0 =
      (page.spared (Group.matches group)).map Node.outline := by
  rw [remove, detach_eq_prune]
  exact Forest.outline_prune rfl

theorem places_remove (group : Group) (page : Page) :
    List.Forall₂ (Place.Remains (Group.matches group)) (page.remove group).places
      ((page.spared (Group.matches group)).filterMap Node.place?) := by
  rw [remove, detach_eq_prune]
  exact Forest.places_prune rfl

/-- A step with an unselector looks for its selector in what the unselector leaves. -/
theorem select_unselected (page : Page) {step : Step} {reference : Value}
    {template selector : String}
    {doomed wanted : Group} (ht : step.unselector = some template)
    (hblank : Text.trim (Template.interpolate template reference).toList ≠ [])
    (hd : Group.read? (Template.interpolate template reference) = some doomed)
    (hw : Group.read? selector = some wanted) :
    Markup.select page selector step reference =
      .ok (present ((page.remove doomed).select wanted) step.property) := by
  have hnonempty :
      (Text.trim (Template.interpolate template reference).toList).isEmpty = false := by
    simpa using hblank
  simp only [Markup.select, ht, unselect, hnonempty, readGroup, hd, hw]
  rfl

/-- Taking away what a list of selectors matches leaves just the nodes that are not in a match, and
    whatever a step with this unselector finds is an element that is left, with the text that is
    left in it. -/
theorem remove_exact (page : Page) (doomed : Group) :
    (∀ left : Page, page.remove doomed = left ↔
      left.before = page.before ∧ left.root = page.root ∧ left.after = page.after ∧
        left.content.outline 0 = (page.spared (Group.matches doomed)).map Node.outline) ∧
    ∀ (step : Step) (reference : Value) (template selector : String) (wanted : Group),
      step.unselector = some template →
      Text.trim (Template.interpolate template reference).toList ≠ [] →
      Group.read? (Template.interpolate template reference) = some doomed →
      Group.read? selector = some wanted →
      ∃ found, Markup.select page selector step reference = .ok (present found step.property) ∧
        List.SublistForall₂
          (fun q p => q.Remains (Group.matches doomed) p ∧
            q.text = (p.spared (Group.matches doomed)).flatMap fun x => x.kind.text)
          found ((page.spared (Group.matches doomed)).filterMap Node.place?) := by
  constructor
  · intro left
    constructor
    · rintro rfl
      exact ⟨rfl, rfl, rfl, outline_remove doomed page⟩
    · rintro ⟨hbefore, hroot, hafter, hcontent⟩
      have hsame := Forest.outline_injective ((outline_remove doomed page).trans hcontent.symm)
      cases left
      subst hbefore hroot hafter hsame
      rfl
  · intro step reference template selector wanted ht hblank hd hw
    have hplaces := (places_remove doomed page).imp fun q p h => And.intro h h.text_eq
    exact ⟨(page.remove doomed).select wanted, select_unselected page ht hblank hd hw,
      sublistForall₂_filter hplaces (Group.matches wanted)⟩

/-- A step that looks for links outside of what its unselector matches. -/
def findLinks : Step := { Step.ofSelector "a" with unselector := some ".${skip}" }

/-- A page with a link in an advertisement inside another one, and one link after them. -/
def advertised : String :=
  "<div class=ads><p>x<i class='big ads'><a>Buy</a></i></div><a>Re<b class=ads>-</b>al</a>"

/-- Only the link that is in no advertisement is found, without the advertisement in it. -/
theorem remove_exact_advertised :
    let page := Page.parse advertised
    let doomed : Group := [.mk [.ofClass "ads"] []]
    let reference := Value.obj [("skip", .str "ads")]
    findLinks.unselector = some ".${skip}" ∧
      Text.trim (Template.interpolate ".${skip}" reference).toList ≠ [] ∧
      Group.read? (Template.interpolate ".${skip}" reference) = some doomed ∧
      Group.read? "a" = some [.mk [.type "a"] []] ∧
      Markup.select page "a" findLinks reference = .ok (.arr [.str "<a>Real</a>"]) ∧
      ∃ found, Markup.select page "a" findLinks reference = .ok (present found none) ∧
        List.SublistForall₂
          (fun q p => q.Remains (Group.matches doomed) p ∧
            q.text = (p.spared (Group.matches doomed)).flatMap fun x => x.kind.text)
          found ((page.spared (Group.matches doomed)).filterMap Node.place?) := by
  intro page doomed reference
  have ht : Template.interpolate ".${skip}" reference = ".ads" := by decide +kernel
  have hblank : Text.trim (Template.interpolate ".${skip}" reference).toList ≠ [] := by
    rw [ht]
    decide
  have hd : Group.read? (Template.interpolate ".${skip}" reference) = some doomed := by
    rw [ht]
    rfl
  have hw : Group.read? "a" = some [.mk [.type "a"] []] := rfl
  have hv : Markup.select page "a" findLinks reference = .ok (.arr [.str "<a>Real</a>"]) := by
    decide +kernel
  exact ⟨rfl, hblank, hd, hw, hv,
    (remove_exact page doomed).2 findLinks reference ".${skip}" "a" _ rfl hblank hd hw⟩

end Page
end SchemaExtraction.Markup
