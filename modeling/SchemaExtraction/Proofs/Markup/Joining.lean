import SchemaExtraction.Engine.Markup

/-!
# Texts side by side

When an element between two texts has been taken away, the texts stand side by side, while on a page
that has been read they would be one text. Nobody can tell: selectors match the same elements, and
what is presented of an element is the same, whether texts side by side are joined or not.

Results:
* `Forest.join_append`: which forests are alike when texts are joined depends on their parts.
* `Group.matches_join`: joining texts changes no match.
* `Page.Alike.present_eq`: pages that differ in nothing else have the same values.
-/

namespace SchemaExtraction.Markup

/-! ## Joining -/

theorem Leaf.write_text_append (raw : Bool) (s t : String) :
    (text (s ++ t)).write raw = (text s).write raw ++ (text t).write raw := by
  cases raw with
  | false => rw [write_text, write_text, write_text, String.toList_append, escape_append]
  | true => exact String.toList_append

namespace Forest

/-- A leaf before a forest. A text before another text becomes one with it. -/
def joinLeaf : Leaf → Forest → Forest
  | .text s, leaf (.text t) next => leaf (.text (s ++ t)) next
  | l, f => leaf l f

/-- A forest in which all texts side by side are one. -/
def join : Forest → Forest
  | nil => nil
  | leaf l next => joinLeaf l next.join
  | element e content next => element e content.join next.join
  | fragment content next => fragment content.join next.join

/-- Forests that differ at most in how texts are cut. -/
def Alike (f g : Forest) : Prop := f.join = g.join

instance : DecidableRel Alike := fun f g => inferInstanceAs (Decidable (f.join = g.join))

/-- What is the same of one text and of its two parts is the same after joining. -/
theorem joinLeaf_eq {α : Type} (value : Forest → α)
    (h : ∀ s t next, value (leaf (.text (s ++ t)) next) =
      value (leaf (.text s) (leaf (.text t) next))) (l : Leaf) (f : Forest) :
    value (joinLeaf l f) = value (leaf l f) := by
  unfold joinLeaf
  split
  · exact h _ _ _
  · rfl

theorem joinLeaf_joinLeaf (s t : String) (f : Forest) :
    joinLeaf (.text s) (joinLeaf (.text t) f) = joinLeaf (.text (s ++ t)) f := by
  cases f with
  | leaf l next => cases l <;> simp [joinLeaf, String.append_assoc]
  | _ => rfl

theorem join_joinLeaf_append (l : Leaf) (f g : Forest) :
    (joinLeaf l f ++ g).join = joinLeaf l (f ++ g).join := by
  unfold joinLeaf
  split
  next s t next => exact (joinLeaf_joinLeaf s t (next ++ g).join).symm
  next => rfl

theorem join_join (f : Forest) : f.join.join = f.join := by
  induction f with
  | nil => rfl
  | leaf l next ih =>
    have h := join_joinLeaf_append l next.join nil
    rwa [append_nil, append_nil, ih] at h
  | element e content next ihc ih => rw [join, join, ihc, ih]
  | fragment content next ihc ih => rw [join, join, ihc, ih]

/-- Forests side by side may be joined one by one before they are joined. -/
theorem join_append (f g : Forest) : (f.join ++ g.join).join = (f ++ g).join := by
  induction f with
  | nil => exact join_join g
  | leaf l next ih => rw [join, join_joinLeaf_append, ih, leaf_append, join]
  | element e content next _ ih =>
    rw [join, element_append, join, join_join, ih, element_append, join]
  | fragment content next _ ih =>
    rw [join, fragment_append, join, join_join, ih, fragment_append, join]

theorem Alike.append {f f' g g' : Forest} (h : f.Alike f') (h' : g.Alike g') :
    (f ++ g).Alike (f' ++ g') := by
  rw [Alike, ← join_append, h, h', join_append]

theorem Alike.element {content content' : Forest} (h : content.Alike content') (e : Element) :
    (Forest.element e content nil).Alike (Forest.element e content' nil) :=
  congrArg (Forest.element e · nil) h

/-- A text as a forest; the empty text is none. -/
def ofText (cs : List Char) : Forest :=
  if cs.isEmpty then nil else leaf (.text (String.ofList cs)) nil

theorem ofText_append (cs ds : List Char) : (ofText (cs ++ ds)).Alike (ofText cs ++ ofText ds) := by
  cases cs with
  | nil => rfl
  | cons c cs =>
    cases ds with
    | nil => simp [ofText, Alike]
    | cons d ds =>
      have h : String.ofList (c :: cs ++ d :: ds) =
          String.ofList (c :: cs) ++ String.ofList (d :: ds) :=
        String.ofList_append
      simp only [ofText, Alike, List.cons_append, List.isEmpty_cons, Bool.false_eq_true, if_false]
      rw [← List.cons_append, h]
      rfl

/-! ### What joining leaves as it is -/

theorem text_join (f : Forest) : f.join.text = f.text := by
  induction f with
  | nil => rfl
  | leaf l next ih =>
    rw [join, joinLeaf_eq text fun s t next => by simp [text]]
    cases l <;> simp [text, ih]
  | element e content next ihc ih => rw [join, text, ihc, ih, text]
  | fragment content next ihc ih => rw [join, text, ihc, ih, text]

theorem write_join (raw : Bool) (f : Forest) : f.join.write raw = f.write raw := by
  induction f generalizing raw with
  | nil => rfl
  | leaf l next ih =>
    have hl : (joinLeaf l next.join).write raw = (leaf l next.join).write raw := by
      refine joinLeaf_eq (write raw) (fun s t next => ?_) l next.join
      rw [write, Leaf.write_text_append, List.append_assoc]
      rfl
    rw [join, hl, write, ih, write]
  | element e content next ihc ih => rw [join, write, ihc, ih, write]
  | fragment content next ihc ih => rw [join, write, ihc, ih, write]

theorem isBare_join (f : Forest) : f.join.isBare = f.isBare := by
  induction f with
  | nil => rfl
  | leaf l next ih =>
    rw [join, joinLeaf_eq isBare fun _ _ _ => rfl]
    cases l <;> simp [isBare, ih]
  | element e content next => rfl
  | fragment content next _ ih => rw [join, isBare, ih, isBare]

end Forest

/-! ## Places -/

/-- A place with all texts around and in it joined. -/
def Place.join : Place → Place
  | .at e content after previous parent =>
    .at e content.join after.join previous.join parent.join
  | p => p

namespace Forest

theorem siblings_join (parent previous : Place) (f : Forest) :
    f.join.siblings parent.join previous.join = (f.siblings parent previous).map Place.join := by
  induction f generalizing previous with
  | nil => rfl
  | leaf l next ih =>
    rw [join, joinLeaf_eq (fun f => f.siblings _ _) fun _ _ _ => rfl]
    exact ih previous
  | element e content next _ ih => exact congrArg _ (ih (.at e content next previous parent))
  | fragment content next _ ih => exact ih previous

theorem enclosed_join (parent previous : Place) (f : Forest) :
    f.join.enclosed parent.join previous.join = (f.enclosed parent previous).map Place.join := by
  induction f generalizing parent previous with
  | nil => rfl
  | leaf l next ih =>
    rw [join, joinLeaf_eq (fun f => f.enclosed _ _) fun _ _ _ => rfl]
    exact ih parent previous
  | element e content next ihc ih =>
    let here := Place.at e content next previous parent
    have hc := ihc here .nowhere
    have hn := ih parent here
    rw [enclosed, List.map_cons, List.map_append, ← hc, ← hn]
    rfl
  | fragment content next _ ih => exact ih parent previous

theorem places_join (parent previous : Place) (f : Forest) :
    f.join.places parent.join previous.join = (f.places parent previous).map Place.join := by
  induction f generalizing parent previous with
  | nil => rfl
  | leaf l next ih =>
    rw [join, joinLeaf_eq (fun f => f.places _ _) fun _ _ _ => rfl]
    exact ih parent previous
  | element e content next ihc ih =>
    let here := Place.at e content next previous parent
    have hc := ihc here .nowhere
    have hn := ih parent here
    rw [places, List.map_cons, List.map_append, ← hc, ← hn]
    rfl
  | fragment content next ihc ih =>
    have hc := ihc .nowhere .nowhere
    rw [places, List.map_append, ← hc, ← ih]
    rfl

end Forest

namespace Place

theorem children_join (p : Place) : p.join.children = p.children.map join := by
  cases p with
  | «at» e content after previous parent =>
    exact Forest.siblings_join (.at e content after previous parent) .nowhere content
  | _ => rfl

theorem descendants_join (p : Place) : p.join.descendants = p.descendants.map join := by
  cases p with
  | «at» e content after previous parent =>
    exact Forest.enclosed_join (.at e content after previous parent) .nowhere content
  | _ => rfl

theorem later_join (p : Place) : p.join.later = p.later.map join := by
  cases p with
  | «at» e content after previous parent =>
    exact Forest.siblings_join parent (.at e content after previous parent) after
  | _ => rfl

theorem ancestors_join (p : Place) : p.join.ancestors = p.ancestors.map join := by
  induction p with
  | «at» e content after previous parent _ ih =>
    cases parent with
    | «at» => simpa [join, ancestors] using ih
    | _ => simp [join, ancestors]
  | _ => simp [join, ancestors]

theorem earlier_join (p : Place) : p.join.earlier = p.earlier.map join := by
  induction p with
  | «at» e content after previous parent ih _ =>
    cases previous with
    | «at» => simpa [join, earlier] using ih
    | _ => simp [join, earlier]
  | _ => simp [join, earlier]

theorem sources_join (p : Place) (c : Combinator) : p.join.sources c = (p.sources c).map join := by
  cases c with
  | descendant => exact ancestors_join p
  | child => rw [sources, sources, ancestors_join, List.map_take]
  | next => rw [sources, sources, earlier_join, List.map_take]
  | later => exact earlier_join p

theorem targets_join (p : Place) (c : Combinator) : p.join.targets c = (p.targets c).map join := by
  cases c with
  | descendant => exact descendants_join p
  | child => exact children_join p
  | next => rw [targets, targets, later_join, List.map_take]
  | later => exact later_join p

theorem isAt_join (p : Place) (position : Position) : p.join.isAt position = p.isAt position := by
  have hsame : sameType p.join ∘ join = sameType p := by
    funext q
    cases p <;> cases q <;> rfl
  simp only [isAt, later_join, earlier_join, ← apply_ite (List.map join), List.filter_map, hsame,
    List.length_map]

theorem isRoot_join (p : Place) : p.join.isRoot = p.isRoot := by
  cases p with
  | «at» e content after previous parent => cases parent <;> rfl
  | _ => rfl

theorem outer_join (p : Place) : p.join.outer = p.outer := by
  cases p with
  | «at» e content after previous parent =>
    exact Forest.write_join false (.element e content .nil)
  | _ => rfl

theorem inner_join (p : Place) : p.join.inner = p.inner := by
  cases p with
  | «at» e content => exact Forest.write_join false content
  | _ => rfl

theorem text_join (p : Place) : p.join.text = p.text := by
  cases p with
  | «at» e content => exact Forest.text_join content
  | _ => rfl

theorem property?_join (p : Place) (property : String) :
    p.join.property? property = p.property? property := by
  cases p with
  | «at» e content after previous parent =>
    have ho := outer_join (.at e content after previous parent)
    have hi := inner_join (.at e content after previous parent)
    have ht := text_join (.at e content after previous parent)
    unfold property?
    rw [ho, hi, ht]
    rfl
  | _ => rfl

end Place

/-! ## Matches -/

mutual

theorem Simple.holds_join (p : Place) : ∀ s : Simple, s.holds p.join = s.holds p
  | .universal => by rw [Simple.holds, Simple.holds]
  | .type _ => by cases p <;> simp only [Place.join, Simple.holds]
  | .id _ => by cases p <;> simp only [Place.join, Simple.holds]
  | .ofClass _ => by cases p <;> simp only [Place.join, Simple.holds]
  | .attribute _ => by cases p <;> simp only [Place.join, Simple.holds]
  | .position position => by rw [Simple.holds, Simple.holds, Place.isAt_join]
  | .root => by rw [Simple.holds, Simple.holds, Place.isRoot_join]
  | .empty => by cases p <;> simp only [Place.join, Simple.holds, Forest.isBare_join]
  | .never => by rw [Simple.holds, Simple.holds]
  | .not options => by rw [Simple.holds, Simple.holds, Group.matches_join p options]
  | .any options => by rw [Simple.holds, Simple.holds, Group.matches_join p options]
  | .has options => by rw [Simple.holds, Simple.holds, leadsAny_join p options]

theorem holdsAll_join (p : Place) : ∀ compound : List Simple,
    holdsAll compound p.join = holdsAll compound p
  | [] => rfl
  | s :: compound => by
    rw [holdsAll, Simple.holds_join p s, holdsAll_join p compound, holdsAll]

theorem follow_join {step : Place → Combinator → List Place}
    (hstep : ∀ p c, step p.join c = (step p c).map Place.join) (p : Place) :
    ∀ links : List Link, follow step links p.join = follow step links p
  | [] => rfl
  | .mk combinator compound :: links => by
    rw [follow, follow, hstep, List.any_map]
    congr 1
    funext q
    rw [Function.comp_apply, holdsAll_join q compound, follow_join hstep q links]

theorem Complex.matches_join (p : Place) : ∀ c : Complex, c.matches p.join = c.matches p
  | .mk subject links => by
    rw [Complex.matches, Complex.matches, holdsAll_join p subject,
      follow_join Place.sources_join p links]

/-- A list of selectors matches the same elements when texts are joined. -/
theorem Group.matches_join (p : Place) : ∀ g : Group, Group.matches g p.join = Group.matches g p
  | [] => rfl
  | c :: cs => by
    rw [Group.matches, Complex.matches_join p c, Group.matches_join p cs, Group.matches]

theorem leadsAny_join (p : Place) : ∀ options : List Relative,
    leadsAny options p.join = leadsAny options p
  | [] => rfl
  | .mk links :: options => by
    rw [leadsAny, follow_join Place.targets_join p links, leadsAny_join p options, leadsAny]

end

/-! ## Pages -/

namespace Page

/-- A page with all texts below the root joined. -/
def join (page : Page) : Page := { page with content := page.content.join }

/-- Pages that below the root differ at most in how texts are cut. What precedes and follows the
    root element is not compared. -/
structure Alike (p q : Page) : Prop where
  root : p.root = q.root
  content : p.content.Alike q.content

instance : DecidableRel Alike := fun p q =>
  decidable_of_iff (p.root = q.root ∧ p.content.Alike q.content)
    ⟨fun h => ⟨h.1, h.2⟩, fun h => ⟨h.root, h.content⟩⟩

theorem select_join (g : Group) (page : Page) :
    page.join.select g = (page.select g).map Place.join := by
  have hmatches : Group.matches g ∘ Place.join = Group.matches g :=
    funext fun p => Group.matches_join p g
  have hplaces : page.join.places = page.places.map Place.join :=
    Forest.places_join page.rootPlace .nowhere page.content
  rw [select, hplaces, List.filter_map, hmatches, select]

theorem present_join (found : List Place) (property : Option String) :
    present (found.map Place.join) property = present found property := by
  cases property with
  | none => simp [present, Place.outer_join]
  | some property =>
    cases found with
    | nil => rfl
    | cons p found =>
      simp only [present, List.map_cons, List.length_cons, List.length_map, Place.text_join,
        Place.property?_join]

/-- On pages that differ at most in how texts are cut a step has the same value. -/
theorem Alike.present_eq {p q : Page} (h : p.Alike q) (g : Group) (property : Option String) :
    present (p.select g) property = present (q.select g) property := by
  have hplaces : p.join.places = q.join.places := by
    simp only [Page.join, Page.places, Page.rootPlace, h.root]
    rw [show p.content.join = q.content.join from h.content]
  rw [← present_join, ← select_join, select, hplaces, ← select, select_join, present_join]

end Page
end SchemaExtraction.Markup
