import SchemaExtraction.Markup.Forest

/-!
# Places in a page

A place is an element together with all that surrounds it: what it holds, the nodes after it, the
element before it and the element around it. Selectors look at places, because they ask for
relatives as well as for names.

Results:
* `Forest.prune_nothing`: a forest of which nothing is taken away stays as it is.
-/

namespace SchemaExtraction.Markup

/-- Where an element stands. -/
inductive Place where
  /-- no place: what comes before a first element, and what is around the contents of a template -/
  | nowhere
  /-- the document, which is around the root element -/
  | document
  /-- an element with its content, the nodes after it, the place of the element before it and the
      place around it -/
  | at (e : Element) (content after : Forest) (previous parent : Place)
deriving Repr

namespace Place

/-- The places around a place, from the inside out. -/
def ancestors : Place → List Place
  | .at _ _ _ _ parent@(.at ..) => parent :: parent.ancestors
  | _ => []

/-- The elements before a place under the same parent, nearest first. -/
def earlier : Place → List Place
  | .at _ _ _ previous@(.at ..) _ => previous :: previous.earlier
  | _ => []

end Place

namespace Forest

/-- The elements that stand side by side in a forest, between an element before it and the place
    around it. -/
def siblings (parent previous : Place) : Forest → List Place
  | nil => []
  | leaf _ next => next.siblings parent previous
  | element e content next =>
    let here := Place.at e content next previous parent
    here :: next.siblings parent here
  | fragment _ next => next.siblings parent previous

/-- The elements of a forest at any depth in document order, the contents of templates left
    out. -/
def enclosed (parent previous : Place) : Forest → List Place
  | nil => []
  | leaf _ next => next.enclosed parent previous
  | element e content next =>
    let here := Place.at e content next previous parent
    here :: (content.enclosed here .nowhere ++ next.enclosed parent here)
  | fragment _ next => next.enclosed parent previous

/-- All elements of a forest at any depth in document order. -/
def places (parent previous : Place) : Forest → List Place
  | nil => []
  | leaf _ next => next.places parent previous
  | element e content next =>
    let here := Place.at e content next previous parent
    here :: (content.places here .nowhere ++ next.places parent here)
  | fragment content next =>
    content.places .nowhere .nowhere ++ next.places parent previous

/-- Takes away the elements at some places with all that they hold. The places are those of the
    forest as it was. -/
def prune (doomed : Place → Bool) (parent previous : Place) : Forest → Forest
  | nil => nil
  | leaf l next => leaf l (next.prune doomed parent previous)
  | element e content next =>
    let here := Place.at e content next previous parent
    let rest := next.prune doomed parent here
    if doomed here then rest else element e (content.prune doomed here .nowhere) rest
  | fragment content next =>
    fragment (content.prune doomed .nowhere .nowhere) (next.prune doomed parent previous)

theorem prune_nothing (parent previous : Place) (f : Forest) :
    f.prune (fun _ => false) parent previous = f := by
  induction f generalizing parent previous with
  | nil => rfl
  | leaf l next ih => simp [prune, ih]
  | element e content next ihc ih => simp [prune, ihc, ih]
  | fragment content next ihc ih => simp [prune, ihc, ih]

end Forest

namespace Place

/-- The elements right inside a place. -/
def children : Place → List Place
  | here@(.at _ content _ _ _) => content.siblings here .nowhere
  | _ => []

/-- The elements inside a place that it is around. -/
def descendants : Place → List Place
  | here@(.at _ content _ _ _) => content.enclosed here .nowhere
  | _ => []

/-- The elements after a place under the same parent, nearest first. -/
def later : Place → List Place
  | here@(.at _ _ after _ parent) => after.siblings parent here
  | _ => []

end Place

namespace Page

/-- The place of the root element. -/
def rootPlace (page : Page) : Place := .at page.root page.content .nil .nowhere .document

/-- All elements below the root in document order. -/
def places (page : Page) : List Place := page.content.places page.rootPlace .nowhere

/-- Takes away the elements below the root at some places. -/
def prune (doomed : Place → Bool) (page : Page) : Page :=
  { page with content := page.content.prune doomed page.rootPlace .nowhere }

end Page
end SchemaExtraction.Markup
