import SchemaExtraction.Markup.Draft
import SchemaExtraction.Markup.Place

/-!
# Taking elements away

The elements to be taken away are all found before the first of them goes. The page is laid out as
a draft for that, where nodes keep their numbers: one after the other is taken from what holds it
then, be that an element that has gone before, and the page is what is still held in the end.

Results:
* `Page.draft_children`: what the root element of a laid out page holds.
-/

namespace SchemaExtraction.Markup

namespace Forest

/-- The number of nodes at any depth. -/
def size : Forest → Nat
  | nil => 0
  | leaf _ next => next.size + 1
  | element _ content next => content.size + next.size + 1
  | fragment content next => content.size + next.size + 1

/-- The numbers of the nodes side by side, if all nodes are numbered in document order from a
    number on. -/
def roots (n : NodeId) : Forest → List NodeId
  | nil => []
  | leaf _ next => n :: next.roots (n + 1)
  | element _ content next => n :: next.roots (n + 1 + content.size)
  | fragment content next => n :: next.roots (n + 1 + content.size)

/-- The nodes at any depth in document order as they are laid out from a number on, those side by
    side being held by `holder`. -/
def cells (holder n : NodeId) : Forest → List Cell
  | nil => []
  | leaf l next => ⟨.leaf l, #[], some holder⟩ :: next.cells holder (n + 1)
  | element e content next =>
    ⟨.element e, (content.roots (n + 1)).toArray, some holder⟩ ::
      (content.cells n (n + 1) ++ next.cells holder (n + 1 + content.size))
  | fragment content next =>
    ⟨.fragment, (content.roots (n + 1)).toArray, some holder⟩ ::
      (content.cells n (n + 1) ++ next.cells holder (n + 1 + content.size))

/-- The elements at any depth in document order with their numbers. -/
def numbered (parent previous : Place) (n : NodeId) : Forest → List (NodeId × Place)
  | nil => []
  | leaf _ next => next.numbered parent previous (n + 1)
  | element e content next =>
    let here := Place.at e content next previous parent
    (n, here) ::
      (content.numbered here .nowhere (n + 1) ++
        next.numbered parent here (n + 1 + content.size))
  | fragment content next =>
    content.numbered .nowhere .nowhere (n + 1) ++
      next.numbered parent previous (n + 1 + content.size)

theorem length_cells (holder n : NodeId) (f : Forest) : (f.cells holder n).length = f.size := by
  induction f generalizing holder n with
  | nil => rfl
  | leaf l next ih => simp [cells, size, ih]
  | element e content next ihc ih => simp [cells, size, ihc, ih]
  | fragment content next ihc ih => simp [cells, size, ihc, ih]

end Forest

/-- Takes nodes from what holds them, one after the other. -/
def Draft.detachAll (ids : List NodeId) (d : Draft) : Draft :=
  ids.foldl (fun d id => d.detach id) d

namespace Page

/-- The root element with all below it as a draft. The root has the number 0. -/
def draft (page : Page) : Draft :=
  ⟨(⟨.element page.root, (page.content.roots 1).toArray, none⟩ ::
    page.content.cells 0 1).toArray⟩

/-- The numbers of the elements below the root at some places. -/
def numbers (wanted : Place → Bool) (page : Page) : List NodeId :=
  ((page.content.numbered page.rootPlace .nowhere 1).filter fun x => wanted x.2).map Prod.fst

/-- Takes the elements below the root at some places from what holds them, in document order. -/
def detach (doomed : Place → Bool) (page : Page) : Page :=
  { page with content := (page.draft.detachAll (page.numbers doomed)).content 0 }

theorem draft_children (page : Page) : page.draft.children 0 = (page.content.roots 1).toArray := by
  simp [draft, Draft.children]

theorem draft_size (page : Page) : page.draft.cells.size = page.content.size + 1 := by
  simp [draft, Forest.length_cells]

end Page
end SchemaExtraction.Markup
