/-!
# Pages as forests

A page is a root element among comments, and what an element holds is a forest: a first node and
the nodes beside it. The contents of a template stand in a fragment of their own, since no element
encloses them.

Results:
* `Forest.append_nil`, `Forest.append_assoc`: putting forests side by side.
* `Forest.text_append`: the text of two forests is the text of one and then of the other.
-/

namespace SchemaExtraction.Markup

/-! ## Elements -/

/-- The vocabulary that the name of an element belongs to. -/
inductive Vocabulary where
  | html
  | svg
  | mathml
deriving DecidableEq, Repr

/-- The name space of an attribute; most have none. -/
inductive AttributeSpace where
  | none
  | xlink
  | xml
  | xmlns
deriving DecidableEq, Repr

/-- An attribute with its value. -/
structure Attribute where
  space : AttributeSpace
  name : String
  value : String
deriving DecidableEq, Repr

/-- What a start tag says. No two attributes have the same name. -/
structure Element where
  vocabulary : Vocabulary
  name : String
  attributes : List Attribute
deriving DecidableEq, Repr

namespace Element

/-- Whether an element is one of HTML with one of some names. -/
def isHtml (e : Element) (names : List String) : Bool :=
  e.vocabulary = .html && names.contains e.name

/-- The value of an attribute outside all name spaces. -/
def attribute? (e : Element) (name : String) : Option String :=
  (e.attributes.find? fun a => a.space = .none && a.name = name).map Attribute.value

/-- Adds the attributes whose names the element lacks. -/
def addMissing (e : Element) (attributes : List Attribute) : Element :=
  { e with
    attributes := attributes.foldl (fun known a =>
      if known.any (fun b => b.space = a.space && b.name = a.name) then known else known ++ [a])
      e.attributes }

end Element

/-! ## Nodes -/

/-- A node that holds no others. -/
inductive Leaf where
  | doctype (name : String)
  | comment (text : String)
  | text (content : String)
deriving DecidableEq, Repr

/-- Nodes side by side, each with what it holds. -/
inductive Forest where
  | nil
  | leaf (l : Leaf) (next : Forest)
  | element (e : Element) (content : Forest) (next : Forest)
  /-- the contents of a template -/
  | fragment (content : Forest) (next : Forest)
deriving DecidableEq, Repr

namespace Forest

/-- One forest and then another. -/
def append : Forest → Forest → Forest
  | nil, g => g
  | leaf l next, g => leaf l (next.append g)
  | element e content next, g => element e content (next.append g)
  | fragment content next, g => fragment content (next.append g)

instance : Append Forest := ⟨append⟩

/-- The text of all leaves, in document order. -/
def text : Forest → List Char
  | nil => []
  | leaf (.text s) next => s.toList ++ next.text
  | leaf _ next => next.text
  | element _ content next => content.text ++ next.text
  | fragment content next => content.text ++ next.text

@[simp] theorem nil_append (f : Forest) : nil ++ f = f := rfl

@[simp] theorem leaf_append (l : Leaf) (f g : Forest) : leaf l f ++ g = leaf l (f ++ g) := rfl

@[simp] theorem element_append (e : Element) (c f g : Forest) :
    element e c f ++ g = element e c (f ++ g) := rfl

@[simp] theorem fragment_append (c f g : Forest) :
    fragment c f ++ g = fragment c (f ++ g) := rfl

@[simp] theorem append_nil (f : Forest) : f ++ nil = f := by
  induction f <;> simp_all

theorem append_assoc (f g h : Forest) : f ++ g ++ h = f ++ (g ++ h) := by
  induction f <;> simp_all

@[simp] theorem text_append (f g : Forest) : (f ++ g).text = f.text ++ g.text := by
  induction f with
  | nil => rfl
  | leaf l next ih => cases l <;> simp_all [text]
  | element e c next _ ih => simp_all [text]
  | fragment c next _ ih => simp_all [text]

end Forest

/-- A parsed page: comments and the document type, the root element with its content, and the
    comments after it. -/
structure Page where
  before : List Leaf
  root : Element
  content : Forest
  after : List Leaf
deriving DecidableEq, Repr

end SchemaExtraction.Markup
