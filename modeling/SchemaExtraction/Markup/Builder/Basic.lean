import SchemaExtraction.Markup.Draft
import SchemaExtraction.Markup.Token

/-!
# Building pages

A page is built from its tokens by a machine with a stack of open elements. Its mode says which
rules hold for the next token. This module has the state of the machine, the stack and the places
where nodes are put.

Results:
* `closeThrough_sublist`: closing elements only takes elements off the stack.
-/

namespace SchemaExtraction.Markup

/-- Which rules hold for the next token. -/
inductive Mode where
  | initial
  | beforeHtml
  | beforeHead
  | inHead
  | afterHead
  | inBody
  | inText
  | inTable
  | inTableText
  | inCaption
  | inColumnGroup
  | inTableBody
  | inRow
  | inCell
  | inSelect
  | inSelectInTable
  | inTemplate
  | afterBody
  | inFrameset
  | afterFrameset
  | afterAfterBody
  | afterAfterFrameset
deriving DecidableEq, Repr

/-- An entry of the list of formatting elements. -/
inductive Formatting where
  /-- the start of an element that formatting does not cross -/
  | marker
  /-- an element with the tag that it is opened again by -/
  | element (id : NodeId) (tag : Tag)
deriving DecidableEq, Repr

/-- The state of the machine. -/
structure Builder where
  /-- the page so far; node zero is the root element -/
  draft : Draft
  mode : Mode
  /-- the mode to go back to after text -/
  returnMode : Mode
  /-- how the next token is read -/
  textMode : TextMode
  /-- the open elements, innermost first -/
  stack : List NodeId
  /-- the formatting elements to open again, latest first -/
  formatting : List Formatting
  /-- the modes of the open templates, innermost first -/
  templates : List Mode
  head : Option NodeId
  form : Option NodeId
  /-- whether a frame set may still take the place of the body -/
  framesetAllowed : Bool
  /-- whether the page is a legacy page -/
  legacy : Bool
  /-- whether nodes go before a table instead of into it -/
  fostering : Bool
  /-- whether a line feed at the start of the next token is dropped -/
  skipLine : Bool
  /-- text in a table that waits for the next token, latest first -/
  pending : List Token
  /-- what precedes the root element, latest first -/
  before : List Leaf
  /-- what follows the root element, latest first -/
  after : List Leaf

/-- A step of the machine. -/
abbrev Build := StateM Builder

/-- What has become of a token. -/
inductive Outcome where
  | done
  /-- the token is to be handled by the rules of the new mode -/
  | again
deriving DecidableEq, Repr

namespace Build

/-- The number of the root element. -/
def root : NodeId := 0

/-- The state at the start of a page. -/
def start : Builder where
  draft := ⟨#[⟨.element ⟨.html, "html", []⟩, #[], none⟩]⟩
  mode := .initial
  returnMode := .initial
  textMode := .markup
  stack := []
  formatting := []
  templates := []
  head := none
  form := none
  framesetAllowed := true
  legacy := false
  fostering := false
  skipLine := false
  pending := []
  before := []
  after := []

/-- The token is dealt with. -/
def done : Build Outcome := pure .done

/-- Handles the token again in another mode. -/
def againIn (mode : Mode) : Build Outcome := do
  modify ({ · with mode := mode })
  return .again

/-- Goes over to a mode. -/
def switchTo (mode : Mode) : Build Unit := modify ({ · with mode := mode })

/-- Changes the draft. -/
def edit (f : Draft → Draft) : Build Unit := modify fun b => { b with draft := f b.draft }

/-- No frame set may take the place of the body from now on. -/
def forbidFrameset : Build Unit := modify ({ · with framesetAllowed := false })

/-! ## The stack -/

/-- The innermost open element. -/
def current : Build NodeId := return (← get).stack.headD root

/-- What the innermost open element is. -/
def currentElement : Build Element := do
  let b ← get
  return b.draft.element (b.stack.headD root)

/-- Whether the innermost open element is one of HTML with one of some names. -/
def currentIs (names : List String) : Build Bool := return (← currentElement).isHtml names

/-- Opens an element. -/
def push (id : NodeId) : Build Unit := modify fun b => { b with stack := id :: b.stack }

/-- Closes the innermost open element. -/
def pop : Build Unit := modify fun b => { b with stack := b.stack.drop 1 }

/-- Takes an element off the stack wherever it is. -/
def removeFromStack (id : NodeId) : Build Unit :=
  modify fun b => { b with stack := b.stack.erase id }

/-- The stack without the elements inside the innermost one of some kind and without that one. -/
def closeThrough (isLast : Element → Bool) (d : Draft) (stack : List NodeId) : List NodeId :=
  (stack.dropWhile fun id => !isLast (d.element id)).drop 1

/-- Closes elements up to and including the innermost of some names. -/
def popThrough (names : List String) : Build Unit :=
  modify fun b => { b with stack := closeThrough (·.isHtml names) b.draft b.stack }

/-- Closes elements until the innermost has one of some names. -/
def popTo (names : List String) : Build Unit :=
  modify fun b => { b with
    stack := b.stack.dropWhile fun id => !(b.draft.element id).isHtml names }

/-- Whether an element of HTML with one of some names is open. -/
def isOpen (names : List String) : Build Bool := do
  let b ← get
  return b.stack.any fun id => (b.draft.element id).isHtml names

theorem closeThrough_sublist (isLast : Element → Bool) (d : Draft) (stack : List NodeId) :
    (closeThrough isLast d stack).Sublist stack :=
  (List.drop_sublist _ _).trans (List.dropWhile_sublist _)

/-! ## Scopes -/

/-- Whether an element of MathML holds text of HTML. -/
def holdsText (e : Element) : Bool :=
  e.vocabulary = .mathml && ["mi", "mo", "mn", "ms", "mtext"].contains e.name

/-- Whether an element of SVG holds elements of HTML. -/
def holdsHtml (e : Element) : Bool :=
  e.vocabulary = .svg && ["foreignObject", "desc", "title"].contains e.name

/-- Elements that end every scope but those of tables and selections. -/
def endsScope (e : Element) : Bool :=
  e.isHtml ["applet", "caption", "html", "table", "td", "th", "marquee", "object", "template"] ||
    holdsText e || holdsHtml e

@[inherit_doc endsScope]
def endsListScope (e : Element) : Bool := endsScope e || e.isHtml ["ol", "ul"]

@[inherit_doc endsScope]
def endsButtonScope (e : Element) : Bool := endsScope e || e.isHtml ["button"]

/-- Elements that end the scope of a table. -/
def endsTableScope (e : Element) : Bool := e.isHtml ["html", "table", "template"]

/-- Elements that end the scope of a selection: all but two. -/
def endsSelectScope (e : Element) : Bool := !e.isHtml ["optgroup", "option"]

/-- Whether an element is among the innermost ones up to the first that ends the scope. -/
def scopeHolds (d : Draft) (ends : Element → Bool) (wanted : NodeId → Bool) :
    List NodeId → Bool
  | [] => false
  | id :: ids => wanted id || (!ends (d.element id) && scopeHolds d ends wanted ids)

/-- Whether an element with one of some names is open in a scope. -/
def inScope (ends : Element → Bool) (names : List String) : Build Bool := do
  let b ← get
  return scopeHolds b.draft ends (fun id => (b.draft.element id).isHtml names) b.stack

/-! ## Implied end tags -/

/-- Elements whose end tags may be left out. -/
def impliedNames : List String :=
  ["dd", "dt", "li", "option", "optgroup", "p", "rb", "rp", "rt", "rtc"]

/-- Elements whose end tags may be left out inside a template. -/
def impliedTemplateNames : List String :=
  impliedNames ++ ["caption", "colgroup", "tbody", "td", "tfoot", "th", "thead", "tr"]

/-- Closes the innermost elements with some names. -/
def closeImplied (names : List String) : Build Unit :=
  modify fun b => { b with
    stack := b.stack.dropWhile fun id => (b.draft.element id).isHtml names }

/-- Closes the innermost elements whose end tags may be left out, but not those of one name. -/
def closeImpliedBut (name : String) : Build Unit := closeImplied (impliedNames.erase name)

/-- Closes the innermost paragraph. -/
def closeParagraph : Build Unit := do
  closeImpliedBut "p"
  popThrough ["p"]

/-- Closes the innermost paragraph if there is one in scope. -/
def closeOpenParagraph : Build Unit := do
  if ← inScope endsButtonScope ["p"] then closeParagraph

/-- Elements that end the search for the start of an element. -/
def specialNames : List String :=
  ["address", "applet", "area", "article", "aside", "base", "basefont", "bgsound", "blockquote",
    "body", "br", "button", "caption", "center", "col", "colgroup", "dd", "details", "dir", "div",
    "dl", "dt", "embed", "fieldset", "figcaption", "figure", "footer", "form", "frame",
    "frameset", "h1", "h2", "h3", "h4", "h5", "h6", "head", "header", "hgroup", "hr", "html",
    "iframe", "img", "input", "isindex", "li", "link", "listing", "main", "marquee", "menu",
    "meta", "nav", "noembed", "noframes", "noscript", "object", "ol", "p", "param", "plaintext",
    "pre", "script", "section", "select", "source", "style", "summary", "table", "tbody", "td",
    "template", "textarea", "tfoot", "th", "thead", "title", "tr", "track", "ul", "wbr", "xmp"]

/-! ## Putting nodes -/

/-- Where a node is put. -/
inductive Spot where
  /-- behind the children of a node -/
  | inside (parent : NodeId)
  /-- right before a node -/
  | before (mark : NodeId)

/-- The node that holds what an element holds: for a template, its fragment. -/
def holder (d : Draft) (id : NodeId) : NodeId :=
  if (d.element id).isHtml ["template"] then (d.children id)[0]?.getD id else id

/-- Elements of a table that hold no text and few elements. -/
def tableNames : List String := ["table", "tbody", "tfoot", "thead", "tr"]

/-- The spot outside the innermost table, or in the innermost template inside it. -/
def fosterSpot (d : Draft) : List NodeId → Spot
  | [] => .inside root
  | id :: ids =>
    if (d.element id).isHtml ["template"] then .inside (holder d id)
    else if (d.element id).isHtml ["table"] then
      if (d.parent? id).isSome then .before id else .inside (ids.headD root)
    else fosterSpot d ids

/-- The spot for a node that belongs into `target`. -/
def spotIn (target : NodeId) : Build Spot := do
  let b ← get
  return if b.fostering && (b.draft.element target).isHtml tableNames then
    fosterSpot b.draft b.stack
  else .inside (holder b.draft target)

/-- Puts a node. -/
def put (id : NodeId) : Spot → Build Unit
  | .inside parent => edit (Draft.append parent id)
  | .before mark => edit (Draft.insertBefore mark id)

/-- Adds a node that nothing holds. -/
def add (kind : Kind) : Build NodeId := do
  let id := (← get).draft.cells.size
  edit (Draft.add kind)
  return id

/-- Adds an element that nothing holds; a template gets its fragment. -/
def addElement (e : Element) : Build NodeId := do
  let id ← add (.element e)
  if e.isHtml ["template"] then
    let fragment ← add .fragment
    edit (Draft.append id fragment)
  return id

/-- Adds an element to the innermost open one without opening it. -/
def insertClosed (e : Element) : Build NodeId := do
  let id ← addElement e
  put id (← spotIn (← current))
  return id

/-- Adds an element to the innermost open one and opens it. -/
def insert (e : Element) : Build NodeId := do
  let id ← insertClosed e
  push id
  return id

/-- Adds the element that a tag starts and opens it. -/
def insertTag (tag : Tag) : Build Unit := do let _ ← insert tag.element

/-- Adds the element that a tag starts without opening it. -/
def insertVoid (tag : Tag) : Build Unit := do let _ ← insertClosed tag.element

/-- Opens an element that no tag asked for. -/
def insertImplied (name : String) : Build Unit := do let _ ← insert ⟨.html, name, []⟩

/-- Adds text to the innermost open element. -/
def insertText (cs : List Char) : Build Unit := do
  if !cs.isEmpty then
    match ← spotIn (← current) with
    | .inside parent => edit (Draft.appendText parent (String.ofList cs))
    | .before mark => edit (Draft.insertText mark (String.ofList cs))

/-- Adds a comment to the innermost open element. -/
def insertComment (s : String) : Build Unit := do
  let id ← add (.leaf (.comment s))
  put id (← spotIn (← current))

/-- Adds a comment beside the root element. -/
def insertCommentBeside (s : String) : Build Unit :=
  modify fun b =>
    if b.stack.isEmpty then { b with before := .comment s :: b.before }
    else { b with after := .comment s :: b.after }

end Build
end SchemaExtraction.Markup
