import SchemaExtraction.Markup.Builder.Foreign
import SchemaExtraction.Markup.Builder.Head

/-!
# Rules in the body

Most elements are simply opened and closed. A paragraph ends where a block starts, list items and
their like end where the next one starts, and an end tag closes what was left open inside its
element.
-/

namespace SchemaExtraction.Markup.Build

/-- Blocks: elements that end a paragraph and are closed by their own end tag. -/
def blockNames : List String :=
  ["address", "article", "aside", "blockquote", "center", "details", "dialog", "dir", "div",
    "dl", "fieldset", "figcaption", "figure", "footer", "header", "hgroup", "main", "menu",
    "nav", "ol", "search", "section", "summary", "ul"]

/-- Headings. -/
def headingNames : List String := ["h1", "h2", "h3", "h4", "h5", "h6"]

/-- Elements that format text. -/
def formattingNames : List String :=
  ["b", "big", "code", "em", "font", "i", "s", "small", "strike", "strong", "tt", "u"]

/-- Elements that hold other documents. -/
def objectNames : List String := ["applet", "marquee", "object"]

/-- Elements in text that hold nothing. -/
def inlineVoidNames : List String := ["area", "br", "embed", "img", "keygen", "wbr"]

/-- Parts of tables and pages whose start tags mean nothing in the body. -/
def strayNames : List String :=
  ["caption", "col", "colgroup", "frame", "head", "tbody", "td", "tfoot", "th", "thead", "tr"]

/-- The body, if it is the second open element. -/
def body? (b : Builder) : Option NodeId :=
  match b.stack.reverse with
  | _ :: id :: _ => if (b.draft.element id).isHtml ["body"] then some id else none
  | _ => none

/-- Whether a tag starts a hidden input. -/
def isHiddenInput (tag : Tag) : Bool :=
  match tag.element.attribute? "type" with
  | some type => type.toList.map Char.toLower = "hidden".toList
  | none => false

/-! ## Start tags -/

/-- Gives the body the attributes of a repeated tag that it lacks. -/
def mergeBody (tag : Tag) : Build Unit := do
  match body? (← get) with
  | some id =>
    if !(← isOpen ["template"]) then
      forbidFrameset
      edit (Draft.changeElement id (·.addMissing tag.attributes))
  | none => return

/-- Puts a frame set in the place of the body. -/
def replaceBody (tag : Tag) : Build Unit := do
  let b ← get
  if b.framesetAllowed then
    match body? b with
    | some id =>
      edit (Draft.detach id)
      modify ({ · with stack := [root] })
      insertTag tag
      switchTo .inFrameset
    | none => return

/-- The innermost item of a list that a new one closes, unless another element is in the way. -/
def openItem? (d : Draft) (names : List String) : List NodeId → Option String
  | [] => none
  | id :: ids =>
    let e := d.element id
    if e.isHtml names then some e.name
    else if e.isHtml specialNames && !e.isHtml ["address", "div", "p"] then none
    else openItem? d names ids

/-- Opens an item of a list after closing the one before it. -/
def insertItem (names : List String) (tag : Tag) : Build Unit := do
  forbidFrameset
  let b ← get
  match openItem? b.draft names b.stack with
  | some name =>
    closeImpliedBut name
    popThrough [name]
  | none => pure ()
  closeOpenParagraph
  insertTag tag

/-- Opens a form unless one is open. -/
def insertForm (tag : Tag) : Build Unit := do
  let inTemplate ← isOpen ["template"]
  if inTemplate || (← get).form.isNone then
    closeOpenParagraph
    let id ← insert tag.element
    if !inTemplate then modify ({ · with form := some id })

/-- Adds an element in text that holds nothing. -/
def insertInlineVoid (tag : Tag) : Build Unit := do
  reopenFormatting
  insertVoid tag
  if !(tag.name = "input" && isHiddenInput tag) then forbidFrameset

/-- Opens an element after text has been formatted again. -/
def insertInline (tag : Tag) : Build Unit := do
  reopenFormatting
  insertTag tag

/-- Opens a selection. -/
def insertSelect (tag : Tag) : Build Unit := do
  insertInline tag
  forbidFrameset
  modify fun b => { b with
    mode :=
      if [Mode.inTable, .inCaption, .inTableBody, .inRow, .inCell].contains b.mode then
        .inSelectInTable
      else .inSelect }

/-- Start tags of elements that end paragraphs, text of their own kind included; whether the tag
    was one. -/
def bodyBlock (tag : Tag) : Build Bool := do
  let name := tag.name
  if name = "p" || blockNames.contains name then
    closeOpenParagraph
    insertTag tag
    return true
  else if headingNames.contains name then
    closeOpenParagraph
    if ← currentIs headingNames then pop
    insertTag tag
    return true
  else if name = "pre" || name = "listing" then
    closeOpenParagraph
    insertTag tag
    forbidFrameset
    modify ({ · with skipLine := true })
    return true
  else if name = "form" then insertForm tag; return true
  else if name = "li" then insertItem ["li"] tag; return true
  else if name = "dd" || name = "dt" then insertItem ["dd", "dt"] tag; return true
  else if name = "plaintext" then
    closeOpenParagraph
    insertTag tag
    modify ({ · with textMode := .plain })
    return true
  else if name = "table" then
    if !(← get).legacy then closeOpenParagraph
    insertTag tag
    forbidFrameset
    switchTo .inTable
    return true
  else if name = "hr" then
    closeOpenParagraph
    insertVoid tag
    forbidFrameset
    return true
  else if name = "xmp" then
    closeOpenParagraph
    reopenFormatting
    forbidFrameset
    insertTextual tag (.raw name)
    return true
  else return false

/-- Start tags of elements in text; whether the tag was one. -/
def bodyInline (tag : Tag) : Build Bool := do
  let name := tag.name
  if name = "button" then
    if ← inScope endsScope ["button"] then
      closeImplied impliedNames
      popThrough ["button"]
    insertInline tag
    forbidFrameset
    return true
  else if name = "a" then
    closeLink
    reopenFormatting
    insertFormattingTag tag
    return true
  else if formattingNames.contains name then
    reopenFormatting
    insertFormattingTag tag
    return true
  else if name = "nobr" then
    reopenFormatting
    if ← inScope endsScope ["nobr"] then
      closeFormatting "nobr"
      reopenFormatting
    insertFormattingTag tag
    return true
  else if objectNames.contains name then
    insertInline tag
    addMarker
    forbidFrameset
    return true
  else if name = "input" || inlineVoidNames.contains name then
    insertInlineVoid tag
    return true
  else if name = "image" then insertInlineVoid { tag with name := "img" }; return true
  else if ["param", "source", "track"].contains name then insertVoid tag; return true
  else if name = "textarea" then
    modify ({ · with skipLine := true })
    forbidFrameset
    insertTextual tag (.escapable name)
    return true
  else if name = "iframe" then
    forbidFrameset
    insertTextual tag (.raw name)
    return true
  else if name = "noembed" || name = "noscript" then
    insertTextual tag (.raw name)
    return true
  else if name = "select" then insertSelect tag; return true
  else if name = "option" || name = "optgroup" then
    if ← currentIs ["option"] then pop
    insertInline tag
    return true
  else if name = "rb" || name = "rtc" then
    if ← inScope endsScope ["ruby"] then closeImplied impliedNames
    insertTag tag
    return true
  else if name = "rp" || name = "rt" then
    if ← inScope endsScope ["ruby"] then closeImpliedBut "rtc"
    insertTag tag
    return true
  else if name = "math" then
    insertForeign .mathml tag
    return true
  else if name = "svg" then
    insertForeign .svg tag
    return true
  else return false

/-- Handles a start tag in the body. -/
def bodyStart (tag : Tag) : Build Outcome := do
  let name := tag.name
  if name = "html" then mergeRoot tag; done
  else if headNames.contains name then inHead (.startTag tag)
  else if name = "body" then mergeBody tag; done
  else if name = "frameset" then replaceBody tag; done
  else if strayNames.contains name then done
  else
    if !(← bodyBlock tag) then
      if !(← bodyInline tag) then insertInline tag
    done

/-! ## End tags -/

/-- Closes an element that is in scope, and what was left open in it. -/
def closeInScope (name : String) : Build Unit := do
  if ← inScope endsScope [name] then
    closeImplied impliedNames
    popThrough [name]

/-- Closes the open form. -/
def closeForm : Build Unit := do
  if ← isOpen ["template"] then closeInScope "form"
  else
    let b ← get
    modify ({ · with form := none })
    match b.form with
    | some id =>
      if scopeHolds b.draft endsScope (· = id) b.stack then
        closeImplied impliedNames
        removeFromStack id
    | none => return

/-- Handles an end tag in the body. -/
def bodyEnd (name : String) : Build Outcome := do
  if name = "template" then closeTemplate; done
  else if name = "body" then
    if ← inScope endsScope ["body"] then switchTo .afterBody
    done
  else if name = "html" then
    if ← inScope endsScope ["body"] then againIn .afterBody else done
  else if name = "form" then closeForm; done
  else if name = "p" then
    if !(← inScope endsButtonScope ["p"]) then insertImplied "p"
    closeParagraph
    done
  else if name = "li" then
    if ← inScope endsListScope ["li"] then
      closeImpliedBut "li"
      popThrough ["li"]
    done
  else if name = "dd" || name = "dt" then
    if ← inScope endsScope [name] then
      closeImpliedBut name
      popThrough [name]
    done
  else if headingNames.contains name then
    if ← inScope endsScope headingNames then
      closeImplied impliedNames
      popThrough headingNames
    done
  else if blockNames.contains name || ["button", "listing", "pre"].contains name then
    closeInScope name
    done
  else if objectNames.contains name then
    if ← inScope endsScope [name] then
      closeInScope name
      clearToMarker
    done
  else if name = "a" || name = "nobr" || formattingNames.contains name then
    closeFormatting name
    done
  else if name = "br" then insertInlineVoid ⟨"br", [], false⟩; done
  else closeNamed name; done

/-! ## The body -/

/-- The rules in the body. -/
def inBody (token : Token) : Build Outcome := do
  match token with
  | .space cs => reopenFormatting; insertText cs; done
  | .word cs => reopenFormatting; forbidFrameset; insertText cs; done
  | .comment s => insertComment s; done
  | .startTag tag => bodyStart tag
  | .endTag name => bodyEnd name
  | .finish => if (← get).templates.isEmpty then done else finishTemplates
  | .null | .doctype _ | .fault => done

/-- The rules in elements that hold only text. -/
def inText (token : Token) : Build Outcome := do
  match token with
  | .space cs => insertText cs; done
  | .word cs => insertText cs; done
  | .endTag _ =>
    pop
    modify fun b => { b with mode := b.returnMode, textMode := .markup }
    done
  | .finish =>
    pop
    againIn (← get).returnMode
  | _ => done

/-- The rules in templates. -/
def inTemplate (token : Token) : Build Outcome := do
  let goOn (mode : Mode) : Build Outcome := do
    modify fun b => { b with templates := mode :: b.templates.drop 1 }
    againIn mode
  match token with
  | .startTag tag =>
    let name := tag.name
    if headNames.contains name then inHead token
    else if ["caption", "colgroup", "tbody", "tfoot", "thead"].contains name then goOn .inTable
    else if name = "col" then goOn .inColumnGroup
    else if name = "tr" then goOn .inTableBody
    else if name = "td" || name = "th" then goOn .inRow
    else goOn .inBody
  | .endTag name =>
    if name = "template" then closeTemplate
    done
  | .finish => finishTemplates
  | .null => done
  | _ => inBody token

/-- The rules after the body. -/
def afterBody (token : Token) : Build Outcome := do
  match token with
  | .space _ => inBody token
  | .comment s =>
    let id ← add (.leaf (.comment s))
    edit (Draft.append root id)
    done
  | .startTag tag => if tag.name = "html" then mergeRoot tag; done else againIn .inBody
  | .endTag name => if name = "html" then switchTo .afterAfterBody; done else againIn .inBody
  | .finish => done
  | _ => againIn .inBody

/-- The rules after the root element. -/
def afterAfterBody (token : Token) : Build Outcome := do
  match token with
  | .space _ => inBody token
  | .comment s => insertCommentBeside s; done
  | .startTag tag => if tag.name = "html" then mergeRoot tag; done else againIn .inBody
  | .finish => done
  | _ => againIn .inBody

/-! ## Frame sets -/

/-- The rules in a frame set. -/
def inFrameset (token : Token) : Build Outcome := do
  match token with
  | .space cs => insertText cs; done
  | .comment s => insertComment s; done
  | .startTag tag =>
    if tag.name = "html" then mergeRoot tag; done
    else if tag.name = "frameset" then insertTag tag; done
    else if tag.name = "frame" then insertVoid tag; done
    else if tag.name = "noframes" then inHead token
    else done
  | .endTag name =>
    if name = "frameset" && 1 < (← get).stack.length then
      pop
      if !(← currentIs ["frameset"]) then switchTo .afterFrameset
    done
  | _ => done

/-- The rules after a frame set. -/
def afterFrameset (token : Token) : Build Outcome := do
  match token with
  | .space cs => insertText cs; done
  | .comment s => insertComment s; done
  | .startTag tag =>
    if tag.name = "html" then mergeRoot tag; done
    else if tag.name = "noframes" then inHead token
    else done
  | .endTag name => if name = "html" then switchTo .afterAfterFrameset; done else done
  | _ => done

/-- The rules after the root element of a page with a frame set. -/
def afterAfterFrameset (token : Token) : Build Outcome := do
  match token with
  | .space _ => inBody token
  | .comment s => insertCommentBeside s; done
  | .startTag tag =>
    if tag.name = "html" then mergeRoot tag; done
    else if tag.name = "noframes" then inHead token
    else done
  | _ => done

end SchemaExtraction.Markup.Build
