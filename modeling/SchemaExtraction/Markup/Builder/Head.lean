import SchemaExtraction.Markup.Builder.Formatting

/-!
# Rules before the body

What comes before the body of a page: its document type, the root element, the head and what
belongs into it. Elements that a page leaves out are opened without their tags. Templates and
elements that hold only text follow the same rules wherever they stand.
-/

namespace SchemaExtraction.Markup.Build

/-- Opens an element that holds only text. -/
def insertTextual (tag : Tag) (mode : TextMode) : Build Unit := do
  insertTag tag
  modify fun b => { b with textMode := mode, returnMode := b.mode, mode := .inText }

/-- The mode for the open elements, given innermost first. -/
def modeFor (b : Builder) : List NodeId → Mode
  | [] => .inBody
  | id :: outer =>
    let e := b.draft.element id
    if e.isHtml ["select"] then
      let around := outer.find? fun n => (b.draft.element n).isHtml ["template", "table"]
      match around with
      | some n => if (b.draft.element n).isHtml ["table"] then .inSelectInTable else .inSelect
      | none => .inSelect
    else if e.isHtml ["td", "th"] && !outer.isEmpty then .inCell
    else if e.isHtml ["tr"] then .inRow
    else if e.isHtml ["tbody", "thead", "tfoot"] then .inTableBody
    else if e.isHtml ["caption"] then .inCaption
    else if e.isHtml ["colgroup"] then .inColumnGroup
    else if e.isHtml ["table"] then .inTable
    else if e.isHtml ["template"] then b.templates.headD .inTemplate
    else if e.isHtml ["head"] && !outer.isEmpty then .inHead
    else if e.isHtml ["body"] then .inBody
    else if e.isHtml ["frameset"] then .inFrameset
    else if e.isHtml ["html"] then if b.head.isNone then .beforeHead else .afterHead
    else modeFor b outer

/-- Goes over to the mode for the open elements. -/
def resetMode : Build Unit := modify fun b => { b with mode := modeFor b b.stack }

/-- Goes over to the mode for the open elements and handles the token again. -/
def againAfterReset : Build Outcome := do
  resetMode
  return .again

/-! ## Templates -/

/-- Opens a template. -/
def openTemplate (tag : Tag) : Build Unit := do
  insertTag tag
  addMarker
  forbidFrameset
  modify fun b => { b with mode := .inTemplate, templates := .inTemplate :: b.templates }

/-- Leaves the innermost template after its elements have been closed. -/
def leaveTemplate : Build Unit := do
  clearToMarker
  modify fun b => { b with templates := b.templates.drop 1 }
  resetMode

/-- Closes the innermost template. -/
def closeTemplate : Build Unit := do
  if ← isOpen ["template"] then
    closeImplied impliedTemplateNames
    popThrough ["template"]
    leaveTemplate

/-- Handles the end of the page in templates. -/
def finishTemplates : Build Outcome := do
  if ← isOpen ["template"] then
    popThrough ["template"]
    leaveTemplate
    return .again
  else done

/-! ## The head -/

/-- Gives the root element the attributes of a repeated tag that it lacks. -/
def mergeRoot (tag : Tag) : Build Unit := do
  if !(← isOpen ["template"]) then edit (Draft.changeElement root (·.addMissing tag.attributes))

/-- Elements that belong into the head and hold nothing. -/
def headVoidNames : List String := ["base", "basefont", "bgsound", "link", "meta"]

/-- Elements that belong into the head. -/
def headNames : List String :=
  headVoidNames ++ ["noframes", "script", "style", "template", "title"]

/-- End tags that open what a page has left out, like start tags of the body. -/
def openingEnds : List String := ["head", "body", "html", "br"]

/-- Opens the root element. -/
def beforeHtml (token : Token) : Build Outcome := do
  match token with
  | .space _ => done
  | .comment s => insertCommentBeside s; done
  | .startTag tag =>
    if tag.name = "html" then
      edit (Draft.changeElement root ({ · with attributes := tag.attributes }))
      push root
      switchTo .beforeHead
      done
    else push root; againIn .beforeHead
  | .endTag name =>
    if openingEnds.contains name then push root; againIn .beforeHead else done
  | _ => push root; againIn .beforeHead

/-- Handles the first token. -/
def initial (token : Token) : Build Outcome := do
  match token with
  | .space _ => done
  | .comment s => insertCommentBeside s; done
  | .doctype d =>
    modify fun b => { b with
      before := .doctype (d.name.getD "") :: b.before
      legacy := d.isLegacy
      mode := .beforeHtml }
    done
  | _ =>
    modify ({ · with legacy := true })
    againIn .beforeHtml

/-- Opens the head. -/
def beforeHead (token : Token) : Build Outcome := do
  let openHead : Build Outcome := do
    let id ← insert ⟨.html, "head", []⟩
    modify ({ · with head := some id })
    againIn .inHead
  match token with
  | .space _ => done
  | .comment s => insertComment s; done
  | .startTag tag =>
    if tag.name = "html" then mergeRoot tag; done
    else if tag.name = "head" then
      let id ← insert tag.element
      modify ({ · with head := some id })
      switchTo .inHead
      done
    else openHead
  | .endTag name => if openingEnds.contains name then openHead else done
  | _ => openHead

/-- The rules in the head. -/
def inHead (token : Token) : Build Outcome := do
  let leave : Build Outcome := do
    pop
    againIn .afterHead
  match token with
  | .space cs => insertText cs; done
  | .comment s => insertComment s; done
  | .startTag tag =>
    if tag.name = "html" then mergeRoot tag; done
    else if headVoidNames.contains tag.name then insertVoid tag; done
    else if tag.name = "title" then insertTextual tag (.escapable tag.name); done
    else if ["noframes", "style", "noscript"].contains tag.name then
      insertTextual tag (.raw tag.name)
      done
    else if tag.name = "script" then insertTextual tag .script; done
    else if tag.name = "template" then openTemplate tag; done
    else if tag.name = "head" then done
    else leave
  | .endTag name =>
    if name = "head" then pop; switchTo .afterHead; done
    else if name = "template" then closeTemplate; done
    else if ["body", "html", "br"].contains name then leave
    else done
  | _ => leave

/-- The rules between the head and the body. -/
def afterHead (token : Token) : Build Outcome := do
  let openBody : Build Outcome := do
    insertImplied "body"
    againIn .inBody
  match token with
  | .space cs => insertText cs; done
  | .comment s => insertComment s; done
  | .startTag tag =>
    if tag.name = "html" then mergeRoot tag; done
    else if tag.name = "body" then
      insertTag tag
      forbidFrameset
      switchTo .inBody
      done
    else if tag.name = "frameset" then insertTag tag; switchTo .inFrameset; done
    else if headNames.contains tag.name then
      match (← get).head with
      | some head =>
        push head
        let outcome ← inHead token
        removeFromStack head
        return outcome
      | none => inHead token
    else if tag.name = "head" then done
    else openBody
  | .endTag name =>
    if name = "template" then closeTemplate; done
    else if ["body", "html", "br"].contains name then openBody
    else done
  | _ => openBody

end SchemaExtraction.Markup.Build
