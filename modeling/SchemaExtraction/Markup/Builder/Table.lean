import SchemaExtraction.Markup.Builder.Body

/-!
# Rules in tables and selections

Parts of tables open and close the parts around them. What does not belong into a table goes
before it. A selection holds little more than its options.
-/

namespace SchemaExtraction.Markup.Build

/-- Parts of tables that close the part that they do not belong into. -/
def partNames : List String := ["caption", "col", "colgroup", "tbody", "tfoot", "thead"]

/-- Groups of rows. -/
def groupNames : List String := ["tbody", "tfoot", "thead"]

/-- Handles a token of the body, whose nodes go before the table. -/
def fosterInBody (token : Token) : Build Outcome := do
  modify ({ · with fostering := true })
  let outcome ← inBody token
  modify ({ · with fostering := false })
  return outcome

/-- Closes the elements in a table down to the table itself. -/
def clearToTable : Build Unit := popTo ["html", "table", "template"]

/-- Closes the elements in a group of rows. -/
def clearToGroup : Build Unit := popTo ("template" :: "html" :: groupNames)

/-- Closes the elements in a row. -/
def clearToRow : Build Unit := popTo ["tr", "template", "html"]

/-- Text in a table waits for what comes next. -/
def deferText (token : Token) : Build Outcome := do
  if ← currentIs tableNames then
    modify fun b => { b with returnMode := b.mode, mode := .inTableText }
    return .again
  else fosterInBody token

/-- Start tags in a table. -/
def tableStart (tag : Tag) : Build Outcome := do
  let name := tag.name
  if name = "caption" then
    clearToTable
    addMarker
    insertTag tag
    switchTo .inCaption
    done
  else if name = "colgroup" then
    clearToTable
    insertTag tag
    switchTo .inColumnGroup
    done
  else if name = "col" then
    clearToTable
    insertImplied "colgroup"
    againIn .inColumnGroup
  else if groupNames.contains name then
    clearToTable
    insertTag tag
    switchTo .inTableBody
    done
  else if ["td", "th", "tr"].contains name then
    clearToTable
    insertImplied "tbody"
    againIn .inTableBody
  else if name = "table" then
    if ← inScope endsTableScope ["table"] then
      popThrough ["table"]
      againAfterReset
    else done
  else if ["style", "script", "template"].contains name then inHead (.startTag tag)
  else if name = "input" && isHiddenInput tag then insertVoid tag; done
  else if name = "form" then
    if !(← isOpen ["template"]) && (← get).form.isNone then
      let id ← insertClosed tag.element
      modify ({ · with form := some id })
    done
  else fosterInBody (.startTag tag)

/-- The rules in a table. -/
def inTable (token : Token) : Build Outcome := do
  match token with
  | .space _ | .word _ | .null => deferText token
  | .comment s => insertComment s; done
  | .startTag tag => tableStart tag
  | .endTag name =>
    if name = "table" then
      if ← inScope endsTableScope ["table"] then
        popThrough ["table"]
        resetMode
      done
    else if name = "template" then closeTemplate; done
    else if ["body", "caption", "col", "colgroup", "html", "tbody", "td", "tfoot", "th",
        "thead", "tr"].contains name then done
    else fosterInBody token
  | .finish => inBody token
  | .doctype _ | .fault => done

/-- Puts the text that has waited before the table. -/
def fosterAll : List Token → Build Unit
  | [] => return
  | token :: tokens => do
    let _ ← fosterInBody token
    fosterAll tokens

/-- Whether a token is text other than white space. -/
def isWord : Token → Bool
  | .word _ => true
  | _ => false

/-- The characters of text. -/
def characters : Token → List Char
  | .space cs => cs
  | .word cs => cs
  | _ => []

/-- The rules for text in a table: all goes before the table unless all is white space. -/
def inTableText (token : Token) : Build Outcome := do
  match token with
  | .null => done
  | .space _ | .word _ =>
    modify fun b => { b with pending := token :: b.pending }
    done
  | _ =>
    let b ← get
    let pending := b.pending.reverse
    modify ({ · with pending := [] })
    if pending.any isWord then fosterAll pending
    else insertText (pending.flatMap characters)
    againIn b.returnMode

/-- The rules in the caption of a table. -/
def inCaption (token : Token) : Build Outcome := do
  let close (next : Build Outcome) : Build Outcome := do
    if ← inScope endsTableScope ["caption"] then
      closeImplied impliedNames
      popThrough ["caption"]
      clearToMarker
      next
    else done
  match token with
  | .startTag tag =>
    if partNames.contains tag.name || ["td", "th", "tr"].contains tag.name then
      close (againIn .inTable)
    else inBody token
  | .endTag name =>
    if name = "caption" then
      close do
        switchTo .inTable
        done
    else if name = "table" then close (againIn .inTable)
    else if ["body", "col", "colgroup", "html", "tbody", "td", "tfoot", "th", "thead",
        "tr"].contains name then done
    else inBody token
  | _ => inBody token

/-- The rules among the columns of a table. -/
def inColumnGroup (token : Token) : Build Outcome := do
  let leave : Build Outcome := do
    if ← currentIs ["colgroup"] then
      pop
      againIn .inTable
    else done
  match token with
  | .space cs => insertText cs; done
  | .comment s => insertComment s; done
  | .startTag tag =>
    if tag.name = "html" then mergeRoot tag; done
    else if tag.name = "col" then insertVoid tag; done
    else if tag.name = "template" then openTemplate tag; done
    else leave
  | .endTag name =>
    if name = "colgroup" then
      if ← currentIs ["colgroup"] then
        pop
        switchTo .inTable
      done
    else if name = "col" then done
    else if name = "template" then closeTemplate; done
    else leave
  | .finish => inBody token
  | _ => leave

/-- The rules in a group of rows. -/
def inTableBody (token : Token) : Build Outcome := do
  let leave : Build Outcome := do
    if ← inScope endsTableScope ["table", "tbody", "tfoot"] then
      clearToGroup
      pop
      againIn .inTable
    else done
  match token with
  | .startTag tag =>
    if tag.name = "tr" then
      clearToGroup
      insertTag tag
      switchTo .inRow
      done
    else if tag.name = "th" || tag.name = "td" then
      clearToGroup
      insertImplied "tr"
      againIn .inRow
    else if partNames.contains tag.name then leave
    else inTable token
  | .endTag name =>
    if groupNames.contains name then
      if ← inScope endsTableScope [name] then
        clearToGroup
        pop
        switchTo .inTable
      done
    else if name = "table" then leave
    else if ["body", "caption", "col", "colgroup", "html", "td", "th", "tr"].contains name then
      done
    else inTable token
  | _ => inTable token

/-- The rules in a row. -/
def inRow (token : Token) : Build Outcome := do
  let leave : Build Outcome := do
    if ← inScope endsTableScope ["tr"] then
      clearToRow
      pop
      againIn .inTableBody
    else done
  match token with
  | .startTag tag =>
    if tag.name = "th" || tag.name = "td" then
      clearToRow
      insertTag tag
      switchTo .inCell
      addMarker
      done
    else if tag.name = "tr" || partNames.contains tag.name then leave
    else inTable token
  | .endTag name =>
    if name = "tr" then
      if ← inScope endsTableScope ["tr"] then
        clearToRow
        pop
        switchTo .inTableBody
      done
    else if name = "table" then leave
    else if groupNames.contains name then
      if ← inScope endsTableScope [name] then leave else done
    else if ["body", "caption", "col", "colgroup", "html", "td", "th"].contains name then done
    else inTable token
  | _ => inTable token

/-- Closes the open cell. -/
def closeCell : Build Unit := do
  closeImplied impliedNames
  popThrough ["td", "th"]
  clearToMarker

/-- The rules in a cell. -/
def inCell (token : Token) : Build Outcome := do
  let leave (names : List String) : Build Outcome := do
    if ← inScope endsTableScope names then
      closeCell
      againIn .inRow
    else done
  match token with
  | .startTag tag =>
    if partNames.contains tag.name || ["td", "th", "tr"].contains tag.name then
      leave ["td", "th"]
    else inBody token
  | .endTag name =>
    if name = "td" || name = "th" then
      if ← inScope endsTableScope [name] then
        closeImplied impliedNames
        popThrough [name]
        clearToMarker
        switchTo .inRow
      done
    else if ["body", "caption", "col", "colgroup", "html"].contains name then done
    else if name = "table" || name = "tr" || groupNames.contains name then leave [name]
    else inBody token
  | _ => inBody token

/-! ## Selections -/

/-- Closes the innermost selection and handles the token again. -/
def leaveSelect : Build Outcome := do
  popThrough ["select"]
  againAfterReset

/-- The rules in a selection. -/
def inSelect (token : Token) : Build Outcome := do
  match token with
  | .null | .doctype _ | .fault => done
  | .space cs => insertText cs; done
  | .word cs => insertText cs; done
  | .comment s => insertComment s; done
  | .startTag tag =>
    let name := tag.name
    if name = "html" then mergeRoot tag; done
    else if name = "option" then
      if ← currentIs ["option"] then pop
      insertTag tag
      done
    else if name = "optgroup" then
      if ← currentIs ["option"] then pop
      if ← currentIs ["optgroup"] then pop
      insertTag tag
      done
    else if name = "hr" then
      if ← currentIs ["option"] then pop
      if ← currentIs ["optgroup"] then pop
      insertVoid tag
      done
    else if name = "select" then
      if ← inScope endsSelectScope ["select"] then
        popThrough ["select"]
        resetMode
      done
    else if ["input", "keygen", "textarea"].contains name then
      if ← inScope endsSelectScope ["select"] then leaveSelect else done
    else if name = "script" || name = "template" then inHead token
    else done
  | .endTag name =>
    if name = "optgroup" then
      let b ← get
      if (← currentIs ["option"]) &&
          (b.draft.element (b.stack.drop 1 |>.headD root)).isHtml ["optgroup"] then pop
      if ← currentIs ["optgroup"] then pop
      done
    else if name = "option" then
      if ← currentIs ["option"] then pop
      done
    else if name = "select" then
      if ← inScope endsSelectScope ["select"] then
        popThrough ["select"]
        resetMode
      done
    else if name = "template" then closeTemplate; done
    else done
  | .finish => inBody token

/-- The rules in a selection that stands in a table. -/
def inSelectInTable (token : Token) : Build Outcome := do
  let names := ["caption", "table", "tbody", "tfoot", "thead", "tr", "td", "th"]
  match token with
  | .startTag tag => if names.contains tag.name then leaveSelect else inSelect token
  | .endTag name =>
    if names.contains name then
      if ← inScope endsTableScope [name] then leaveSelect else done
    else inSelect token
  | _ => inSelect token

end SchemaExtraction.Markup.Build
