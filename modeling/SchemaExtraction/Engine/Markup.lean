import SchemaExtraction.Engine.Basic
import SchemaExtraction.Markup.Builder.Parse
import SchemaExtraction.Markup.Removal
import SchemaExtraction.Markup.Selector.Reader
import SchemaExtraction.Markup.Serialization
import SchemaExtraction.Text.Blank
import SchemaExtraction.Text.Case
import SchemaExtraction.Value.Template

/-!
# The engine for pages

A page is parsed anew for each step. What the unselector of the step matches is taken away before
the selector is looked at. A step without a property gives all matches as they are written, the
length property counts them, and any other property is that of the first match.
-/

namespace SchemaExtraction.Markup

/-- The name of the engine. -/
def name : String := "markup"

/-- Reads a list of selectors. One reason stands for all that the parser of selectors can have to
    say of a text that is none: which it is depends on how the parser goes about it, and nothing
    but the text of the error shows it. -/
def readGroup (text : String) : Except StepError Group :=
  match Group.read? text with
  | some group => .ok group
  | none => .error (.badSelector text "not a list of selectors")

/-- A page without the elements that a list of selectors matches. -/
def Page.remove (group : Group) (page : Page) : Page := page.detach (Group.matches group)

/-- A page without the elements that a template of a list of selectors matches. A blank one
    matches nothing. -/
def Page.unselect (template : String) (reference : Value) (page : Page) :
    Except StepError Page := do
  let text := Template.interpolate template reference
  if (Text.trim text.toList).isEmpty then return page
  else return page.remove (← readGroup text)

/-- A property of an element: what it holds, its name, its text or the value of an attribute. -/
def Place.property? (p : Place) (property : String) : Option String :=
  match p with
  | .at e _ _ _ _ =>
    match property with
    | "innerHTML" => some (String.ofList p.inner)
    | "outerHTML" => some (String.ofList p.outer)
    | "tagName" | "nodeName" => some (String.ofList (Text.toUpper e.name.toList))
    | "textContent" | "innerText" => some (String.ofList p.text)
    | other => e.attribute? other
  | _ => none

/-- The value of a step on the elements that its selector matches. -/
def present (found : List Place) : Option String → Value
  | none => .arr (found.map fun p => .str (String.ofList p.outer))
  | some property =>
    if property = Reserved.length then .ofNat found.length
    else
      match found with
      | [] => .empty
      | p :: _ =>
        if property = Reserved.text then .str (String.ofList p.text)
        else .str ((p.property? property).getD "")

/-- The value of a step with a selector on a page. -/
def select (page : Page) (selector : String) (step : Step) (reference : Value) :
    Except StepError Value := do
  let page ← match step.unselector with
    | some template => page.unselect template reference
    | none => pure page
  let group ← readGroup selector
  return present (page.select group) step.property

/-- Resolves a step; a document that is no text or an empty one gives the empty text. -/
def resolve (document : Value) (step : Step) (reference : Value) : Except StepError Value :=
  match document with
  | .str text =>
    if text.isEmpty then .ok .empty
    else
      match Engine.plan name document step reference with
      | .ok (.resolved v) => .ok v
      | .ok (.select selector) => select (Page.parse text) selector step reference
      | .error e => .error e
  | _ => .ok .empty

/-- Removes from a page what some selectors match, read as one list. -/
def cleanPage (text : String) (selectors : List String) : Except StepError String := do
  let group ← readGroup (",".intercalate selectors)
  return String.ofList ((Page.parse text).remove group).write

/-- Removes from a document what some selectors match; without selectors, and for a document that
    is no text or an empty one, nothing changes. -/
def clean (document : Value) (selectors : List String) : Except StepError Value :=
  match document with
  | .str text =>
    if selectors.isEmpty || text.isEmpty then .ok document
    else (cleanPage text selectors).map .str
  | _ => .ok document

/-- The engine. -/
def engine {m : Type → Type} [Monad m] : Engine m := Engine.ofFunctions name resolve clean

end SchemaExtraction.Markup
