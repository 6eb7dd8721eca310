import SchemaExtraction.Markup.Builder.Table
import SchemaExtraction.Markup.Place

/-!
# Parsing pages

Any text is a page: the machine runs over its tokens to their end, and what it has built is read
off.
-/

namespace SchemaExtraction.Markup

namespace Build

/-- Handles a token by the rules of the mode. -/
def rules (token : Token) : Build Outcome := do
  match (← get).mode with
  | .initial => initial token
  | .beforeHtml => beforeHtml token
  | .beforeHead => beforeHead token
  | .inHead => inHead token
  | .afterHead => afterHead token
  | .inBody => inBody token
  | .inText => inText token
  | .inTable => inTable token
  | .inTableText => inTableText token
  | .inCaption => inCaption token
  | .inColumnGroup => inColumnGroup token
  | .inTableBody => inTableBody token
  | .inRow => inRow token
  | .inCell => inCell token
  | .inSelect => inSelect token
  | .inSelectInTable => inSelectInTable token
  | .inTemplate => inTemplate token
  | .afterBody => afterBody token
  | .inFrameset => inFrameset token
  | .afterFrameset => afterFrameset token
  | .afterAfterBody => afterAfterBody token
  | .afterAfterFrameset => afterAfterFrameset token

/-- Handles a token until it is dealt with. The fuel bounds how often its handling is passed on:
    each time elements are closed, or a mode near the start of the page is left. -/
def handle : Nat → Token → Build Unit
  | 0, _ => return
  | fuel + 1, token => do
    let outcome ← if isForeign token (← get) then foreign rules token else rules token
    match outcome with
    | .done => return
    | .again => handle fuel token

/-- A token without a line feed at its start. -/
def dropLine : Token → Token
  | .space ('\n' :: cs) => .space cs
  | .word ('\n' :: cs) => .word cs
  | token => token

/-- Handles a token. Document types after the first token mean nothing, and neither do faults and
    text that has been dropped; but a line feed after a fault does not start an element. -/
def feed (token : Token) : Build Unit := do
  let b ← get
  let token := if b.skipLine then dropLine token else token
  modify ({ · with skipLine := false })
  match token with
  | .space [] | .word [] | .fault => return
  | .doctype _ => if b.mode = .initial then handle 1 token
  | _ => handle (2 * b.stack.length + 20) token

/-- Handles tokens one after the other. -/
def feedAll : List Token → Build Unit
  | [] => return
  | token :: tokens => do
    feed token
    feedAll tokens

/-- Whether the next token is read inside an element of another vocabulary. -/
def readsForeign (b : Builder) : Bool :=
  match b.stack with
  | id :: _ => (b.draft.element id).vocabulary ≠ .html
  | [] => false

/-- A text without a byte order mark at its start. -/
def dropOrderMark : List Char → List Char
  | '\uFEFF' :: cs => cs
  | cs => cs

/-- Whether some tokens end the script that is being read. -/
def endsScript (b : Builder) (tokens : List Token) : Bool :=
  b.mode = .inText && tokens.contains (.endTag "script")

/-- Runs over the tokens of a text. What follows a script is taken up like the start of a page,
    without a byte order mark. The fuel is more than the length of the text. -/
def run : Nat → List Char → Builder → Builder
  | 0, _, b => b
  | fuel + 1, cs, b =>
    let (tokens, rest) := Token.scan b.textMode (readsForeign b) cs
    let rest := if endsScript b tokens then dropOrderMark rest else rest
    let b := (feedAll tokens b).2
    if tokens.contains .finish then b else run fuel rest b

/-- The page that has been built. -/
def page (b : Builder) : Page where
  before := b.before.reverse
  root := b.draft.element root
  content := b.draft.content root
  after := b.after.reverse

end Build

/-- The page of a text. -/
def Page.parse (text : String) : Page :=
  let cs := unifyLines (Build.dropOrderMark text.toList)
  Build.page (Build.run (cs.length + 1) cs Build.start)

end SchemaExtraction.Markup
