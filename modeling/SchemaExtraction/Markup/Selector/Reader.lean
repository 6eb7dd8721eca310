import SchemaExtraction.Markup.Selector.Component

/-!
# Reading selectors

A list of selectors is separated by commas. One that cannot be read makes the whole list
unreadable, except in `:is()` and `:where()`, where it is passed over.
-/

namespace SchemaExtraction.Markup.Selector

/-- Whether there is only white space. -/
def isBlank (cs : List Component) : Bool := (skipSpace cs).isEmpty

/-- A text in lower case. -/
def lower (s : String) : String := String.ofList (s.toList.map Char.toLower)

/-! ## Numbers of siblings -/

/-- Reads a number without a sign, and nothing after it. -/
def readUnsigned (step sign : Int) (cs : List Component) : Option (Int × Int) :=
  match skipSpace cs with
  | .lexeme (.number false (some n)) :: rest =>
    if isBlank rest then some (step, sign * n) else none
  | _ => none

/-- Reads an optional number that is added to the multiples of a step. -/
def readOffset (step : Int) (cs : List Component) : Option (Int × Int) :=
  match skipSpace cs with
  | .lexeme (.delimiter '+') :: rest => readUnsigned step 1 rest
  | .lexeme (.delimiter '-') :: rest => readUnsigned step (-1) rest
  | .lexeme (.number true (some n)) :: rest => if isBlank rest then some (step, n) else none
  | [] => some (step, 0)
  | _ => none

/-- Reads what follows a step, `unit` being the letter with what is right after it. -/
def readUnit (step : Int) (unit : String) (cs : List Component) : Option (Int × Int) :=
  match unit.toList with
  | ['n'] => readOffset step cs
  | ['n', '-'] => readUnsigned step (-1) cs
  | 'n' :: '-' :: digits =>
    if digits.all Char.isDigit && isBlank cs then
      some (step, clampNumber (-(digitsValue digits : Int)))
    else none
  | _ => none

/-- Reads a formula for the numbers of siblings: step and offset. -/
def readFormula (cs : List Component) : Option (Int × Int) :=
  match skipSpace cs with
  | .lexeme (.number _ (some n)) :: rest => if isBlank rest then some (0, n) else none
  | .lexeme (.dimension _ (some step) unit) :: rest => readUnit step (lower unit) rest
  | .lexeme (.ident name) :: rest =>
    match (lower name).toList with
    | ['e', 'v', 'e', 'n'] => if isBlank rest then some (2, 0) else none
    | ['o', 'd', 'd'] => if isBlank rest then some (2, 1) else none
    | '-' :: unit => readUnit (-1) (String.ofList unit) rest
    | unit => readUnit 1 (String.ofList unit) rest
  | .lexeme (.delimiter '+') :: .lexeme (.ident name) :: rest => readUnit 1 (lower name) rest
  | _ => none

/-! ## Attributes -/

/-- Attributes of HTML whose values are the same in any letter case. -/
def caselessAttributes : List String :=
  ["accept", "accept-charset", "align", "alink", "axis", "bgcolor", "charset", "checked",
    "clear", "codetype", "color", "compact", "declare", "defer", "dir", "direction", "disabled",
    "enctype", "face", "frame", "hreflang", "http-equiv", "lang", "language", "link", "media",
    "method", "multiple", "nohref", "noresize", "noshade", "nowrap", "readonly", "rel", "rev",
    "rules", "scope", "scrolling", "selected", "shape", "target", "text", "type", "valign",
    "valuetype", "vlink"]

/-- How letter case counts in the value of an attribute that no letter tells it for. -/
def defaultCase (anySpace : Bool) (name : String) : CaseRule :=
  if !anySpace && caselessAttributes.contains (lower name) then .ignoredInHtml else .exact

/-- Reads how the value of an attribute is compared. -/
def readComparison : Component → Option Comparison
  | .lexeme (.delimiter '=') => some .equals
  | .lexeme (.compare c) => some c
  | _ => none

/-- Reads the value that an attribute is compared with and the letter for its case. -/
def readValueTest (anySpace : Bool) (name : String) (comparison : Comparison)
    (cs : List Component) : Option ValueTest := do
  let (value, rest) ← match skipSpace cs with
    | .lexeme (.ident value) :: rest => some (value, rest)
    | .lexeme (.string value) :: rest => some (value, rest)
    | _ => none
  match skipSpace rest with
  | [] => return ⟨comparison, value, defaultCase anySpace name⟩
  | .lexeme (.ident letter) :: rest =>
    if !isBlank rest then none
    else if lower letter = "i" then return ⟨comparison, value, .ignored⟩
    else if lower letter = "s" then return ⟨comparison, value, .exact⟩
    else none
  | _ => none

/-- Reads what follows the name of an attribute. -/
def readAttributeEnd (anySpace : Bool) (name : String) (cs : List Component) :
    Option AttributeTest :=
  match skipSpace cs with
  | [] => some ⟨anySpace, name, none⟩
  | c :: rest => do
    let comparison ← readComparison c
    return ⟨anySpace, name, some (← readValueTest anySpace name comparison rest)⟩

/-- Reads a test for an attribute from between its brackets. Name spaces have no names, so only
    "any" and "none" can be asked for. -/
def readAttribute (cs : List Component) : Option AttributeTest :=
  match skipSpace cs with
  | .lexeme (.ident _) :: .lexeme (.delimiter '|') :: _ => none
  | .lexeme (.ident name) :: rest => readAttributeEnd false name rest
  | .lexeme (.delimiter '*') :: .lexeme (.delimiter '|') :: .lexeme (.ident name) :: rest =>
    readAttributeEnd true name rest
  | .lexeme (.delimiter '|') :: .lexeme (.ident name) :: rest => readAttributeEnd false name rest
  | _ => none

/-! ## Compounds -/

/-- The first or the last of its siblings. -/
def edge (ofType fromEnd : Bool) : Simple := .position ⟨0, 1, ofType, fromEnd⟩

/-- The tests that a name after a colon stands for. -/
def plainPseudo (name : String) : Option (List Simple) :=
  match lower name with
  | "first-child" => some [edge false false]
  | "last-child" => some [edge false true]
  | "only-child" => some [edge false false, edge false true]
  | "first-of-type" => some [edge true false]
  | "last-of-type" => some [edge true true]
  | "only-of-type" => some [edge true false, edge true true]
  | "root" => some [.root]
  | "scope" => some [.root]
  | "empty" => some [.empty]
  | _ => none

/-- How a list of selectors in brackets is read. -/
inductive ListKind where
  /-- all its selectors can be read -/
  | strict
  /-- those that cannot be read are passed over -/
  | forgiving
deriving DecidableEq, Repr

/-- Readers for lists in brackets. -/
structure Inner where
  group : ListKind → List Component → Option Group
  /-- chains that lead on from an element -/
  relatives : List Component → Option (List Relative)

/-- The test that a name with arguments after a colon stands for. -/
def calledPseudo (inner : Inner) (name : String) (content : List Component) : Option Simple :=
  let position (ofType fromEnd : Bool) : Option Simple :=
    (readFormula content).map fun (step, offset) => .position ⟨step, offset, ofType, fromEnd⟩
  match lower name with
  | "nth-child" => position false false
  | "nth-last-child" => position false true
  | "nth-of-type" => position true false
  | "nth-last-of-type" => position true true
  | "not" => (inner.group .strict content).map .not
  | "is" => (inner.group .forgiving content).map .any
  | "where" => (inner.group .forgiving content).map .any
  | "has" => (inner.relatives content).map .has
  | _ => none

/-- Reads the name of an element with its name space: no test if there is none. -/
def readType : List Component → Option (List Simple × List Component)
  | .lexeme (.ident _) :: .lexeme (.delimiter '|') :: _ => none
  | .lexeme (.ident name) :: rest => some ([.type name], rest)
  | .lexeme (.delimiter '*') :: .lexeme (.delimiter '|') :: rest =>
    match rest with
    | .lexeme (.delimiter '*') :: rest => some ([.universal], rest)
    | .lexeme (.ident name) :: rest => some ([.type name], rest)
    | _ => none
  | .lexeme (.delimiter '*') :: rest => some ([.universal], rest)
  | .lexeme (.delimiter '|') :: rest =>
    match rest with
    | .lexeme (.delimiter '*') :: rest => some ([.never], rest)
    | .lexeme (.ident _) :: rest => some ([.never], rest)
    | _ => none
  | cs => some ([], cs)

/-- Reads tests for one element after those in `done`. -/
def readTests (inner : Inner) (done : List Simple) :
    List Component → Option (List Simple × List Component)
  | .lexeme (.hash name true) :: rest => readTests inner (done ++ [.id name]) rest
  | .lexeme (.delimiter '.') :: .lexeme (.ident name) :: rest =>
    readTests inner (done ++ [.ofClass name]) rest
  | .lexeme (.delimiter '.') :: _ => none
  | .block (.opens '[') content :: rest => do
    readTests inner (done ++ [.attribute (← readAttribute content)]) rest
  | .lexeme .colon :: .lexeme (.ident name) :: rest => do
    readTests inner (done ++ (← plainPseudo name)) rest
  | .lexeme .colon :: .block (.call name) content :: rest => do
    readTests inner (done ++ [← calledPseudo inner name content]) rest
  | .lexeme .colon :: _ => none
  | cs => some (done, cs)

/-- Reads a compound; there must be a test in it. -/
def readCompound (inner : Inner) (cs : List Component) : Option (List Simple × List Component) := do
  let (type, rest) ← readType (skipSpace cs)
  let (tests, rest) ← readTests inner type rest
  if tests.isEmpty then none else return (tests, rest)

/-! ## Chains -/

/-- The combinator that a sign stands for. -/
def combinator? : Component → Option Combinator
  | .lexeme (.delimiter '>') => some .child
  | .lexeme (.delimiter '+') => some .next
  | .lexeme (.delimiter '~') => some .later
  | _ => none

/-- Reads a combinator, if there is one before the end. -/
def readCombinator (cs : List Component) : Option (Combinator × List Component) :=
  match skipSpace cs with
  | [] => none
  | c :: rest =>
    match combinator? c with
    | some k => some (k, rest)
    | none => if (skipSpace cs).length < cs.length then some (.descendant, c :: rest) else none

/-- Reads compounds with the combinators before them. The fuel is more than the number of
    components. -/
def readChain (inner : Inner) : Nat → List Component →
    Option (List (Combinator × List Simple) × List Component)
  | 0, cs => some ([], cs)
  | fuel + 1, cs =>
    match readCombinator cs with
    | none => some ([], skipSpace cs)
    | some (k, rest) => do
      let (compound, rest) ← readCompound inner rest
      let (more, rest) ← readChain inner fuel rest
      return ((k, compound) :: more, rest)

/-- A selector from its compounds in the order in which they are written, `links` being those
    before the first of them, nearest first. -/
def arrange (subject : List Simple) (links : List Link) :
    List (Combinator × List Simple) → Complex
  | [] => .mk subject links
  | (k, compound) :: more => arrange compound (.mk k subject :: links) more

/-- Reads a selector. -/
def readComplex (inner : Inner) (cs : List Component) : Option (Complex × List Component) := do
  let (first, rest) ← readCompound inner cs
  let (more, rest) ← readChain inner (rest.length + 1) rest
  return (arrange first [] more, rest)

/-- Reads a chain that leads on from an element; it leads inside if nothing else is said. -/
def readRelative (inner : Inner) (cs : List Component) : Option (Relative × List Component) := do
  let (k, rest) := match skipSpace cs with
    | c :: rest =>
      match combinator? c with
      | some k => (k, rest)
      | none => (Combinator.descendant, c :: rest)
    | [] => (Combinator.descendant, [])
  let (first, rest) ← readCompound inner rest
  let (more, rest) ← readChain inner (rest.length + 1) rest
  return (.mk (((k, first) :: more).map fun (k, compound) => .mk k compound), rest)

/-! ## Lists -/

/-- The parts of a list between its commas. -/
def items : List Component → List (List Component)
  | [] => [[]]
  | c :: cs =>
    match c, items cs with
    | .lexeme .comma, parts => [] :: parts
    | c, part :: parts => (c :: part) :: parts
    | c, [] => [[c]]

/-- What was read, if nothing comes after it. -/
def whole? {α : Type} : Option (α × List Component) → Option α
  | some (a, []) => some a
  | _ => none

/-- Readers for lists in brackets. The fuel bounds the depth of brackets. Chains that lead on from
    an element have none inside them. -/
def innerReaders (relative : Bool) : Nat → Inner
  | 0 => ⟨fun _ _ => none, fun _ => none⟩
  | fuel + 1 =>
    { group := fun kind content =>
        let read (item : List Component) : Option Complex :=
          whole? (readComplex (innerReaders relative fuel) item)
        match kind with
        | .strict => (items content).mapM read
        | .forgiving => some ((items content).filterMap read)
      relatives := fun content =>
        if relative then none
        else (items content).mapM fun item =>
          whole? (readRelative (innerReaders true fuel) item) }

end Selector

/-- The list of selectors that a text writes. -/
def Group.read? (text : String) : Option Group :=
  let cs := text.toList
  (Selector.innerReaders false (cs.length + 1)).group .strict (Selector.components cs)

end SchemaExtraction.Markup
