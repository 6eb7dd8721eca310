import SchemaExtraction.Markup.Doctype
import SchemaExtraction.Markup.Forest

/-!
# Tokens of a page

The text of a page is read token by token: tags, comments, the document type, and runs of text
that are white space all through or have none at all. How text is read depends on the element
that it stands in, so the reader is told the mode each time.
-/

namespace SchemaExtraction.Markup

/-- A start tag. -/
structure Tag where
  name : String
  attributes : List Attribute
  selfClosing : Bool
deriving DecidableEq, Repr

/-- The element of HTML that a tag starts. -/
def Tag.element (tag : Tag) : Element := ⟨.html, tag.name, tag.attributes⟩

/-- A piece of a page. -/
inductive Token where
  /-- white space -/
  | space (cs : List Char)
  /-- text without white space, or text of an element that holds only text -/
  | word (cs : List Char)
  /-- a null character, which most places drop -/
  | null
  | startTag (tag : Tag)
  | endTag (name : String)
  | comment (text : String)
  | doctype (d : Doctype)
  /-- something malformed that adds nothing to the page -/
  | fault
  /-- the end of the page -/
  | finish
deriving DecidableEq, Repr

/-- How text is read. -/
inductive TextMode where
  /-- tags and references are recognized -/
  | markup
  /-- references are recognized, and the end tag of an element -/
  | escapable (name : String)
  /-- only the end tag of an element is recognized -/
  | raw (name : String)
  /-- the end tag of a script is recognized outside its comments -/
  | script
  /-- nothing is recognized -/
  | plain
deriving DecidableEq, Repr

namespace Token

/-! ## Text -/

/-- Null characters replaced. -/
def replaceNull (cs : List Char) : List Char :=
  cs.map fun c => if c = '\x00' then replacement else c

/-- The tokens of a text without tags and references. The fuel is the length of the text. -/
def runsFrom : Nat → List Char → List Token
  | _, [] => []
  | 0, cs => [word cs]
  | fuel + 1, c :: cs =>
    if c = '\x00' then null :: runsFrom fuel cs
    else
      let (run, rest) := (c :: cs).span fun d => isSpace d = isSpace c && d ≠ '\x00'
      (if isSpace c then space run else word run) :: runsFrom fuel rest

@[inherit_doc runsFrom]
def runs (cs : List Char) : List Token := runsFrom cs.length cs

/-- The tokens of a reference before the characters that it stands for: without its semicolon it
    is malformed. -/
def faults (found : Found) : List Token := if found.closed then [] else [fault]

/-! ## Tags -/

/-- A name up to the first character of a class, in lower case, and the rest. -/
def readName (stop : Char → Bool) (cs : List Char) : List Char × List Char :=
  let (name, rest) := cs.span fun c => !stop c
  (replaceNull (name.map Char.toLower), rest)

/-- Reads the value of an attribute from after its equals sign; nothing when the page ends in
    it. -/
def readValue (cs : List Char) : Option (List Char × List Char) :=
  match cs.dropWhile isSpace with
  | [] => none
  | c :: rest =>
    if c = '"' || c = '\'' then
      let (value, rest) := rest.span (· ≠ c)
      if rest.isEmpty then none else some (resolveReferences value, rest.drop 1)
    else
      let (value, rest) := (c :: rest).span fun d => !isSpace d && d ≠ '>'
      some (resolveReferences value, rest)

/-- Adds an attribute unless there is one of that name. -/
def addAttribute (name value : List Char) (attributes : List Attribute) : List Attribute :=
  let name := String.ofList name
  if attributes.any fun a => a.name = name then attributes
  else attributes ++ [⟨.none, name, String.ofList value⟩]

/-- Reads attributes and the end of a tag: whether it closes itself, and the rest; nothing when
    the page ends in it. The fuel is more than the length of the text. -/
def readAttributes : Nat → List Attribute → List Char →
    Option (List Attribute × Bool × List Char)
  | 0, _, _ => none
  | fuel + 1, attributes, cs =>
    match cs.dropWhile isSpace with
    | [] => none
    | '>' :: rest => some (attributes, false, rest)
    | '/' :: '>' :: rest => some (attributes, true, rest)
    | '/' :: rest => readAttributes fuel attributes rest
    | c :: rest =>
      let (name, rest) := readName (fun d => isSpace d || d = '/' || d = '>' || d = '=') rest
      let name := replaceNull [c.toLower] ++ name
      match rest.dropWhile isSpace with
      | '=' :: rest => do
        let (value, rest) ← readValue rest
        readAttributes fuel (addAttribute name value attributes) rest
      | rest => readAttributes fuel (addAttribute name [] attributes) rest

/-- Reads a tag from its name on; nothing when the page ends in it. -/
def readTag (cs : List Char) : Option (Tag × List Char) := do
  let (name, rest) := readName (fun d => isSpace d || d = '/' || d = '>') cs
  let (attributes, selfClosing, rest) ← readAttributes (rest.length + 1) [] rest
  return (⟨String.ofList name, attributes, selfClosing⟩, rest)

/-- The token of a start tag. -/
def scanStart (cs : List Char) : List Token × List Char :=
  match readTag cs with
  | some (tag, rest) => ([startTag tag], rest)
  | none => ([finish], [])

/-- The token of an end tag. -/
def scanEnd (cs : List Char) : List Token × List Char :=
  match readTag cs with
  | some (tag, rest) => ([endTag tag.name], rest)
  | none => ([finish], [])

/-! ## Comments and declarations -/

/-- The token of what looks like a comment but is none: all up to the end of a tag. -/
def scanBogus (cs : List Char) : List Token × List Char :=
  let (text, rest) := cs.span (· ≠ '>')
  ([comment (String.ofList (replaceNull text))], rest.drop 1)

/-- A comment that the page ends in, in reverse, without a piece of its closing mark. -/
def dropMark : List Char → List Char
  | '!' :: '-' :: '-' :: cs => cs
  | '-' :: '-' :: cs => cs
  | '-' :: cs => cs
  | cs => cs

/-- Reads a comment up to its closing mark, `acc` being what it holds so far in reverse. -/
def readComment (acc : List Char) : List Char → List Char × List Char
  | [] => ((dropMark acc).reverse, [])
  | '-' :: '-' :: '>' :: rest => (acc.reverse, rest)
  | '-' :: '-' :: '!' :: '>' :: rest => (acc.reverse, rest)
  | c :: rest => readComment (c :: acc) rest

/-- The token of a comment from after its opening mark. -/
def scanComment : List Char → List Token × List Char
  | '>' :: rest => ([comment ""], rest)
  | '-' :: '>' :: rest => ([comment ""], rest)
  | cs =>
    let (text, rest) := readComment [] cs
    ([comment (String.ofList (replaceNull text))], rest)

/-- The tokens of a section of plain text from after its opening mark. -/
def scanSection (cs : List Char) : List Token × List Char :=
  match Text.cut? "]]>".toList cs with
  | some (text, rest) => (runs text, rest)
  | none => (runs cs, [])

/-- The tokens of what begins with an exclamation mark. Sections of plain text exist only in
    `foreign` elements. -/
def scanDeclaration (foreign : Bool) (cs : List Char) : List Token × List Char :=
  match cs with
  | '-' :: '-' :: rest => scanComment rest
  | _ =>
    if (cs.take 7).map Char.toLower = "doctype".toList then
      let (d, rest) := Doctype.read (cs.drop 7)
      ([doctype d], rest)
    else match foreign, Text.dropPrefix? "[CDATA[".toList cs with
      | true, some rest => scanSection rest
      | _, _ => scanBogus cs

/-! ## Modes -/

/-- The tokens of what begins with a less-than sign. -/
def scanAngle (foreign : Bool) : List Char → List Token × List Char
  | '!' :: rest => scanDeclaration foreign rest
  | '/' :: '>' :: rest => ([fault], rest)
  | '/' :: c :: rest => if c.isAlpha then scanEnd (c :: rest) else scanBogus (c :: rest)
  | ['/'] => ([word ['<', '/']], [])
  | '?' :: rest => scanBogus ('?' :: rest)
  | c :: rest => if c.isAlpha then scanStart (c :: rest) else ([word ['<']], c :: rest)
  | [] => ([word ['<']], [])

/-- The next tokens where tags and references are recognized. -/
def scanMarkup (foreign : Bool) : List Char → List Token × List Char
  | [] => ([finish], [])
  | '<' :: rest => scanAngle foreign rest
  | '&' :: rest =>
    match reference? false rest with
    | some found => (faults found ++ runs found.characters, found.rest)
    | none => ([word ['&']], rest)
  | cs =>
    let (text, rest) := cs.span fun c => c ≠ '<' && c ≠ '&'
    (runs text, rest)

/-- Whether a text begins with a name in any case and a character that ends names. -/
def namedNext (name : String) (cs : List Char) : Bool :=
  match Text.dropPrefix? name.toList ((cs.take name.length).map Char.toLower),
      cs.drop name.length with
  | some _, c :: _ => isSpace c || c = '/' || c = '>'
  | _, _ => false

/-- Whether what follows a less-than sign is the end tag of an element. -/
def closes (name : String) : List Char → Bool
  | '/' :: cs => namedNext name cs
  | _ => false

/-- The next token where only the end tag of an element is recognized, and references if they are
    `escapable`. -/
def scanText (escapable : Bool) (name : String) : List Char → List Token × List Char
  | [] => ([finish], [])
  | '<' :: rest => if closes name rest then scanEnd (rest.drop 1) else ([word ['<']], rest)
  | '&' :: rest =>
    match escapable, reference? false rest with
    | true, some found => (faults found ++ [word found.characters], found.rest)
    | _, _ => ([word ['&']], rest)
  | cs =>
    let (text, rest) := cs.span fun c => c ≠ '<' && c ≠ '&'
    ([word (replaceNull text)], rest)

/-- How deep text stands in the comments of a script. -/
inductive ScriptDepth where
  | code
  | comment
  /-- a script inside a comment -/
  | nested
deriving DecidableEq, Repr

/-- Reads a script up to its end tag. `dashes` counts the hyphens right before the text, and `acc`
    is what came before in reverse. -/
def readScript (depth : ScriptDepth) (dashes : Nat) (acc : List Char) :
    List Char → List Char × List Char
  | [] => (acc.reverse, [])
  | c :: cs =>
    if c = '-' then readScript depth (dashes + 1) (c :: acc) cs
    else if c = '>' && 2 ≤ dashes then readScript .code 0 (c :: acc) cs
    else if c = '<' then
      match depth with
      | .code =>
        if closes "script" cs then (acc.reverse, c :: cs)
        else if (Text.dropPrefix? "!--".toList cs).isSome then
          readScript .comment 0 (c :: acc) cs
        else readScript .code 0 (c :: acc) cs
      | .comment =>
        if closes "script" cs then (acc.reverse, c :: cs)
        else if namedNext "script" cs then readScript .nested 0 (c :: acc) cs
        else readScript .comment 0 (c :: acc) cs
      | .nested =>
        if closes "script" cs then readScript .comment 0 (c :: acc) cs
        else readScript .nested 0 (c :: acc) cs
    else readScript depth 0 (c :: acc) cs

/-- The next token of a script. -/
def scanScript (cs : List Char) : List Token × List Char :=
  match readScript .code 0 [] cs with
  | ([], []) => ([finish], [])
  | ([], rest) => scanEnd (rest.drop 2)
  | (text, rest) => ([word (replaceNull text)], rest)

/-- The next tokens of a page and the rest of it. -/
def scan (mode : TextMode) (foreign : Bool) (cs : List Char) : List Token × List Char :=
  match mode with
  | .markup => scanMarkup foreign cs
  | .escapable name => scanText true name cs
  | .raw name => scanText false name cs
  | .script => scanScript cs
  | .plain => if cs.isEmpty then ([finish], []) else ([word (replaceNull cs)], [])

end Token

/-- A page with its line ends made line feeds, `acc` being what comes before in reverse. -/
def unifyLinesFrom (acc : List Char) : List Char → List Char
  | [] => acc.reverse
  | '\r' :: '\n' :: cs => unifyLinesFrom ('\n' :: acc) cs
  | '\r' :: cs => unifyLinesFrom ('\n' :: acc) cs
  | c :: cs => unifyLinesFrom (c :: acc) cs

/-- A page with its line ends made line feeds. -/
def unifyLines (cs : List Char) : List Char := unifyLinesFrom [] cs

end SchemaExtraction.Markup
