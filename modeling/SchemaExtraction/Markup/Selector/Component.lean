import SchemaExtraction.Markup.Selector.Basic
import SchemaExtraction.Number.Digits

/-!
# Components of selectors

The text of a selector is read in two steps: into lexemes, and then into components, which are
lexemes and blocks in brackets. A block that is not closed goes to the end of the text.
-/

namespace SchemaExtraction.Markup.Selector

/-! ## Lexemes -/

/-- The smallest parts of a selector. -/
inductive Lexeme where
  | space
  | ident (name : String)
  /-- a number sign with a name; whether the name is an identifier -/
  | hash (name : String) (isId : Bool)
  | string (value : String)
  /-- a number; its value if it is an integer -/
  | number (signed : Bool) (value : Option Int)
  /-- a number right before a name -/
  | dimension (signed : Bool) (value : Option Int) (unit : String)
  /-- one of the signs that compare the values of attributes -/
  | compare (c : Comparison)
  | colon
  | comma
  | delimiter (c : Char)
  /-- a name with an opening bracket right after it -/
  | call (name : String)
  /-- an opening bracket -/
  | opens (c : Char)
  /-- a closing bracket -/
  | closes (c : Char)
  /-- what selectors have no use for, malformed strings and addresses included -/
  | other
deriving DecidableEq, Repr

/-- The ends of lines. -/
def isNewline (c : Char) : Bool := c = '\n' || c = '\r' || c = '\x0C'

/-- Whether a line ends here. -/
def newlineNext : List Char → Bool
  | c :: _ => isNewline c
  | [] => false

/-- Characters that names may start with. -/
def startsName (c : Char) : Bool := c.isAlpha || c = '_' || c = '\x00' || 0x80 ≤ c.toNat

/-- Characters of names. -/
def isNameChar (c : Char) : Bool := startsName c || c.isDigit || c = '-'

/-- Whether an identifier starts here. -/
def identNext : List Char → Bool
  | '-' :: c :: _ => startsName c || c = '-' || c = '\\'
  | '\\' :: cs => !newlineNext cs
  | c :: _ => startsName c
  | [] => false

/-- The character after a backslash, and the rest. -/
def readEscape (cs : List Char) : Char × List Char :=
  let digits := (cs.take 6).takeWhile fun c => (hexValue? c).isSome
  if digits.isEmpty then
    match cs with
    | [] => (replacement, [])
    | c :: rest => (if c = '\x00' then replacement else c, rest)
  else
    let n := (hexNumber? digits).getD 0
    let rest := match cs.drop digits.length with
      | '\r' :: '\n' :: rest => rest
      | c :: rest => if isSpace c then rest else c :: rest
      | [] => []
    (if n = 0 ∨ ¬ n.isValidChar then replacement else Char.ofNat n, rest)

/-- Reads a name, and gives the rest. The fuel is more than the length of the text. -/
def readName : Nat → List Char → List Char × List Char
  | 0, cs => ([], cs)
  | _, [] => ([], [])
  | fuel + 1, c :: cs =>
    if c = '\\' && !newlineNext cs then
      let (d, rest) := readEscape cs
      let (name, rest) := readName fuel rest
      (d :: name, rest)
    else if isNameChar c then
      let (name, rest) := readName fuel cs
      ((if c = '\x00' then replacement else c) :: name, rest)
    else ([], c :: cs)

/-- Reads a string from after its opening mark; nothing if a line ends in it. The fuel is more
    than the length of the text. -/
def readString (mark : Char) : Nat → List Char → Option (List Char) × List Char
  | 0, cs => (some [], cs)
  | _, [] => (some [], [])
  | fuel + 1, c :: cs =>
    let add (d : Char) (rest : List Char) :=
      let (value, rest) := readString mark fuel rest
      (value.map (d :: ·), rest)
    if c = mark then (some [], cs)
    else if isNewline c then (none, c :: cs)
    else if c = '\\' then
      match cs with
      | [] => (some [], [])
      | '\r' :: '\n' :: rest => readString mark fuel rest
      | d :: rest =>
        if isNewline d then readString mark fuel rest
        else
          let (e, rest) := readEscape cs
          add e rest
    else add (if c = '\x00' then replacement else c) cs

/-- The value of a number within the bounds that are told apart. -/
def clampNumber (n : Int) : Int := max (-farthest - 1) (min farthest n)

/-- Reads a number and what is right after it. -/
def readNumber (cs : List Char) : Lexeme × List Char :=
  let (signed, negative, cs) := match cs with
    | '-' :: cs => (true, true, cs)
    | '+' :: cs => (true, false, cs)
    | cs => (false, false, cs)
  let (digits, rest) := cs.span Char.isDigit
  let whole : Int := digitsValue digits
  let value := clampNumber (if negative then -whole else whole)
  let (isWhole, rest) := match rest with
    | '.' :: c :: more => if c.isDigit then (false, more.dropWhile Char.isDigit) else (true, rest)
    | _ => (true, rest)
  let (isWhole, rest) := match rest with
    | e :: sign :: c :: more =>
      if e ≠ 'e' && e ≠ 'E' then (isWhole, rest)
      else if sign.isDigit then (false, (c :: more).dropWhile Char.isDigit)
      else if (sign = '+' || sign = '-') && c.isDigit then (false, more.dropWhile Char.isDigit)
      else (isWhole, rest)
    | [e, c] => if (e = 'e' || e = 'E') && c.isDigit then (false, []) else (isWhole, rest)
    | _ => (isWhole, rest)
  let value := if isWhole then some value else none
  match rest with
  | '%' :: rest => (.other, rest)
  | rest =>
    if identNext rest then
      let (unit, rest) := readName (rest.length + 1) rest
      (.dimension signed value (String.ofList unit), rest)
    else (.number signed value, rest)

/-- Whether a number starts here, a sign in front of it included. -/
def numberNext : List Char → Bool
  | c :: d :: e :: _ =>
    c.isDigit || (c = '.' && d.isDigit) ||
      ((c = '+' || c = '-') && (d.isDigit || (d = '.' && e.isDigit)))
  | [c, d] => c.isDigit || ((c = '.' || c = '+' || c = '-') && d.isDigit)
  | [c] => c.isDigit
  | [] => false

/-- Skips a comment from after its opening mark. -/
def skipComment : List Char → List Char
  | [] => []
  | '*' :: '/' :: rest => rest
  | _ :: rest => skipComment rest

/-- Skips an address without quotation marks. -/
def skipAddress : List Char → List Char
  | [] => []
  | ')' :: rest => rest
  | '\\' :: _ :: rest => skipAddress rest
  | _ :: rest => skipAddress rest

/-- Reads a name and an opening bracket right after it. -/
def readWord (cs : List Char) : Lexeme × List Char :=
  let (name, rest) := readName (cs.length + 1) cs
  match rest with
  | '(' :: rest =>
    let inner := rest.dropWhile isSpace
    if name.map Char.toLower = "url".toList && inner.head? ≠ some '"' &&
        inner.head? ≠ some '\'' then
      (.other, skipAddress inner)
    else (.call (String.ofList name), rest)
  | rest => (.ident (String.ofList name), rest)

/-- Signs of two characters. -/
def pairs : List (List Char × Lexeme) :=
  [(['$', '='], .compare .ends), (['*', '='], .compare .contains), (['^', '='], .compare .starts),
    (['|', '='], .compare .dashed), (['~', '='], .compare .includes)]

/-- The lexeme that a text other than the empty one starts with, if it is no comment. -/
def readLexeme (c : Char) (cs : List Char) : Lexeme × List Char :=
  if isSpace c then (.space, cs.dropWhile isSpace)
  else if c = '"' || c = '\'' then
    match readString c (cs.length + 1) cs with
    | (some value, rest) => (.string (String.ofList value), rest)
    | (none, rest) => (.other, rest)
  else if c = '#' then
    if identNext cs || cs.head?.any isNameChar then
      let (name, rest) := readName (cs.length + 1) cs
      (.hash (String.ofList name) (identNext cs), rest)
    else (.delimiter c, cs)
  else if numberNext (c :: cs) then readNumber (c :: cs)
  else if (Text.dropPrefix? "-->".toList (c :: cs)).isSome then (.other, cs.drop 2)
  else if (Text.dropPrefix? "<!--".toList (c :: cs)).isSome then (.other, cs.drop 3)
  else if identNext (c :: cs) then readWord (c :: cs)
  else if c = '@' && identNext cs then (.other, (readName (cs.length + 1) cs).2)
  else if c = ':' then (.colon, cs)
  else if c = ',' then (.comma, cs)
  else if c = ';' then (.other, cs)
  else if c = '(' || c = '[' || c = '\x7b' then (.opens c, cs)
  else if c = ')' || c = ']' || c = '\x7d' then (.closes c, cs)
  else
    match pairs.lookup (c :: cs.take 1) with
    | some lexeme => (lexeme, cs.drop 1)
    | none => (.delimiter c, cs)

/-- The lexemes of a text. The fuel is the length of the text. -/
def readLexemes : Nat → List Char → List Lexeme
  | 0, _ => []
  | _, [] => []
  | fuel + 1, '/' :: '*' :: cs => readLexemes fuel (skipComment cs)
  | fuel + 1, c :: cs =>
    let (lexeme, rest) := readLexeme c cs
    lexeme :: readLexemes fuel rest

/-! ## Blocks -/

/-- A lexeme or a block. -/
inductive Component where
  | lexeme (l : Lexeme)
  /-- a block with the lexeme that opens it -/
  | block (opening : Lexeme) (content : List Component)

/-- The bracket that closes a block. -/
def Lexeme.closing? : Lexeme → Option Char
  | .call _ => some ')'
  | .opens '(' => some ')'
  | .opens '[' => some ']'
  | .opens '\x7b' => some '\x7d'
  | _ => none

/-- Closes a block: `inner` is what it holds and `outer` what is around it, both in reverse. -/
def closeBlock (inner : List Component) (opening : Lexeme) (outer : List Component) :
    List Component :=
  .block opening inner.reverse :: outer

/-- Closes all open blocks, innermost first. -/
def closeAll (inner : List Component) : List (Lexeme × List Component) → List Component
  | [] => inner.reverse
  | (opening, outer) :: blocks => closeAll (closeBlock inner opening outer) blocks

/-- The components of some lexemes. `inner` is what the innermost open block holds so far in
    reverse, and `blocks` are the open blocks with what is around each. -/
def nest (inner : List Component) (blocks : List (Lexeme × List Component)) :
    List Lexeme → List Component
  | [] => closeAll inner blocks
  | l :: ls =>
    if l.closing?.isSome then nest [] ((l, inner) :: blocks) ls
    else
      match l, blocks with
      | .closes c, (opening, outer) :: rest =>
        if opening.closing? = some c then nest (closeBlock inner opening outer) rest ls
        else nest (.lexeme l :: inner) blocks ls
      | _, _ => nest (.lexeme l :: inner) blocks ls

/-- The components of a text. -/
def components (cs : List Char) : List Component := nest [] [] (readLexemes cs.length cs)

/-- Components without white space at the start. -/
def skipSpace : List Component → List Component
  | .lexeme .space :: cs => skipSpace cs
  | cs => cs

end SchemaExtraction.Markup.Selector
