import SchemaExtraction.Value.Json

/-!
# TOML strings

A string is written in the first of five styles that holds it with the fewest escapes: a basic
string, a literal string, a basic string of several lines, a literal string of several lines, and
a basic string with escapes. Each style has a reader for what follows its opening marks.
-/

namespace SchemaExtraction.Toml

/-- What decides the style of a string. -/
structure Traits where
  /-- the longest run of apostrophes -/
  apostrophes : Nat
  /-- the longest run of quotation marks -/
  quotes : Nat
  /-- whether there is a control other than a tab or a line feed -/
  control : Bool
  backslash : Bool
  newline : Bool
deriving DecidableEq, Repr

/-- The longest run of a character, `now` being the length of the run so far. -/
def longestRun (c : Char) (now best : Nat) : List Char → Nat
  | [] => best
  | d :: cs =>
    if d = c then longestRun c (now + 1) (max best (now + 1)) cs else longestRun c 0 best cs

/-- Whether a character is a control that no string may hold as it is. -/
def isControl (c : Char) : Bool :=
  (c.toNat < 0x20 && c ≠ '\t' && c ≠ '\n') || c.toNat = 0x7F

/-- The traits of a string. -/
def Traits.of (cs : List Char) : Traits where
  apostrophes := longestRun '\'' 0 0 cs
  quotes := longestRun '"' 0 0 cs
  control := cs.any isControl
  backslash := cs.any (· = '\\')
  newline := cs.any (· = '\n')

/-- The four kinds of strings. -/
inductive Style where
  | basic
  | literal
  | basicLines
  | literalLines
deriving DecidableEq, Repr

namespace Style

/-- The style of a string with these traits. -/
def choose (t : Traits) : Style :=
  if !t.control && !t.backslash && t.quotes = 0 && !t.newline then basic
  else if !t.control && t.apostrophes = 0 && !t.newline then literal
  else if !t.control && !t.backslash && t.quotes ≤ 2 then basicLines
  else if !t.control && t.apostrophes ≤ 2 then literalLines
  else if t.newline then basicLines
  else basic

/-- The marks around a string. -/
def marks : Style → List Char
  | basic => ['"']
  | literal => ['\'']
  | basicLines => ['"', '"', '"']
  | literalLines => ['\'', '\'', '\'']

/-- Whether a string may hold line feeds. -/
def hasLines : Style → Bool
  | basicLines | literalLines => true
  | basic | literal => false

/-- Whether a string has escapes. -/
def hasEscapes : Style → Bool
  | basic | basicLines => true
  | literal | literalLines => false

end Style

/-! ## Writing -/

/-- An upper-case hexadecimal digit. -/
def hexUpper (n : Nat) : Char := (Nat.digitChar n).toUpper

/-- The escape of a control. -/
def escapeControl (c : Char) : List Char :=
  if c.toNat = 0x8 then ['\\', 'b']
  else if c = '\t' then ['\\', 't']
  else if c = '\n' then ['\\', 'n']
  else if c.toNat = 0xC then ['\\', 'f']
  else if c = '\r' then ['\\', 'r']
  else ['\\', 'u', '0', '0', hexUpper (c.toNat / 16), hexUpper (c.toNat % 16)]

/-- Writes the rest of a string with escapes, after a run of `run` quotation marks that stand as
    they are. Strings of several lines keep line feeds and runs of two quotation marks. -/
def escape (lines : Bool) (run : Nat) : List Char → List Char
  | [] => []
  | c :: cs =>
    if c = '"' then
      if run < (if lines then 2 else 0) then c :: escape lines (run + 1) cs
      else '\\' :: '"' :: escape lines 0 cs
    else if c = '\\' then '\\' :: '\\' :: escape lines 0 cs
    else if c = '\n' ∧ lines then c :: escape lines 0 cs
    else if c.toNat < 0x20 ∨ c.toNat = 0x7F then escapeControl c ++ escape lines 0 cs
    else c :: escape lines 0 cs

/-- A string in a given style. A line feed after the opening marks does not count, so that a string
    with line feeds starts on a line of its own. -/
def writeIn (style : Style) (cs : List Char) : List Char :=
  let opening := if style.hasLines && cs.any (· = '\n') then ['\n'] else []
  let body := if style.hasEscapes then escape style.hasLines 0 cs else cs
  style.marks ++ opening ++ body ++ style.marks

/-- A string in the style that suits it. -/
def writeString (s : String) : List Char :=
  writeIn (Style.choose (Traits.of s.toList)) s.toList

/-! ## Reading -/

/-- Whether a string may hold a character as it is, line feeds apart. -/
def isPlain (c : Char) : Bool := (0x20 ≤ c.toNat && c.toNat ≠ 0x7F) || c = '\t'

/-- The character that `n` hexadecimal digits name, and the rest. -/
def takeCodePoint? (n : Nat) (cs : List Char) : Option (Char × List Char) := do
  let ds := cs.take n
  let code ← hexNumber? ds
  if ds.length = n ∧ code.isValidChar then some (Char.ofNat code, cs.drop n) else none

/-- The character that an escape stands for, after its backslash, and the rest. -/
def takeEscape? : List Char → Option (Char × List Char)
  | 'b' :: cs => some (Char.ofNat 0x8, cs)
  | 't' :: cs => some ('\t', cs)
  | 'n' :: cs => some ('\n', cs)
  | 'f' :: cs => some (Char.ofNat 0xC, cs)
  | 'r' :: cs => some ('\r', cs)
  | '"' :: cs => some ('"', cs)
  | '\\' :: cs => some ('\\', cs)
  | 'u' :: cs => takeCodePoint? 4 cs
  | 'U' :: cs => takeCodePoint? 8 cs
  | _ => none

/-- Reads the rest of a basic string. -/
def readBasic : Nat → List Char → Option (List Char × List Char)
  | 0, _ => none
  | _ + 1, [] => none
  | fuel + 1, c :: cs =>
    if c = '"' then some ([], cs)
    else if c = '\\' then do
      let (d, cs) ← takeEscape? cs
      let (s, rest) ← readBasic fuel cs
      return (d :: s, rest)
    else if isPlain c then do
      let (s, rest) ← readBasic fuel cs
      return (c :: s, rest)
    else none

/-- Reads the rest of a literal string. -/
def readLiteral : List Char → Option (List Char × List Char)
  | [] => none
  | c :: cs =>
    if c = '\'' then some ([], cs)
    else if isPlain c then do
      let (s, rest) ← readLiteral cs
      return (c :: s, rest)
    else none

/-- A line break at the start of a text: a line feed, perhaps after a carriage return. -/
def takeBreak? : List Char → Option (List Char)
  | '\n' :: cs => some cs
  | '\r' :: '\n' :: cs => some cs
  | _ => none

/-- The text after the closing marks, up to two more of which belong to the string. -/
def closeLines? (mark : Char) : List Char → Option (List Char × List Char)
  | a :: b :: c :: cs =>
    if a = mark ∧ b = mark ∧ c = mark then
      match cs with
      | d :: e :: rest =>
        if d = mark ∧ e = mark then some ([mark, mark], rest)
        else if d = mark then some ([mark], e :: rest)
        else some ([], d :: e :: rest)
      | [d] => if d = mark then some ([mark], []) else some ([], [d])
      | [] => some ([], [])
    else none
  | _ => none

/-- The text after a backslash at the end of a line: blanks up to the end of the line, and all
    blanks and line breaks that follow. -/
def joinLines? (cs : List Char) : Option (List Char) := do
  let rest ← takeBreak? (cs.dropWhile fun c => c = ' ' || c = '\t')
  return skip rest.length rest
where
  /-- Skips blanks and line breaks. -/
  skip : Nat → List Char → List Char
    | 0, cs => cs
    | fuel + 1, cs =>
      match takeBreak? cs with
      | some rest => skip fuel rest
      | none =>
        match cs with
        | ' ' :: rest => skip fuel rest
        | '\t' :: rest => skip fuel rest
        | _ => cs

/-- Reads the rest of a string of several lines, with or without escapes. -/
def readLines (mark : Char) (escapes : Bool) : Nat → List Char → Option (List Char × List Char)
  | 0, _ => none
  | fuel + 1, cs =>
    match closeLines? mark cs with
    | some done => some done
    | none =>
      match takeBreak? cs with
      | some cs => do
        let (s, rest) ← readLines mark escapes fuel cs
        return ('\n' :: s, rest)
      | none =>
        match cs with
        | [] => none
        | c :: cs =>
          if c = '\\' ∧ escapes then
            match joinLines? cs with
            | some cs => readLines mark escapes fuel cs
            | none => do
              let (d, cs) ← takeEscape? cs
              let (s, rest) ← readLines mark escapes fuel cs
              return (d :: s, rest)
          else if isPlain c then do
            let (s, rest) ← readLines mark escapes fuel cs
            return (c :: s, rest)
          else none

/-- Drops a line break at the start of a text. -/
def dropBreak (cs : List Char) : List Char := (takeBreak? cs).getD cs

/-- Reads a string of any style from its opening marks on. -/
def readString (cs : List Char) : Option (List Char × List Char) :=
  match cs with
  | '"' :: '"' :: '"' :: cs => readLines '"' true (cs.length + 1) (dropBreak cs)
  | '\'' :: '\'' :: '\'' :: cs => readLines '\'' false (cs.length + 1) (dropBreak cs)
  | '"' :: cs => readBasic (cs.length + 1) cs
  | '\'' :: cs => readLiteral cs
  | _ => none

/-- Reads a string of one line, as keys are written. -/
def readShortString (cs : List Char) : Option (List Char × List Char) :=
  match cs with
  | '"' :: cs => readBasic (cs.length + 1) cs
  | '\'' :: cs => readLiteral cs
  | _ => none

end SchemaExtraction.Toml
