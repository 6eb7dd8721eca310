import SchemaExtraction.Value.Basic

/-!
# JSON text

Values are written as compact JSON: no spaces, entries in the order they have, characters beyond
ASCII as they are. Reading accepts one JSON text of at most 127 nested lists and objects. It keeps
the entries of an object as they are written, repeated keys included; `canonical` puts them in
key order and lets the last of several entries of a key stay.
-/

namespace SchemaExtraction.Json

/-! ## Writing -/

/-- A hexadecimal digit in lower case. -/
def hexChar (n : Nat) : Char := Nat.digitChar n

/-- One character of a text: quotation marks, backslashes and controls are escaped. -/
def writeChar (c : Char) : List Char :=
  if c = '"' then ['\\', '"']
  else if c = '\\' then ['\\', '\\']
  else if c.toNat = 0x8 then ['\\', 'b']
  else if c = '\t' then ['\\', 't']
  else if c = '\n' then ['\\', 'n']
  else if c.toNat = 0xC then ['\\', 'f']
  else if c = '\r' then ['\\', 'r']
  else if c.toNat < 0x20 then
    ['\\', 'u', '0', '0', hexChar (c.toNat / 16), hexChar (c.toNat % 16)]
  else [c]

/-- A text between quotation marks. -/
def writeText (s : String) : List Char := '"' :: s.toList.flatMap writeChar ++ ['"']

mutual

/-- A value as compact JSON. -/
def write : Value → List Char
  | .null => ['n', 'u', 'l', 'l']
  | .bool true => ['t', 'r', 'u', 'e']
  | .bool false => ['f', 'a', 'l', 's', 'e']
  | .num n => n.write
  | .str s => writeText s
  | .arr items => '[' :: writeItems items ++ [']']
  | .obj entries => '\x7b' :: writeEntries entries ++ ['\x7d']

/-- The items of a list, with commas between them. -/
def writeItems : List Value → List Char
  | [] => []
  | [v] => write v
  | v :: vs => write v ++ ',' :: writeItems vs

/-- The entries of an object, with commas between them. -/
def writeEntries : List (String × Value) → List Char
  | [] => []
  | [(k, v)] => writeText k ++ ':' :: write v
  | (k, v) :: es => writeText k ++ ':' :: write v ++ ',' :: writeEntries es

end

/-! ## Reading scalars -/

/-- White space between the parts of a JSON text. -/
def isSpace (c : Char) : Bool := c = ' ' || c = '\n' || c = '\t' || c = '\r'

/-- The text from its first character that is not white space. -/
def skipSpace (cs : List Char) : List Char := cs.dropWhile isSpace

/-- The code unit that four hexadecimal digits write. -/
def codeUnit? (a b c d : Char) : Option Nat := do
  return (← hexValue? a) * 0x1000 + (← hexValue? b) * 0x100 + (← hexValue? c) * 0x10 +
    (← hexValue? d)

/-- The character that the letter of a short escape stands for. -/
def shortEscape? (c : Char) : Option Char :=
  match c with
  | '"' => some '"'
  | '\\' => some '\\'
  | '/' => some '/'
  | 'b' => some (Char.ofNat 0x8)
  | 'f' => some (Char.ofNat 0xC)
  | 'n' => some '\n'
  | 'r' => some '\r'
  | 't' => some '\t'
  | _ => none

/-- Reads the rest of a text up to its closing quotation mark. Surrogates have to come in pairs,
    and controls have to be escaped. -/
def readText : List Char → Option (List Char × List Char)
  | [] => none
  | '"' :: cs => some ([], cs)
  | '\\' :: 'u' :: a :: b :: c :: d :: cs => do
    let hi ← codeUnit? a b c d
    if 0xD800 ≤ hi ∧ hi < 0xDC00 then
      match cs with
      | '\\' :: 'u' :: a :: b :: c :: d :: cs => do
        let lo ← codeUnit? a b c d
        if 0xDC00 ≤ lo ∧ lo < 0xE000 then
          let (s, rest) ← readText cs
          return (Char.ofNat (0x10000 + (hi - 0xD800) * 0x400 + (lo - 0xDC00)) :: s, rest)
        else none
      | _ => none
    else if 0xDC00 ≤ hi ∧ hi < 0xE000 then none
    else
      let (s, rest) ← readText cs
      return (Char.ofNat hi :: s, rest)
  | '\\' :: c :: cs => do
    let c ← shortEscape? c
    let (s, rest) ← readText cs
    return (c :: s, rest)
  | c :: cs =>
    if c.toNat < 0x20 ∨ c = '\\' then none
    else do
      let (s, rest) ← readText cs
      return (c :: s, rest)

/-- The leading digits of a number as far as they fit 64 bits, and how many they are. -/
structure Significand where
  value : Nat
  taken : Nat

/-- Appends digits while the number fits 64 bits. -/
def Significand.extend (s : Significand) : List Char → Significand
  | [] => s
  | c :: cs =>
    let value := 10 * s.value + digitValue c
    if value < 0x10000000000000000 then extend ⟨value, s.taken + 1⟩ cs else s

/-- A number with a fraction or an exponent, or out of the range of integers: its leading digits
    rounded, times a rounded power of ten. -/
def readFloat (negative : Bool) (whole fraction : List Char) (exponent : Int) : Option Number := do
  let w := Significand.extend ⟨0, 0⟩ whole
  let f := Significand.extend ⟨w.value, 0⟩ fraction
  let x ← Binary64.ofUnits? false (f.value * unity) 1
  let y ← x.scale? (exponent + (whole.length - w.taken : Nat) - f.taken)
  return .float { y with negative := negative }

/-- The exponent of a number: `e`, an optional sign and digits. -/
def readExponent : List Char → Option (Int × List Char)
  | c :: cs =>
    if c = 'e' ∨ c = 'E' then do
      let (negative, cs) := NumberText.takeSign cs
      let n ← readDigits (cs.takeWhile Char.isDigit)
      return (if negative then -(n : Int) else n, cs.dropWhile Char.isDigit)
    else some (0, c :: cs)
  | [] => some (0, [])

/-- Reads a number from its first digit on. There is no leading zero, and a point has a digit on
    either side. -/
def readMagnitude (negative : Bool) (cs : List Char) : Option (Number × List Char) :=
  let whole := cs.takeWhile Char.isDigit
  let rest := cs.dropWhile Char.isDigit
  if whole.isEmpty || (whole.head? = some '0' && whole.length ≠ 1) then none
  else
    match rest with
    | '.' :: rest => do
      let fraction := rest.takeWhile Char.isDigit
      if fraction.isEmpty then none
      else do
        let (e, rest) ← readExponent (rest.dropWhile Char.isDigit)
        return (← readFloat negative whole fraction e, rest)
    | rest =>
      if rest.head? = some 'e' || rest.head? = some 'E' then do
        let (e, rest) ← readExponent rest
        return (← readFloat negative whole [] e, rest)
      else do
        let n := digitsValue whole
        match if negative ∧ n = 0 then none else WordInt.ofInt? (if negative then -n else n) with
        | some i => return (.int i, rest)
        | none => return (← readFloat negative whole [] 0, rest)

/-- Reads a number. -/
def readNumber : List Char → Option (Number × List Char)
  | '-' :: cs => readMagnitude true cs
  | cs => readMagnitude false cs

/-! ## Reading values -/

mutual

/-- Reads a value that opens at most `depth` lists and objects inside one another. -/
def readValue (fuel depth : Nat) (cs : List Char) : Option (Value × List Char) :=
  match fuel with
  | 0 => none
  | fuel + 1 =>
    match skipSpace cs with
    | 'n' :: 'u' :: 'l' :: 'l' :: cs => some (.null, cs)
    | 't' :: 'r' :: 'u' :: 'e' :: cs => some (.bool true, cs)
    | 'f' :: 'a' :: 'l' :: 's' :: 'e' :: cs => some (.bool false, cs)
    | '"' :: cs => do
      let (s, cs) ← readText cs
      return (.str (String.ofList s), cs)
    | '[' :: cs =>
      match depth with
      | 0 => none
      | depth + 1 =>
        match skipSpace cs with
        | ']' :: cs => some (.arr [], cs)
        | cs => do
          let (items, cs) ← readItems fuel depth cs
          return (.arr items, cs)
    | '\x7b' :: cs =>
      match depth with
      | 0 => none
      | depth + 1 =>
        match skipSpace cs with
        | '\x7d' :: cs => some (.obj [], cs)
        | cs => do
          let (entries, cs) ← readEntries fuel depth cs
          return (.obj entries, cs)
    | cs => do
      let (n, cs) ← readNumber cs
      return (.num n, cs)

/-- Reads the items of a list up to its closing bracket; there is at least one. -/
def readItems (fuel depth : Nat) (cs : List Char) : Option (List Value × List Char) :=
  match fuel with
  | 0 => none
  | fuel + 1 => do
    let (v, cs) ← readValue fuel depth cs
    match skipSpace cs with
    | ']' :: cs => return ([v], cs)
    | ',' :: cs => do
      let (vs, cs) ← readItems fuel depth cs
      return (v :: vs, cs)
    | _ => none

/-- Reads the entries of an object up to its closing brace; there is at least one. -/
def readEntries (fuel depth : Nat) (cs : List Char) : Option (List (String × Value) × List Char) :=
  match fuel with
  | 0 => none
  | fuel + 1 =>
    match skipSpace cs with
    | '"' :: cs => do
      let (k, cs) ← readText cs
      match skipSpace cs with
      | ':' :: cs => do
        let (v, cs) ← readValue fuel depth cs
        let e := (String.ofList k, v)
        match skipSpace cs with
        | '\x7d' :: cs => return ([e], cs)
        | ',' :: cs => do
          let (es, cs) ← readEntries fuel depth cs
          return (e :: es, cs)
        | _ => none
      | _ => none
    | _ => none

end

/-- How many lists and objects may lie inside one another. -/
def maxDepth : Nat := 127

/-- Reads a text that holds one value and nothing else; every step of the reader consumes a
    character, so the length of the text bounds their number. -/
def read (cs : List Char) : Option Value := do
  let (v, rest) ← readValue (cs.length + 1) maxDepth cs
  if (skipSpace rest).isEmpty then some v else none

/-! ## Canonical values -/

mutual

/-- The value with the entries of every object in key order and no key twice. -/
def canonical : Value → Value
  | .arr items => .arr (canonicalItems items)
  | .obj entries => .obj (Entries.ofList (canonicalEntries entries))
  | v => v

@[inherit_doc canonical]
def canonicalItems : List Value → List Value
  | [] => []
  | v :: vs => canonical v :: canonicalItems vs

@[inherit_doc canonical]
def canonicalEntries : List (String × Value) → List (String × Value)
  | [] => []
  | (k, v) :: es => (k, canonical v) :: canonicalEntries es

end

end SchemaExtraction.Json
