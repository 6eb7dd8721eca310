import SchemaExtraction.Number.Decimal
import SchemaExtraction.Time.Timestamp
import SchemaExtraction.Toml.Basic
import SchemaExtraction.Toml.Quoting

/-!
# Reading TOML

A document is read line by line: a header opens a table, a key with a value adds to the table that
is open, and comments and blank lines do not count. Anything else makes the whole text invalid.
-/

namespace SchemaExtraction.Toml

/-! ## Blanks and comments -/

/-- Skips spaces and tabs. -/
def skipBlanks (cs : List Char) : List Char := cs.dropWhile fun c => c = ' ' || c = '\t'

/-- Skips a comment up to the end of its line; it may not hold controls. -/
def skipComment? (cs : List Char) : Option (List Char) :=
  match cs with
  | '#' :: cs =>
    let rest := cs.dropWhile isPlain
    if rest.isEmpty || (takeBreak? rest).isSome then some rest else none
  | cs => some cs

/-- The text after the end of a line, blanks and a comment before it aside. -/
def endLine? (cs : List Char) : Option (List Char) := do
  let rest ← skipComment? (skipBlanks cs)
  if rest.isEmpty then some [] else takeBreak? rest

/-- Skips blanks, comments and line breaks. -/
def skipLines? : Nat → List Char → Option (List Char)
  | 0, _ => none
  | fuel + 1, cs => do
    let rest ← skipComment? (skipBlanks cs)
    match takeBreak? rest with
    | some rest => skipLines? fuel rest
    | none => some rest

/-! ## Keys -/

/-- How many parts a key may have, and how many arrays and inline tables may lie inside one
    another. -/
def maxDepth : Nat := 79

/-- Whether a key may hold a character without quotation marks. -/
def isBare (c : Char) : Bool := c.isAlphanum || c = '-' || c = '_'

/-- Reads one part of a key. -/
def readKeyPart (cs : List Char) : Option (String × List Char) :=
  let bare := cs.takeWhile isBare
  if bare.isEmpty then (readShortString cs).map fun (s, rest) => (String.ofList s, rest)
  else some (String.ofList bare, cs.dropWhile isBare)

/-- Reads the parts of a key, with dots between them; the fuel is how many there may be. -/
def readKey : Nat → List Char → Option (List String × List Char)
  | 0, _ => none
  | fuel + 1, cs => do
    let (part, rest) ← readKeyPart (skipBlanks cs)
    match skipBlanks rest with
    | '.' :: rest => do
      let (parts, rest) ← readKey fuel rest
      return (part :: parts, rest)
    | rest => return ([part], rest)

/-! ## Numbers, moments and words -/

/-- The digits of a number with the underscores between them taken out. -/
def dropUnderscores (isDigit : Char → Bool) : List Char → Option (List Char)
  | [] => none
  | [c] => if isDigit c then some [c] else none
  | c :: '_' :: cs => if isDigit c then (dropUnderscores isDigit cs).map (c :: ·) else none
  | c :: cs => if isDigit c then (dropUnderscores isDigit cs).map (c :: ·) else none

/-- The digits of a number without a leading zero. -/
def decimal? (cs : List Char) : Option (List Char) := do
  let ds ← dropUnderscores Char.isDigit cs
  if ds.length ≠ 1 ∧ ds.head? = some '0' then none else some ds

/-- An integer of 64 bits with a sign. -/
def inRange? (n : Int) : Option Item :=
  if -0x8000000000000000 ≤ n ∧ n < 0x8000000000000000 then some (.integer n) else none

/-- The number that some digits write in a base up to sixteen. -/
def baseValue (base : Nat) (cs : List Char) : Nat :=
  cs.foldl (fun acc c => acc * base + (hexValue? c).getD 0) 0

/-- Whether a character is a digit of a base up to sixteen. -/
def isBaseDigit (base : Nat) (c : Char) : Bool :=
  match hexValue? c with
  | some n => n < base
  | none => false

/-- An integer. -/
def integer? (cs : List Char) : Option Item :=
  match cs with
  | '0' :: 'x' :: cs => (dropUnderscores (isBaseDigit 16) cs).bind (inRange? <| baseValue 16 ·)
  | '0' :: 'o' :: cs => (dropUnderscores (isBaseDigit 8) cs).bind (inRange? <| baseValue 8 ·)
  | '0' :: 'b' :: cs => (dropUnderscores (isBaseDigit 2) cs).bind (inRange? <| baseValue 2 ·)
  | cs => do
    let (negative, cs) := NumberText.takeSign cs
    let n := digitsValue (← decimal? cs)
    inRange? (if negative then -n else n)

/-- A floating-point number: digits with a fraction, an exponent or both, or a word. It may not
    be too large, unless it is negative. -/
def float? (cs : List Char) : Option Item := do
  let (negative, body) := NumberText.takeSign cs
  if body = "inf".toList ∨ body = "nan".toList then return .float
  let isMark := fun c : Char => c = '.' || c = 'e' || c = 'E'
  let whole ← decimal? (body.takeWhile (!isMark ·))
  let (fraction, rest) ←
    match body.dropWhile (!isMark ·) with
    | '.' :: cs => do
      let fraction ← dropUnderscores Char.isDigit (cs.takeWhile (!isMark ·))
      pure (fraction, cs.dropWhile (!isMark ·))
    | cs => pure ([], cs)
  let exponent ←
    match rest with
    | [] => if fraction.isEmpty then none else pure (0 : Int)
    | '.' :: _ => none
    | _ :: cs => do
      let (negative, ds) := NumberText.takeSign cs
      let n := digitsValue (← dropUnderscores Char.isDigit ds)
      pure (if negative then -(n : Int) else n)
  let x : Decimal := ⟨digitsValue (whole ++ fraction), exponent - fraction.length⟩
  if negative ∨ (Binary64.ofDecimal? false x).isSome then return .float else none

/-- Skips a time of day. -/
def skipTime? (cs : List Char) : Option (List Char) := do
  let (hour, cs) ← Time.takeDigits? 2 cs
  let (minute, cs) ← Time.takeDigits? 2 (← Time.takeChar? ':' cs)
  let (second, cs) ← Time.takeDigits? 2 (← Time.takeChar? ':' cs)
  if hour < 24 ∧ minute < 60 ∧ second ≤ 60 then Time.skipFraction? cs else none

/-- Skips an offset from universal time, if there is one. -/
def skipOffset? (cs : List Char) : Option (List Char) :=
  match cs with
  | [] => some []
  | '−' :: _ => none
  | cs => (Time.takeOffset? cs).map Prod.snd

/-- A date, a time of day, or both, perhaps with an offset. -/
def moment? (cs : List Char) : Option Item :=
  match skipTime? cs with
  | some rest => if rest.isEmpty then some .moment else none
  | none => do
    let (year, cs) ← Time.takeDigits? 4 cs
    let (month, cs) ← Time.takeDigits? 2 (← Time.takeChar? '-' cs)
    let (day, cs) ← Time.takeDigits? 2 (← Time.takeChar? '-' cs)
    if !(Time.Date.mk year month day).valid then none
    match cs with
    | [] => return .moment
    | c :: cs =>
      if c = 'T' ∨ c = 't' ∨ c = ' ' then do
        let rest ← skipOffset? (← skipTime? cs)
        if rest.isEmpty then return .moment else none
      else none

/-- What is not between marks or brackets: a word, a moment or a number. -/
def scalar? (cs : List Char) : Option Item :=
  if cs = "true".toList then some (.boolean true)
  else if cs = "false".toList then some (.boolean false)
  else ((moment? cs).orElse fun _ => integer? cs).orElse fun _ => float? cs

/-- Whether a scalar may hold a character. -/
def isScalar (c : Char) : Bool := isBare c || c = '+' || c = '.' || c = ':'

/-- The characters of a scalar and the rest. A space may stand between a date and a time. -/
def takeScalar (cs : List Char) : List Char × List Char :=
  let word := cs.takeWhile isScalar
  match cs.dropWhile isScalar with
  | ' ' :: rest =>
    let next := rest.takeWhile isScalar
    if word.length = 10 ∧ word.contains '-' ∧ (next.take 3).getLast? = some ':' then
      (word ++ ' ' :: next, rest.dropWhile isScalar)
    else (word, ' ' :: rest)
  | rest => (word, rest)

/-! ## Values -/

mutual

/-- Reads a value. -/
def readItem (fuel depth : Nat) (cs : List Char) : Option (Item × List Char) :=
  match fuel with
  | 0 => none
  | fuel + 1 =>
    match cs with
    | [] => none
    | '[' :: cs =>
      match depth with
      | 0 => none
      | depth + 1 => do
        let (items, rest) ← readItems fuel depth cs
        return (.array items, rest)
    | '\x7b' :: cs =>
      match depth with
      | 0 => none
      | depth + 1 =>
        match skipBlanks cs with
        | '\x7d' :: rest => some (.table .inlined [], rest)
        | cs => do
          let (origin, entries, rest) ← readInline fuel depth (.inlined, []) cs
          return (.table origin entries, rest)
    | c :: cs =>
      if c = '"' ∨ c = '\'' then
        (readString (c :: cs)).map fun (s, rest) => (.string (String.ofList s), rest)
      else do
        let (word, rest) := takeScalar (c :: cs)
        return (← scalar? word, rest)

/-- Reads the items of an array up to its closing bracket; a comma may follow the last one. -/
def readItems (fuel depth : Nat) (cs : List Char) : Option (List Item × List Char) :=
  match fuel with
  | 0 => none
  | fuel + 1 => do
    match ← skipLines? (cs.length + 1) cs with
    | ']' :: rest => return ([], rest)
    | cs => do
      let (v, rest) ← readItem fuel depth cs
      match ← skipLines? (rest.length + 1) rest with
      | ',' :: rest => do
        let (vs, rest) ← readItems fuel depth rest
        return (v :: vs, rest)
      | ']' :: rest => return ([v], rest)
      | _ => none

/-- Reads the entries of an inline table up to its closing brace; there is at least one. -/
def readInline (fuel depth : Nat) (so : Origin × List (String × Item)) (cs : List Char) :
    Option (Origin × List (String × Item) × List Char) :=
  match fuel with
  | 0 => none
  | fuel + 1 => do
    let (parts, rest) ← readKey maxDepth cs
    match rest with
    | '=' :: rest => do
      let (v, rest) ← readItem fuel depth (skipBlanks rest)
      let so ← defineAt parts.dropLast (parts.getLast?.getD "") v so.1 so.2
      match skipBlanks rest with
      | '\x7d' :: rest => return (so.1, so.2, rest)
      | ',' :: rest => readInline fuel depth so rest
      | _ => none
    | _ => none

end

/-! ## Documents -/

/-- A document so far: its root, and the path of the table that is open. -/
structure Draft where
  root : List (String × Item)
  path : List String

/-- Opens the table at the end of a path. -/
def Draft.open? (d : Draft) (parts : List String) (change : String → Change) : Option Draft := do
  let (_, root) ← descend .implied (change (parts.getLast?.getD "")) parts.dropLast .header d.root
  return ⟨root, parts⟩

/-- Adds a key to the table that is open. -/
def Draft.define? (d : Draft) (parts : List String) (v : Item) : Option Draft := do
  let change := defineAt parts.dropLast (parts.getLast?.getD "") v
  let (_, root) ← descend .implied change d.path .header d.root
  return { d with root := root }

/-- Reads the rest of a document, line by line. -/
def readDocument (fuel : Nat) (d : Draft) (cs : List Char) : Option Draft :=
  match fuel with
  | 0 => none
  | fuel + 1 =>
    match skipBlanks cs with
    | [] => some d
    | '[' :: '[' :: cs => do
      let (parts, rest) ← readKey maxDepth cs
      match rest with
      | ']' :: ']' :: rest => readDocument fuel (← d.open? parts openNext) (← endLine? rest)
      | _ => none
    | '[' :: cs => do
      let (parts, rest) ← readKey maxDepth cs
      match rest with
      | ']' :: rest => readDocument fuel (← d.open? parts openTable) (← endLine? rest)
      | _ => none
    | c :: cs =>
      if c = '#' ∨ c = '\n' ∨ c = '\r' then do readDocument fuel d (← endLine? (c :: cs))
      else do
        let (parts, rest) ← readKey maxDepth (c :: cs)
        match rest with
        | '=' :: rest => do
          let (v, rest) ← readItem (2 * rest.length + 2) maxDepth (skipBlanks rest)
          readDocument fuel (← d.define? parts v) (← endLine? rest)
        | _ => none

/-- Reads a document; a byte order mark in front does not count. -/
def read (text : String) : Option (List (String × Item)) :=
  let cs := match text.toList with
    | '\uFEFF' :: cs => cs
    | cs => cs
  (readDocument (cs.length + 1) ⟨[], []⟩ cs).map Draft.root

end SchemaExtraction.Toml
