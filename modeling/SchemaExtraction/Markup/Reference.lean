import SchemaExtraction.Markup.NamedCharacters
import SchemaExtraction.Number.Digits
import SchemaExtraction.Text.Search

/-!
# Character references

A reference is an ampersand and a name or a number. The longest name that fits is taken. An
ampersand that starts no reference stands for itself, and so does, in the value of an attribute,
one whose name could go on or looks like the name of a parameter.
-/

namespace SchemaExtraction.Markup

/-- The character that stands in for one that cannot be. -/
def replacement : Char := '\uFFFD'

/-- White space between the parts of a page. -/
def isSpace (c : Char) : Bool :=
  c = ' ' || c = '\n' || c = '\t' || c = '\x0C' || c = '\r'

/-! ## Names -/

/-- A name and the characters that it stands for, from its entry in the table. -/
def readNamed (entry : List Char) : List Char × List Char :=
  let (name, codes) := entry.span (· ≠ ':')
  (name, (Text.split ['+'] (codes.drop 1)).map fun ds => Char.ofNat ((hexNumber? ds).getD 0))

/-- The names that pages are written with. -/
def writtenCharacters : List (List Char × List Char) :=
  [("amp".toList, ['&']), ("gt".toList, ['>']), ("lt".toList, ['<']),
    ("nbsp".toList, ['\u00A0']), ("quot".toList, ['"'])]

/-- The names with their characters. -/
def namedCharacters : List (List Char × List Char) :=
  writtenCharacters ++ (Text.words isSpace namedText.toList).map readNamed

/-- The names that may stand without a semicolon. -/
def bareNames : List (List Char) := Text.words isSpace bareText.toList

/-- What a name or a number stands for at the start of a text, and the rest. -/
structure Found where
  /-- the length of the name or number, with its semicolon -/
  size : Nat
  /-- whether a semicolon ends it -/
  closed : Bool
  characters : List Char
  rest : List Char

/-- The name of an entry at the start of a text, `run` being the letters and digits there: names
    have no other characters. -/
def findNamed? (run cs : List Char) (entry : List Char × List Char) : Option Found :=
  if entry.1.isPrefixOf run then
    match cs.drop entry.1.length with
    | ';' :: rest => some ⟨entry.1.length + 1, true, entry.2, rest⟩
    | rest =>
      if bareNames.contains entry.1 then some ⟨entry.1.length, false, entry.2, rest⟩ else none
  else none

/-- The longer of what was found; the first if there is no difference. -/
def longer : Option Found → Option Found → Option Found
  | some a, some b => if a.size < b.size then some b else some a
  | none, b => b
  | a, none => a

/-- The longest name at the start of a text. -/
def longestNamed? (cs : List Char) : Option Found :=
  let run := cs.takeWhile Char.isAlphanum
  namedCharacters.foldl (fun best entry => longer best (findNamed? run cs entry)) none

/-! ## Numbers -/

/-- The characters of an old code page that the numbers from 128 to 159 stand for; zero where
    there is none. -/
def pageCodes : List Nat :=
  [0x20AC, 0, 0x201A, 0x0192, 0x201E, 0x2026, 0x2020, 0x2021, 0x02C6, 0x2030, 0x0160, 0x2039,
    0x0152, 0, 0x017D, 0, 0, 0x2018, 0x2019, 0x201C, 0x201D, 0x2022, 0x2013, 0x2014, 0x02DC,
    0x2122, 0x0161, 0x203A, 0x0153, 0, 0x017E, 0x0178]

/-- The character that a number stands for. -/
def characterOf (n : Nat) : Char :=
  if 0x80 ≤ n && n ≤ 0x9F then
    match pageCodes[n - 0x80]? with
    | some 0 => Char.ofNat n
    | some code => Char.ofNat code
    | none => replacement
  else if n = 0 ∨ ¬ n.isValidChar then replacement
  else Char.ofNat n

/-- A number in some digits with an optional semicolon after it; none without a digit. -/
def numeric? (isDigit : Char → Bool) (base : Nat) (cs : List Char) : Option Found :=
  let (digits, rest) := cs.span isDigit
  if digits.isEmpty then none
  else
    let found := [characterOf (digits.foldl (fun acc c => acc * base + (hexValue? c).getD 0) 0)]
    match rest with
    | ';' :: rest => some ⟨digits.length + 1, true, found, rest⟩
    | rest => some ⟨digits.length, false, found, rest⟩

/-! ## References -/

/-- Whether a letter or digit of ASCII or an equals sign comes next. -/
def goesOn : List Char → Bool
  | c :: _ => c = '=' || c.isAlphanum
  | [] => false

/-- What a reference stands for, from what follows its ampersand, and the rest. -/
def reference? (inAttribute : Bool) : List Char → Option Found
  | '#' :: 'x' :: cs => numeric? (fun c => (hexValue? c).isSome) 16 cs
  | '#' :: 'X' :: cs => numeric? (fun c => (hexValue? c).isSome) 16 cs
  | '#' :: cs => numeric? Char.isDigit 10 cs
  | cs =>
    match longestNamed? cs with
    | some found =>
      if inAttribute && !found.closed && goesOn found.rest then none else some found
    | none => none

/-- Resolves the references in the value of an attribute. The fuel is the length of the text. -/
def resolveReferencesFrom : Nat → List Char → List Char
  | _, [] => []
  | 0, cs => cs
  | fuel + 1, '&' :: cs =>
    match reference? true cs with
    | some found => found.characters ++ resolveReferencesFrom fuel found.rest
    | none => '&' :: resolveReferencesFrom fuel cs
  | fuel + 1, '\x00' :: cs => replacement :: resolveReferencesFrom fuel cs
  | fuel + 1, c :: cs => c :: resolveReferencesFrom fuel cs

@[inherit_doc resolveReferencesFrom]
def resolveReferences (cs : List Char) : List Char := resolveReferencesFrom cs.length cs

end SchemaExtraction.Markup
