import SchemaExtraction.Text.CaseTable

/-!
# Lower and upper case

Full case mapping of a text: one character may become several, and a capital sigma that ends a
word becomes a final sigma.
-/

namespace SchemaExtraction.Text

/-- The image of a character under tables of runs and of long images; itself if in neither. -/
def mapCase (runs : List CaseRun) (long : List (Nat × List Nat)) (c : Char) : List Char :=
  match long.lookup c.toNat with
  | some image => image.map Char.ofNat
  | none => [((CaseRun.find? runs c.toNat).map Char.ofNat).getD c]

/-- The lower case of one character, wherever it stands. -/
def lowerChar (c : Char) : List Char :=
  if c.toNat < 0x80 then [c.toLower] else mapCase lowerRuns lowerLong c

/-- The upper case of one character. -/
def upperChar (c : Char) : List Char :=
  if c.toNat < 0x80 then [c.toUpper] else mapCase upperRuns upperLong c

/-- Whether the first character that case conditions do not pass over is a letter with case. -/
def meetsCased (cs : List Char) : Bool :=
  match cs.dropWhile (fun c => inRanges ignorableRanges c.toNat) with
  | [] => false
  | c :: _ => inRanges casedRanges c.toNat

/-- Lower case of the rest of a text, `before` being what precedes it in reverse. -/
def lowerFrom (before : List Char) : List Char → List Char
  | [] => []
  | c :: cs =>
    let image :=
      if c = 'Σ' then [if meetsCased before && !meetsCased cs then 'ς' else 'σ'] else lowerChar c
    image ++ lowerFrom (c :: before) cs

/-- The text in lower case. -/
def toLower (cs : List Char) : List Char := lowerFrom [] cs

/-- The text in upper case. -/
def toUpper (cs : List Char) : List Char := cs.flatMap upperChar

end SchemaExtraction.Text
