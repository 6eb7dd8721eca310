import SchemaExtraction.Markup.Reference

/-!
# Document types

A document type names the format of a page and may carry a public and a system identifier. Pages
without one, and those whose identifiers are those of old formats, are legacy pages: in them a
table may stand inside a paragraph.
-/

namespace SchemaExtraction.Markup

/-- A document type declaration. -/
structure Doctype where
  name : Option String
  publicId : Option String
  systemId : Option String
  /-- whether the declaration is cut short or has something unexpected in it -/
  broken : Bool
deriving DecidableEq, Repr

namespace Doctype

/-- Formats that make a page a legacy page whatever follows them in the public identifier. -/
def legacyPublic : List String :=
  ["+//silmaril//dtd html pro v0r11 19970101//",
    "-//advasoft ltd//dtd html 3.0 aswedit + extensions//",
    "-//as//dtd html 3.0 aswedit + extensions//",
    "-//ietf//dtd html 2.0 level 1//", "-//ietf//dtd html 2.0 level 2//",
    "-//ietf//dtd html 2.0 strict level 1//", "-//ietf//dtd html 2.0 strict level 2//",
    "-//ietf//dtd html 2.0 strict//", "-//ietf//dtd html 2.0//", "-//ietf//dtd html 2.1e//",
    "-//ietf//dtd html 3.0//", "-//ietf//dtd html 3.2 final//", "-//ietf//dtd html 3.2//",
    "-//ietf//dtd html 3//", "-//ietf//dtd html level 0//", "-//ietf//dtd html level 1//",
    "-//ietf//dtd html level 2//", "-//ietf//dtd html level 3//",
    "-//ietf//dtd html strict level 0//", "-//ietf//dtd html strict level 1//",
    "-//ietf//dtd html strict level 2//", "-//ietf//dtd html strict level 3//",
    "-//ietf//dtd html strict//", "-//ietf//dtd html//",
    "-//metrius//dtd metrius presentational//",
    "-//microsoft//dtd internet explorer 2.0 html strict//",
    "-//microsoft//dtd internet explorer 2.0 html//",
    "-//microsoft//dtd internet explorer 2.0 tables//",
    "-//microsoft//dtd internet explorer 3.0 html strict//",
    "-//microsoft//dtd internet explorer 3.0 html//",
    "-//microsoft//dtd internet explorer 3.0 tables//",
    "-//netscape comm. corp.//dtd html//", "-//netscape comm. corp.//dtd strict html//",
    "-//o'reilly and associates//dtd html 2.0//",
    "-//o'reilly and associates//dtd html extended 1.0//",
    "-//o'reilly and associates//dtd html extended relaxed 1.0//",
    "-//softquad software//dtd hotmetal pro 6.0::19990601::extensions to html 4.0//",
    "-//softquad//dtd hotmetal pro 4.0::19971010::extensions to html 4.0//",
    "-//spyglass//dtd html 2.0 extended//", "-//sq//dtd html 2.0 hotmetal + extensions//",
    "-//sun microsystems corp.//dtd hotjava html//",
    "-//sun microsystems corp.//dtd hotjava strict html//",
    "-//w3c//dtd html 3 1995-03-24//",
    "-//w3c//dtd html 3.2 draft//", "-//w3c//dtd html 3.2 final//", "-//w3c//dtd html 3.2//",
    "-//w3c//dtd html 3.2s draft//", "-//w3c//dtd html 4.0 frameset//",
    "-//w3c//dtd html 4.0 transitional//", "-//w3c//dtd html experimental 19960712//",
    "-//w3c//dtd html experimental 970421//", "-//w3c//dtd w3 html//",
    "-//w3o//dtd w3 html 3.0//", "-//webtechs//dtd mozilla html 2.0//",
    "-//webtechs//dtd mozilla html//"]

/-- Public identifiers that make a page a legacy page. -/
def legacyWhole : List String :=
  ["-//w3o//dtd w3 html strict 3.0//en//", "-/w3c/dtd html 4.0 transitional/en", "html"]

/-- System identifiers that make a page a legacy page. -/
def legacySystem : List String := ["http://www.ibm.com/data/dtd/v11/ibmxhtml1-transitional.dtd"]

/-- Formats that make a page a legacy page when there is no system identifier. -/
def legacyAlone : List String :=
  ["-//w3c//dtd html 4.01 frameset//", "-//w3c//dtd html 4.01 transitional//"]

/-- Whether a text in lower case starts with one of some texts. -/
def startsWithAny (options : List String) (s : List Char) : Bool :=
  options.any fun p => (Text.dropPrefix? p.toList s).isSome

/-- Whether a public identifier, in lower case, makes a page a legacy page. -/
def isLegacyPublic (isAlone : Bool) (p : List Char) : Bool :=
  legacyWhole.contains (String.ofList p) || startsWithAny legacyPublic p ||
    (isAlone && startsWithAny legacyAlone p)

/-- Whether a declaration makes a page a legacy page. Letter case does not count in
    identifiers. -/
def isLegacy (d : Doctype) : Bool :=
  let lower (s : String) := s.toList.map Char.toLower
  d.broken || d.name ≠ some "html" ||
    (d.publicId.map lower).any (isLegacyPublic d.systemId.isNone) ||
    (d.systemId.map lower).any fun s => legacySystem.contains (String.ofList s)

/-! ## Reading -/

/-- Skips to the end of a declaration. -/
def skip (cs : List Char) : List Char := (cs.dropWhile (· ≠ '>')).drop 1

/-- A text with the characters that cannot be in it replaced. -/
def clean (cs : List Char) : String :=
  String.ofList (cs.map fun c => if c = '\x00' then replacement else c)

/-- An identifier in quotation marks: its text, whether its closing mark is there, and the rest
    from after the mark. -/
def readId (mark : Char) (cs : List Char) : String × Bool × List Char :=
  let (text, rest) := cs.span fun c => c ≠ mark && c ≠ '>'
  match rest with
  | c :: rest => (clean text, c = mark, if c = mark then rest else c :: rest)
  | [] => (clean text, false, [])

/-- Reads what follows the system identifier. -/
def readEnd (d : Doctype) (cs : List Char) : Doctype × List Char :=
  match cs.dropWhile isSpace with
  | [] => ({ d with broken := true }, [])
  | cs => (d, skip cs)

/-- Reads a system identifier; there must be one if it is `required`. -/
def readSystem (required : Bool) (d : Doctype) (cs : List Char) : Doctype × List Char :=
  match cs.dropWhile isSpace with
  | [] => ({ d with broken := true }, [])
  | '>' :: rest => (if required then { d with broken := true } else d, rest)
  | c :: rest =>
    if c = '"' || c = '\'' then
      let (id, closed, rest) := readId c rest
      if closed then readEnd { d with systemId := some id } rest
      else ({ d with systemId := some id, broken := true }, skip rest)
    else ({ d with broken := true }, skip (c :: rest))

/-- Reads a public identifier and what follows it. -/
def readPublic (d : Doctype) (cs : List Char) : Doctype × List Char :=
  match cs.dropWhile isSpace with
  | [] => ({ d with broken := true }, [])
  | '>' :: rest => ({ d with broken := true }, rest)
  | c :: rest =>
    if c = '"' || c = '\'' then
      let (id, closed, rest) := readId c rest
      if closed then readSystem false { d with publicId := some id } rest
      else ({ d with publicId := some id, broken := true }, skip rest)
    else ({ d with broken := true }, skip (c :: rest))

/-- Reads what follows the word that opens a declaration, and gives the rest. -/
def read (cs : List Char) : Doctype × List Char :=
  match cs.dropWhile isSpace with
  | [] => (⟨none, none, none, true⟩, [])
  | '>' :: rest => (⟨none, none, none, true⟩, rest)
  | cs =>
    let (name, rest) := cs.span fun c => !isSpace c && c ≠ '>'
    let d : Doctype := ⟨some (clean (name.map Char.toLower)), none, none, false⟩
    match rest.dropWhile isSpace with
    | [] => ({ d with broken := true }, [])
    | '>' :: rest => (d, rest)
    | rest =>
      let word := (rest.take 6).map Char.toLower
      if word = "public".toList then readPublic d (rest.drop 6)
      else if word = "system".toList then readSystem true d (rest.drop 6)
      else ({ d with broken := true }, skip rest)

end Doctype
end SchemaExtraction.Markup
