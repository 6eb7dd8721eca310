import SchemaExtraction.Markup.Place

/-!
# Writing pages

Elements are written with their tags, and those that cannot hold anything without an end tag. Text
is escaped except in elements whose content is raw, such as scripts.

Results:
* `Forest.write_append`: forests side by side are written one after the other.
* `escape_append`: escaping works character by character.
-/

namespace SchemaExtraction.Markup

/-- Elements without content and without an end tag. -/
def voidNames : List String :=
  ["area", "base", "basefont", "bgsound", "br", "col", "embed", "frame", "hr", "img", "input",
    "keygen", "link", "meta", "param", "source", "track", "wbr"]

/-- Elements whose text is written as it is. -/
def rawNames : List String :=
  ["style", "script", "xmp", "iframe", "noembed", "noframes", "plaintext"]

/-- Writes one character in text, or in the value of an attribute. -/
def escapeChar (quoted : Bool) (c : Char) : List Char :=
  if c = '&' then "&amp;".toList
  else if c = '\u00A0' then "&nbsp;".toList
  else if c = '"' && quoted then "&quot;".toList
  else if c = '<' && !quoted then "&lt;".toList
  else if c = '>' && !quoted then "&gt;".toList
  else [c]

/-- Writes text, or the value of an attribute. -/
def escape (quoted : Bool) (cs : List Char) : List Char := cs.flatMap (escapeChar quoted)

/-- The name of an attribute with the mark of its name space. -/
def Attribute.writtenName (a : Attribute) : String :=
  match a.space with
  | .none => a.name
  | .xml => "xml:" ++ a.name
  | .xlink => "xlink:" ++ a.name
  | .xmlns => if a.name = "xmlns" then a.name else "xmlns:" ++ a.name

/-- Writes an attribute after a space. -/
def Attribute.write (a : Attribute) : List Char :=
  ' ' :: a.writtenName.toList ++ ['=', '"'] ++ escape true a.value.toList ++ ['"']

/-- Writes a start tag. -/
def Element.writeStart (e : Element) : List Char :=
  '<' :: e.name.toList ++ e.attributes.flatMap Attribute.write ++ ['>']

/-- Writes an end tag. -/
def Element.writeEnd (e : Element) : List Char := '<' :: '/' :: e.name.toList ++ ['>']

/-- Writes a leaf, text as it is where it is `raw`. -/
def Leaf.write (raw : Bool) : Leaf → List Char
  | .doctype name => "<!DOCTYPE ".toList ++ name.toList ++ ['>']
  | .comment s => "<!--".toList ++ s.toList ++ "-->".toList
  | .text s => if raw then s.toList else escape false s.toList

/-- Writes a forest, its own text as it is where it is `raw`. -/
def Forest.write (raw : Bool) : Forest → List Char
  | .nil => []
  | .leaf l next => l.write raw ++ next.write raw
  | .element e content next =>
    e.writeStart ++
      (if e.isHtml voidNames then []
        else content.write (e.isHtml rawNames) ++ e.writeEnd) ++
      next.write raw
  | .fragment content next => content.write raw ++ next.write raw

/-- Writes an element with all that it holds. -/
def Place.outer : Place → List Char
  | .at e content _ _ _ => (Forest.element e content .nil).write false
  | _ => []

/-- Writes what an element holds. -/
def Place.inner : Place → List Char
  | .at _ content _ _ _ => content.write false
  | _ => []

/-- The text inside an element. -/
def Place.text : Place → List Char
  | .at _ content _ _ _ => content.text
  | _ => []

/-- Writes a whole page. -/
def Page.write (page : Page) : List Char :=
  page.before.flatMap (Leaf.write false) ++ page.rootPlace.outer ++
    page.after.flatMap (Leaf.write false)

theorem escape_append (quoted : Bool) (cs ds : List Char) :
    escape quoted (cs ++ ds) = escape quoted cs ++ escape quoted ds := by
  simp [escape]

theorem Leaf.write_comment (raw : Bool) (s : String) :
    (comment s).write raw = "<!--".toList ++ s.toList ++ "-->".toList := rfl

theorem Leaf.write_text (s : String) : (text s).write false = escape false s.toList := rfl

theorem Forest.write_append (raw : Bool) (f g : Forest) :
    (f ++ g).write raw = f.write raw ++ g.write raw := by
  induction f with
  | nil => rfl
  | leaf l next ih => simp [write, ih]
  | element e c next _ ih => simp [write, ih]
  | fragment c next _ ih => simp [write, ih]

end SchemaExtraction.Markup
