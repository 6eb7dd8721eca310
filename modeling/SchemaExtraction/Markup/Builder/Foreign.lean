import SchemaExtraction.Markup.Builder.Basic

/-!
# Elements of other vocabularies

Inside drawings and formulas tags start elements of SVG and MathML, whose names have capital
letters that tags do not tell. Tags of HTML that cannot belong there close them.
-/

namespace SchemaExtraction.Markup.Build

/-- The elements of SVG with capital letters in their names. -/
def svgNames : List String :=
  ["altGlyph", "altGlyphDef", "altGlyphItem", "animateColor", "animateMotion",
    "animateTransform", "clipPath", "feBlend", "feColorMatrix", "feComponentTransfer",
    "feComposite", "feConvolveMatrix", "feDiffuseLighting", "feDisplacementMap",
    "feDistantLight", "feDropShadow", "feFlood", "feFuncA", "feFuncB", "feFuncG", "feFuncR",
    "feGaussianBlur", "feImage", "feMerge", "feMergeNode", "feMorphology", "feOffset",
    "fePointLight", "feSpecularLighting", "feSpotLight", "feTile", "feTurbulence",
    "foreignObject", "glyphRef", "linearGradient", "radialGradient", "textPath"]

/-- The attributes of SVG with capital letters in their names. -/
def svgAttributes : List String :=
  ["attributeName", "attributeType", "baseFrequency", "baseProfile", "calcMode",
    "clipPathUnits", "diffuseConstant", "edgeMode", "filterUnits", "glyphRef",
    "gradientTransform", "gradientUnits", "kernelMatrix", "kernelUnitLength", "keyPoints",
    "keySplines", "keyTimes", "lengthAdjust", "limitingConeAngle", "markerHeight",
    "markerUnits", "markerWidth", "maskContentUnits", "maskUnits", "numOctaves", "pathLength",
    "patternContentUnits", "patternTransform", "patternUnits", "pointsAtX", "pointsAtY",
    "pointsAtZ", "preserveAlpha", "preserveAspectRatio", "primitiveUnits", "refX", "refY",
    "repeatCount", "repeatDur", "requiredExtensions", "requiredFeatures", "specularConstant",
    "specularExponent", "spreadMethod", "startOffset", "stdDeviation", "stitchTiles",
    "surfaceScale", "systemLanguage", "tableValues", "targetX", "targetY", "textLength",
    "viewBox", "viewTarget", "xChannelSelector", "yChannelSelector", "zoomAndPan"]

/-- The attributes of MathML with capital letters in their names. -/
def mathAttributes : List String := ["definitionURL"]

/-- A name with the capital letters that a list of names has for it. -/
def capitalize (names : List String) (name : String) : String :=
  (names.find? fun n => n.toList.map Char.toLower = name.toList).getD name

/-- Attributes in name spaces of their own, by their names in tags. -/
def spacedAttributes : List (String × AttributeSpace × String) :=
  [("xlink:actuate", .xlink, "actuate"), ("xlink:arcrole", .xlink, "arcrole"),
    ("xlink:href", .xlink, "href"), ("xlink:role", .xlink, "role"),
    ("xlink:show", .xlink, "show"), ("xlink:title", .xlink, "title"),
    ("xlink:type", .xlink, "type"), ("xml:lang", .xml, "lang"), ("xml:space", .xml, "space"),
    ("xmlns", .xmlns, "xmlns"), ("xmlns:xlink", .xmlns, "xlink")]

/-- An attribute of a tag as an attribute of an element of a vocabulary. -/
def foreignAttribute (vocabulary : Vocabulary) (a : Attribute) : Attribute :=
  match spacedAttributes.lookup a.name with
  | some (space, name) => ⟨space, name, a.value⟩
  | none =>
    match vocabulary with
    | .svg => { a with name := capitalize svgAttributes a.name }
    | .mathml => { a with name := capitalize mathAttributes a.name }
    | .html => a

/-- The element of a vocabulary that a tag starts. -/
def foreignElement (vocabulary : Vocabulary) (tag : Tag) : Element :=
  ⟨vocabulary, if vocabulary = .svg then capitalize svgNames tag.name else tag.name,
    tag.attributes.map (foreignAttribute vocabulary)⟩

/-- Adds an element of a vocabulary and opens it unless its tag closes it. -/
def insertForeign (vocabulary : Vocabulary) (tag : Tag) : Build Unit := do
  let id ← insertClosed (foreignElement vocabulary tag)
  if !tag.selfClosing then push id

/-- Whether a token is handled by the rules for other vocabularies. -/
def isForeign (token : Token) (b : Builder) : Bool :=
  let e := match b.stack with
    | id :: _ => b.draft.element id
    | [] => ⟨.html, "", []⟩
  e.vocabulary ≠ .html &&
    match token with
    | .finish => false
    | .startTag tag =>
      !(holdsHtml e || (holdsText e && tag.name ≠ "mglyph" && tag.name ≠ "malignmark") ||
        (e.vocabulary = .mathml && e.name = "annotation-xml" && tag.name = "svg"))
    | .space _ | .word _ | .null => !(holdsHtml e || holdsText e)
    | _ => true

/-- Tags that close the elements of other vocabularies. -/
def breakoutNames : List String :=
  ["b", "big", "blockquote", "body", "br", "center", "code", "dd", "div", "dl", "dt", "em",
    "embed", "h1", "h2", "h3", "h4", "h5", "h6", "head", "hr", "i", "img", "li", "listing",
    "menu", "meta", "nobr", "ol", "p", "pre", "ruby", "s", "small", "span", "strong", "strike",
    "sub", "sup", "table", "tt", "u", "ul", "var"]

/-- Whether a tag closes the elements of other vocabularies. -/
def breaksOut (tag : Tag) : Bool :=
  breakoutNames.contains tag.name ||
    (tag.name = "font" &&
      tag.attributes.any fun a => ["color", "face", "size"].contains a.name)

/-- End tags that close the elements of other vocabularies, since in HTML they stand for
    elements. -/
def breakoutEnds : List String := ["br", "p"]

/-- Closes the elements that hold nothing of HTML. -/
def closeForeign : Build Unit :=
  modify fun b => { b with
    stack := b.stack.dropWhile fun id =>
      let e := b.draft.element id
      !(e.vocabulary = .html || holdsText e || holdsHtml e) }

/-- What an end tag does among elements of other vocabularies. -/
inductive ForeignEnd where
  /-- it closes elements, and these stay open -/
  | closes (stack : List NodeId)
  /-- an element of HTML has to deal with it -/
  | leaves
  /-- it closes nothing -/
  | ignored

/-- What an end tag does to the open elements, given innermost first. -/
def foreignEnd (d : Draft) (name : String) : (isFirst : Bool) → List NodeId → ForeignEnd
  | isFirst, id :: outer :: ids =>
    let e := d.element id
    if !isFirst && e.vocabulary = .html then .leaves
    else if e.name.toList.map Char.toLower = name.toList then .closes (outer :: ids)
    else foreignEnd d name false (outer :: ids)
  | _, _ => .ignored

/-- Handles a token among elements of other vocabularies, `rules` being those of HTML. -/
def foreign (rules : Token → Build Outcome) (token : Token) : Build Outcome := do
  match token with
  | .null => insertText [replacement]; done
  | .space cs => insertText cs; done
  | .word cs => forbidFrameset; insertText cs; done
  | .comment s => insertComment s; done
  | .startTag tag =>
    if breaksOut tag then
      closeForeign
      rules token
    else
      insertForeign (← currentElement).vocabulary tag
      done
  | .endTag name =>
    if breakoutEnds.contains name then
      closeForeign
      rules token
    else
      let b ← get
      match foreignEnd b.draft name true b.stack with
      | .closes stack =>
        modify ({ · with stack := stack })
        done
      | .leaves => rules token
      | .ignored => done
  | _ => done

end SchemaExtraction.Markup.Build
