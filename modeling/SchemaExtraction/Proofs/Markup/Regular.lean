import SchemaExtraction.Markup.Builder.Table
import SchemaExtraction.Proofs.Markup.Written

/-!
# Regular content

Not every tree can be written down and read again. A start tag may close elements that are open,
some tags mean nothing where they stand, and what stands wrongly in a table is moved out of it.
Content is regular if nothing of this happens in it, which depends on the elements that are open
around it.

Results:
* `isWithin_of_admits`: a tag that is admitted interrupts no open element.
* `not_mem_irregularNames`, `pageNames_of_admits`, `not_raw_of_admits`: what is never admitted.
-/

namespace SchemaExtraction.Markup

open Build

/-! ## Open elements -/

/-- Whether an element with one of some names is among some open elements, given innermost first,
    up to the first that ends the search. -/
def isWithin (ends : Element → Bool) (names : List String) : List Element → Bool
  | [] => false
  | e :: outer => e.isHtml names || (!ends e && isWithin ends names outer)

/-- Elements that end the search for an item of a list. -/
def endsItems (e : Element) : Bool := e.isHtml specialNames && !e.isHtml ["address", "div", "p"]

/-- Elements that formatting does not cross. -/
def endsFormatting (e : Element) : Bool := e.isHtml (objectNames ++ ["caption", "td", "th"])

/-- Which open elements a start tag closes. -/
structure Interruption where
  tags : List String
  closed : List String
  ends : Element → Bool

/-- Start tags that close a paragraph, those of text of their own kind left out. -/
def paragraphEnders : List String :=
  "p" :: blockNames ++ headingNames ++ ["pre", "listing", "form", "li", "dd", "dt", "hr"]

namespace Interruption

/-- What ends a paragraph. -/
def paragraph : Interruption := ⟨paragraphEnders, ["p"], endsButtonScope⟩

/-- A heading right inside of another. -/
def heading : Interruption := ⟨headingNames, headingNames, fun _ => true⟩

/-- A form inside of another, which means nothing. -/
def form : Interruption := ⟨["form"], ["form"], fun _ => false⟩

/-- The next item of a list. -/
def item : Interruption := ⟨["li"], ["li"], endsItems⟩

/-- The next term or description. -/
def term : Interruption := ⟨["dd", "dt"], ["dd", "dt"], endsItems⟩

/-- A button inside of another. -/
def button : Interruption := ⟨["button"], ["button"], endsScope⟩

/-- Unbroken text inside of other unbroken text. -/
def unbroken : Interruption := ⟨["nobr"], ["nobr"], endsScope⟩

/-- A link inside of another. -/
def link : Interruption := ⟨["a"], ["a"], endsFormatting⟩

/-- The next option. -/
def option : Interruption := ⟨["option", "optgroup"], ["option"], fun _ => true⟩

/-- The next ruby text. -/
def ruby : Interruption := ⟨["rb", "rtc", "rp", "rt"], impliedNames, fun _ => true⟩

/-- The start tags that close open elements, or that an open element makes meaningless. -/
def all : List Interruption :=
  [paragraph, heading, form, item, term, button, unbroken, link, option, ruby]

end Interruption

/-- Whether a start tag interrupts some open elements. -/
def interrupts (outer : List Element) (name : String) : Bool :=
  Interruption.all.any fun i => i.tags.contains name && isWithin i.ends i.closed outer

/-- Elements that mean nothing in the body, that are something else there, or whose content is
    text or belongs to another vocabulary. -/
def irregularNames : List String :=
  ["body", "frameset", "html", "iframe", "image", "math", "noembed", "noframes", "noscript",
    "plaintext", "script", "select", "style", "svg", "template", "textarea", "title", "xmp"] ++
    strayNames

/-- The parts of tables by what they are right inside of. -/
def tableParts : List (List String × List String) :=
  [(["table"], ["caption", "colgroup"] ++ groupNames), (groupNames, ["tr"]),
    (["tr"], ["td", "th"]), (["colgroup"], ["col"])]

/-- The only elements that may stand right inside of the innermost open one. -/
def partsOf? : List Element → Option (List String)
  | [] => none
  | e :: _ => (tableParts.find? fun parts => e.isHtml parts.1).map Prod.snd

/-- Whether an element may be started inside of some open ones. -/
def admits (outer : List Element) (name : String) : Bool :=
  match partsOf? outer with
  | some names => names.contains name
  | none => !irregularNames.contains name && !interrupts outer name

/-- Whether a start tag closes no paragraph that it closes only in pages that are no legacy
    pages. -/
def sparesParagraph (legacy : Bool) (outer : List Element) (name : String) : Bool :=
  name ≠ "table" || legacy || !isWithin endsButtonScope ["p"] outer

theorem sparesParagraph_legacy (outer : List Element) (name : String) :
    sparesParagraph true outer name = true := by
  rw [sparesParagraph, Bool.or_true, Bool.true_or]

/-! ## Content -/

/-- Whether a leaf is read inside of some open elements as it is written: line ends are line
    feeds, and parts of tables hold only white space beside each other. -/
def Leaf.isRegular (outer : List Element) : Leaf → Bool
  | .doctype _ => false
  | .comment s => Token.isWritableComment s.toList
  | .text s => s.toList.all fun c => c ≠ '\r' && ((partsOf? outer).isNone || isSpace c)

/-- Whether a forest is read inside of some open elements as it is written. -/
def Forest.isRegular (outer : List Element) : Forest → Bool
  | nil => true
  | leaf l next => l.isRegular outer && next.isRegular outer
  | element e content next =>
    e.isWritable && admits outer e.name &&
      (if e.isHtml voidNames then content = .nil else content.isRegular (e :: outer)) &&
      next.isRegular outer
  | fragment _ _ => false

/-! ## What is admitted -/

variable {outer : List Element} {name : String}

/-- A name that is not among some names is none of them. -/
theorem ne_of_contains {names : List String} (h : names.contains name = false) {n : String}
    (hn : names.contains n = true) : name ≠ n := by
  rintro rfl
  rw [hn] at h
  cases h

theorem contains_eq_false_of_subset {names fewer : List String} (h : names.contains name = false)
    (hf : ∀ n ∈ fewer, n ∈ names) : fewer.contains name = false := by
  rw [Bool.eq_false_iff, ne_eq, List.contains_iff_mem] at h ⊢
  exact fun hm => h (hf _ hm)

theorem isWithin_of_admits (hp : partsOf? outer = none) (ha : admits outer name = true)
    (i : Interruption) (hi : i ∈ Interruption.all) (hn : i.tags.contains name = true) :
    isWithin i.ends i.closed outer = false := by
  rw [admits, hp, Bool.and_eq_true, Bool.not_eq_true', Bool.not_eq_true', interrupts,
    List.any_eq_false] at ha
  have hc := ha.2 i hi
  rwa [hn, Bool.true_and, Bool.not_eq_true] at hc

theorem not_mem_irregularNames (hp : partsOf? outer = none) (ha : admits outer name = true) :
    irregularNames.contains name = false := by
  rw [admits, hp, Bool.and_eq_true, Bool.not_eq_true'] at ha
  exact ha.1

theorem exists_part {names : List String} (hp : partsOf? outer = some names) :
    ∃ e inner, outer = e :: inner ∧ ∃ parts ∈ tableParts, e.isHtml parts.1 = true ∧
      parts.2 = names := by
  cases outer with
  | nil => cases hp
  | cons e inner =>
    obtain ⟨parts, hf, rfl⟩ := Option.map_eq_some_iff.1 hp
    exact ⟨e, inner, rfl, parts, List.mem_of_find?_eq_some hf,
      List.find?_some (p := fun parts : List String × List String => e.isHtml parts.1) hf, rfl⟩

/-- Elements that stand around the body or that have modes of their own outside of tables. -/
def pageNames : List String := ["body", "frameset", "head", "html", "select", "template"]

/-- Of the names that are irregular in the body, only parts of tables are admitted. -/
theorem contains_eq_false_of_admits (ha : admits outer name = true) {names : List String}
    (hi : ∀ n ∈ names, irregularNames.contains n = true)
    (hn : ∀ parts ∈ tableParts, ∀ n ∈ parts.2, names.contains n = false) :
    names.contains name = false := by
  cases hp : partsOf? outer with
  | none =>
    have hname := not_mem_irregularNames hp ha
    refine Bool.eq_false_iff.2 fun hm => ?_
    rw [hi name (List.contains_iff_mem.1 hm)] at hname
    cases hname
  | some names =>
    obtain ⟨_, _, -, parts, hparts, -, rfl⟩ := exists_part hp
    rw [admits, hp, List.contains_iff_mem] at ha
    exact hn parts hparts name ha

theorem pageNames_of_admits (ha : admits outer name = true) : pageNames.contains name = false :=
  contains_eq_false_of_admits ha (by decide) (by decide)

/-- Only text and elements are read in what is admitted. -/
theorem not_raw_of_admits {e : Element} (ha : admits outer e.name = true) :
    e.isHtml rawNames = false := by
  have hn : rawNames.contains e.name = false :=
    contains_eq_false_of_admits ha (by decide) (by decide)
  rw [Element.isHtml, hn, Bool.and_false]

theorem Element.isHtml_eq {e : Element} (he : e.vocabulary = .html) (names : List String) :
    e.isHtml names = names.contains e.name := by
  rw [isHtml, he, decide_eq_true rfl, Bool.true_and]

theorem Element.isHtml_mono {e : Element} {names more : List String} (h : e.isHtml names = true)
    (hm : ∀ n ∈ names, n ∈ more) : e.isHtml more = true := by
  rw [isHtml, Bool.and_eq_true, List.contains_iff_mem] at h ⊢
  exact ⟨h.1, hm _ h.2⟩

/-- An element whose name is not among some names is no element with one of fewer names. -/
theorem Element.isHtml_eq_false {e : Element} {names fewer : List String}
    (hn : names.contains e.name = false) (hf : ∀ n ∈ fewer, n ∈ names) :
    e.isHtml fewer = false := by
  rw [isHtml, contains_eq_false_of_subset hn hf, Bool.and_false]

end SchemaExtraction.Markup
