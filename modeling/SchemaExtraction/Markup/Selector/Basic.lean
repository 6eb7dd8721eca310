import SchemaExtraction.Markup.Place
import SchemaExtraction.Markup.Reference
import SchemaExtraction.Text.Blank

/-!
# Selectors

A selector says which elements it matches by what they are and by the elements around them. It is
a compound of tests for the element itself, and a chain of links to compounds for others, each
link telling in which direction the next element is to be found.

Results:
* `Group.matches_append`: a list of selectors matches what any of its parts matches.
-/

namespace SchemaExtraction.Markup

/-! ## Tests -/

/-- How the value of an attribute is compared. -/
inductive Comparison where
  | equals
  /-- one of the words of the value is equal -/
  | includes
  /-- the value is equal, or goes on with a hyphen -/
  | dashed
  | starts
  | ends
  | contains
deriving DecidableEq, Repr

/-- Whether letter case matters in the value of an attribute. -/
inductive CaseRule where
  | exact
  | ignored
  /-- it matters except in elements of HTML -/
  | ignoredInHtml
deriving DecidableEq, Repr

/-- What the value of an attribute is compared with. -/
structure ValueTest where
  comparison : Comparison
  value : String
  caseRule : CaseRule
deriving DecidableEq, Repr

/-- A test for an attribute. -/
structure AttributeTest where
  /-- whether the attribute may belong to any name space -/
  anySpace : Bool
  name : String
  /-- nothing if the attribute must only be there -/
  value : Option ValueTest
deriving DecidableEq, Repr

/-- A test for the number of an element among its siblings: `step * n + offset` for some `n`. -/
structure Position where
  step : Int
  offset : Int
  /-- whether only siblings of the same name count -/
  ofType : Bool
  fromEnd : Bool
deriving DecidableEq, Repr

/-- In which direction the next element of a chain is found. -/
inductive Combinator where
  | descendant
  | child
  /-- right after -/
  | next
  /-- anywhere after -/
  | later
deriving DecidableEq, Repr

mutual

/-- A test for one element. -/
inductive Simple where
  | universal
  | type (name : String)
  | id (name : String)
  | ofClass (name : String)
  | attribute (test : AttributeTest)
  | position (p : Position)
  /-- the root element -/
  | root
  /-- an element without elements and text right in it -/
  | empty
  /-- no element -/
  | never
  | not (options : List Complex)
  | any (options : List Complex)
  /-- an element from which one of some chains leads to others -/
  | has (options : List Relative)

/-- A step to another element and the tests for that one. -/
inductive Link where
  | mk (combinator : Combinator) (compound : List Simple)

/-- A compound with the links to the elements before and around it, nearest first. -/
inductive Complex where
  | mk (subject : List Simple) (links : List Link)

/-- Links to elements after and inside another one, nearest first. -/
inductive Relative where
  | mk (links : List Link)

end

/-- A list of selectors; it matches what one of them matches. -/
abbrev Group := List Complex

/-! ## Matching tests -/

/-- A text as it is compared: in lower case if letter case is `ignored`. -/
def fold (ignored : Bool) (cs : List Char) : List Char :=
  if ignored then cs.map Char.toLower else cs

/-- Compares the value of an attribute with that of a test. The empty text is found everywhere;
    as a word it is one where nothing stands before, between or after blanks. -/
def Comparison.holds (actual wanted : List Char) : Comparison → Bool
  | .equals => actual = wanted
  | .includes => (Text.splitWhere isSpace actual).contains wanted
  | .dashed =>
    match Text.dropPrefix? wanted actual with
    | some rest => rest.isEmpty || rest.head? = some '-'
    | none => false
  | .starts => (Text.dropPrefix? wanted actual).isSome
  | .ends => (Text.dropPrefix? wanted.reverse actual.reverse).isSome
  | .contains => (Text.cut? wanted actual).isSome

/-- A name as elements of a vocabulary have it: in lower case in HTML. -/
def nameIn (vocabulary : Vocabulary) (name : String) : String :=
  if vocabulary = .html then String.ofList (name.toList.map Char.toLower) else name

/-- Whether an element has an attribute that passes a test. -/
def AttributeTest.holds (test : AttributeTest) (e : Element) : Bool :=
  e.attributes.any fun a =>
    (test.anySpace || a.space = .none) && a.name = nameIn e.vocabulary test.name &&
      match test.value with
      | none => true
      | some v =>
        let ignored := v.caseRule = .ignored ||
          (v.caseRule = .ignoredInHtml && e.vocabulary = .html)
        v.comparison.holds (fold ignored a.value.toList) (fold ignored v.value.toList)

/-- The largest distance between numbers of siblings that is looked at. -/
def farthest : Int := 2147483647

/-- Whether a number is one of those of a position. -/
def Position.holds (p : Position) (number : Nat) : Bool :=
  let distance := number - p.offset
  distance ≤ farthest &&
    if p.step = 0 then distance = 0 else distance % p.step = 0 && 0 ≤ distance * p.step

namespace Place

/-- Whether two places are of elements of the same name. -/
def sameType : Place → Place → Bool
  | .at e _ _ _ _, .at f _ _ _ _ => e.vocabulary = f.vocabulary && e.name = f.name
  | _, _ => false

/-- Whether an element has a number among its siblings that fits a position. -/
def isAt (p : Place) (position : Position) : Bool :=
  let others := if position.fromEnd then p.later else p.earlier
  let counted := if position.ofType then others.filter (sameType p) else others
  position.holds (counted.length + 1)

/-- Whether an element is the root element. -/
def isRoot : Place → Bool
  | .at _ _ _ _ .document => true
  | _ => false

/-- Where the elements are whose links lead to one. -/
def sources (p : Place) : Combinator → List Place
  | .descendant => p.ancestors
  | .child => p.ancestors.take 1
  | .next => p.earlier.take 1
  | .later => p.earlier

/-- Where the links from an element lead. -/
def targets (p : Place) : Combinator → List Place
  | .descendant => p.descendants
  | .child => p.children
  | .next => p.later.take 1
  | .later => p.later

end Place

/-- Whether there is neither an element nor text right in a forest. -/
def Forest.isBare : Forest → Bool
  | .nil => true
  | .leaf (.text _) _ => false
  | .leaf _ next => next.isBare
  | .element .. => false
  | .fragment _ next => next.isBare

/-- Whether an element has an identifier. -/
def Element.hasId (e : Element) (name : String) : Bool := e.attribute? "id" = some name

/-- Whether an element belongs to a class. Blanks of any kind stand between the names of classes. -/
def Element.hasClass (e : Element) (name : String) : Bool :=
  match e.attribute? "class" with
  | some value => (Text.words Text.isBlank value.toList).contains name.toList
  | none => false

/-! ## Matching -/

mutual

/-- Whether the element at a place passes a test. -/
def Simple.holds : Simple → Place → Bool
  | .universal, _ => true
  | .type name, .at e _ _ _ _ => e.name = nameIn e.vocabulary name
  | .id name, .at e _ _ _ _ => e.hasId name
  | .ofClass name, .at e _ _ _ _ => e.hasClass name
  | .attribute test, .at e _ _ _ _ => test.holds e
  | .position position, p => p.isAt position
  | .root, p => p.isRoot
  | .empty, .at _ content _ _ _ => content.isBare
  | .never, _ => false
  | .not options, p => !Group.matches options p
  | .any options, p => Group.matches options p
  | .has options, p => leadsAny options p
  | _, _ => false

/-- Whether the element at a place passes all tests of a compound. -/
def holdsAll : List Simple → Place → Bool
  | [], _ => true
  | s :: ss, p => s.holds p && holdsAll ss p

/-- Whether links can be followed from a place in a direction through elements that pass their
    tests. -/
def follow (step : Place → Combinator → List Place) : List Link → Place → Bool
  | [], _ => true
  | .mk combinator compound :: links, p =>
    (step p combinator).any fun q => holdsAll compound q && follow step links q

/-- Whether a selector matches the element at a place. -/
def Complex.matches : Complex → Place → Bool
  | .mk subject links, p => holdsAll subject p && follow Place.sources links p

/-- Whether a list of selectors matches the element at a place. -/
def Group.matches : List Complex → Place → Bool
  | [], _ => false
  | c :: cs, p => c.matches p || Group.matches cs p

/-- Whether one of some chains leads from a place to other elements. -/
def leadsAny : List Relative → Place → Bool
  | [], _ => false
  | .mk links :: rs, p => follow Place.targets links p || leadsAny rs p

end

theorem Group.matches_append (g h : Group) (p : Place) :
    Group.matches (g ++ h) p = (Group.matches g p || Group.matches h p) := by
  induction g with
  | nil => simp [Group.matches]
  | cons c cs ih => simp [Group.matches, ih, Bool.or_assoc]

/-- The places of the elements below the root that a list of selectors matches, in document
    order. -/
def Page.select (g : Group) (page : Page) : List Place := page.places.filter (Group.matches g)

end SchemaExtraction.Markup
