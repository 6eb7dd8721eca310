import SchemaExtraction.Text.Blank
import SchemaExtraction.Value.Basic

/-!
# Property paths

A path is written with dots, with brackets or with both: `a.b.c`, `items[0].name`, `items.0.name`.
A segment in brackets may be quoted, which keeps dots and blanks: `map["key.with.dots"]`. Empty
segments between dots do not count, and a bracket that stays open ends with the text.
-/

namespace SchemaExtraction.Path

/-- The text inside a pair of equal quotation marks. -/
def unquoteWith? (mark : Char) : List Char → Option (List Char)
  | [] => none
  | c :: cs => if c = mark ∧ cs.getLast? = some mark then some cs.dropLast else none

/-- A segment in brackets: blanks at its ends and one pair of quotation marks do not count. -/
def bracketSegment (inner : List Char) : List Char :=
  let cs := Text.trim inner
  ((unquoteWith? '"' cs).orElse fun _ => unquoteWith? '\'' cs).getD cs

/-- A dotted segment is dropped when it is empty. -/
def keepSegment (segment : List Char) (segments : List (List Char)) : List (List Char) :=
  if segment.isEmpty then segments else segment :: segments

mutual

/-- The segments of the rest of a path, after the characters `current` of a dotted segment. -/
def dotted (current : List Char) : List Char → List (List Char)
  | [] => keepSegment current []
  | '.' :: cs => keepSegment current (dotted [] cs)
  | '[' :: cs => keepSegment current (bracketed [] cs)
  | c :: cs => dotted (current ++ [c]) cs

/-- The segments of the rest of a path, after the characters `inner` of a bracket. -/
def bracketed (inner : List Char) : List Char → List (List Char)
  | [] => [bracketSegment inner]
  | ']' :: cs => bracketSegment inner :: dotted [] cs
  | c :: cs => bracketed (inner ++ [c]) cs

end

/-- The segments of a path. -/
def segments (path : String) : List String := (dotted [] path.toList).map String.ofList

/-- The position that a segment names in a list: decimal digits, perhaps after a plus sign. -/
def index? (segment : String) : Option Nat :=
  match segment.toList with
  | '+' :: ds => readDigits ds
  | ds => readDigits ds

/-- What one segment leads to: the value under a key, or the item at a position. -/
def step? (v : Value) (segment : String) : Option Value :=
  match v with
  | .obj entries => Entries.get? segment entries
  | .arr items => (index? segment).bind (items[·]?)
  | _ => none

/-- What a list of segments leads to. -/
def walk? (v : Value) : List String → Option Value
  | [] => some v
  | s :: ss => (step? v s).bind (walk? · ss)

/-- The value at a path. A key of the root that is spelled like the whole path comes first; a path
    without segments leads nowhere. -/
def lookup? (root : Value) (path : String) : Option Value :=
  match root.get? path with
  | some v => some v
  | none =>
    match segments path with
    | [] => none
    | ss => walk? root ss

end SchemaExtraction.Path
