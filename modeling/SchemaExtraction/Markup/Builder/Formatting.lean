import SchemaExtraction.Markup.Builder.Basic

/-!
# Formatting elements

Bold text, links and the like go on when a paragraph or a table cell ends them too early. The
machine keeps a list of such elements, opens them again where text follows, and takes them apart
when their end tags cross those of other elements.
-/

namespace SchemaExtraction.Markup

/-- Whether an entry is of an element. -/
def Formatting.isOf (id : NodeId) : Formatting → Bool
  | .element n _ => n = id
  | .marker => false

namespace Build

/-- The entries up to the latest marker, latest first. -/
def sinceMarker (fs : List Formatting) : List Formatting := fs.takeWhile (· ≠ .marker)

/-- Marks the start of an element that formatting does not cross. -/
def addMarker : Build Unit := modify fun b => { b with formatting := .marker :: b.formatting }

/-- Drops the entries up to and including the latest marker. -/
def clearToMarker : Build Unit :=
  modify fun b => { b with formatting := (b.formatting.dropWhile (· ≠ .marker)).drop 1 }

/-- Drops the entry of an element. -/
def dropFormatting (id : NodeId) : Build Unit :=
  modify fun b => { b with formatting := b.formatting.filter fun f => !Formatting.isOf id f }

/-- The entry of an element with a name since the latest marker. -/
def findFormatting? (name : String) (fs : List Formatting) : Option (NodeId × Tag) :=
  (sinceMarker fs).findSome? fun f =>
    match f with
    | .element id tag => if tag.name = name then some (id, tag) else none
    | .marker => none

/-- The tag of the entry of an element. -/
def formattingTag? (id : NodeId) (fs : List Formatting) : Option Tag :=
  fs.findSome? fun f =>
    match f with
    | .element n tag => if n = id then some tag else none
    | .marker => none

/-- Puts another entry in the place of that of an element. -/
def replaceFormatting (id : NodeId) (entry : Formatting) (fs : List Formatting) :
    List Formatting :=
  fs.map fun f => if Formatting.isOf id f then entry else f

/-- Puts an entry right after that of an element, which is before it in the list of latest ones
    first. -/
def insertFormatting (id : NodeId) (entry : Formatting) : List Formatting → List Formatting
  | [] => []
  | f :: fs =>
    if Formatting.isOf id f then entry :: f :: fs else f :: insertFormatting id entry fs

/-! ## Opening -/

/-- Whether two tags have the same name and the same attributes in some order. -/
def sameTag (a b : Tag) : Bool :=
  a.name = b.name && a.attributes.length = b.attributes.length &&
    a.attributes.all fun x => b.attributes.contains x

/-- Whether an entry was made by a tag like another. -/
def madeBy (tag : Tag) : Formatting → Bool
  | .element _ t => sameTag tag t
  | .marker => false

/-- Drops the earliest of three entries since the latest marker that are like a tag. -/
def limitAlike (tag : Tag) (fs : List Formatting) : List Formatting :=
  let alike := (sinceMarker fs).filter (madeBy tag)
  if 3 ≤ alike.length then
    match alike.getLast? with
    | some f => fs.erase f
    | none => fs
  else fs

/-- Opens a formatting element. -/
def insertFormattingTag (tag : Tag) : Build Unit := do
  modify fun b => { b with formatting := limitAlike tag b.formatting }
  let id ← insert tag.element
  modify fun b => { b with formatting := .element id tag :: b.formatting }

/-- Whether an entry is a marker or of an open element. -/
def isSettled (stack : List NodeId) : Formatting → Bool
  | .marker => true
  | .element id _ => stack.contains id

/-- Opens elements again, given earliest first, and gives their new entries latest first. -/
def openAgain (made : List Formatting) : List Formatting → Build (List Formatting)
  | .element _ tag :: fs => do
    let id ← insert tag.element
    openAgain (.element id tag :: made) fs
  | _ => return made

/-- Opens the formatting elements again that were closed too early. -/
def reopenFormatting : Build Unit := do
  let b ← get
  let (closed, settled) := b.formatting.span fun f => !isSettled b.stack f
  let opened ← openAgain [] closed.reverse
  modify ({ · with formatting := opened ++ settled })

/-! ## Closing -/

/-- Closes the innermost element with a name, and all in it, unless a special element is in the
    way. -/
def closeNamed (name : String) : Build Unit := do
  let b ← get
  let outside := b.stack.dropWhile fun id =>
    let e := b.draft.element id
    !e.isHtml [name] && !e.isHtml specialNames
  match outside with
  | id :: rest =>
    if (b.draft.element id).isHtml [name] then modify ({ · with stack := rest })
  | [] => return

/-- Where the entry of the element that is taken apart goes. -/
inductive Bookmark where
  /-- where the old entry is -/
  | inPlace
  /-- right after the entry of an element -/
  | after (id : NodeId)

/-- Copies the formatting elements between the one that is taken apart and the block inside it,
    innermost first, and puts `last` into the first copy, that into the second, and so on. Gives
    the copies, innermost first, the outermost node and the bookmark. -/
def copyBetween (last : NodeId) (mark : Bookmark) (count : Nat) (kept : List NodeId) :
    List NodeId → Build (List NodeId × NodeId × Bookmark)
  | [] => return (kept.reverse, last, mark)
  | id :: ids => do
    match formattingTag? id (← get).formatting with
    | none => copyBetween last mark (count + 1) kept ids
    | some tag =>
      if 3 ≤ count then
        dropFormatting id
        copyBetween last mark (count + 1) kept ids
      else
        let copy ← addElement tag.element
        modify fun b => { b with
          formatting := replaceFormatting id (.element copy tag) b.formatting }
        edit (Draft.append copy last)
        copyBetween copy (if kept.isEmpty then .after copy else mark) (count + 1)
          (copy :: kept) ids

/-- Takes a formatting element apart around the outermost block inside it. -/
def takeApart (id : NodeId) (tag : Tag) (inner : List NodeId) (block : NodeId)
    (between outer : List NodeId) : Build Unit := do
  let (copies, last, mark) ← copyBetween block .inPlace 0 [] between
  edit (Draft.detach last)
  put last (← spotIn (outer.headD root))
  let copy ← addElement tag.element
  edit (Draft.moveChildren block copy)
  edit (Draft.append block copy)
  let entry := Formatting.element copy tag
  modify fun b => { b with
    formatting := match mark with
      | .inPlace => replaceFormatting id entry b.formatting
      | .after n =>
        (insertFormatting n entry b.formatting).filter fun f => !Formatting.isOf id f
    stack := inner ++ copy :: block :: copies ++ outer }

/-- One round of closing a formatting element; whether there may be more to do. -/
def closeFormattingOnce (name : String) : Build Bool := do
  let b ← get
  match findFormatting? name b.formatting with
  | none =>
    closeNamed name
    return false
  | some (id, tag) =>
    let (inside, outside) := b.stack.span (· ≠ id)
    if outside.isEmpty then
      dropFormatting id
      return false
    else if !scopeHolds b.draft endsScope (· = id) b.stack then
      return false
    else
      let (between, rest) := inside.reverse.span fun n => !(b.draft.element n).isHtml specialNames
      match rest with
      | [] =>
        modify ({ · with stack := outside.drop 1 })
        dropFormatting id
        return false
      | block :: inner =>
        takeApart id tag inner.reverse block between.reverse (outside.drop 1)
        return true

/-- Closes a formatting element in at most some rounds. -/
def closeFormattingRounds (name : String) : Nat → Build Unit
  | 0 => return
  | n + 1 => do if ← closeFormattingOnce name then closeFormattingRounds name n

/-- Closes the latest formatting element with a name, whatever stands in it. -/
def closeFormatting (name : String) : Build Unit := do
  let b ← get
  let id := b.stack.headD root
  if (b.draft.element id).isHtml [name] && (formattingTag? id b.formatting).isNone then pop
  else closeFormattingRounds name 8

/-- Closes a link before another one starts. -/
def closeLink : Build Unit := do
  match findFormatting? "a" (← get).formatting with
  | none => return
  | some (id, _) =>
    closeFormatting "a"
    dropFormatting id
    removeFromStack id

end Build

end SchemaExtraction.Markup
