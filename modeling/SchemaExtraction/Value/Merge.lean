import SchemaExtraction.Value.Coercion

/-!
# Combining values

The values of a chain of steps are combined two at a time. The first rule that applies decides:
an absent value gives way to the other one, a timestamp wins, numbers other than zero are added,
texts are joined by a space, lists are joined, and anything else is merged entry by entry into an
object, where the second value wins on scalars.
-/

namespace SchemaExtraction.Value

/-- The entries of a value at the top of a merge: those of an object, the items of a list under
    their positions, and none for a scalar. -/
def entriesByPosition (n : Nat) : List Value → List (String × Value)
  | [] => []
  | v :: vs => (String.ofList (decimalDigits n), v) :: entriesByPosition (n + 1) vs

@[inherit_doc entriesByPosition]
def topEntries : Value → List (String × Value)
  | obj entries => entries
  | arr items => entriesByPosition 0 items
  | _ => []

/-- The entries of an object; none for any other value. -/
def entriesOf : Value → List (String × Value)
  | obj entries => entries
  | _ => []

/-- The items of a list; none for any other value. -/
def itemsOf : Value → List Value
  | arr items => items
  | _ => []

mutual

/-- Merges `source` into what a place holds. A scalar replaces it; an object or a list is merged
    into it, after it has given way to an empty one if it is of another kind. -/
def mergeInto (place source : Value) : Value :=
  match source with
  | obj entries => obj (mergeEntries place.entriesOf entries)
  | arr items => arr (mergeItems place.itemsOf items)
  | scalar => scalar

/-- Merges entries into entries, key by key; an absent key counts as null. -/
def mergeEntries (dest : List (String × Value)) :
    List (String × Value) → List (String × Value)
  | [] => dest
  | (k, v) :: es =>
    mergeEntries (Entries.insert k (mergeInto ((Entries.get? k dest).getD null) v) dest) es

/-- Merges items into items, position by position; a missing item counts as null. -/
def mergeItems (dest : List Value) : List Value → List Value
  | [] => dest
  | v :: vs => mergeInto (dest.head?.getD null) v :: mergeItems dest.tail vs

end

/-- The deep merge of two values into a fresh object. -/
def deepMerge (source target : Value) : Value :=
  obj (mergeEntries (mergeEntries [] source.topEntries) target.topEntries)

/-- The sum of two values that both mean a number other than zero. -/
def sum? (source target : Value) : Option Value :=
  match source.toNumber?, target.toNumber? with
  | some a, some b => if !a.isZero && !b.isZero then some (ofBinary64? (a.add? b)) else none
  | _, _ => none

/-- The two texts that are not empty with a space between them. -/
def joinTexts (s t : String) : String :=
  if s = "" then t else if t = "" then s else s ++ " " ++ t

/-- The combination of two values of a kind, or their deep merge. -/
def combine : Value → Value → Value
  | str s, str t => str (joinTexts s t)
  | arr vs, arr ws => arr (vs ++ ws)
  | source, target => deepMerge source target

/-- Combines `source` with `target`. -/
def merge (source target : Value) : Value :=
  if !source.truthy then target
  else if !target.truthy then source
  else if source.dateLike then source
  else if target.dateLike then target
  else (sum? source target).getD (combine source target)

theorem merge_of_absent {source : Value} (h : source.truthy = false) (target : Value) :
    merge source target = target := by
  simp [merge, h]

theorem merge_absent {source target : Value} (hs : source.truthy = true)
    (ht : target.truthy = false) : merge source target = source := by
  simp [merge, hs, ht]

section Present

variable {source target : Value} (hs : source.truthy = true) (ht : target.truthy = true)
  (hd : source.dateLike = false)
include hs ht hd

theorem merge_dated (h : target.dateLike = true) : merge source target = target := by
  simp [merge, hs, ht, hd, h]

theorem merge_undated (h : target.dateLike = false) :
    merge source target = (sum? source target).getD (combine source target) := by
  simp [merge, hs, ht, hd, h]

end Present

end SchemaExtraction.Value
