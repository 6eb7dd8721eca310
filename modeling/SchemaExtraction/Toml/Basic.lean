/-!
# TOML documents

A document is a tree of tables. A table remembers how it came about, since that decides whether a
later header or key may add to it.
-/

namespace SchemaExtraction.Toml

/-- How a table came about. -/
inductive Origin where
  /-- as a part of the path of a header -/
  | implied
  /-- as a part of a dotted key -/
  | dotted
  /-- by a header of its own -/
  | header
  /-- between braces; nothing may be added -/
  | inlined
deriving DecidableEq, Repr

/-- A value of a document. Floating-point numbers and moments are kept as such and not read. -/
inductive Item where
  | string (s : String)
  | integer (n : Int)
  | boolean (b : Bool)
  | float
  | moment
  | array (items : List Item)
  | table (origin : Origin) (entries : List (String × Item))
  /-- the tables of one repeated header -/
  | tables (all : List (List (String × Item)))
deriving Inhabited

/-- What a key holds. -/
def find? (key : String) : List (String × Item) → Option Item
  | [] => none
  | (k, v) :: es => if k = key then some v else find? key es

/-- Sets a key in its place, or at the end. -/
def put (key : String) (v : Item) : List (String × Item) → List (String × Item)
  | [] => [(key, v)]
  | (k, w) :: es => if k = key then (k, v) :: es else (k, w) :: put key v es

/-- A change of a table, which may be refused. -/
abbrev Change := Origin → List (String × Item) → Option (Origin × List (String × Item))

/-- Follows a path of keys from a table and changes the table at its end. Missing tables on the way
    come about as `fresh`; of the tables of a repeated header the last one counts. A path of a
    dotted key may not lead through a table with a header. -/
def descend (fresh : Origin) (change : Change) : List String → Change
  | [], origin, entries => change origin entries
  | key :: path, origin, entries =>
    match find? key entries with
    | none => do
      let (o, es) ← descend fresh change path fresh []
      return (origin, put key (.table o es) entries)
    | some (.table o es) =>
      if o = .inlined then none
      else if fresh = .dotted ∧ o = .header then none
      else do
        let (o, es) ← descend fresh change path o es
        return (origin, put key (.table o es) entries)
    | some (.tables all) =>
      match all.getLast? with
      | none => none
      | some last => do
        let (_, es) ← descend fresh change path .header last
        return (origin, put key (.tables (all.dropLast ++ [es])) entries)
    | some _ => none

/-- Sets a key that a table does not have. -/
def define (key : String) (v : Item) : Change := fun origin entries =>
  match find? key entries with
  | none => some (origin, put key v entries)
  | some _ => none

/-- Sets a key through a dotted path, which has to end in a table that came about by one. -/
def defineAt (path : List String) (key : String) (v : Item) : Change :=
  match path with
  | [] => define key v
  | path => descend .dotted (fun o es => if o = .dotted then define key v o es else none) path

/-- Opens the table of a header: a new one, or one that was only implied so far. -/
def openTable (key : String) : Change := fun origin entries =>
  match find? key entries with
  | none => some (origin, put key (.table .header []) entries)
  | some (.table .implied es) => some (origin, put key (.table .header es) entries)
  | some _ => none

/-- Opens one more table of a repeated header. -/
def openNext (key : String) : Change := fun origin entries =>
  match find? key entries with
  | none => some (origin, put key (.tables [[]]) entries)
  | some (.tables all) => some (origin, put key (.tables (all ++ [[]])) entries)
  | some _ => none

end SchemaExtraction.Toml
