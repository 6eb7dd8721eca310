import SchemaExtraction.Value.Json

/-!
# Places in a value

A place in a value is named by the keys of objects and the positions in lists that lead to it.
Objects have no key twice, in values that are read as in values that the library makes; then the
key names one entry.

Results:
* `Value.sameKind_of_child?`: two values that have the same step are of one kind.
* `Value.noRepeats_canonical`: a value in canonical form has no key twice in any object.
* `Value.canonical_canonical`: putting keys in order once is enough.
-/

namespace SchemaExtraction

/-- A step into a value: the key of an object or a position in a list. -/
inductive Segment where
  | key (name : String)
  | index (i : Nat)
deriving DecidableEq, Repr

namespace Value

/-- Whether a value is neither a list nor an object. -/
def isScalar : Value → Bool
  | arr _ => false
  | obj _ => false
  | _ => true

/-- Whether two values are both objects or both lists. -/
def sameKind : Value → Value → Bool
  | obj _, obj _ => true
  | arr _, arr _ => true
  | _, _ => false

theorem sameKind_eq_false {v : Value} (h : v.isScalar = true) (w : Value) :
    v.sameKind w = false := by
  cases v <;> first | rfl | cases h

/-! ## Looking up -/

/-- What one step leads to. -/
def child? : Value → Segment → Option Value
  | obj entries, .key name => Entries.get? name entries
  | arr items, .index i => items[i]?
  | _, _ => none

/-- What a place holds, if it is there. -/
def at? (v : Value) : List Segment → Option Value
  | [] => some v
  | s :: place => (v.child? s).bind (at? · place)

theorem at?_cons (v : Value) (s : Segment) (place : List Segment) :
    v.at? (s :: place) = (v.child? s).bind (at? · place) := rfl

theorem at?_null_eq_some {place : List Segment} {v : Value} :
    null.at? place = some v ↔ place = [] ∧ v = null := by
  cases place with
  | nil => simp [at?, eq_comm]
  | cons s place => simp [at?, child?]

/-- A step that leads somewhere in two values tells that they are of one kind. -/
theorem sameKind_of_child? {v w v' w' : Value} {s : Segment} (hv : v.child? s = some v')
    (hw : w.child? s = some w') : v.sameKind w = true := by
  cases s <;> cases v <;> cases w <;> first | rfl | cases hv | cases hw

/-! ## Keys that stand once -/

/-- No object in a value, at any depth, has a key twice. -/
inductive NoRepeats : Value → Prop
  | scalar {v : Value} (h : v.isScalar = true) : NoRepeats v
  | arr {items : List Value} (h : ∀ v ∈ items, v.NoRepeats) : NoRepeats (.arr items)
  | obj {entries : List (String × Value)} (keys : (Entries.keys entries).Nodup)
      (values : ∀ e ∈ entries, e.2.NoRepeats) : NoRepeats (.obj entries)

namespace NoRepeats

theorem items {vs : List Value} (h : NoRepeats (.arr vs)) : ∀ v ∈ vs, v.NoRepeats := by
  cases h with
  | scalar h => cases h
  | arr h => exact h

theorem keys {es : List (String × Value)} (h : NoRepeats (.obj es)) :
    (Entries.keys es).Nodup := by
  cases h with
  | scalar h => cases h
  | obj keys _ => exact keys

theorem values {es : List (String × Value)} (h : NoRepeats (.obj es)) :
    ∀ e ∈ es, e.2.NoRepeats := by
  cases h with
  | scalar h => cases h
  | obj _ values => exact values

theorem child? {v w : Value} (h : v.NoRepeats) {s : Segment} (hw : v.child? s = some w) :
    w.NoRepeats := by
  cases v with
  | arr vs =>
    cases s with
    | key name => cases hw
    | index i => exact h.items w (List.mem_of_getElem? hw)
  | obj es =>
    cases s with
    | key name => exact h.values _ (Entries.mem_of_get? hw)
    | index i => cases hw
  | _ => cases s <;> cases hw

end NoRepeats

/-! ## Canonical form -/

/-- Entries that are put in order have no key twice. -/
theorem noRepeats_ofList {es : List (String × Value)} (h : ∀ e ∈ es, e.2.NoRepeats) :
    NoRepeats (.obj (Entries.ofList es)) := by
  refine .obj (Entries.nodup_keys (Entries.ascending_ofList es)) fun e he => ?_
  rcases Entries.mem_insertAll he with he | he
  · cases he
  · exact h e he

mutual

theorem noRepeats_canonical (v : Value) : (Json.canonical v).NoRepeats := by
  cases v with
  | arr items => exact .arr (noRepeats_canonicalItems items)
  | obj entries => exact noRepeats_ofList (noRepeats_canonicalEntries entries)
  | _ => exact .scalar rfl

theorem noRepeats_canonicalItems (items : List Value) :
    ∀ v ∈ Json.canonicalItems items, v.NoRepeats := by
  match items with
  | [] => simp [Json.canonicalItems]
  | v :: vs =>
    intro w hw
    rcases List.mem_cons.1 hw with rfl | hw
    · exact noRepeats_canonical v
    · exact noRepeats_canonicalItems vs w hw

theorem noRepeats_canonicalEntries (entries : List (String × Value)) :
    ∀ e ∈ Json.canonicalEntries entries, e.2.NoRepeats := by
  match entries with
  | [] => simp [Json.canonicalEntries]
  | (k, v) :: es =>
    intro e he
    rcases List.mem_cons.1 he with rfl | he
    · exact noRepeats_canonical v
    · exact noRepeats_canonicalEntries es e he

end

theorem canonicalItems_eq_self {items : List Value} (h : ∀ v ∈ items, Json.canonical v = v) :
    Json.canonicalItems items = items := by
  induction items with
  | nil => rfl
  | cons v vs ih =>
    rw [Json.canonicalItems, h v (by simp), ih fun w hw => h w (by simp [hw])]

theorem canonicalEntries_eq_self {es : List (String × Value)}
    (h : ∀ e ∈ es, Json.canonical e.2 = e.2) : Json.canonicalEntries es = es := by
  induction es with
  | nil => rfl
  | cons e es ih =>
    rw [Json.canonicalEntries, h e (by simp), ih fun e he => h e (by simp [he])]

mutual

/-- A value in canonical form stays as it is. -/
theorem canonical_canonical (v : Value) :
    Json.canonical (Json.canonical v) = Json.canonical v := by
  cases v with
  | arr items =>
    exact congrArg Value.arr (canonicalItems_eq_self (canonical_of_mem_canonicalItems items))
  | obj entries =>
    have h : ∀ e ∈ Entries.ofList (Json.canonicalEntries entries), Json.canonical e.2 = e.2 := by
      intro e he
      rcases Entries.mem_insertAll he with he | he
      · cases he
      · exact canonical_of_mem_canonicalEntries entries e he
    rw [Json.canonical, Json.canonical, canonicalEntries_eq_self h,
      Entries.ofList_eq_self (Entries.ascending_ofList _)]
  | _ => rfl

theorem canonical_of_mem_canonicalItems (items : List Value) :
    ∀ v ∈ Json.canonicalItems items, Json.canonical v = v := by
  match items with
  | [] => simp [Json.canonicalItems]
  | v :: vs =>
    intro w hw
    rcases List.mem_cons.1 hw with rfl | hw
    · exact canonical_canonical v
    · exact canonical_of_mem_canonicalItems vs w hw

theorem canonical_of_mem_canonicalEntries (entries : List (String × Value)) :
    ∀ e ∈ Json.canonicalEntries entries, Json.canonical e.2 = e.2 := by
  match entries with
  | [] => simp [Json.canonicalEntries]
  | (k, v) :: es =>
    intro e he
    rcases List.mem_cons.1 he with rfl | he
    · exact canonical_canonical v
    · exact canonical_of_mem_canonicalEntries es e he

end

theorem canonical_ne_null {v : Value} (h : v ≠ null) : Json.canonical v ≠ null := by
  cases v with
  | null => exact absurd rfl h
  | _ => simp [Json.canonical]

end Value
end SchemaExtraction
