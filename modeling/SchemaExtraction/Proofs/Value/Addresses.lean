import Mathlib.Algebra.Order.BigOperators.Group.List
import Mathlib.Algebra.Order.Group.Nat
import Mathlib.Data.List.Forall2
import SchemaExtraction.Proofs.Value.Paths
import SchemaExtraction.Proofs.Value.Place

/-!
# Addresses

Every place in a value has an address: the path with each key in quotation marks and brackets and
each position in brackets, as long as no key has a closing bracket. What is at a place is found
under its address, unless an entry of the root has the address for its key; dots in front of the
address lead around such an entry.

Results:
* `segments_address`: an address is read step by step.
* `lookup?_eq_some_iff`: what a path leads to.
* `lookup?_addresses`: what is found under an address, and what is found at all.
-/

namespace SchemaExtraction.Path

variable {root v : Value} {place : List Segment}

/-! ## Addresses of places -/

/-- The text of a step. -/
def stepText : Segment → List Char
  | .key name => name.toList
  | .index i => decimalDigits i

/-- A step as it stands in brackets: a key in quotation marks, a position in digits. -/
def stepInner : Segment → List Char
  | .key name => '"' :: (name.toList ++ ['"'])
  | .index i => decimalDigits i

/-- The address of a place. -/
def address (place : List Segment) : String :=
  String.ofList (place.flatMap fun s => '[' :: (stepInner s ++ [']']))

/-- A path with dots in front of it. -/
def behindDots (n : Nat) (path : String) : String := String.ofList (List.replicate n '.') ++ path

/-- Whether a place has an address: no key on the way has a closing bracket. -/
def HasAddress (place : List Segment) : Prop :=
  ∀ name, Segment.key name ∈ place → ']' ∉ name.toList

theorem HasAddress.head {s : Segment} (h : HasAddress (s :: place)) : ']' ∉ stepInner s := by
  cases s with
  | key name =>
    have hname := h name List.mem_cons_self
    simpa [stepInner] using hname
  | index i =>
    intro hmem
    exact absurd (isDigit_of_mem_decimalDigits hmem) (by decide)

theorem HasAddress.tail {s : Segment} (h : HasAddress (s :: place)) : HasAddress place :=
  fun name hname => h name (List.mem_cons_of_mem s hname)

/-- Digits in brackets are kept as they are. -/
theorem bracketSegment_decimalDigits (i : Nat) :
    bracketSegment (decimalDigits i) = decimalDigits i := by
  have hdigit : ∀ c ∈ decimalDigits i, c.isDigit = true := fun c => isDigit_of_mem_decimalDigits
  have htrim : Text.trim (decimalDigits i) = decimalDigits i :=
    Text.trim_eq_self (fun c hc => Text.isBlank_of_isDigit (hdigit c (List.mem_of_head? hc)))
      fun c hc => Text.isBlank_of_isDigit (hdigit c (List.mem_of_getLast? hc))
  have hunquote (mark : Char) (hmark : mark.isDigit = false) :
      unquoteWith? mark (decimalDigits i) = none := by
    cases hdigits : decimalDigits i with
    | nil => rfl
    | cons c cs =>
      have hc : c.isDigit = true := hdigit c (by rw [hdigits]; exact List.mem_cons_self)
      refine if_neg fun h => ?_
      rw [h.1, hmark] at hc
      cases hc
  rw [bracketSegment, htrim, hunquote '"' (by decide), hunquote '\'' (by decide)]
  rfl

theorem bracketSegment_stepInner (s : Segment) : bracketSegment (stepInner s) = stepText s := by
  cases s with
  | key name => exact bracketSegment_quoted name.toList
  | index i => exact bracketSegment_decimalDigits i

/-- An address is read step by step. -/
theorem segments_address (h : HasAddress place) :
    segments (address place) = place.map fun s => String.ofList (stepText s) := by
  suffices hread : dotted [] (place.flatMap fun s => '[' :: (stepInner s ++ [']'])) =
      place.map stepText by
    rw [segments, address, String.toList_ofList, hread, List.map_map]
    rfl
  induction place with
  | nil => rfl
  | cons s place ih =>
    rw [List.flatMap_cons, List.cons_append, List.append_assoc, List.singleton_append, dotted,
      keepSegment_nil, bracketed_append h.head, ih h.tail, List.nil_append,
      bracketSegment_stepInner, List.map_cons]

/-- Dots in front of a path are not read. -/
theorem segments_behindDots (n : Nat) (path : String) :
    segments (behindDots n path) = segments path := by
  have hdots : dotted [] (List.replicate n '.' ++ path.toList) = dotted [] path.toList := by
    induction n with
    | zero => rfl
    | succ n ih =>
      rw [List.replicate_succ, List.cons_append, dotted, keepSegment_nil, ih]
  rw [segments, behindDots, String.toList_append, String.toList_ofList, hdots, segments]

/-! ## Where segments lead -/

/-- Whether the text of a segment names a step: any text is a key, and decimal digits, perhaps
    after a plus sign, are a position. -/
def Names (text : String) : Segment → Prop
  | .key name => text = name
  | .index i => ∃ plus digits, text.toList = plus ++ digits ∧ (plus = [] ∨ plus = ['+']) ∧
      digits ≠ [] ∧ (∀ c ∈ digits, c.isDigit = true) ∧ digitsValue digits = i

theorem readDigitsFrom_eq_some_iff {acc i : Nat} {cs : List Char} :
    readDigitsFrom acc cs = some i ↔ (∀ c ∈ cs, c.isDigit = true) ∧
      cs.foldl (fun acc c => 10 * acc + digitValue c) acc = i := by
  induction cs generalizing acc with
  | nil => simp [readDigitsFrom]
  | cons c cs ih =>
    rw [readDigitsFrom, List.forall_mem_cons, List.foldl_cons]
    cases hc : c.isDigit with
    | true => simp [ih]
    | false => simp

theorem readDigits_eq_some_iff {i : Nat} {cs : List Char} :
    readDigits cs = some i ↔
      cs ≠ [] ∧ (∀ c ∈ cs, c.isDigit = true) ∧ digitsValue cs = i := by
  rw [readDigits, digitsValue]
  cases cs with
  | nil => simp
  | cons c cs => rw [List.isEmpty_cons, if_neg Bool.false_ne_true, readDigitsFrom_eq_some_iff]; simp

theorem index?_eq_some_iff {text : String} {i : Nat} :
    index? text = some i ↔ Names text (.index i) := by
  rw [index?, Names]
  split
  case h_1 digits htext =>
    rw [htext, readDigits_eq_some_iff]
    constructor
    · rintro ⟨hne, hdigits, rfl⟩
      exact ⟨['+'], digits, rfl, .inr rfl, hne, hdigits, rfl⟩
    · rintro ⟨plus, ds, happend, rfl | rfl, hne, hdigits, rfl⟩
      · -- a plus sign is no digit
        obtain rfl : '+' :: digits = ds := happend
        exact absurd (hdigits '+' List.mem_cons_self) (by decide)
      · obtain rfl := (List.cons.inj happend).2
        exact ⟨hne, hdigits, rfl⟩
  case h_2 hplus =>
    rw [readDigits_eq_some_iff]
    constructor
    · rintro ⟨hne, hdigits, rfl⟩
      exact ⟨[], text.toList, rfl, .inl rfl, hne, hdigits, rfl⟩
    · rintro ⟨plus, ds, happend, rfl | rfl, hne, hdigits, rfl⟩
      · rw [happend]
        exact ⟨hne, hdigits, rfl⟩
      · exact absurd happend (hplus ds)

/-- One segment leads where a step that it names leads. -/
theorem step?_eq_some_iff {text : String} :
    step? root text = some v ↔ ∃ s, Names text s ∧ root.child? s = some v := by
  cases root with
  | obj entries =>
    constructor
    · exact fun h => ⟨.key text, rfl, h⟩
    · rintro ⟨_ | i, hs, h⟩
      · obtain rfl : text = _ := hs
        exact h
      · cases h
  | arr items =>
    rw [step?, Option.bind_eq_some_iff]
    constructor
    · rintro ⟨i, hi, h⟩
      exact ⟨.index i, index?_eq_some_iff.1 hi, h⟩
    · rintro ⟨_ | i, hs, h⟩
      · cases h
      · exact ⟨i, index?_eq_some_iff.2 hs, h⟩
  | _ =>
    constructor
    · intro h
      cases h
    · rintro ⟨_ | i, -, h⟩ <;> cases h

/-- Segments lead where the steps that they name lead. -/
theorem walk?_eq_some_iff {texts : List String} :
    walk? root texts = some v ↔
      ∃ place, List.Forall₂ Names texts place ∧ root.at? place = some v := by
  induction texts generalizing root with
  | nil => simp [walk?, Value.at?]
  | cons text texts ih =>
    rw [walk?, Option.bind_eq_some_iff]
    constructor
    · rintro ⟨w, hw, h⟩
      obtain ⟨s, hs, hchild⟩ := step?_eq_some_iff.1 hw
      obtain ⟨place, hplace, hat⟩ := ih.1 h
      refine ⟨s :: place, .cons hs hplace, ?_⟩
      rw [Value.at?_cons, hchild]
      exact hat
    · rintro ⟨_, hnames, h⟩
      obtain ⟨s, place, hs, hplace, rfl⟩ := List.forall₂_cons_left_iff.1 hnames
      rw [Value.at?_cons, Option.bind_eq_some_iff] at h
      obtain ⟨w, hchild, hat⟩ := h
      exact ⟨w, step?_eq_some_iff.2 ⟨s, hs, hchild⟩, ih.2 ⟨place, hplace, hat⟩⟩

/-- A path leads to the entry of the root that has it for its key, or else where steps lead that
    its segments name. -/
theorem lookup?_eq_some_iff {path : String} :
    lookup? root path = some v ↔ root.get? path = some v ∨
      root.get? path = none ∧ ∃ place, place ≠ [] ∧
        List.Forall₂ Names (segments path) place ∧ root.at? place = some v := by
  rw [lookup?]
  cases hdirect : root.get? path with
  | some w => simp
  | none =>
    cases hsegments : segments path with
    | nil => simp
    | cons text texts =>
      rw [walk?_eq_some_iff]
      constructor
      · rintro ⟨place, hplace, hat⟩
        obtain ⟨s, rest, -, -, rfl⟩ := List.forall₂_cons_left_iff.1 hplace
        exact .inr ⟨rfl, s :: rest, List.cons_ne_nil s rest, hplace, hat⟩
      · rintro (h | ⟨-, place, -, hplace, hat⟩)
        · cases h
        · exact ⟨place, hplace, hat⟩

/-! ## What is found under an address -/

theorem names_stepText (s : Segment) : Names (String.ofList (stepText s)) s := by
  cases s with
  | key name => exact String.ofList_toList
  | index i =>
    exact index?_eq_some_iff.1 (by
      rw [index?, String.toList_ofList, stepText]
      split
      case h_1 digits hplus =>
        have hmem : '+' ∈ decimalDigits i := hplus ▸ List.mem_cons_self
        exact absurd (isDigit_of_mem_decimalDigits hmem) (by decide)
      case h_2 => exact readDigits_decimalDigits i)

/-- A path with the segments of an address leads to the place, unless it is a key of the root. -/
theorem lookup?_of_segments_eq {path : String} (hplace : place ≠ []) (ha : HasAddress place)
    (hv : root.at? place = some v) (hs : segments path = segments (address place))
    (hpath : root.get? path = none) : lookup? root path = some v := by
  refine lookup?_eq_some_iff.2 (.inr ⟨hpath, place, hplace, ?_, hv⟩)
  rw [hs, segments_address ha, List.forall₂_map_left_iff]
  exact List.forall₂_same.2 fun s _ => names_stepText s

/-- No key of a value is as long as a path with that many dots in front. -/
theorem exists_behindDots (root : Value) (path : String) :
    ∃ n > 0, root.get? (behindDots n path) = none := by
  cases root with
  | obj entries =>
    refine ⟨((Entries.keys entries).map String.length).sum + 1, Nat.succ_pos _, ?_⟩
    refine Entries.get?_eq_none fun hmem => ?_
    have hle := List.single_le_sum (fun n _ => Nat.zero_le n) _
      (List.mem_map_of_mem (f := String.length) hmem)
    simp [behindDots] at hle
    omega
  | _ => exact ⟨1, Nat.one_pos, rfl⟩

/-- What is at a place is found under its address, unless that is a key of the root, and then
    behind dots. What a path leads to is the entry of the root with that key, or else what is at a
    place that the segments of the path name step by step. -/
theorem lookup?_addresses (root : Value) :
    (∀ place v, place ≠ [] → HasAddress place → root.at? place = some v →
      (root.get? (address place) = none → lookup? root (address place) = some v) ∧
      ∃ n > 0, lookup? root (behindDots n (address place)) = some v) ∧
    ∀ path v, lookup? root path = some v ↔ root.get? path = some v ∨
      root.get? path = none ∧ ∃ place, place ≠ [] ∧
        List.Forall₂ Names (segments path) place ∧ root.at? place = some v := by
  refine ⟨fun place v hplace ha hv => ⟨?_, ?_⟩, fun path v => lookup?_eq_some_iff⟩
  · exact lookup?_of_segments_eq hplace ha hv rfl
  · obtain ⟨n, hpos, hn⟩ := exists_behindDots root (address place)
    exact ⟨n, hpos, lookup?_of_segments_eq hplace ha hv (segments_behindDots n _) hn⟩

/-- A key with a dot, and an entry that hides the second item under that key. -/
theorem lookup?_addresses_hidden :
    let root := Value.obj [("[\"a.b\"][1]", .str "entry"), ("a.b", .arr [.null, .bool true])]
    let first := [Segment.key "a.b", .index 0]
    let second := [Segment.key "a.b", .index 1]
    (first ≠ [] ∧ HasAddress first ∧ root.at? first = some .null ∧
      root.get? (address first) = none ∧ lookup? root (address first) = some .null) ∧
    second ≠ [] ∧ HasAddress second ∧ root.at? second = some (.bool true) ∧
      root.get? (address second) = some (.str "entry") ∧
      lookup? root (address second) = some (.str "entry") ∧
      ∃ n > 0, lookup? root (behindDots n (address second)) = some (.bool true) := by
  intro root first second
  have hfirst : HasAddress first := by simp [first, HasAddress]
  have hsecond : HasAddress second := by simp [second, HasAddress]
  have hentry : root.get? (address second) = some (.str "entry") := by decide +kernel
  have hfree : root.get? (address first) = none := by decide +kernel
  obtain ⟨hplaces, hpaths⟩ := lookup?_addresses root
  obtain ⟨hseen, -⟩ := hplaces first .null (List.cons_ne_nil _ _) hfirst (by decide)
  obtain ⟨-, hdots⟩ := hplaces second (.bool true) (List.cons_ne_nil _ _) hsecond (by decide)
  exact ⟨⟨List.cons_ne_nil _ _, hfirst, by decide, hfree, hseen hfree⟩,
    List.cons_ne_nil _ _, hsecond, by decide, hentry, (hpaths _ _).2 (.inl hentry), hdots⟩

end SchemaExtraction.Path
