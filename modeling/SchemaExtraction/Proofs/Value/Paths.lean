import SchemaExtraction.Value.Path

/-!
# Paths written from segments

A segment between dots is not empty and has neither a dot nor an opening bracket, and one in
brackets has no closing bracket. Such segments are all that a path can lead through, and every list
of them is that of a path: with quotation marks around it, any text without a closing bracket may
stand in brackets, the empty one too.

Results:
* `dotted_append`, `bracketed_append`: reading up to the end of a segment.
* `bracketSegment_quoted`: what stands in quotation marks is kept as it is.
* `segments_expressible`: which segments there are, and a path for each list of them.
-/

namespace SchemaExtraction.Path

variable {s cs current inner : List Char}

/-- Whether a segment can stand in a path: in brackets or between dots. -/
def IsExpressible (s : List Char) : Prop := ']' ∉ s ∨ s ≠ [] ∧ '.' ∉ s ∧ '[' ∉ s

instance (s : List Char) : Decidable (IsExpressible s) := inferInstanceAs (Decidable (_ ∨ _))

/-! ## What is read -/

theorem dotted_cons (current : List Char) (c : Char) (cs : List Char) :
    dotted current (c :: cs) =
      if c = '.' then keepSegment current (dotted [] cs)
      else if c = '[' then keepSegment current (bracketed [] cs)
      else dotted (current ++ [c]) cs := by
  split
  case isTrue h => rw [h, dotted]
  case isFalse hdot =>
    split
    case isTrue h => rw [h, dotted]
    case isFalse hbracket => rw [dotted] <;> assumption

theorem bracketed_cons (inner : List Char) (c : Char) (cs : List Char) :
    bracketed inner (c :: cs) =
      if c = ']' then bracketSegment inner :: dotted [] cs else bracketed (inner ++ [c]) cs := by
  split
  case isTrue h => rw [h, bracketed]
  case isFalse h => rw [bracketed]; assumption

theorem keepSegment_nil (segments : List (List Char)) : keepSegment [] segments = segments := rfl

theorem keepSegment_of_ne_nil (h : s ≠ []) (segments : List (List Char)) :
    keepSegment s segments = s :: segments :=
  if_neg (by simpa using h)

theorem mem_keepSegment {segments : List (List Char)} :
    s ∈ keepSegment current segments ↔ current ≠ [] ∧ s = current ∨ s ∈ segments := by
  by_cases h : current = []
  · simp [h, keepSegment_nil]
  · simp [h, keepSegment_of_ne_nil]

theorem mem_of_unquoteWith? {mark c : Char} (h : unquoteWith? mark cs = some s) (hc : c ∈ s) :
    c ∈ cs := by
  cases cs with
  | nil => cases h
  | cons d cs =>
    rw [unquoteWith?] at h
    split at h
    · cases h
      exact List.mem_cons_of_mem d (List.dropLast_subset cs hc)
    · cases h

theorem mem_of_mem_trim {c : Char} (h : c ∈ Text.trim cs) : c ∈ cs := by
  rw [Text.trim, Text.dropEndWhile, List.mem_reverse] at h
  have hdropped := (List.dropWhile_sublist _).subset h
  exact (List.dropWhile_sublist _).subset (List.mem_reverse.1 hdropped)

/-- Nothing comes into what stands in brackets. -/
theorem mem_of_mem_bracketSegment {c : Char} (h : c ∈ bracketSegment inner) : c ∈ inner := by
  refine mem_of_mem_trim ?_
  rw [bracketSegment] at h
  cases hdouble : unquoteWith? '"' (Text.trim inner) with
  | some s =>
    rw [hdouble] at h
    exact mem_of_unquoteWith? hdouble h
  | none =>
    rw [hdouble] at h
    cases hsingle : unquoteWith? '\'' (Text.trim inner) with
    | some s =>
      rw [hsingle] at h
      exact mem_of_unquoteWith? hsingle h
    | none =>
      rw [hsingle] at h
      exact h

theorem isExpressible_bracketSegment (h : ']' ∉ inner) : IsExpressible (bracketSegment inner) :=
  .inl fun hm => h (mem_of_mem_bracketSegment hm)

theorem isExpressible_of_mem_keepSegment {segments : List (List Char)} (hdot : '.' ∉ current)
    (hbracket : '[' ∉ current) (hsegments : ∀ s ∈ segments, IsExpressible s) :
    ∀ s ∈ keepSegment current segments, IsExpressible s := by
  intro s hs
  rcases mem_keepSegment.1 hs with ⟨hne, rfl⟩ | hs
  · exact .inr ⟨hne, hdot, hbracket⟩
  · exact hsegments s hs

/-- While a dotted segment is read, it has no dot and no opening bracket; while a bracket is read,
    there is no closing bracket in it. -/
theorem isExpressible_of_mem (cs : List Char) :
    (∀ current, '.' ∉ current → '[' ∉ current → ∀ s ∈ dotted current cs, IsExpressible s) ∧
    ∀ inner, ']' ∉ inner → ∀ s ∈ bracketed inner cs, IsExpressible s := by
  induction cs with
  | nil =>
    refine ⟨fun current hdot hbracket => ?_, fun inner hinner s hs => ?_⟩
    · rw [dotted]
      exact isExpressible_of_mem_keepSegment hdot hbracket (by simp)
    · rw [bracketed, List.mem_singleton] at hs
      exact hs ▸ isExpressible_bracketSegment hinner
  | cons c cs ih =>
    obtain ⟨ihdotted, ihbracketed⟩ := ih
    have hdotted := ihdotted [] (by simp) (by simp)
    refine ⟨fun current hdot hbracket => ?_, fun inner hinner => ?_⟩
    · rw [dotted_cons]
      split
      · exact isExpressible_of_mem_keepSegment hdot hbracket hdotted
      · split
        · exact isExpressible_of_mem_keepSegment hdot hbracket (ihbracketed [] (by simp))
        · refine ihdotted (current ++ [c]) ?_ ?_ <;> simp_all [eq_comm]
    · rw [bracketed_cons]
      split
      · exact List.forall_mem_cons.2 ⟨isExpressible_bracketSegment hinner, hdotted⟩
      · refine ihbracketed (inner ++ [c]) ?_
        simp_all [eq_comm]

/-! ## What is written -/

/-- A segment as it is written: in quotation marks and brackets if it can stand in brackets, and
    else behind a dot. -/
def writeSegment (s : List Char) : List Char :=
  if ']' ∈ s then '.' :: s else '[' :: '"' :: (s ++ ['"', ']'])

/-- The path that leads through the segments. -/
def write (segments : List String) : String :=
  String.ofList (segments.flatMap fun s => writeSegment s.toList)

/-- A dotted segment goes on up to the next dot or opening bracket. -/
theorem dotted_append (hdot : '.' ∉ s) (hbracket : '[' ∉ s) (current rest : List Char) :
    dotted current (s ++ rest) = dotted (current ++ s) rest := by
  induction s generalizing current with
  | nil => rw [List.nil_append, List.append_nil]
  | cons c s ih =>
    simp only [List.mem_cons, not_or] at hdot hbracket
    rw [List.cons_append, dotted_cons, if_neg (Ne.symm hdot.1), if_neg (Ne.symm hbracket.1),
      ih hdot.2 hbracket.2, List.append_assoc, List.singleton_append]

/-- A bracket goes on up to the closing one. -/
theorem bracketed_append (h : ']' ∉ s) (inner rest : List Char) :
    bracketed inner (s ++ ']' :: rest) = bracketSegment (inner ++ s) :: dotted [] rest := by
  induction s generalizing inner with
  | nil => rw [List.nil_append, List.append_nil, bracketed_cons, if_pos rfl]
  | cons c s ih =>
    simp only [List.mem_cons, not_or] at h
    rw [List.cons_append, bracketed_cons, if_neg (Ne.symm h.1), ih h.2, List.append_assoc,
      List.singleton_append]

/-- What stands in quotation marks is kept as it is, with blanks and quotation marks. -/
theorem bracketSegment_quoted (s : List Char) : bracketSegment ('"' :: (s ++ ['"'])) = s := by
  have hblank : ∀ c ∈ some '"', Text.isBlank c = false := by
    rintro c ⟨⟩
    decide
  have htrim : Text.trim ('"' :: (s ++ ['"'])) = '"' :: (s ++ ['"']) := by
    refine Text.trim_eq_self hblank ?_
    rwa [← List.cons_append, List.getLast?_concat]
  have hunquote : unquoteWith? '"' ('"' :: (s ++ ['"'])) = some s := by
    simp [unquoteWith?]
  rw [bracketSegment, htrim, hunquote]
  rfl

/-- Whatever stands before it, a written path is read segment by segment. -/
theorem dotted_write {segments : List String} (h : ∀ s ∈ segments, IsExpressible s.toList)
    (current : List Char) :
    dotted current (segments.flatMap fun s => writeSegment s.toList) =
      keepSegment current (segments.map String.toList) := by
  induction segments generalizing current with
  | nil => rw [List.flatMap_nil, dotted, List.map_nil]
  | cons s segments ih =>
    obtain ⟨hs, hsegments⟩ := List.forall_mem_cons.1 h
    rw [List.flatMap_cons, writeSegment, List.map_cons]
    split
    case isTrue hmem =>
      obtain ⟨hne, hdot, hbracket⟩ := hs.resolve_left (not_not_intro hmem)
      rw [List.cons_append, dotted_cons, if_pos rfl, dotted_append hdot hbracket, ih hsegments,
        List.nil_append, keepSegment_of_ne_nil hne]
    case isFalse hmem =>
      have hquoted : ']' ∉ '"' :: (s.toList ++ ['"']) := by
        simpa using hmem
      have hread := bracketed_append hquoted [] (segments.flatMap fun s => writeSegment s.toList)
      rw [List.nil_append, bracketSegment_quoted, ih hsegments, keepSegment_nil] at hread
      rw [← hread]
      simp [dotted_cons]

/-- Every segment of a path has no closing bracket, or it is not empty and has neither a dot nor an
    opening bracket. Every list of such segments is that of the path that is written from them. -/
theorem segments_expressible :
    (∀ path, ∀ s ∈ segments path, IsExpressible s.toList) ∧
    ∀ ss : List String, (∀ s ∈ ss, IsExpressible s.toList) → segments (write ss) = ss := by
  constructor
  · intro path s hs
    rw [segments] at hs
    obtain ⟨cs, hcs, rfl⟩ := List.mem_map.1 hs
    rw [String.toList_ofList]
    exact (isExpressible_of_mem path.toList).1 [] (by simp) (by simp) cs hcs
  · intro ss hss
    rw [segments, write, String.toList_ofList, dotted_write hss, keepSegment_nil, List.map_map]
    exact (List.map_congr_left fun s _ => String.ofList_toList).trans (List.map_id ss)

/-- Dots, blanks, quotation marks and brackets in segments, and the empty segment. -/
theorem segments_expressible_marks :
    let ss := ["", " a.b ", "\"[\"", "c]\"d", "e"]
    (∀ s ∈ ss, IsExpressible s.toList) ∧
      write ss = "[\"\"][\" a.b \"][\"\"[\"\"].c]\"d[\"e\"]" ∧ segments (write ss) = ss := by
  intro ss
  have hss : ∀ s ∈ ss, IsExpressible s.toList := by decide
  exact ⟨hss, by decide, segments_expressible.2 ss hss⟩

end SchemaExtraction.Path
