import SchemaExtraction.Extraction.SettingsText
import SchemaExtraction.Proofs.Time.Reading
import SchemaExtraction.Proofs.Toml.Strings

/-!
# Documents of plain lines

A document whose lines each set one plain key is read back: line by line the key takes its value,
and in the end the document holds the keys in the order of their lines. The value is what the text
on the rest of the line stands for. The digits of an integer stand for it within 63 bits, and a
string in the style that suits it stands for itself.

Results:
* `stands_decimalDigits`, `stands_writeString`: integers and strings on the rest of a line.
* `readDocument_line`: what one line does.
* `read_lines`: what all lines do.
-/

namespace SchemaExtraction.Toml

variable {c : Char} {cs ds rest : List Char} {n fuel : Nat} {v : Item} {key : String}

/-! ## Integers -/

theorem dropUnderscores_of_forall (hne : ds ≠ []) (h : ∀ c ∈ ds, c.isDigit = true) :
    dropUnderscores Char.isDigit ds = some ds := by
  induction ds with
  | nil => exact absurd rfl hne
  | cons c ds ih =>
    obtain ⟨hc, hds⟩ := List.forall_mem_cons.1 h
    match ds with
    | [] => rw [dropUnderscores, if_pos hc]
    | d :: ds =>
      have hd : d ≠ '_' := by
        rintro rfl
        exact absurd (hds _ List.mem_cons_self) (by decide)
      rw [dropUnderscores, if_pos hc, ih (List.cons_ne_nil _ _) hds]
      · rfl
      · exact List.cons_ne_nil _ _
      · exact fun _ h => hd (List.cons.inj h).1

theorem head?_decimalDigits_ne (hn : 0 < n) : (decimalDigits n).head? ≠ some '0' := by
  induction n using decimalDigits.induct with
  | case1 n h =>
    rw [decimalDigits, if_pos h, List.head?_cons]
    intro hzero
    have := digitValue_digitChar h
    rw [Option.some.inj hzero] at this
    exact Nat.ne_of_lt hn this
  | case2 n h ih =>
    rw [decimalDigits, if_neg h, List.head?_append_of_ne_nil _ (decimalDigits_ne_nil _)]
    exact ih (by omega)

/-- Digits are written without a leading zero. -/
theorem decimal?_decimalDigits (n : Nat) : decimal? (decimalDigits n) = some (decimalDigits n) := by
  rw [decimal?, dropUnderscores_of_forall (decimalDigits_ne_nil n) fun _ =>
    isDigit_of_mem_decimalDigits]
  refine if_neg fun ⟨hlength, hhead⟩ => ?_
  rcases Nat.eq_zero_or_pos n with rfl | hn
  · exact hlength (by rw [decimalDigits]; rfl)
  · exact head?_decimalDigits_ne hn hhead

theorem inRange?_natCast (hn : n < 0x8000000000000000) : inRange? n = some (.integer n) :=
  if_pos (by omega)

theorem not_mem_decimalDigits (hc : c.isDigit = false) : c ∉ decimalDigits n := fun h =>
  Bool.false_ne_true (hc.symm.trans (isDigit_of_mem_decimalDigits h))

theorem decimalDigits_ne_cons (hc : c.isDigit = false) (cs : List Char) :
    decimalDigits n ≠ c :: cs := fun h =>
  not_mem_decimalDigits hc (h ▸ List.mem_cons_self)

theorem decimalDigits_ne_cons_cons (hc : c.isDigit = false) (d : Char) (cs : List Char) :
    decimalDigits n ≠ d :: c :: cs := fun h =>
  not_mem_decimalDigits hc (h ▸ List.mem_cons_of_mem d List.mem_cons_self)

theorem integer?_decimalDigits (hn : n < 0x8000000000000000) :
    integer? (decimalDigits n) = some (.integer n) := by
  have hsign : NumberText.takeSign (decimalDigits n) = (false, decimalDigits n) := by
    rw [NumberText.takeSign]
    · exact decimalDigits_ne_cons rfl
    · exact decimalDigits_ne_cons rfl
  rw [integer?]
  -- one step at a time: the bound of the range is not to be counted down
  · rw [hsign]
    dsimp only
    rw [decimal?_decimalDigits, Option.bind_eq_bind, Option.bind_some, if_neg Bool.false_ne_true,
      digitsValue_decimalDigits, inRange?_natCast hn]
  · exact decimalDigits_ne_cons_cons rfl _
  · exact decimalDigits_ne_cons_cons rfl _
  · exact decimalDigits_ne_cons_cons rfl _

/-! ## No moments -/

theorem takeChar?_eq_none (h : c ∉ cs) : Time.takeChar? c cs = none :=
  Option.eq_none_iff_forall_ne_some.2 fun _ hrest =>
    h (Time.eq_cons_of_takeChar? hrest ▸ List.mem_cons_self)

/-- In dates and in times of day the first digits are followed by a mark. -/
theorem takeChar?_of_takeDigits? {k : Nat} (h : Time.takeDigits? k cs = some (n, rest))
    (hc : c ∉ cs) : Time.takeChar? c rest = none := by
  obtain ⟨ds, rfl, -⟩ := Time.leaves_takeDigits? h
  exact takeChar?_eq_none fun hrest => hc (List.mem_append_right _ hrest)

theorem moment?_eq_none (hcolon : ':' ∉ cs) (hhyphen : '-' ∉ cs) : moment? cs = none := by
  have htime : skipTime? cs = none := by
    rw [skipTime?]
    refine Option.bind_eq_none_iff.2 fun ⟨hour, rest⟩ hp => ?_
    dsimp only
    rw [takeChar?_of_takeDigits? hp hcolon]
    rfl
  rw [moment?, htime]
  refine Option.bind_eq_none_iff.2 fun ⟨year, rest⟩ hp => ?_
  dsimp only
  rw [takeChar?_of_takeDigits? hp hhyphen]
  rfl

/-! ## Values on the rest of a line -/

theorem takeWhile_append_cons {p : Char → Bool} (h : ∀ d ∈ cs, p d = true) (hc : p c = false)
    (rest : List Char) : (cs ++ c :: rest).takeWhile p = cs := by
  rw [List.takeWhile_append_of_pos h, List.takeWhile_cons_of_neg (Bool.eq_false_iff.1 hc),
    List.append_nil]

theorem dropWhile_append_cons {p : Char → Bool} (h : ∀ d ∈ cs, p d = true) (hc : p c = false)
    (rest : List Char) : (cs ++ c :: rest).dropWhile p = c :: rest := by
  rw [List.dropWhile_append_of_pos h, List.dropWhile_cons_of_neg (Bool.eq_false_iff.1 hc)]

/-- Whether a text stands for a value before the end of a line. -/
def Stands (value : List Char) (v : Item) : Prop :=
  ∀ fuel depth rest, readItem (fuel + 1) depth (skipBlanks (value ++ '\n' :: rest)) =
    some (v, '\n' :: rest)

theorem takeScalar_append (h : ∀ c ∈ cs, isScalar c = true) (rest : List Char) :
    takeScalar (cs ++ '\n' :: rest) = (cs, '\n' :: rest) := by
  rw [takeScalar, takeWhile_append_cons h rfl, dropWhile_append_cons h rfl]
  rfl

theorem ne_of_class {p : Char → Bool} {d : Char} (hc : p c = true) (hd : p d = false) : c ≠ d :=
  fun h => Bool.false_ne_true (hd.symm.trans (h ▸ hc))

theorem skipBlanks_cons (hspace : c ≠ ' ') (htab : c ≠ '\t') (cs : List Char) :
    skipBlanks (c :: cs) = c :: cs :=
  List.dropWhile_cons_of_neg (by simp [hspace, htab])

/-- Characters of scalars stand for what the scalar means. -/
theorem stands_of_scalar? (h : ∀ c ∈ cs, isScalar c = true) (hv : scalar? cs = some v) :
    Stands cs v := by
  intro fuel depth rest
  match cs with
  | [] => cases hv
  | c :: cs =>
    have hc := h c List.mem_cons_self
    have hquote : ¬ (c = '"' ∨ c = '\'') := not_or.2 ⟨ne_of_class hc rfl, ne_of_class hc rfl⟩
    rw [List.cons_append, skipBlanks_cons (ne_of_class hc rfl) (ne_of_class hc rfl), readItem]
    · rw [if_neg hquote, ← List.cons_append, takeScalar_append h]
      dsimp only
      rw [hv]
      rfl
    · exact ne_of_class hc rfl
    · exact ne_of_class hc rfl

/-- An integer is written by its digits. -/
theorem stands_decimalDigits (hn : n < 0x8000000000000000) :
    Stands (decimalDigits n) (.integer n) := by
  refine stands_of_scalar? (fun c hc => ?_) ?_
  · have hdigit := isDigit_of_mem_decimalDigits hc
    simp [isScalar, isBare, Char.isAlphanum, hdigit]
  · have htrue : decimalDigits n ≠ "true".toList := decimalDigits_ne_cons (c := 't') rfl _
    have hfalse : decimalDigits n ≠ "false".toList := decimalDigits_ne_cons (c := 'f') rfl _
    have hmoment : moment? (decimalDigits n) = none :=
      moment?_eq_none (not_mem_decimalDigits rfl) (not_mem_decimalDigits rfl)
    rw [scalar?, if_neg htrue, if_neg hfalse, hmoment, integer?_decimalDigits hn]
    rfl

theorem exists_writeIn (style : Style) (cs : List Char) :
    ∃ c es, writeIn style cs = c :: es ∧ (c = '"' ∨ c = '\'') := by
  cases style with
  | basic | basicLines => exact ⟨'"', _, rfl, .inl rfl⟩
  | literal | literalLines => exact ⟨'\'', _, rfl, .inr rfl⟩

/-- A string is written in the style that suits it. -/
theorem stands_writeString (s : String) : Stands (writeString s) (.string s) := by
  intro fuel depth rest
  have hread : readString (writeString s ++ '\n' :: rest) = some (s.toList, '\n' :: rest) :=
    readString_writeString s nofun nofun
  obtain ⟨c, es, hwrite, hc⟩ : ∃ c es, writeString s = c :: es ∧ (c = '"' ∨ c = '\'') :=
    exists_writeIn _ _
  have hne {d : Char} (hquote : '"' ≠ d) (happostrophe : '\'' ≠ d) : c ≠ d := by
    rcases hc with rfl | rfl <;> assumption
  rw [hwrite, List.cons_append] at hread ⊢
  rw [skipBlanks_cons (hne nofun nofun) (hne nofun nofun), readItem]
  · rw [if_pos hc, hread, Option.map_some]
    exact congrArg (fun s => some (Item.string s, _)) String.ofList_toList
  · exact hne nofun nofun
  · exact hne nofun nofun

/-! ## Lines -/

/-- Whether a key is written without quotation marks. -/
def IsBareKey (key : String) : Prop := key ≠ "" ∧ key.toList.all isBare = true

instance (key : String) : Decidable (IsBareKey key) :=
  inferInstanceAs (Decidable (key ≠ "" ∧ key.toList.all isBare = true))

theorem IsBareKey.isBare (h : IsBareKey key) : ∀ c ∈ key.toList, isBare c = true :=
  List.all_eq_true.1 h.2

theorem IsBareKey.exists_cons (h : IsBareKey key) :
    ∃ c cs, key.toList = c :: cs ∧ Toml.isBare c = true := by
  obtain ⟨c, cs, hlist⟩ := List.exists_cons_of_ne_nil (l := key.toList) (by simpa using h.1)
  exact ⟨c, cs, hlist, h.isBare c (hlist ▸ List.mem_cons_self)⟩

/-- A line that sets a plain key: the text of its value stands for the value. -/
structure KeyLine where
  key : String
  value : List Char
  item : Item
  bare : IsBareKey key
  stands : Stands value item

namespace KeyLine

/-- The line that sets a key to an integer. -/
def ofInteger (key : String) (hkey : IsBareKey key) (n : Nat) (hn : n < 0x8000000000000000) :
    KeyLine :=
  ⟨key, decimalDigits n, .integer n, hkey, stands_decimalDigits hn⟩

/-- The line that sets a key to a string. -/
def ofString (key : String) (hkey : IsBareKey key) (s : String) : KeyLine :=
  ⟨key, writeString s, .string s, hkey, stands_writeString s⟩

/-- The text of a line. -/
def text (l : KeyLine) : List Char := (line l.key l.value).toList

/-- What a line adds to the document. -/
def entry (l : KeyLine) : String × Item := (l.key, l.item)

theorem text_append (l : KeyLine) (rest : List Char) :
    l.text ++ rest = l.key.toList ++ ' ' :: '=' :: ' ' :: (l.value ++ '\n' :: rest) := by
  simp [text, line]

end KeyLine

theorem readKey_bare (h : IsBareKey key) (rest : List Char) :
    readKey maxDepth (key.toList ++ ' ' :: '=' :: rest) = some ([key], '=' :: rest) := by
  have hpart : readKeyPart (key.toList ++ ' ' :: '=' :: rest) =
      some (key, ' ' :: '=' :: rest) := by
    rw [readKeyPart, takeWhile_append_cons h.isBare rfl, dropWhile_append_cons h.isBare rfl,
      String.ofList_toList]
    exact if_neg (by simpa using h.1)
  have hblank : skipBlanks (key.toList ++ ' ' :: '=' :: rest) =
      key.toList ++ ' ' :: '=' :: rest := by
    obtain ⟨c, cs, hlist, hc⟩ := h.exists_cons
    rw [hlist]
    exact skipBlanks_cons (ne_of_class hc rfl) (ne_of_class hc rfl) _
  rw [maxDepth, readKey, hblank, hpart]
  rfl

/-- A line that sets a new key gives the key its value. -/
theorem readDocument_line {root : List (String × Item)} (l : KeyLine)
    (hnew : find? l.key root = none) (rest : List Char) :
    readDocument (fuel + 1) ⟨root, []⟩ (l.text ++ rest) =
      readDocument fuel ⟨put l.key l.item root, []⟩ rest := by
  have hdefine : Draft.define? ⟨root, []⟩ [l.key] l.item = some ⟨put l.key l.item root, []⟩ := by
    simp [Draft.define?, defineAt, descend, define, hnew]
  have hkey := readKey_bare l.bare (' ' :: (l.value ++ '\n' :: rest))
  obtain ⟨c, cs, hlist, hc⟩ := l.bare.exists_cons
  rw [hlist] at hkey
  rw [l.text_append, hlist, List.cons_append, readDocument,
    skipBlanks_cons (ne_of_class hc rfl) (ne_of_class hc rfl)]
  -- the first character of a key begins neither a header nor a line without a key
  split
  · rename_i heq
    cases heq
  · rename_i heq
    exact absurd (List.cons.inj heq).1 (ne_of_class hc rfl)
  · rename_i heq
    exact absurd (List.cons.inj heq).1 (ne_of_class hc rfl)
  · rename_i heq
    obtain ⟨rfl, rfl⟩ := List.cons.inj heq
    have hmark : ¬ (c = '#' ∨ c = '\n' ∨ c = '\r') :=
      not_or.2 ⟨ne_of_class hc rfl, not_or.2 ⟨ne_of_class hc rfl, ne_of_class hc rfl⟩⟩
    have hitem : readItem (2 * (' ' :: (l.value ++ '\n' :: rest)).length + 2) maxDepth
        (skipBlanks (' ' :: (l.value ++ '\n' :: rest))) = some (l.item, '\n' :: rest) :=
      l.stands _ _ _
    rw [if_neg hmark, ← List.cons_append, hkey]
    refine (congrArg (Option.bind · _) hitem).trans ?_
    exact (congrArg (Option.bind · _) hdefine).trans rfl

theorem find?_eq_none {root : List (String × Item)} (h : key ∉ root.map Prod.fst) :
    find? key root = none := by
  induction root with
  | nil => rfl
  | cons e root ih =>
    rw [List.map_cons, List.mem_cons, not_or] at h
    rw [find?, if_neg (Ne.symm h.1), ih h.2]

/-- Where no key is set twice, each key holds what it was set to. -/
theorem find?_eq_of_mem {root : List (String × Item)} (hnodup : (root.map Prod.fst).Nodup)
    (h : (key, v) ∈ root) : find? key root = some v := by
  induction root with
  | nil => cases h
  | cons e root ih =>
    obtain ⟨hnew, hnodup⟩ := List.nodup_cons.1 hnodup
    rcases List.mem_cons.1 h with rfl | h
    · exact if_pos rfl
    · have hne : e.1 ≠ key := fun he => hnew (he ▸ List.mem_map_of_mem h)
      rw [find?, if_neg hne, ih hnodup h]

theorem put_eq_append {root : List (String × Item)} (h : key ∉ root.map Prod.fst) :
    put key v root = root ++ [(key, v)] := by
  induction root with
  | nil => rfl
  | cons e root ih =>
    rw [List.map_cons, List.mem_cons, not_or] at h
    rw [put, if_neg (Ne.symm h.1), ih h.2, List.cons_append]

/-- Lines that set new keys, no key twice, add them in their order. -/
theorem readDocument_lines {root : List (String × Item)} {ls : List KeyLine}
    (hnodup : (root.map Prod.fst ++ ls.map KeyLine.key).Nodup) (hfuel : ls.length < fuel) :
    readDocument fuel ⟨root, []⟩ (ls.flatMap KeyLine.text) =
      some ⟨root ++ ls.map KeyLine.entry, []⟩ := by
  induction ls generalizing root fuel with
  | nil =>
    obtain ⟨fuel, rfl⟩ := Nat.exists_eq_add_one_of_ne_zero (Nat.ne_zero_of_lt hfuel)
    rw [List.map_nil, List.append_nil]
    rfl
  | cons l ls ih =>
    obtain ⟨fuel, rfl⟩ := Nat.exists_eq_add_one_of_ne_zero (Nat.ne_zero_of_lt hfuel)
    have hnew : l.key ∉ root.map Prod.fst := fun h =>
      (List.nodup_append.1 hnodup).2.2 _ h _ List.mem_cons_self rfl
    rw [List.flatMap_cons, readDocument_line l (find?_eq_none hnew), put_eq_append hnew,
      ih (by simpa using hnodup) (Nat.lt_of_succ_lt_succ hfuel), List.append_assoc]
    rfl

theorem length_le_length_text (ls : List KeyLine) :
    ls.length ≤ (ls.flatMap KeyLine.text).length := by
  induction ls with
  | nil => exact Nat.le_refl 0
  | cons l ls ih =>
    rw [List.flatMap_cons, l.text_append]
    simp only [List.length_append, List.length_cons]
    omega

/-- A document of lines that set plain keys, no key twice, holds the keys in their order. -/
theorem read_lines {ls : List KeyLine} (hnodup : (ls.map KeyLine.key).Nodup) {text : String}
    (htext : text.toList = ls.flatMap KeyLine.text) : read text = some (ls.map KeyLine.entry) := by
  have hmark (cs : List Char) : text.toList ≠ '\uFEFF' :: cs := by
    rw [htext]
    match ls with
    | [] => exact nofun
    | l :: ls =>
      obtain ⟨c, ds, hlist, hc⟩ := l.bare.exists_cons
      rw [List.flatMap_cons, l.text_append, hlist]
      exact fun h => ne_of_class hc rfl (List.cons.inj h).1
  have hread : readDocument (text.toList.length + 1) ⟨[], []⟩ text.toList =
      some ⟨ls.map KeyLine.entry, []⟩ := by
    rw [htext]
    exact readDocument_lines hnodup (Nat.lt_succ_of_le (length_le_length_text ls))
  rw [read]
  split
  · exact absurd ‹_› (hmark _)
  · rw [hread]
    rfl

end SchemaExtraction.Toml
