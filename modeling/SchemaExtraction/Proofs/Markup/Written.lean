import Mathlib.Data.List.TakeDrop
import Mathlib.Data.List.TakeWhile
import SchemaExtraction.Markup.Serialization
import SchemaExtraction.Markup.Token

/-!
# Reading what is written

The tokens of tags, comments and text that have been written are these again: a tag with its name
and its attributes, a comment, and for text nothing but this text, which is read in pieces. No piece
of it takes a character of the tag after it.

Results:
* `reference?_written`: the characters that are written by their names.
* `resolveReferencesFrom_escape`: the value of an attribute.
* `Token.scanMarkup_start`, `Token.scanMarkup_end`, `Token.scanMarkup_comment`: tags and comments.
* `Token.scanMarkup_escape`, `Token.scanMarkup_space`: text before a tag.
-/

namespace SchemaExtraction.Markup

/-! ## References -/

theorem size_findNamed?_le {run cs : List Char} {entry : List Char × List Char} {found : Found}
    (h : findNamed? run cs entry = some found) : found.size ≤ run.length + 1 := by
  rw [findNamed?] at h
  split at h
  next hp =>
    have hl := (List.isPrefixOf_iff_prefix.1 hp).length_le
    split at h
    · cases h
      exact Nat.succ_le_succ hl
    · split at h
      · cases h
        exact Nat.le_succ_of_le hl
      · cases h
  next => cases h

theorem foldl_longer {α : Type} {find : α → Option Found} {best : Found} {entries : List α}
    (h : ∀ e ∈ entries, ∀ f, find e = some f → f.size ≤ best.size) :
    entries.foldl (fun best e => longer best (find e)) (some best) = some best := by
  induction entries with
  | nil => rfl
  | cons e entries ih =>
    have he : longer (some best) (find e) = some best := by
      cases hf : find e with
      | none => rfl
      | some f => exact if_neg (Nat.not_lt.2 (h e (by simp) f hf))
    rw [List.foldl_cons, he]
    exact ih fun e' he' => h e' (by simp [he'])

/-- A name that pages are written with is found in them again. -/
theorem longestNamed?_written {name characters : List Char} (rest : List Char)
    (h : (name, characters) ∈ writtenCharacters) :
    longestNamed? (name ++ ';' :: rest) =
      some ⟨name.length + 1, true, characters, rest⟩ := by
  have hw : writtenCharacters.foldl (fun best entry =>
      longer best (findNamed? name (name ++ ';' :: rest) entry)) none =
      some ⟨name.length + 1, true, characters, rest⟩ := by
    simp only [writtenCharacters, List.mem_cons, Prod.mk.injEq, List.not_mem_nil, or_false] at h
    rcases h with ⟨rfl, rfl⟩ | ⟨rfl, rfl⟩ | ⟨rfl, rfl⟩ | ⟨rfl, rfl⟩ | ⟨rfl, rfl⟩ <;> rfl
  have hr : (name ++ ';' :: rest).takeWhile Char.isAlphanum = name := by
    have hn : ∀ e ∈ writtenCharacters, e.1.all Char.isAlphanum = true := by decide
    rw [List.takeWhile_append_of_pos (List.all_eq_true.1 (hn _ h)),
      List.takeWhile_cons_of_neg (by decide), List.append_nil]
  rw [longestNamed?, hr, namedCharacters, List.foldl_append, hw]
  exact foldl_longer fun e _ f hf => size_findNamed?_le hf

theorem reference?_written (inAttribute : Bool) {name characters rest : List Char}
    (h : (name, characters) ∈ writtenCharacters) :
    reference? inAttribute (name ++ ';' :: rest) =
      some ⟨name.length + 1, true, characters, rest⟩ := by
  have hl := longestNamed?_written rest h
  have hn : ∀ e ∈ writtenCharacters, ∃ c cs, e.1 = c :: cs ∧ c ≠ '#' := by
    simp [writtenCharacters]
  obtain ⟨c, cs, he, hc⟩ := hn _ h
  obtain rfl : name = c :: cs := he
  unfold reference?
  split
  next heq => exact absurd (List.cons.inj heq).1 hc
  next heq => exact absurd (List.cons.inj heq).1 hc
  next heq => exact absurd (List.cons.inj heq).1 hc
  next =>
    rw [hl]
    simp

/-! ## Values of attributes -/

theorem resolveReferencesFrom_written {name characters : List Char}
    (h : (name, characters) ∈ writtenCharacters) (fuel : Nat) (rest : List Char) :
    resolveReferencesFrom (fuel + 1) ('&' :: (name ++ ';' :: rest)) =
      characters ++ resolveReferencesFrom fuel rest := by
  rw [resolveReferencesFrom, reference?_written true h]

/-- Characters that are not written as they are have names. -/
theorem escapeChar_of_ne {quoted : Bool} {c : Char} (h : escapeChar quoted c ≠ [c]) :
    ∃ name, (name, [c]) ∈ writtenCharacters ∧ escapeChar quoted c = '&' :: (name ++ [';']) := by
  unfold escapeChar at h ⊢
  split_ifs at h ⊢ with h₁ h₂ h₃ h₄ h₅
  · exact ⟨"amp".toList, by rw [h₁]; decide, by decide⟩
  · exact ⟨"nbsp".toList, by rw [h₂]; decide, by decide⟩
  · obtain ⟨rfl, -⟩ : c = '"' ∧ _ := by simpa using h₃
    exact ⟨"quot".toList, by decide, by decide⟩
  · obtain ⟨rfl, -⟩ : c = '<' ∧ _ := by simpa using h₄
    exact ⟨"lt".toList, by decide, by decide⟩
  · obtain ⟨rfl, -⟩ : c = '>' ∧ _ := by simpa using h₅
    exact ⟨"gt".toList, by decide, by decide⟩
  · exact absurd rfl h

/-- A value of an attribute is the same when it has been written and read again. -/
theorem resolveReferencesFrom_escape {cs : List Char} (hn : '\x00' ∉ cs) {fuel : Nat}
    (hf : (escape true cs).length ≤ fuel) : resolveReferencesFrom fuel (escape true cs) = cs := by
  induction cs generalizing fuel with
  | nil => cases fuel <;> rfl
  | cons c cs ih =>
    have hn' : '\x00' ∉ cs := fun h => hn (by simp [h])
    have he : escape true (c :: cs) = escapeChar true c ++ escape true cs := by simp [escape]
    by_cases hc : escapeChar true c = [c]
    · rw [he, hc] at hf ⊢
      obtain _ | fuel := fuel
      · simp at hf
      rw [List.singleton_append, resolveReferencesFrom, ih hn' (by simp at hf; omega)]
      · rintro rfl
        exact absurd hc (by decide)
      · exact fun h => hn (by simp [h])
    · obtain ⟨name, hname, hw⟩ := escapeChar_of_ne hc
      rw [he, hw] at hf ⊢
      obtain _ | fuel := fuel
      · simp at hf
      rw [List.cons_append, List.append_assoc, List.singleton_append,
        resolveReferencesFrom_written hname, ih hn' (by simp at hf; omega)]
      rfl

theorem length_le_length_escape (quoted : Bool) (cs : List Char) :
    cs.length ≤ (escape quoted cs).length := by
  induction cs with
  | nil => exact Nat.le_refl _
  | cons c cs ih =>
    have hc : 0 < (escapeChar quoted c).length := by
      by_cases h : escapeChar quoted c = [c]
      · simp [h]
      · obtain ⟨name, -, hw⟩ := escapeChar_of_ne h
        simp [hw]
    rw [escape, List.flatMap_cons, ← escape, List.length_append, List.length_cons]
    omega

theorem escape_verbatim {quoted : Bool} {cs : List Char}
    (h : ∀ c ∈ cs, escapeChar quoted c = [c]) : escape quoted cs = cs := by
  induction cs with
  | nil => rfl
  | cons c cs ih =>
    rw [escape, List.flatMap_cons, h c List.mem_cons_self, ← escape,
      ih fun d hd => h d (List.mem_cons_of_mem c hd)]
    rfl

theorem not_mem_escape (cs : List Char) : '"' ∉ escape true cs := by
  simp only [escape, List.mem_flatMap, not_exists, not_and]
  intro c _
  unfold escapeChar
  split_ifs with h₁ h₂ h₃ h₄ h₅
  · decide
  · decide
  · decide
  · simp at h₄
  · simp at h₅
  · simpa [eq_comm] using h₃

theorem escape_space {cs : List Char} (hs : ∀ c ∈ cs, isSpace c = true) :
    escape false cs = cs := by
  induction cs with
  | nil => rfl
  | cons c cs ih =>
    have hc := hs c (by simp)
    simp only [isSpace, Bool.or_eq_true, decide_eq_true_eq] at hc
    have hw : escapeChar false c = [c] := by
      rcases hc with (((rfl | rfl) | rfl) | rfl) | rfl <;> rfl
    rw [← List.singleton_append, escape_append, ih fun d hd => hs d (by simp [hd])]
    simp [escape, hw]

/-! ## Attributes -/

/-- Characters that end the name of a tag. -/
def endsTagName (c : Char) : Bool := isSpace c || c = '/' || c = '>'

/-- Characters that end the name of an attribute. -/
def endsAttributeName (c : Char) : Bool := isSpace c || c = '/' || c = '>' || c = '='

/-- A name that is read as it is: in lower case and without a character that ends it. -/
def isWritableName (stop : Char → Bool) (cs : List Char) : Bool :=
  !cs.isEmpty && cs.all fun c => c.toLower = c && c ≠ '\x00' && !stop c

/-- An attribute that can be written in a tag. Line ends of all kinds are read as line feeds, and
    null characters are replaced. -/
def Attribute.isWritable (a : Attribute) : Bool :=
  a.space = .none && isWritableName endsAttributeName a.name.toList &&
    a.value.toList.all fun c => c ≠ '\r' && c ≠ '\x00'

/-- An element that its start tag can be written for. -/
def Element.isWritable (e : Element) : Bool :=
  e.vocabulary = .html && isWritableName endsTagName e.name.toList &&
    e.name.toList.head?.any Char.isAlpha && e.attributes.all Attribute.isWritable &&
    decide (e.attributes.map Attribute.name).Nodup

namespace Token

theorem readName_append {stop : Char → Bool} {name rest : List Char}
    (hn : ∀ c ∈ name, (c.toLower = c ∧ c ≠ '\x00') ∧ stop c = false)
    (hr : ∀ c, rest.head? = some c → stop c = true) :
    readName stop (name ++ rest) = (name, rest) := by
  have hname : ∀ c ∈ name, (!stop c) = true := fun c hc => by simp [(hn c hc).2]
  have hlower : replaceNull (name.map Char.toLower) = name := by
    rw [replaceNull, List.map_map]
    exact (List.map_congr_left fun c hc => by simp [hn c hc]).trans (List.map_id _)
  have hrest : rest.takeWhile (fun c => !stop c) = [] ∧
      rest.dropWhile (fun c => !stop c) = rest := by
    cases rest with
    | nil => exact ⟨rfl, rfl⟩
    | cons c rest => simp [hr c rfl]
  rw [readName, List.span_eq_takeWhile_dropWhile, List.takeWhile_append_of_pos hname,
    List.dropWhile_append_of_pos hname, hrest.1, hrest.2, List.append_nil]
  exact congrArg (·, rest) hlower

theorem readValue_escape (value rest : List Char) :
    readValue ('"' :: (escape true value ++ '"' :: rest)) =
      some (resolveReferences (escape true value), rest) := by
  have hv : ∀ c ∈ escape true value, decide (c ≠ '"') = true := fun c hc =>
    decide_eq_true fun h => not_mem_escape value (h ▸ hc)
  have hs : (escape true value ++ '"' :: rest).span (· ≠ '"') =
      (escape true value, '"' :: rest) := by
    rw [List.span_eq_takeWhile_dropWhile, List.takeWhile_append_of_pos hv,
      List.dropWhile_append_of_pos hv]
    simp
  rw [readValue, List.dropWhile_cons_of_neg (by decide)]
  dsimp only
  rw [if_pos (by decide), hs]
  rfl

theorem addAttribute_of_new {a : Attribute} (ha : a.isWritable = true) {acc : List Attribute}
    (hn : a.name ∉ acc.map Attribute.name) :
    addAttribute a.name.toList a.value.toList acc = acc ++ [a] := by
  have hs : a.space = .none := by simp [Attribute.isWritable] at ha; exact ha.1.1
  have hf : acc.any (fun b => decide (b.name = a.name)) = false := by
    simpa [List.any_eq_false] using hn
  obtain ⟨space, name, value⟩ := a
  obtain rfl : space = .none := hs
  simp [addAttribute, hf]

theorem readAttributes_close (fuel : Nat) (acc : List Attribute) (rest : List Char) :
    readAttributes (fuel + 1) acc ('>' :: rest) = some (acc, false, rest) := by
  rw [readAttributes, List.dropWhile_cons_of_neg (by decide)]
  rfl

/-- A name after a space is read, and the value after it. -/
theorem readAttributes_name {c : Char} (hc : endsAttributeName c = false) {cs rest : List Char}
    {name value rest' : List Char} (hn : readName endsAttributeName cs = (name, '=' :: rest))
    (hv : readValue rest = some (value, rest')) (fuel : Nat) (acc : List Attribute) :
    readAttributes (fuel + 1) acc (' ' :: c :: cs) =
      readAttributes fuel (addAttribute (replaceNull [c.toLower] ++ name) value acc) rest' := by
  simp only [endsAttributeName, Bool.or_eq_false_iff, decide_eq_false_iff_not] at hc
  obtain ⟨⟨⟨hblank, hslash⟩, hclose⟩, -⟩ := hc
  rw [readAttributes, List.dropWhile_cons_of_pos (by decide),
    List.dropWhile_cons_of_neg (by simp [hblank])]
  split
  next heq => cases heq
  next heq => exact absurd (List.cons.inj heq).1 hclose
  next heq => exact absurd (List.cons.inj heq).1 hslash
  next heq => exact absurd (List.cons.inj heq).1 hslash
  next c' rest' _ _ _ heq =>
    obtain ⟨rfl, rfl⟩ := List.cons.inj heq
    have hstops : (fun d => isSpace d || decide (d = '/') || decide (d = '>') || decide (d = '=')) =
      endsAttributeName := rfl
    simp only [hstops, hn]
    rw [List.dropWhile_cons_of_neg (by decide)]
    simp only [hv]
    rfl

theorem readAttributes_attribute {a : Attribute} (ha : a.isWritable = true) (fuel : Nat)
    (acc : List Attribute) (rest : List Char) :
    readAttributes (fuel + 1) acc (a.write ++ rest) =
      readAttributes fuel (addAttribute a.name.toList a.value.toList acc) rest := by
  simp only [Attribute.isWritable, isWritableName, Bool.and_eq_true, decide_eq_true_eq,
    List.all_eq_true, Bool.not_eq_true'] at ha
  obtain ⟨⟨hspace, hne, hname⟩, hvalue⟩ := ha
  have hv : readValue ('"' :: (escape true a.value.toList ++ '"' :: rest)) =
      some (a.value.toList, rest) := by
    have hresolved : resolveReferences (escape true a.value.toList) = a.value.toList :=
      resolveReferencesFrom_escape (fun h => (hvalue _ h).2 rfl) (Nat.le_refl _)
    rw [readValue_escape, hresolved]
  have hw : a.write ++ rest =
      ' ' :: (a.name.toList ++ '=' :: '"' :: (escape true a.value.toList ++ '"' :: rest)) := by
    simp [Attribute.write, Attribute.writtenName, hspace]
  obtain ⟨c, cs, hc⟩ := List.exists_cons_of_ne_nil (l := a.name.toList) (by simpa using hne)
  rw [hw, hc, List.cons_append]
  rw [hc] at hname
  obtain ⟨⟨hlower, hnull⟩, hstop⟩ := hname c (by simp)
  have hread : readName endsAttributeName
      (cs ++ '=' :: '"' :: (escape true a.value.toList ++ '"' :: rest)) =
      (cs, '=' :: '"' :: (escape true a.value.toList ++ '"' :: rest)) :=
    readName_append (fun d hd => hname d (by simp [hd])) (by simp [endsAttributeName])
  have hfirst : replaceNull [c.toLower] ++ cs = c :: cs := by simp [replaceNull, hlower, hnull]
  rw [readAttributes_name hstop hread hv, hfirst]

/-- Attributes are read from a tag that they have been written in. -/
theorem readAttributes_write {attributes acc : List Attribute} {fuel : Nat}
    (hw : ∀ a ∈ attributes, a.isWritable = true)
    (hd : ((acc ++ attributes).map Attribute.name).Nodup) (hf : attributes.length < fuel)
    (rest : List Char) :
    readAttributes fuel acc (attributes.flatMap Attribute.write ++ '>' :: rest) =
      some (acc ++ attributes, false, rest) := by
  induction attributes generalizing acc fuel with
  | nil =>
    obtain _ | fuel := fuel
    · simp at hf
    · rw [List.append_nil]
      exact readAttributes_close fuel acc rest
  | cons a attributes ih =>
    obtain _ | fuel := fuel
    · simp at hf
    · have ha := hw a (by simp)
      rw [List.append_cons acc] at hd ⊢
      have hn : a.name ∉ acc.map Attribute.name := by
        rw [List.map_append, List.map_append, List.nodup_append, List.nodup_append] at hd
        exact fun h => hd.1.2.2 a.name h a.name (by simp) rfl
      rw [List.flatMap_cons, List.append_assoc, readAttributes_attribute ha,
        addAttribute_of_new ha hn]
      exact ih (fun b hb => hw b (by simp [hb])) hd (by simpa using hf)

theorem length_le_length_flatMap_write (attributes : List Attribute) :
    attributes.length ≤ (attributes.flatMap Attribute.write).length := by
  induction attributes with
  | nil => exact Nat.le_refl _
  | cons a attributes ih =>
    have ha : 0 < a.write.length := by simp [Attribute.write]
    rw [List.flatMap_cons, List.length_append, List.length_cons]
    omega

/-- A tag is read up to its end. -/
theorem readTag_append {name : List Char} (hn : isWritableName endsTagName name = true)
    (attributes : List Attribute) (hw : ∀ a ∈ attributes, a.isWritable = true)
    (hd : (attributes.map Attribute.name).Nodup) (rest : List Char) :
    readTag (name ++ (attributes.flatMap Attribute.write ++ '>' :: rest)) =
      some (⟨String.ofList name, attributes, false⟩, rest) := by
  simp only [isWritableName, Bool.and_eq_true, List.all_eq_true, decide_eq_true_eq,
    Bool.not_eq_true'] at hn
  have hr : ∀ c, (attributes.flatMap Attribute.write ++ '>' :: rest).head? = some c →
      endsTagName c = true := by
    cases attributes with
    | nil =>
      rintro c ⟨⟩
      rfl
    | cons a attributes =>
      rintro c ⟨⟩
      rfl
  have hread : readName (fun d => isSpace d || d = '/' || d = '>')
      (name ++ (attributes.flatMap Attribute.write ++ '>' :: rest)) =
      (name, attributes.flatMap Attribute.write ++ '>' :: rest) := readName_append hn.2 hr
  have hlength := length_le_length_flatMap_write attributes
  have hfuel : attributes.length <
      (attributes.flatMap Attribute.write ++ '>' :: rest).length + 1 := by
    rw [List.length_append]
    omega
  have hd' : (([] ++ attributes).map Attribute.name).Nodup := hd
  have hattributes : readAttributes
      ((attributes.flatMap Attribute.write ++ '>' :: rest).length + 1) []
      (attributes.flatMap Attribute.write ++ '>' :: rest) = some (attributes, false, rest) :=
    readAttributes_write hw hd' hfuel rest
  simp only [readTag, hread, hattributes]
  rfl

/-- What starts with a letter after a less-than sign is a start tag. -/
theorem scanAngle_letter (foreign : Bool) {c : Char} (hc : c.isAlpha = true) (rest : List Char) :
    scanAngle foreign (c :: rest) = scanStart (c :: rest) := by
  have hne (d : Char) (hd : d.isAlpha = false) : c ≠ d := by
    rintro rfl
    simp [hd] at hc
  unfold scanAngle
  split
  next heq => exact absurd (List.cons.inj heq).1 (hne '!' (by decide))
  next heq => exact absurd (List.cons.inj heq).1 (hne '/' (by decide))
  next heq => exact absurd (List.cons.inj heq).1 (hne '/' (by decide))
  next heq => exact absurd (List.cons.inj heq).1 (hne '/' (by decide))
  next heq => exact absurd (List.cons.inj heq).1 (hne '?' (by decide))
  next heq =>
    obtain ⟨rfl, rfl⟩ := List.cons.inj heq
    exact if_pos hc
  next heq => cases heq

variable {e : Element} (he : e.isWritable = true)
include he

theorem exists_name_eq_cons : ∃ c cs, e.name.toList = c :: cs ∧ c.isAlpha = true := by
  simp only [Element.isWritable, Bool.and_eq_true] at he
  have halpha := he.1.1.2
  cases hn : e.name.toList with
  | nil => simp [hn] at halpha
  | cons c cs => exact ⟨c, cs, rfl, by simpa [hn] using halpha⟩

theorem scanMarkup_start (foreign : Bool) (rest : List Char) :
    scanMarkup foreign (e.writeStart ++ rest) =
      ([.startTag ⟨e.name, e.attributes, false⟩], rest) := by
  obtain ⟨c, cs, hc, halpha⟩ := exists_name_eq_cons he
  simp only [Element.isWritable, Bool.and_eq_true, List.all_eq_true, decide_eq_true_eq] at he
  have hread := readTag_append he.1.1.1.2 e.attributes he.1.2 he.2 rest
  have hw : e.writeStart ++ rest =
      '<' :: (e.name.toList ++ (e.attributes.flatMap Attribute.write ++ '>' :: rest)) := by
    simp [Element.writeStart]
  rw [hw, scanMarkup]
  rw [hc] at hread ⊢
  rw [List.cons_append, scanAngle_letter foreign halpha, scanStart, ← List.cons_append, hread, ← hc,
    String.ofList_toList]

theorem scanEnd_name (rest : List Char) :
    scanEnd (e.name.toList ++ '>' :: rest) = ([.endTag e.name], rest) := by
  simp only [Element.isWritable, Bool.and_eq_true, List.all_eq_true, decide_eq_true_eq] at he
  have hread : readTag (e.name.toList ++ ([] ++ '>' :: rest)) =
      some (⟨String.ofList e.name.toList, [], false⟩, rest) :=
    readTag_append he.1.1.1.2 [] (by simp) (by simp) rest
  rw [List.nil_append] at hread
  rw [scanEnd, hread, String.ofList_toList]

theorem scanMarkup_end (foreign : Bool) (rest : List Char) :
    scanMarkup foreign (e.writeEnd ++ rest) = ([.endTag e.name], rest) := by
  obtain ⟨c, cs, hc, halpha⟩ := exists_name_eq_cons he
  have hend := scanEnd_name he rest
  have hw : e.writeEnd ++ rest = '<' :: '/' :: (e.name.toList ++ '>' :: rest) := by
    simp [Element.writeEnd]
  rw [hc, List.cons_append] at hend
  rw [hw, scanMarkup, hc, List.cons_append, scanAngle]
  · rw [if_pos halpha, hend]
  · rintro rfl
    simp at halpha

omit he

/-! ## Comments and text -/

/-- Whether a text has a closing mark of comments in it. -/
def closesComment (cs : List Char) : Bool :=
  (Text.cut? ['-', '-', '>'] cs).isSome || (Text.cut? ['-', '-', '!', '>'] cs).isSome

/-- A comment that its marks can be written around. -/
def isWritableComment (cs : List Char) : Bool :=
  !(['>'].isPrefixOf cs) && !(['-', '>'].isPrefixOf cs) && !closesComment cs &&
    !cs.contains '\r'

theorem closesComment_cons {c : Char} {cs : List Char} (h : closesComment (c :: cs) = false) :
    Text.dropPrefix? ['-', '-', '>'] (c :: cs) = none ∧
      Text.dropPrefix? ['-', '-', '!', '>'] (c :: cs) = none ∧ closesComment cs = false := by
  simp only [closesComment, Bool.or_eq_false_iff, Option.isSome_eq_false_iff,
    Option.isNone_iff_eq_none] at h ⊢
  obtain ⟨h₁, h₂⟩ := h
  rw [Text.cut?] at h₁ h₂
  cases hd₁ : Text.dropPrefix? ['-', '-', '>'] (c :: cs) with
  | some rest => simp [hd₁] at h₁
  | none =>
    cases hd₂ : Text.dropPrefix? ['-', '-', '!', '>'] (c :: cs) with
    | some rest => simp [hd₂] at h₂
    | none => exact ⟨rfl, rfl, by simpa [hd₁] using h₁, by simpa [hd₂] using h₂⟩

theorem readComment_append {cs : List Char} (h : closesComment cs = false) (acc rest : List Char) :
    readComment acc (cs ++ '-' :: '-' :: '>' :: rest) = (acc.reverse ++ cs, rest) := by
  induction cs generalizing acc with
  | nil => simp [readComment]
  | cons c cs ih =>
    obtain ⟨h₁, h₂, h⟩ := closesComment_cons h
    rw [List.cons_append, readComment, ih h]
    · simp
    -- neither mark starts at `c`: one that did would be all in `c :: cs`
    · rintro rest' rfl heq
      match cs with
      | [] => simp at heq
      | [d] => simp at heq
      | d₁ :: d₂ :: cs =>
        simp only [List.cons_append, List.cons.injEq] at heq
        obtain ⟨rfl, rfl, -⟩ := heq
        simp [Text.dropPrefix?] at h₁
    · rintro rest' rfl heq
      match cs with
      | [] => simp at heq
      | [d] => simp at heq
      | [d₁, d₂] => simp at heq
      | d₁ :: d₂ :: d₃ :: cs =>
        simp only [List.cons_append, List.cons.injEq] at heq
        obtain ⟨rfl, rfl, rfl, -⟩ := heq
        simp [Text.dropPrefix?] at h₂

theorem scanComment_append {cs : List Char} (h : isWritableComment cs = true) (rest : List Char) :
    scanComment (cs ++ '-' :: '-' :: '>' :: rest) =
      ([.comment (String.ofList (replaceNull cs))], rest) := by
  simp only [isWritableComment, Bool.and_eq_true, Bool.not_eq_true'] at h
  obtain ⟨⟨⟨h₁, h₂⟩, hc⟩, -⟩ := h
  unfold scanComment
  split
  next heq =>
    match cs with
    | [] => simp at heq
    | c :: cs =>
      obtain ⟨rfl, -⟩ := List.cons.inj heq
      simp at h₁
  next heq =>
    match cs with
    | [] => simp at heq
    | [c] => simp at heq
    | c :: d :: cs =>
      simp only [List.cons_append, List.cons.injEq] at heq
      obtain ⟨rfl, rfl, -⟩ := heq
      simp at h₂
  next => simp [readComment_append hc]

theorem scanMarkup_mark (foreign : Bool) (cs : List Char) :
    scanMarkup foreign ('<' :: '!' :: '-' :: '-' :: cs) = scanComment cs := rfl

theorem scanMarkup_comment {s : String} (hs : isWritableComment s.toList = true) (foreign : Bool)
    (rest : List Char) :
    scanMarkup foreign ((Leaf.comment s).write false ++ rest) =
      ([.comment (String.ofList (replaceNull s.toList))], rest) := by
  have ho : "<!--".toList = ['<', '!', '-', '-'] := String.toList_ofList
  have hc : "-->".toList = ['-', '-', '>'] := String.toList_ofList
  have hw : (Leaf.comment s).write false ++ rest =
      '<' :: '!' :: '-' :: '-' :: (s.toList ++ '-' :: '-' :: '>' :: rest) := by
    rw [Leaf.write_comment, ho, hc, List.append_assoc, List.append_assoc]
    rfl
  rw [hw, scanMarkup_mark, scanComment_append hs]

end Token

theorem Leaf.write_comment_append (s : String) (rest : List Char) :
    (Leaf.comment s).write false ++ rest =
      '<' :: ('!' :: '-' :: '-' :: s.toList ++ "-->".toList ++ rest) := by
  have ho : "<!--".toList = ['<', '!', '-', '-'] := String.toList_ofList
  rw [Leaf.write_comment, ho]
  rfl

/-! ### Lengths -/

theorem length_lt_write_comment (s : String) (rest : List Char) :
    rest.length < ((Leaf.comment s).write false ++ rest).length := by
  rw [Leaf.write_comment_append]
  simp only [List.length_append, List.length_cons]
  omega

theorem length_lt_writeStart (e : Element) (rest : List Char) :
    rest.length < (e.writeStart ++ rest).length := by
  simp only [Element.writeStart, List.length_append, List.length_cons]
  omega

theorem length_lt_writeEnd (e : Element) (rest : List Char) :
    rest.length < (e.writeEnd ++ rest).length := by
  simp only [Element.writeEnd, List.length_append, List.length_cons]
  omega

namespace Token

/-! ## Text -/

/-- Tokens of text, and those that stand for nothing. -/
def isText : Token → Bool
  | .space _ | .word _ | .null | .fault => true
  | _ => false

theorem isText_runsFrom {fuel : Nat} {cs : List Char} {token : Token}
    (h : token ∈ runsFrom fuel cs) : token.isText = true := by
  induction fuel generalizing cs with
  | zero =>
    cases cs with
    | nil => simp [runsFrom] at h
    | cons c cs =>
      simp only [runsFrom, List.mem_singleton] at h
      rw [h]
      rfl
  | succ fuel ih =>
    cases cs with
    | nil => simp [runsFrom] at h
    | cons c cs =>
      rw [runsFrom] at h
      split at h
      · rcases List.mem_cons.1 h with rfl | h
        · rfl
        · exact ih h
      · rcases List.mem_cons.1 h with rfl | h
        · split <;> rfl
        · exact ih h

/-- Whether a character stands for itself in text that tags and references are recognized in. -/
def isPlainChar (c : Char) : Bool := c ≠ '<' && c ≠ '&'

theorem isPlainChar_of_escape {c : Char} (h : escapeChar false c = [c]) :
    isPlainChar c = true := by
  rw [isPlainChar, Bool.and_eq_true, decide_eq_true_eq, decide_eq_true_eq]
  constructor
  · rintro rfl
    exact absurd h (by decide)
  · rintro rfl
    exact absurd h (by decide)

theorem scanMarkup_plain (foreign : Bool) {c : Char} (hc : isPlainChar c = true)
    (cs : List Char) :
    scanMarkup foreign (c :: cs) =
      (runs ((c :: cs).takeWhile isPlainChar), (c :: cs).dropWhile isPlainChar) := by
  simp only [isPlainChar, Bool.and_eq_true, decide_eq_true_eq] at hc
  unfold scanMarkup
  split
  next heq => cases heq
  next heq => exact absurd (List.cons.inj heq).1 hc.1
  next heq => exact absurd (List.cons.inj heq).1 hc.2
  next => rw [List.span_eq_takeWhile_dropWhile]; rfl

/-- The characters of a text up to the first that something does not hold of. -/
theorem exists_span (p : Char → Prop) [DecidablePred p] (cs : List Char) :
    ∃ piece cs', cs = piece ++ cs' ∧ (∀ c ∈ piece, p c) ∧ ∀ c ds, cs' = c :: ds → ¬ p c := by
  induction cs with
  | nil => exact ⟨[], [], rfl, by simp, by simp⟩
  | cons c cs ih =>
    by_cases hc : p c
    · obtain ⟨piece, cs', rfl, hpiece, hstop⟩ := ih
      exact ⟨c :: piece, cs', rfl, by simpa [hc] using hpiece, hstop⟩
    · refine ⟨[], c :: cs, rfl, by simp, fun d ds hd => ?_⟩
      obtain ⟨rfl, -⟩ := List.cons.inj hd
      exact hc

/-- The start of a text that is written in one piece: a character by its name, or characters as they
    are. -/
inductive IsPiece (rest : List Char) (cs : List Char) : List Char → List Char → Prop
  | named {c : Char} {cs' name : List Char} : (name, [c]) ∈ writtenCharacters → cs = c :: cs' →
      escape false cs ++ '<' :: rest = '&' :: (name ++ ';' :: (escape false cs' ++ '<' :: rest)) →
      IsPiece rest cs [c] cs'
  | verbatim {c d : Char} {piece cs' ds : List Char} : (∀ c' ∈ c :: piece, isPlainChar c' = true) →
      cs = c :: piece ++ cs' → escape false cs ++ '<' :: rest = c :: piece ++ d :: ds →
      escape false cs' ++ '<' :: rest = d :: ds → ¬ isPlainChar d = true →
      IsPiece rest cs (c :: piece) cs'

theorem exists_isPiece {cs : List Char} (hne : cs ≠ []) (rest : List Char) :
    ∃ piece cs', IsPiece rest cs piece cs' := by
  obtain ⟨piece, cs', rfl, hpiece, hstop⟩ := exists_span (fun c => escapeChar false c = [c]) cs
  cases piece with
  | nil =>
    obtain ⟨c, cs, rfl⟩ := List.exists_cons_of_ne_nil hne
    obtain ⟨name, hname, hw⟩ := escapeChar_of_ne (hstop c cs rfl)
    refine ⟨[c], cs, .named hname rfl ?_⟩
    rw [List.nil_append, escape, List.flatMap_cons, hw]
    simp [escape]
  | cons c piece =>
    have hplain : ∀ d ∈ c :: piece, isPlainChar d = true := fun d hd =>
      isPlainChar_of_escape (hpiece d hd)
    obtain ⟨d, ds, hrest, hd⟩ : ∃ d ds, escape false cs' ++ '<' :: rest = d :: ds ∧
        ¬ isPlainChar d = true := by
      cases cs' with
      | nil => exact ⟨'<', rest, rfl, by decide⟩
      | cons d ds =>
        obtain ⟨name, -, hw⟩ := escapeChar_of_ne (hstop d ds rfl)
        exact ⟨'&', _, by rw [escape, List.flatMap_cons, hw]; rfl, by decide⟩
    refine ⟨c :: piece, cs', .verbatim hplain rfl ?_ hrest hd⟩
    rw [escape_append, escape_verbatim hpiece, List.append_assoc, hrest]

theorem IsPiece.eq_append {cs piece cs' rest : List Char} (h : IsPiece rest cs piece cs') :
    piece ≠ [] ∧ cs = piece ++ cs' := by
  cases h with
  | named _ hcs => exact ⟨by simp, hcs⟩
  | verbatim _ hcs => exact ⟨by simp, hcs⟩

theorem span_plain {piece ds : List Char} {d : Char} (hp : ∀ c ∈ piece, isPlainChar c = true)
    (hd : ¬ isPlainChar d = true) :
    (piece ++ d :: ds).takeWhile isPlainChar = piece ∧
      (piece ++ d :: ds).dropWhile isPlainChar = d :: ds := by
  rw [List.takeWhile_append_of_pos hp, List.dropWhile_append_of_pos hp,
    List.takeWhile_cons_of_neg hd, List.dropWhile_cons_of_neg hd, List.append_nil]
  exact ⟨rfl, rfl⟩

/-- Up to a character that is special everything is read at once. -/
theorem scanMarkup_run (foreign : Bool) {piece ds : List Char} {d : Char} (hne : piece ≠ [])
    (hp : ∀ c ∈ piece, isPlainChar c = true) (hd : ¬ isPlainChar d = true) :
    scanMarkup foreign (piece ++ d :: ds) = (runs piece, d :: ds) := by
  obtain ⟨c, cs, rfl⟩ := List.exists_cons_of_ne_nil hne
  obtain ⟨htake, hdrop⟩ := span_plain hp hd
  rw [List.cons_append, scanMarkup_plain foreign (hp c List.mem_cons_self), ← List.cons_append,
    htake, hdrop]

/-- A text is read in pieces, each of them as it was before it was written. -/
theorem scanMarkup_escape {cs : List Char} (hne : cs ≠ []) (foreign : Bool) (rest : List Char) :
    ∃ piece cs', piece ≠ [] ∧ cs = piece ++ cs' ∧
      scanMarkup foreign (escape false cs ++ '<' :: rest) =
        (runs piece, escape false cs' ++ '<' :: rest) := by
  obtain ⟨piece, cs', h⟩ := exists_isPiece hne rest
  refine ⟨piece, cs', h.eq_append.1, h.eq_append.2, ?_⟩
  cases h with
  | named hname _ hw =>
    rw [hw, scanMarkup, reference?_written false hname]
    rfl
  | verbatim hp _ hw hrest hd =>
    rw [hw, hrest]
    exact scanMarkup_run foreign (List.cons_ne_nil _ _) hp hd

theorem runs_space {cs : List Char} (hne : cs ≠ []) (hs : ∀ c ∈ cs, isSpace c = true) :
    runs cs = [.space cs] := by
  obtain ⟨c, cs, rfl⟩ := List.exists_cons_of_ne_nil hne
  have hc := hs c (by simp)
  have hnull (d : Char) (hd : isSpace d = true) : d ≠ '\x00' := by
    rintro rfl
    simp [isSpace] at hd
  have hall : ∀ d ∈ c :: cs, (decide (isSpace d = isSpace c) && decide (d ≠ '\x00')) = true :=
    fun d hd => by simp [hs d hd, hc, hnull d (hs d hd)]
  rw [runs, List.length_cons, runsFrom, if_neg (hnull c hc), List.span_eq_takeWhile_dropWhile]
  dsimp only
  rw [List.takeWhile_eq_self_iff.2 hall, List.dropWhile_eq_nil_iff.2 hall]
  simp [hc, runsFrom]

/-- White space before a tag is one token. -/
theorem scanMarkup_space {cs : List Char} (hne : cs ≠ []) (hs : ∀ c ∈ cs, isSpace c = true)
    (foreign : Bool) (rest : List Char) :
    scanMarkup foreign (cs ++ '<' :: rest) = ([.space cs], '<' :: rest) := by
  have hp : ∀ d ∈ cs, isPlainChar d = true := by
    intro d hd
    have := hs d hd
    by_contra h
    simp only [isPlainChar, Bool.and_eq_true, decide_eq_true_eq, not_and_or, not_not] at h
    rcases h with rfl | rfl <;> simp [isSpace] at this
  rw [scanMarkup_run foreign hne hp (by decide), runs_space hne hs]

end Token
end SchemaExtraction.Markup
