import SchemaExtraction.Proofs.Markup.Runs
import SchemaExtraction.Proofs.Text.Occurrences

/-!
# Elements that hold only text

The content of a title, a style or a script is read as text up to the end tag of the element, each
in a way of its own. It is read as it was written unless it looks like an end tag itself.

Results:
* `Token.Pieces`: text that is read in pieces.
* `Token.pieces_escape`, `Token.pieces_raw`, `Token.pieces_script`: what has been written is.
-/

namespace SchemaExtraction.Markup

open Build

namespace Token

variable {name : String} {cs rest : List Char}

/-! ## End tags -/

theorem namedNext_name (hn : isWritableName endsTagName name.toList = true) (rest : List Char) :
    namedNext name (name.toList ++ '>' :: rest) = true := by
  simp only [isWritableName, Bool.and_eq_true, List.all_eq_true, decide_eq_true_eq] at hn
  have htake : (name.toList ++ '>' :: rest).take name.length = name.toList := by
    rw [← String.length_toList, List.take_left]
  have hdrop : (name.toList ++ '>' :: rest).drop name.length = '>' :: rest := by
    rw [← String.length_toList, List.drop_left]
  have hlower : name.toList.map Char.toLower = name.toList :=
    (List.map_congr_left fun c hc => (hn.2 c hc).1.1).trans (List.map_id _)
  have hprefix := Text.dropPrefix?_append name.toList []
  rw [List.append_nil] at hprefix
  rw [namedNext, htake, hdrop, hlower, hprefix]
  simp

/-- Whether a name is next depends only on as many characters and one more. -/
theorem namedNext_append (h : name.length < cs.length) (rest : List Char) :
    namedNext name (cs ++ rest) = namedNext name cs := by
  obtain ⟨c, ds, hd⟩ : ∃ c ds, cs.drop name.length = c :: ds := by
    refine List.exists_cons_of_ne_nil fun hnil => ?_
    have := List.drop_eq_nil_iff.1 hnil
    omega
  rw [namedNext, namedNext, List.take_append_of_le_length (Nat.le_of_lt h),
    List.drop_append_of_le_length (Nat.le_of_lt h), hd]
  cases Text.dropPrefix? name.toList ((cs.take name.length).map Char.toLower) <;> rfl

theorem closes_append (h : name.length + 1 < cs.length) (rest : List Char) :
    closes name (cs ++ rest) = closes name cs := by
  obtain ⟨c, cs, rfl⟩ : ∃ c ds, cs = c :: ds :=
    List.exists_cons_of_ne_nil (by rintro rfl; simp at h)
  by_cases hc : c = '/'
  · subst hc
    exact namedNext_append (Nat.lt_of_succ_lt_succ h) rest
  · rw [List.cons_append, closes, closes]
    · rintro _ ⟨⟩
      exact hc rfl
    · rintro _ ⟨⟩
      exact hc rfl

/-! ## Pieces of text -/

/-- Text is read in pieces up to the rest. -/
inductive Pieces (mode : TextMode) (rest : List Char) : List Char → List Char → Prop
  | nil : Pieces mode rest rest []
  | cons {cs cs' piece text : List Char} : piece ≠ [] →
      scan mode false cs = ([.word piece], cs') → cs'.length < cs.length →
      Pieces mode rest cs' text → Pieces mode rest cs (piece ++ text)

theorem replaceNull_eq {cs : List Char} (hn : '\x00' ∉ cs) : replaceNull cs = cs :=
  (List.map_congr_left fun c hc => if_neg fun h : c = '\x00' => hn (h ▸ hc)).trans (List.map_id _)

theorem scanText_plain (escapable : Bool) (name : String) {c : Char} (hc : isPlainChar c = true)
    (cs : List Char) :
    scanText escapable name (c :: cs) = ([.word (replaceNull ((c :: cs).takeWhile isPlainChar))],
      (c :: cs).dropWhile isPlainChar) := by
  simp only [isPlainChar, Bool.and_eq_true, decide_eq_true_eq] at hc
  unfold scanText
  split
  next heq => cases heq
  next heq => exact absurd (List.cons.inj heq).1 hc.1
  next heq => exact absurd (List.cons.inj heq).1 hc.2
  next => rw [List.span_eq_takeWhile_dropWhile]; rfl

/-- A run of characters that are not special is one piece. -/
theorem scanText_run (escapable : Bool) (name : String) {piece ds : List Char} {d : Char}
    (hne : piece ≠ []) (hp : ∀ c ∈ piece, isPlainChar c = true) (hd : ¬ isPlainChar d = true)
    (hn : '\x00' ∉ piece) :
    scanText escapable name (piece ++ d :: ds) = ([.word piece], d :: ds) := by
  obtain ⟨c, cs, rfl⟩ := List.exists_cons_of_ne_nil hne
  obtain ⟨htake, hdrop⟩ := span_plain hp hd
  rw [List.cons_append, scanText_plain escapable name (hp c List.mem_cons_self),
    ← List.cons_append, htake, hdrop, replaceNull_eq hn]

/-- Text with references is read as it was before it was written. -/
theorem pieces_escape (name : String) {cs : List Char} (hn : '\x00' ∉ cs) (rest : List Char) :
    Pieces (.escapable name) ('<' :: rest) (escape false cs ++ '<' :: rest) cs := by
  induction hlen : cs.length using Nat.strong_induction_on generalizing cs with
  | _ n ih =>
    by_cases hne : cs = []
    · subst hne
      exact .nil
    obtain ⟨piece, cs', h⟩ := exists_isPiece hne rest
    obtain ⟨hpiece, rfl⟩ := h.eq_append
    rw [List.mem_append, not_or] at hn
    have hpos : 0 < piece.length := List.length_pos_iff.2 hpiece
    have hescape := length_le_length_escape false piece
    have hrest := ih cs'.length (by rw [← hlen, List.length_append]; omega) hn.2 rfl
    refine .cons hpiece ?_ (by simp only [escape_append, List.length_append]; omega) hrest
    show scanText true name _ = _
    cases h with
    | named hname _ hw =>
      rw [hw]
      simp only [scanText, reference?_written false hname]
      rfl
    | verbatim hp _ hw hrest hd =>
      rw [hw, hrest]
      exact scanText_run true name hpiece hp hd hn.1

/-- Whether an end tag starts in a text, the text being followed by another. -/
def holdsEnd (name : String) (tail : List Char) : List Char → Bool
  | [] => false
  | c :: cs => (c = '<' && closes name (cs ++ tail)) || holdsEnd name tail cs

theorem holdsEnd_append {tail : List Char} (cs ds : List Char)
    (h : holdsEnd name tail (cs ++ ds) = false) : holdsEnd name tail ds = false := by
  induction cs with
  | nil => exact h
  | cons c cs ih => exact ih (Bool.or_eq_false_iff.1 h).2

theorem closes_append_tail {tail : List Char} (hl : name.length < tail.length)
    (cs rest : List Char) :
    closes name (cs ++ ('<' :: tail ++ rest)) = closes name (cs ++ '<' :: tail) := by
  rw [← List.append_assoc]
  refine closes_append ?_ rest
  rw [List.length_append, List.length_cons]
  omega

/-- A special character that no end tag starts with is a piece of its own. -/
theorem scan_raw_special {tail : List Char} {c : Char} (hc : ¬ isPlainChar c = true)
    (hl : name.length < tail.length) (hend : holdsEnd name ('<' :: tail) (c :: cs) = false)
    (rest : List Char) :
    scan (.raw name) false (c :: (cs ++ ('<' :: tail ++ rest))) =
      ([.word [c]], cs ++ ('<' :: tail ++ rest)) := by
  simp only [isPlainChar, Bool.and_eq_true, decide_eq_true_eq, not_and_or, not_not] at hc
  rcases hc with rfl | rfl
  · have hcloses : closes name (cs ++ ('<' :: tail ++ rest)) = false := by
      rw [closes_append_tail hl]
      simpa using (Bool.or_eq_false_iff.1 hend).1
    exact if_neg (Bool.eq_false_iff.1 hcloses)
  · rfl

/-- Text without references is read as it is up to the first end tag. -/
theorem pieces_raw {tail : List Char} (hn : '\x00' ∉ cs) (hl : name.length < tail.length)
    (hend : holdsEnd name ('<' :: tail) cs = false) (rest : List Char) :
    Pieces (.raw name) ('<' :: tail ++ rest) (cs ++ ('<' :: tail ++ rest)) cs := by
  induction hlen : cs.length using Nat.strong_induction_on generalizing cs with
  | _ n ih =>
    obtain ⟨piece, cs', rfl, hpiece, hstop⟩ := exists_span (isPlainChar · = true) cs
    have hrest : ∀ taken ds, taken ≠ [] → piece ++ cs' = taken ++ ds →
        Pieces (.raw name) ('<' :: tail ++ rest) (ds ++ ('<' :: tail ++ rest)) ds := by
      intro taken ds hne heq
      rw [heq] at hlen hn hend
      have hpos := List.length_pos_iff.2 hne
      exact ih ds.length (by rw [← hlen, List.length_append]; omega)
        (fun hm => hn (List.mem_append_right taken hm)) (holdsEnd_append taken ds hend) rfl
    cases piece with
    | nil =>
      cases cs' with
      | nil => exact .nil
      | cons c cs =>
        have hone : [c] ≠ [] := List.cons_ne_nil c []
        show Pieces _ _ _ ([c] ++ cs)
        exact .cons hone (scan_raw_special (hstop c cs rfl) hl hend rest) (Nat.lt_succ_self _)
          (hrest [c] cs hone rfl)
    | cons c piece =>
      have hne : c :: piece ≠ [] := List.cons_ne_nil c piece
      obtain ⟨d, ds, htail, hd⟩ : ∃ d ds, cs' ++ ('<' :: tail ++ rest) = d :: ds ∧
          ¬ isPlainChar d = true := by
        cases cs' with
        | nil => exact ⟨'<', tail ++ rest, rfl, by decide⟩
        | cons d ds => exact ⟨d, ds ++ ('<' :: tail ++ rest), rfl, hstop d ds rfl⟩
      refine .cons hne ?_ ?_ (hrest (c :: piece) cs' hne rfl)
      · rw [List.append_assoc, htail]
        exact scanText_run false name hne hpiece hd fun hm => hn (List.mem_append_left cs' hm)
      · simp only [List.length_append, List.length_cons]
        omega

/-! ## Scripts -/

/-- How a script goes on after a character, of which it does not end. -/
def scriptStep (depth : ScriptDepth) (dashes : Nat) (c : Char) (cs : List Char) :
    Option (ScriptDepth × Nat) :=
  if c = '-' then some (depth, dashes + 1)
  else if c = '>' && 2 ≤ dashes then some (.code, 0)
  else if c = '<' then
    match depth with
    | .code =>
      if closes "script" cs then none
      else if (Text.dropPrefix? "!--".toList cs).isSome then some (.comment, 0)
      else some (.code, 0)
    | .comment =>
      if closes "script" cs then none
      else if namedNext "script" cs then some (.nested, 0)
      else some (.comment, 0)
    | .nested => if closes "script" cs then some (.comment, 0) else some (.nested, 0)
  else some (depth, 0)

theorem readScript_cons (depth : ScriptDepth) (dashes : Nat) (acc : List Char) (c : Char)
    (cs : List Char) :
    readScript depth dashes acc (c :: cs) =
      match scriptStep depth dashes c cs with
      | none => (acc.reverse, c :: cs)
      | some (depth, dashes) => readScript depth dashes (c :: acc) cs := by
  conv_lhs => unfold readScript
  unfold scriptStep
  cases depth <;> split_ifs <;> rfl

/-- A script ends where its text is split. -/
theorem exists_readScript (depth : ScriptDepth) (dashes : Nat) (acc cs : List Char) :
    ∃ text rest, readScript depth dashes acc cs = (acc.reverse ++ text, rest) := by
  induction cs generalizing depth dashes acc with
  | nil => exact ⟨[], [], by rw [List.append_nil]; rfl⟩
  | cons c cs ih =>
    rw [readScript_cons]
    cases scriptStep depth dashes c cs with
    | none => exact ⟨[], c :: cs, by rw [List.append_nil]⟩
    | some next =>
      obtain ⟨text, rest, h⟩ := ih next.1 next.2 (c :: acc)
      exact ⟨c :: text, rest, h.trans (by simp)⟩

theorem dropPrefix?_append_isSome {p cs : List Char} (h : p.length ≤ cs.length)
    (rest : List Char) :
    (Text.dropPrefix? p (cs ++ rest)).isSome = (Text.dropPrefix? p cs).isSome := by
  induction p generalizing cs with
  | nil => rfl
  | cons c p ih =>
    cases cs with
    | nil => cases h
    | cons d cs =>
      rw [List.cons_append, Text.dropPrefix?, Text.dropPrefix?]
      split_ifs
      · exact ih (Nat.le_of_succ_le_succ h)
      · rfl

/-- How a script goes on depends on as many characters as its end tag has. -/
theorem scriptStep_append {cs : List Char} (h : 8 ≤ cs.length) (depth : ScriptDepth)
    (dashes : Nat) (c : Char) (rest : List Char) :
    scriptStep depth dashes c (cs ++ rest) = scriptStep depth dashes c cs := by
  have hlength : "script".length = 6 := rfl
  have hcloses : closes "script" (cs ++ rest) = closes "script" cs :=
    closes_append (by omega) rest
  have hnext : namedNext "script" (cs ++ rest) = namedNext "script" cs :=
    namedNext_append (by omega) rest
  have hmark : (Text.dropPrefix? "!--".toList (cs ++ rest)).isSome =
      (Text.dropPrefix? "!--".toList cs).isSome :=
    dropPrefix?_append_isSome (Nat.le_trans (by decide) h) rest
  simp only [scriptStep, hcloses, hnext, hmark]

/-- A script that is read up to its end tag is so whatever follows. -/
theorem readScript_append {tail : List Char} (ht : 8 ≤ tail.length) {depth : ScriptDepth}
    {dashes : Nat} {acc : List Char}
    (h : readScript depth dashes acc (cs ++ '<' :: tail) = (acc.reverse ++ cs, '<' :: tail))
    (rest : List Char) :
    readScript depth dashes acc (cs ++ ('<' :: tail ++ rest)) =
      (acc.reverse ++ cs, '<' :: tail ++ rest) := by
  induction cs generalizing depth dashes acc with
  | nil =>
    rw [List.nil_append, readScript_cons] at h
    rw [List.nil_append, List.cons_append, readScript_cons, scriptStep_append ht]
    cases hs : scriptStep depth dashes '<' tail with
    | none => simp
    | some next =>
      -- the text of the script would have a character more
      rw [hs] at h
      obtain ⟨text, rest, hr⟩ := exists_readScript next.1 next.2 ('<' :: acc) tail
      have := congrArg (List.length ∘ Prod.fst) (hr.symm.trans h)
      simp at this
  | cons c cs ih =>
    have hlength : 8 ≤ (cs ++ '<' :: tail).length := by
      rw [List.length_append, List.length_cons]
      omega
    rw [List.cons_append, readScript_cons] at h
    rw [List.cons_append, readScript_cons, ← List.append_assoc, scriptStep_append hlength]
    cases hs : scriptStep depth dashes c (cs ++ '<' :: tail) with
    | none =>
      rw [hs] at h
      have := congrArg (List.length ∘ Prod.fst) h
      simp at this
    | some next =>
      rw [hs] at h
      rw [List.append_assoc]
      exact (ih (h.trans (by simp))).trans (by simp)

/-- A script is read in one piece. -/
theorem pieces_script {tail : List Char} (hn : '\x00' ∉ cs) (ht : 8 ≤ tail.length)
    (h : readScript .code 0 [] (cs ++ '<' :: tail) = (cs, '<' :: tail)) (rest : List Char) :
    Pieces .script ('<' :: tail ++ rest) (cs ++ ('<' :: tail ++ rest)) cs := by
  cases cs with
  | nil => exact .nil
  | cons c cs =>
    have hread : readScript .code 0 [] (c :: cs ++ ('<' :: tail ++ rest)) =
        (c :: cs, '<' :: tail ++ rest) := readScript_append ht h rest
    have hscan : scan .script false (c :: cs ++ ('<' :: tail ++ rest)) =
        ([.word (c :: cs)], '<' :: tail ++ rest) := by
      show scanScript _ = _
      rw [scanScript, hread]
      dsimp only
      rw [replaceNull_eq hn]
    have hpiece : Pieces .script ('<' :: tail ++ rest) _ (c :: cs ++ []) :=
      .cons (List.cons_ne_nil c cs) hscan
        (by simp only [List.length_append, List.length_cons]; omega)
        .nil
    rwa [List.append_nil] at hpiece

end Token

/-! ## Content -/

/-- Elements whose content is text with references. -/
def escapableNames : List String := ["textarea", "title"]

/-- Elements whose content is text without references. -/
def verbatimNames : List String := ["iframe", "noembed", "noframes", "noscript", "style"]

/-- How the content of an element is read that holds only text. -/
def textModeOf? (e : Element) : Option TextMode :=
  if e.isHtml escapableNames then some (.escapable e.name)
  else if e.isHtml verbatimNames then some (.raw e.name)
  else if e.isHtml ["script"] then some .script
  else none

/-- The text of a forest that is nothing but text. -/
def Forest.onlyText? : Forest → Option (List Char)
  | nil => some []
  | leaf (.text s) nil => some s.toList
  | _ => none

/-- Whether some text is read in an element as it is written. -/
def TextMode.keeps (e : Element) (cs : List Char) : TextMode → Bool
  | .escapable _ => true
  | .raw name =>
    (e.isHtml rawNames || decide (escape false cs = cs)) && !Token.holdsEnd name e.writeEnd cs
  | .script => Token.readScript .code 0 [] (cs ++ e.writeEnd) = (cs, e.writeEnd)
  | _ => false

/-- Whether an element that holds only text is read with this content where it has been written
    with it. Line ends are line feeds, and a text area drops one at its start. -/
def Element.keeps (e : Element) (mode : TextMode) (content : Forest) : Bool :=
  match content.onlyText? with
  | some cs =>
    mode.keeps e cs && cs.all (fun c => c ≠ '\r' && c ≠ '\x00') &&
      (!e.isHtml ["textarea"] || cs.head? ≠ some '\n')
  | none => false

variable {e : Element} {mode : TextMode} {content : Forest} {cs rest : List Char}

theorem Element.keeps_text (h : e.keeps mode content = true) (ht : content.onlyText? = some cs) :
    '\r' ∉ cs ∧ '\x00' ∉ cs := by
  rw [keeps, ht] at h
  simp only [Bool.and_eq_true, List.all_eq_true, decide_eq_true_eq] at h
  exact ⟨fun hm => (h.1.2 _ hm).1 rfl, fun hm => (h.1.2 _ hm).2 rfl⟩

theorem Forest.write_of_onlyText? (h : content.onlyText? = some cs) (raw : Bool) :
    content.write raw = if raw then cs else escape false cs := by
  unfold onlyText? at h
  split at h
  next => rw [← Option.some.inj h, write, escape, List.flatMap_nil, ite_self]
  next s =>
    rw [← Option.some.inj h, write, write, List.append_nil]
    rfl
  next => cases h

/-- The ways in which content is read that is nothing but text. -/
theorem textModeOf?_cases (hm : textModeOf? e = some mode) :
    (mode = .escapable e.name ∧ e.isHtml rawNames = false) ∨ mode = .raw e.name ∨
      (mode = .script ∧ e.name = "script" ∧ e.isHtml rawNames = true) := by
  unfold textModeOf? at hm
  split_ifs at hm with h₁ h₂ h₃
  · refine Or.inl ⟨(Option.some.inj hm).symm, ?_⟩
    rw [Element.isHtml, Bool.and_eq_true, List.contains_iff_mem] at h₁
    have hn : ∀ n ∈ escapableNames, rawNames.contains n = false := by decide
    rw [Element.isHtml, hn _ h₁.2, Bool.and_false]
  · exact Or.inr (Or.inl (Option.some.inj hm).symm)
  · refine Or.inr (Or.inr ⟨(Option.some.inj hm).symm, ?_, Element.isHtml_mono h₃ (by decide)⟩)
    rw [Element.isHtml, Bool.and_eq_true, List.contains_iff_mem, List.mem_singleton] at h₃
    exact h₃.2

theorem writeEnd_append (e : Element) (rest : List Char) :
    e.writeEnd ++ rest = '<' :: ('/' :: (e.name.toList ++ ['>']) ++ rest) := by
  rw [Element.writeEnd, List.append_assoc]
  simp

/-- The end tag of an element that holds only text. -/
theorem scan_writeEnd (he : e.isWritable = true) (hm : textModeOf? e = some mode)
    (rest : List Char) :
    Token.scan mode false (e.writeEnd ++ rest) = ([.endTag e.name], rest) := by
  have hname : isWritableName endsTagName e.name.toList = true := by
    simp only [Element.isWritable, Bool.and_eq_true] at he
    exact he.1.1.1.2
  have hw : e.writeEnd ++ rest = '<' :: '/' :: (e.name.toList ++ '>' :: rest) := by
    simp [Element.writeEnd]
  have hcloses : Token.closes e.name ('/' :: (e.name.toList ++ '>' :: rest)) = true :=
    Token.namedNext_name hname rest
  have hend := Token.scanEnd_name he rest
  rw [hw]
  rcases textModeOf?_cases hm with ⟨rfl, -⟩ | rfl | ⟨rfl, hs, -⟩
  · exact (if_pos hcloses).trans hend
  · exact (if_pos hcloses).trans hend
  · rw [hs] at hcloses
    have hread : Token.readScript .code 0 [] ('<' :: '/' :: (e.name.toList ++ '>' :: rest)) =
        ([], '<' :: '/' :: (e.name.toList ++ '>' :: rest)) := by
      rw [Token.readScript_cons, Token.scriptStep, if_neg (by decide), if_neg (by decide),
        if_pos rfl, hs, if_pos hcloses]
      rfl
    show Token.scanScript _ = _
    rw [Token.scanScript, hread]
    exact hend

/-- What has been written of the content of an element that holds only text is read in pieces. -/
theorem exists_pieces (hm : textModeOf? e = some mode) (hk : e.keeps mode content = true) :
    ∃ cs, content.onlyText? = some cs ∧ (e.isHtml ["textarea"] = true → cs.head? ≠ some '\n') ∧
      ∀ rest, Token.Pieces mode (e.writeEnd ++ rest)
        (content.write (e.isHtml rawNames) ++ (e.writeEnd ++ rest)) cs := by
  cases ho : content.onlyText? with
  | none => rw [Element.keeps, ho] at hk; cases hk
  | some cs =>
    have hn := (Element.keeps_text hk ho).2
    rw [Element.keeps, ho] at hk
    simp only [Bool.and_eq_true] at hk
    obtain ⟨⟨hkeeps, -⟩, hline⟩ := hk
    refine ⟨cs, rfl, fun ht => by simpa [ht] using hline, fun rest => ?_⟩
    rw [Forest.write_of_onlyText? ho, writeEnd_append]
    -- text with references, text without, or a script
    rcases textModeOf?_cases hm with ⟨rfl, hraw⟩ | rfl | ⟨rfl, hs, hraw⟩
    · rw [hraw, if_neg Bool.false_ne_true]
      exact Token.pieces_escape e.name hn _
    · have hlength : e.name.length < ('/' :: (e.name.toList ++ ['>'])).length := by
        simp only [List.length_cons, List.length_append, String.length_toList]
        omega
      simp only [TextMode.keeps, Bool.and_eq_true, Bool.or_eq_true, decide_eq_true_eq,
        Bool.not_eq_true'] at hkeeps
      have hwritten : (if e.isHtml rawNames then cs else escape false cs) = cs := by
        split_ifs with hraw
        · rfl
        · exact hkeeps.1.resolve_left hraw
      rw [hwritten]
      exact Token.pieces_raw hn hlength hkeeps.2 rest
    · have hlength : 8 ≤ ('/' :: (e.name.toList ++ ['>'])).length := by rw [hs]; decide
      rw [hraw, if_pos rfl]
      exact Token.pieces_script hn hlength (of_decide_eq_true hkeeps) rest

/-! ## The machine -/

variable {b b₀ : Builder} {d : Draft}

/-- The machine reads the text of an element. -/
structure Builder.ReadsIn (m : TextMode) (e : Element) (b : Builder) : Prop where
  mode : b.mode = .inText
  textMode : b.textMode = m
  fostering : b.fostering = false
  grown : b.draft.Grown
  current : b.draft.kind? (b.stack.headD root) = some (.element e)
  open_ : b.stack ≠ []
  html : e.vocabulary = .html
  not_template : e.isHtml ["template"] = false

namespace Builder.ReadsIn

theorem puts (h : b.ReadsIn mode e) : b.PutsInside := ⟨h.fostering, e, h.current, h.not_template⟩

theorem readsForeign_eq_false (h : b.ReadsIn mode e) : readsForeign b = false := by
  obtain ⟨id, ids, hs⟩ := List.exists_cons_of_ne_nil h.open_
  have hk := h.current
  rw [hs] at hk
  have he : b.draft.element id = e := Draft.element_of_kind? hk
  rw [readsForeign, hs]
  dsimp only
  rw [he, h.html]
  rfl

theorem rules_eq (h : b.ReadsIn mode e) (token : Token) : rules token b = inText token b := by
  rw [rules, get_bind, h.mode]

theorem of_draft (h : b.ReadsIn mode e) {added : Forest}
    (hd : b.draft.Receives b.stack added d) (skip : Bool) :
    Builder.ReadsIn mode e { b with draft := d, skipLine := skip } :=
  ⟨h.mode, h.textMode, h.fostering, hd.grown, hd.kind _ _ h.current, h.open_, h.html,
    h.not_template⟩

/-- A piece of text is added. -/
theorem feed_word (h : b.ReadsIn mode e) {piece : List Char} (hne : piece ≠ [])
    (hk : b.skipLine = true → piece.head? ≠ some '\n') :
    feed (.word piece) b = ((), { b with
      draft := b.draft.appendText (b.stack.headD root) (String.ofList piece),
      skipLine := false }) := by
  obtain ⟨c, cs, rfl⟩ := List.exists_cons_of_ne_nil hne
  have hdrop : (if b.skipLine then dropLine (.word (c :: cs)) else .word (c :: cs)) =
      .word (c :: cs) := by
    split
    next hskip =>
      have hc : c ≠ '\n' := fun hc => hk hskip (by rw [hc]; rfl)
      unfold dropLine
      split
      next heq => cases heq
      next heq => exact absurd (List.cons.inj (Token.word.inj heq)).1 hc
      next => rfl
    next => rfl
  have ha : Builder.ReadsIn mode e { b with skipLine := false } := h.of_draft (.refl h.grown) false
  rw [feed_eq, hdrop]
  exact handle_of_done (isForeign_eq_false ha.readsForeign_eq_false _) _
    ((ha.rules_eq _).trans (bind_eq (ha.puts.insertText_eq (List.cons_ne_nil c cs))))

/-- The end tag closes the element. -/
theorem feed_end (h : b.ReadsIn mode e) (name : String) :
    feed (.endTag name) b = ((), { b with
      skipLine := false, stack := b.stack.drop 1, mode := b.returnMode, textMode := .markup }) := by
  have hdrop : (if b.skipLine then dropLine (.endTag name) else .endTag name) = .endTag name :=
    ite_self _
  have ha : Builder.ReadsIn mode e { b with skipLine := false } := h.of_draft (.refl h.grown) false
  rw [feed_eq, hdrop]
  exact handle_of_done (isForeign_eq_false ha.readsForeign_eq_false _) _ (ha.rules_eq _)

end Builder.ReadsIn

/-- Text is read in pieces, each of which is added to the element. -/
theorem leads_pieces {cs text : List Char} (hp : Token.Pieces mode rest cs text)
    (h : b.ReadsIn mode e) (hk : b.skipLine = true → text.head? ≠ some '\n') :
    ∃ d skip, Leads cs b rest { b with draft := d, skipLine := skip } ∧
      b.draft.Receives b.stack (.ofText text) d := by
  induction hp generalizing b with
  | nil => exact ⟨b.draft, b.skipLine, .refl _ _, .refl h.grown⟩
  | @cons cs cs' piece text hne hs hl _ ih =>
    have hhead : (piece ++ text).head? = piece.head? := List.head?_append_of_ne_nil _ hne
    rw [hhead] at hk
    have hfeed := h.feed_word hne hk
    have hadd := Draft.receives_text h.grown h.current (String.ofList piece)
    obtain ⟨d, skip, hlead, hd⟩ := ih (h.of_draft hadd false) (fun h => by cases h)
    have hscan : Token.scan b.textMode (readsForeign b) cs = ([.word piece], cs') := by
      rw [h.textMode, h.readsForeign_eq_false]
      exact hs
    have hscript : endsScript b [.word piece] = false := by
      rw [endsScript, Bool.and_eq_false_iff]
      exact Or.inr rfl
    have hone : Leads cs b cs' { b with
        draft := b.draft.appendText (b.stack.headD root) (String.ofList piece),
        skipLine := false } :=
      .of_scan hscan hl (by simp) (fun h => by rw [hscript] at h; cases h)
        ((bind_eq hfeed).trans rfl)
    refine ⟨d, skip, hone.trans hlead, ?_⟩
    have hpiece : (Forest.leaf (.text (String.ofList piece)) .nil).Alike (.ofText piece) := by
      obtain ⟨c, piece, rfl⟩ := List.exists_cons_of_ne_nil hne
      rfl
    exact (hadd.alike hpiece).trans hd |>.alike (Forest.ofText_append _ _).symm

/-- The content and the end tag of an element that holds only text are read. What follows a script
    does not begin with a byte order mark. -/
theorem leads_content (he : e.isWritable = true) (hm : textModeOf? e = some mode)
    (hc : e.keeps mode content = true) (h : b.ReadsIn mode e)
    (hk : b.skipLine = true → e.isHtml ["textarea"] = true)
    (hrest : dropOrderMark rest = rest) :
    ∃ cs d, content.onlyText? = some cs ∧ b.draft.Receives b.stack (.ofText cs) d ∧
      Leads (content.write (e.isHtml rawNames) ++ (e.writeEnd ++ rest)) b rest { b with
        draft := d, skipLine := false, stack := b.stack.drop 1, mode := b.returnMode,
        textMode := .markup } := by
  obtain ⟨cs, htext, hline, hpieces⟩ := exists_pieces hm hc
  obtain ⟨d, skip, hl, hd⟩ := leads_pieces (hpieces rest) h fun hskip => hline (hk hskip)
  have hin := h.of_draft hd skip
  have hscan := scan_writeEnd he hm rest
  rw [← hin.textMode, ← hin.readsForeign_eq_false] at hscan
  exact ⟨cs, d, htext, hd, hl.trans (.of_scan hscan (length_lt_writeEnd e rest) (by simp)
    (fun _ => hrest) ((bind_eq (hin.feed_end e.name)).trans rfl))⟩

/-- The machine after the start tag of an element that holds only text. -/
def Builder.enters (e : Element) (m : TextMode) (b : Builder) : Builder :=
  { b.opens e with textMode := m, returnMode := b.mode, mode := .inText }

/-- Elements that hold only text and may stand in the head as well as in the body. -/
def headTextNames : List String := ["noframes", "script", "style", "title"]

/-- Elements that hold only text and may stand in the body. -/
def bodyTextNames : List String := ["iframe", "noembed", "noscript", "textarea"]

theorem mem_of_textModeOf? (hm : textModeOf? e = some mode) :
    e.vocabulary = .html ∧ e.name ∈ headTextNames ++ bodyTextNames := by
  have hn : ∀ n ∈ escapableNames ++ verbatimNames ++ ["script"],
    n ∈ headTextNames ++ bodyTextNames := by decide
  have hh : e.isHtml (escapableNames ++ verbatimNames ++ ["script"]) = true := by
    unfold textModeOf? at hm
    split_ifs at hm with h₁ h₂ h₃
    · exact Element.isHtml_mono h₁ (by decide)
    · exact Element.isHtml_mono h₂ (by decide)
    · exact Element.isHtml_mono h₃ (by decide)
  rw [Element.isHtml, Bool.and_eq_true, List.contains_iff_mem, decide_eq_true_eq] at hh
  exact ⟨hh.1, hn _ hh.2⟩

/-- What is no name of an element that holds only text. -/
theorem isHtml_of_textModeOf? (hm : textModeOf? e = some mode) {names : List String}
    (hn : ∀ n ∈ headTextNames ++ bodyTextNames, names.contains n = false) :
    e.isHtml names = false := by
  rw [Element.isHtml, hn _ (mem_of_textModeOf? hm).2, Bool.and_false]

theorem textModeOf?_escapable {tag : Tag} (hn : escapableNames.contains tag.name = true) :
    textModeOf? tag.element = some (.escapable tag.name) :=
  if_pos ((Element.isHtml_eq rfl _).trans hn)

theorem textModeOf?_raw {tag : Tag} (hn : verbatimNames.contains tag.name = true) :
    textModeOf? tag.element = some (.raw tag.name) := by
  have hother : ∀ n ∈ verbatimNames, escapableNames.contains n = false := by decide
  have hescapable : tag.element.isHtml escapableNames = false :=
    (Element.isHtml_eq rfl _).trans (hother _ (List.contains_iff_mem.1 hn))
  rw [textModeOf?, hescapable, (Element.isHtml_eq rfl _).trans hn]
  rfl

theorem insertTextual_eq (h : b.PutsInside) {tag : Tag}
    (ht : tag.element.isHtml ["template"] = false) (m : TextMode) :
    insertTextual tag m b = ((), b.enters tag.element m) :=
  (bind_eq (h.insertTag_eq ht)).trans rfl

/-- An element that holds only text is read from after its start tag. -/
theorem leads_entered (he : e.isWritable = true) (hm : textModeOf? e = some mode)
    (hc : e.keeps mode content = true) (h : b.PutsInside) (hg : b.draft.Grown)
    (allowed : Bool) {skip : Bool} (hk : skip = true → e.isHtml ["textarea"] = true)
    (hrest : dropOrderMark rest = rest) :
    ∃ cs d, content.onlyText? = some cs ∧
      b.draft.Receives b.stack (.element e (.ofText cs) .nil) d ∧
      Leads (content.write (e.isHtml rawNames) ++ (e.writeEnd ++ rest))
        { b.enters e mode with framesetAllowed := allowed, skipLine := skip } rest
        { b with draft := d, returnMode := b.mode, textMode := .markup,
                 framesetAllowed := allowed, skipLine := false } := by
  obtain ⟨e₀, hcurrent, -⟩ := h.current
  have ht : e.isHtml ["template"] = false := isHtml_of_textModeOf? hm (by decide)
  have hv := (mem_of_textModeOf? hm).1
  have hnew : (b.draft.grow (b.stack.headD root) (.element e)).kind? b.draft.cells.size =
      some (.element e) :=
    (Draft.kind?_grow (Draft.lt_size_of_kind? hcurrent) _).trans (if_pos rfl)
  have hin : Builder.ReadsIn mode e
      { b.enters e mode with framesetAllowed := allowed, skipLine := skip } :=
    ⟨rfl, rfl, h.fostering, Draft.grown_grow hg hcurrent, hnew, List.cons_ne_nil _ _, hv, ht⟩
  obtain ⟨cs, d, htext, hd, hl⟩ := leads_content he hm hc hin hk hrest
  exact ⟨cs, d, htext, Draft.receives_element hg hcurrent hd, hl⟩

/-! ## Start tags -/

theorem inHead_textual (h : b.PutsInside) {tag : Tag}
    (hn : ("noscript" :: headTextNames).contains tag.name = true) :
    ∃ m, textModeOf? tag.element = some m ∧
      inHead (.startTag tag) b = (.done, b.enters tag.element m) := by
  obtain ⟨name, attributes, selfClosing⟩ := tag
  simp only [headTextNames, List.contains_iff_mem, List.mem_cons, List.not_mem_nil, or_false] at hn
  rcases hn with rfl | rfl | rfl | rfl | rfl
  · exact ⟨_, rfl, bind_eq (insertTextual_eq h rfl _)⟩
  · exact ⟨_, rfl, bind_eq (insertTextual_eq h rfl _)⟩
  · exact ⟨_, rfl, bind_eq (insertTextual_eq h rfl _)⟩
  · exact ⟨_, rfl, bind_eq (insertTextual_eq h rfl _)⟩
  · exact ⟨_, rfl, bind_eq (insertTextual_eq h rfl _)⟩

theorem bodyBlock_textual {tag : Tag} (hn : bodyTextNames.contains tag.name = true) :
    bodyBlock tag b = (false, b) := by
  have hnames : ∀ n ∈ bodyTextNames, ("p" :: blockNames ++ headingNames ++ ["pre", "listing",
    "form", "li", "dd", "dt", "plaintext", "table", "hr", "xmp"]).contains n = false := by decide
  have hnot := hnames tag.name (List.contains_iff_mem.1 hn)
  have hblock : blockNames.contains tag.name = false :=
    contains_eq_false_of_subset hnot (by decide)
  have hheading : headingNames.contains tag.name = false :=
    contains_eq_false_of_subset hnot (by decide)
  have hp : tag.name ≠ "p" := ne_of_contains hnot (by decide)
  have hpre : tag.name ≠ "pre" := ne_of_contains hnot (by decide)
  have hlisting : tag.name ≠ "listing" := ne_of_contains hnot (by decide)
  have hdd : tag.name ≠ "dd" := ne_of_contains hnot (by decide)
  have hdt : tag.name ≠ "dt" := ne_of_contains hnot (by decide)
  unfold bodyBlock
  simp only [hp, hblock, hheading, hpre, hlisting, hdd, hdt, decide_false, Bool.or_self, if_false,
    Bool.false_eq_true]
  rw [if_neg (ne_of_contains hnot (by decide)), if_neg (ne_of_contains hnot (by decide)),
    if_neg (ne_of_contains hnot (by decide)), if_neg (ne_of_contains hnot (by decide)),
    if_neg (ne_of_contains hnot (by decide)), if_neg (ne_of_contains hnot (by decide))]
  rfl

theorem bodyInline_textual (h : b.PutsInside) {tag : Tag}
    (hn : bodyTextNames.contains tag.name = true) :
    ∃ m allowed skip, textModeOf? tag.element = some m ∧
      (skip = true → b.skipLine = true ∨ tag.element.isHtml ["textarea"] = true) ∧
      bodyInline tag b = (true, { b.enters tag.element m with
        framesetAllowed := allowed, skipLine := skip }) := by
  have hnames : ∀ n ∈ bodyTextNames, (["button", "a", "nobr", "input", "image", "param", "source",
    "track"] ++ formattingNames ++ objectNames ++ inlineVoidNames).contains n = false := by decide
  have hnot := hnames tag.name (List.contains_iff_mem.1 hn)
  have hformatting : formattingNames.contains tag.name = false :=
    contains_eq_false_of_subset hnot (by decide)
  have hobject : objectNames.contains tag.name = false :=
    contains_eq_false_of_subset hnot (by decide)
  have hvoid : inlineVoidNames.contains tag.name = false :=
    contains_eq_false_of_subset hnot (by decide)
  have hinput : tag.name ≠ "input" := ne_of_contains hnot (by decide)
  have hparam : ["param", "source", "track"].contains tag.name = false :=
    contains_eq_false_of_subset hnot (by decide)
  have ha {allowed skip : Bool} : Builder.PutsInside { b with
    framesetAllowed := allowed, skipLine := skip } := ⟨h.fostering, h.current⟩
  unfold bodyInline
  simp only [hformatting, hobject, hinput, hvoid, hparam, decide_false, Bool.or_self, if_false,
    Bool.false_eq_true]
  rw [if_neg (ne_of_contains hnot (by decide)), if_neg (ne_of_contains hnot (by decide)),
    if_neg (ne_of_contains hnot (by decide)), if_neg (ne_of_contains hnot (by decide))]
  -- a text area alone loses a line break at its start
  by_cases htextarea : tag.name = "textarea"
  · rw [if_pos htextarea]
    have hm : textModeOf? tag.element = some (.escapable tag.name) :=
      textModeOf?_escapable (by rw [htextarea]; decide)
    have hline : tag.element.isHtml ["textarea"] = true :=
      (Element.isHtml_eq rfl _).trans (by rw [Tag.element, htextarea]; rfl)
    exact ⟨_, false, true, hm, fun _ => Or.inr hline, (bind_eq rfl).trans ((bind_eq rfl).trans
      (bind_eq (insertTextual_eq ha (isHtml_of_textModeOf? hm (by decide)) _)))⟩
  rw [if_neg htextarea]
  have hraw : ∀ n ∈ bodyTextNames, n = "textarea" ∨ verbatimNames.contains n = true := by decide
  have hm : textModeOf? tag.element = some (.raw tag.name) :=
    textModeOf?_raw ((hraw _ (List.contains_iff_mem.1 hn)).resolve_left htextarea)
  have ht : tag.element.isHtml ["template"] = false := isHtml_of_textModeOf? hm (by decide)
  by_cases hiframe : tag.name = "iframe"
  · rw [if_pos hiframe]
    exact ⟨_, false, b.skipLine, hm, Or.inl,
      (bind_eq rfl).trans (bind_eq (insertTextual_eq ha ht _))⟩
  rw [if_neg hiframe, if_pos (by simpa [bodyTextNames, htextarea, hiframe] using hn)]
  exact ⟨_, b.framesetAllowed, b.skipLine, hm, Or.inl, bind_eq (insertTextual_eq h ht _)⟩

theorem bodyStart_textual (h : b.PutsInside) {tag : Tag}
    (hm : textModeOf? tag.element = some mode) :
    ∃ allowed skip, (skip = true → b.skipLine = true ∨ tag.element.isHtml ["textarea"] = true) ∧
      bodyStart tag b = (.done, { b.enters tag.element mode with
        framesetAllowed := allowed, skipLine := skip }) := by
  have hname : tag.name ∈ headTextNames ++ bodyTextNames := (mem_of_textModeOf? hm).2
  have hnames : ∀ n ∈ headTextNames ++ bodyTextNames,
    (["html", "body", "frameset"] ++ strayNames).contains n = false := by decide
  have hnot := hnames _ hname
  have hstray : strayNames.contains tag.name = false := contains_eq_false_of_subset hnot (by decide)
  unfold bodyStart
  dsimp only
  rw [if_neg (ne_of_contains hnot (by decide))]
  rcases List.mem_append.1 hname with hhead | hbody
  · have hsub : ∀ n ∈ headTextNames, headNames.contains n = true ∧
      ("noscript" :: headTextNames).contains n = true := by decide
    obtain ⟨m, hm', hb⟩ := inHead_textual h (hsub _ hhead).2
    obtain rfl := Option.some.inj (hm.symm.trans hm')
    rw [if_pos (hsub _ hhead).1]
    exact ⟨b.framesetAllowed, b.skipLine, Or.inl, hb⟩
  · have hsub : ∀ n ∈ bodyTextNames, headNames.contains n = false := by decide
    have hn := List.contains_iff_mem.2 hbody
    obtain ⟨m, allowed, skip, hm', hskip, hb⟩ := bodyInline_textual h hn
    obtain rfl := Option.some.inj (hm.symm.trans hm')
    rw [if_neg (Bool.eq_false_iff.1 (hsub _ hbody)), if_neg (ne_of_contains hnot (by decide)),
      if_neg (ne_of_contains hnot (by decide)), if_neg (Bool.eq_false_iff.1 hstray)]
    exact ⟨allowed, skip, hskip, (bind_eq (bodyBlock_textual hn)).trans
      ((bind_eq hb).trans rfl)⟩

variable {outer : List Element}

/-- The start tag of an element that holds only text, where everything but parts of tables is
    admitted. -/
theorem rules_start_textual (h : Stands outer b) (hp : partsOf? outer = none) {tag : Tag}
    (hm : textModeOf? tag.element = some mode) :
    ∃ allowed skip, (skip = true → b.skipLine = true ∨ tag.element.isHtml ["textarea"] = true) ∧
      rules (.startTag tag) b = (.done, { b.enters tag.element mode with
        framesetAllowed := allowed, skipLine := skip }) := by
  have hnames : ∀ n ∈ headTextNames ++ bodyTextNames,
    (partNames ++ ["td", "th", "tr"]).contains n = false := by decide
  rw [rules_start_body h hp (hnames _ (mem_of_textModeOf? hm).2)]
  exact bodyStart_textual h.puts hm

/-- What the innermost open element has received leaves the machine where it stands. -/
theorem Stands.receives (h : Stands outer b) {added : Forest}
    (hd : b.draft.Receives b.stack added d) {allowed skip : Bool} {m : Mode} :
    Gains added outer b { b with
      draft := d, returnMode := m, textMode := .markup, framesetAllowed := allowed,
      skipLine := skip } where
  stands := ⟨hd.grown, h.standing.mono hd.kind, h.form, h.mode, rfl, h.templates, h.fostering,
    h.pending⟩
  elements := hd.elements
  setting := rfl
  shows hs := hd.shows hs

end SchemaExtraction.Markup
