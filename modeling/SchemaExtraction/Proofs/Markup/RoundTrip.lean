import SchemaExtraction.Proofs.Markup.TextElements

/-!
# Regular content is read back

When regular content has been written and the machine reads it, inside of the same open elements,
it gets to the end of it and has added just the elements of the content. A run of the machine is
cut at the tags and comments; the text before one is read with it.

Results:
* `keptAll_runs`, `leads_text`: the text that is read up to a tag.
* `leads_comment`, `leads_start`, `leads_end`: the other pieces of what has been written.
* `leads_forest`: the whole content.
-/

namespace SchemaExtraction.Markup

open Build

variable {e : Element} {outer : List Element} {b b' b₁ b₀ : Builder} {token : Token}
  {cs rest rest' : List Char}

/-! ## Text -/

/-- A text without a line feed at its start. -/
def afterLine : List Char → List Char
  | '\n' :: cs => cs
  | cs => cs

/-- The text that is read where one has been written: null characters are dropped, and so is a line
    feed at the start if the machine is to `skip` it. -/
def readText (skip : Bool) (cs : List Char) : List Char :=
  (if skip then afterLine cs else cs).filter (· ≠ '\x00')

theorem readText_append (skip : Bool) {cs : List Char} (hne : cs ≠ []) (ds : List Char) :
    readText skip (cs ++ ds) = readText skip cs ++ readText false ds := by
  obtain ⟨c, cs, rfl⟩ := List.exists_cons_of_ne_nil hne
  have hline : afterLine (c :: cs ++ ds) = afterLine (c :: cs) ++ ds := by
    by_cases hc : c = '\n' <;> simp [afterLine, hc]
  cases skip with
  | false => exact List.filter_append _ _
  | true =>
    rw [readText, if_pos rfl, hline]
    exact List.filter_append _ _

theorem runsFrom_cons (fuel : Nat) {c : Char} (hc : c ≠ '\x00') (cs : List Char) :
    ∃ run rest token, (token = Token.space (c :: run) ∨ token = Token.word (c :: run)) ∧
      Token.runsFrom (fuel + 1) (c :: cs) = token :: Token.runsFrom fuel rest ∧
      cs = run ++ rest ∧ '\x00' ∉ run := by
  let goesOn (d : Char) : Bool := isSpace d = isSpace c && d ≠ '\x00'
  have hhead : goesOn c = true := by simp [goesOn, hc]
  refine ⟨cs.takeWhile goesOn, cs.dropWhile goesOn,
    if isSpace c then .space (c :: cs.takeWhile goesOn) else .word (c :: cs.takeWhile goesOn),
    ?_, ?_, List.takeWhile_append_dropWhile.symm, fun hm => ?_⟩
  · split
    · exact Or.inl rfl
    · exact Or.inr rfl
  · rw [Token.runsFrom, if_neg hc, List.span_eq_takeWhile_dropWhile]
    dsimp only
    rw [List.takeWhile_cons_of_pos hhead, List.dropWhile_cons_of_pos hhead]
  · have := List.all_eq_true.1 List.all_takeWhile _ hm
    simp [goesOn] at this

theorem filter_null {cs : List Char} (h : '\x00' ∉ cs) : cs.filter (· ≠ '\x00') = cs :=
  List.filter_eq_self.2 fun _ hc => decide_eq_true fun hn => h (hn ▸ hc)

theorem null_not_mem_afterLine {cs : List Char} (h : '\x00' ∉ cs) : '\x00' ∉ afterLine cs := by
  unfold afterLine
  split
  · exact fun hm => h (List.mem_cons_of_mem _ hm)
  · exact h

theorem characters_runsFrom {fuel : Nat} {cs : List Char} (hf : cs.length ≤ fuel) :
    (Token.runsFrom fuel cs).flatMap characters = cs.filter (· ≠ '\x00') := by
  induction fuel generalizing cs with
  | zero =>
    obtain rfl := List.length_eq_zero_iff.1 (Nat.le_zero.1 hf)
    rfl
  | succ fuel ih =>
    cases cs with
    | nil => rfl
    | cons c cs =>
      have hcs : cs.length ≤ fuel := Nat.le_of_succ_le_succ hf
      by_cases hc : c = '\x00'
      · rw [Token.runsFrom, if_pos hc, List.flatMap_cons, ih hcs]
        simp [characters, hc]
      · obtain ⟨run, rest, token, ht, hruns, rfl, hn⟩ := runsFrom_cons fuel hc cs
        have hchars : characters token = c :: run := by rcases ht with rfl | rfl <;> rfl
        have hrest : rest.length ≤ fuel := by simp at hcs; omega
        have hnull : '\x00' ∉ c :: run := by simp [hn, Ne.symm hc]
        rw [hruns, List.flatMap_cons, hchars, ih hrest, ← List.cons_append, List.filter_append,
          filter_null hnull]

/-- The characters of some tokens of text. -/
def keptAll (skip : Bool) : List Token → List Char
  | [] => []
  | token :: tokens => kept skip token ++ tokens.flatMap characters

theorem runs_ne_nil {cs : List Char} (h : cs ≠ []) : Token.runs cs ≠ [] := by
  obtain ⟨c, cs, rfl⟩ := List.exists_cons_of_ne_nil h
  by_cases hc : c = '\x00'
  · rw [Token.runs, List.length_cons, Token.runsFrom, if_pos hc]
    exact List.cons_ne_nil _ _
  · obtain ⟨_, _, _, -, hruns, -⟩ := runsFrom_cons cs.length hc cs
    rw [Token.runs, List.length_cons, hruns]
    exact List.cons_ne_nil _ _

theorem keptAll_false (tokens : List Token) : keptAll false tokens = tokens.flatMap characters := by
  cases tokens <;> rfl

theorem keptAll_runs (skip : Bool) (cs : List Char) :
    keptAll skip (Token.runs cs) = readText skip cs := by
  cases skip with
  | false => exact (keptAll_false _).trans (characters_runsFrom (Nat.le_refl _))
  | true =>
    cases cs with
    | nil => rfl
    | cons c cs =>
      by_cases hc : c = '\x00'
      · rw [Token.runs, List.length_cons, Token.runsFrom, if_pos hc, keptAll,
          characters_runsFrom (Nat.le_refl _)]
        simp [readText, afterLine, kept, dropLine, characters, hc]
      · obtain ⟨run, rest, token, ht, hruns, rfl, hn⟩ := runsFrom_cons cs.length hc cs
        have hkept : kept true token = afterLine (c :: run) := by
          by_cases hl : c = '\n' <;>
            rcases ht with rfl | rfl <;> simp [kept, dropLine, characters, afterLine, hl]
        have hnull : '\x00' ∉ afterLine (c :: run) :=
          null_not_mem_afterLine (by simp [hn, Ne.symm hc])
        have hrest : rest.length ≤ (run ++ rest).length := by simp
        rw [Token.runs, List.length_cons, hruns, keptAll, hkept, characters_runsFrom hrest,
          ← List.cons_append, readText_append true (by simp), readText, if_pos rfl,
          filter_null hnull]
        rfl

theorem feedAll_text (hp : partsOf? outer = none) {tokens : List Token}
    (ht : ∀ token ∈ tokens, token.isText = true) (h : Stands outer b) :
    ∃ b', feedAll tokens b = ((), b') ∧ Gains (.ofText (keptAll b.skipLine tokens)) outer b b' ∧
      b'.skipLine = (b.skipLine && tokens.isEmpty) := by
  induction tokens generalizing b with
  | nil => exact ⟨b, rfl, (Adds.refl h).toGains, (Bool.and_true _).symm⟩
  | cons token tokens ih =>
    obtain ⟨b₁, hb, hg, hk⟩ := feed_text h hp (ht token (by simp))
    obtain ⟨b', hb', hg', hk'⟩ := ih (fun t hm => ht t (by simp [hm])) hg.stands
    rw [hk, keptAll_false] at hg'
    refine ⟨b', (bind_eq hb).trans hb', (hg.trans hg').alike ?_, ?_⟩
    · exact (Forest.ofText_append _ _).symm
    · rw [hk', hk, List.isEmpty_cons, Bool.and_false, Bool.false_and]

theorem leads_words (hp : partsOf? outer = none) (cs rest : List Char) (h : Stands outer b) :
    ∃ b', Leads (escape false cs ++ '<' :: rest) b ('<' :: rest) b' ∧
      Gains (.ofText (readText b.skipLine cs)) outer b b' := by
  induction hlen : cs.length using Nat.strong_induction_on generalizing cs b with
  | _ n ih =>
    by_cases hne : cs = []
    · subst hne
      exact ⟨b, .refl _ _, by cases b.skipLine <;> exact (Adds.refl h).toGains⟩
    -- the pieces have any length, so the induction is on the length of what is left
    obtain ⟨piece, cs', hpiece, rfl, hs⟩ := Token.scanMarkup_escape hne false rest
    have htext : ∀ token ∈ Token.runs piece, token.isText = true := fun _ => Token.isText_runsFrom
    obtain ⟨b₁, hb₁, hg₁, hk₁⟩ := feedAll_text hp htext h
    have hlength : 0 < piece.length := List.length_pos_iff.2 hpiece
    have hescape := length_le_length_escape false piece
    obtain ⟨b', hb', hg'⟩ := ih cs'.length (by rw [← hlen, List.length_append]; omega) cs'
      hg₁.stands rfl
    obtain ⟨htext', hforeign, hmode⟩ := Follows.reads (Or.inl rfl) h
    have hfinish : Token.finish ∉ Token.runs piece := fun hm => by cases htext _ hm
    have hshorter : (escape false cs' ++ '<' :: rest).length <
        (escape false (piece ++ cs') ++ '<' :: rest).length := by
      simp only [escape_append, List.length_append]
      omega
    refine ⟨b', (Leads.of_scanMarkup htext' hforeign hmode hs hshorter hfinish hb₁).trans hb', ?_⟩
    rw [keptAll_runs] at hg₁
    rw [hk₁, List.isEmpty_eq_false_iff.2 (runs_ne_nil hpiece), Bool.and_false] at hg'
    rw [readText_append _ hpiece]
    exact (hg₁.trans hg').alike (Forest.ofText_append _ _).symm

theorem kept_space (skip : Bool) {cs : List Char} (hs : ∀ c ∈ cs, isSpace c = true) :
    kept skip (.space cs) = readText skip cs := by
  have hnull : '\x00' ∉ cs := fun hm => absurd (hs _ hm) (by decide)
  cases skip with
  | false => exact (filter_null hnull).symm
  | true =>
    have hkept : kept true (.space cs) = afterLine cs := by
      cases cs with
      | nil => rfl
      | cons c cs => by_cases hl : c = '\n' <;> simp [kept, dropLine, characters, afterLine, hl]
    rw [hkept, readText, if_pos rfl, filter_null (null_not_mem_afterLine hnull)]

theorem leads_space {names : List String} (hp : partsOf? outer = some names)
    (hs : ∀ c ∈ cs, isSpace c = true) (rest : List Char) (h : Stands outer b) :
    ∃ b₁ b₀, Leads (escape false cs ++ '<' :: rest) b ('<' :: rest) b₁ ∧ Follows b₁ b₀ ∧
      Gains (.ofText (readText b.skipLine cs)) outer b b₀ := by
  rw [escape_space hs]
  by_cases hne : cs = []
  · subst hne
    exact ⟨b, b, .refl _ _, Or.inl rfl, by cases b.skipLine <;> exact (Adds.refl h).toGains⟩
  obtain ⟨b₁, b₀, hb, hf, hg⟩ := feed_space h hp cs
  obtain ⟨htext, hforeign, hmode⟩ := Follows.reads (Or.inl rfl) h
  have hlength : ('<' :: rest).length < (cs ++ '<' :: rest).length := by
    have := List.length_pos_iff.2 hne
    simp only [List.length_append]
    omega
  rw [kept_space _ hs] at hg
  exact ⟨b₁, b₀, .of_scanMarkup htext hforeign hmode
    (Token.scanMarkup_space hne hs false rest) hlength
    (by simp) ((bind_eq hb).trans rfl), hf, hg⟩

/-- Text that may stand right inside of some open elements. -/
def fits (outer : List Element) (cs : List Char) : Prop :=
  partsOf? outer ≠ none → ∀ c ∈ cs, isSpace c = true

/-- Text is read up to a tag. -/
theorem leads_text (hc : fits outer cs) (rest : List Char) (h : Stands outer b) :
    ∃ b₁ b₀, Leads (escape false cs ++ '<' :: rest) b ('<' :: rest) b₁ ∧ Follows b₁ b₀ ∧
      Gains (.ofText (readText b.skipLine cs)) outer b b₀ := by
  cases hp : partsOf? outer with
  | none =>
    obtain ⟨b', hb, hg⟩ := leads_words hp cs rest h
    exact ⟨b', b', hb, Or.inl rfl, hg⟩
  | some names => exact leads_space hp (hc (by simp [hp])) rest h

/-! ## Forests -/

/-- Whether a forest is read inside of some open elements as it is written, in a legacy page or in
    another one. -/
def Forest.isLegible (legacy : Bool) (outer : List Element) : Forest → Bool
  | nil => true
  | leaf l next => l.isRegular outer && next.isLegible legacy outer
  | element e content next =>
    e.isWritable &&
      (match textModeOf? e with
        | some mode =>
          (partsOf? outer).isNone && e.keeps mode content &&
            (next.write false).head? ≠ some '\uFEFF'
        | none =>
          admits outer e.name && sparesParagraph legacy outer e.name &&
            if e.isHtml voidNames then content = .nil
            else content.isLegible legacy (e :: outer)) &&
      next.isLegible legacy outer
  | fragment _ _ => false

theorem textModeOf?_of_admits {outer : List Element} (ha : admits outer e.name = true) :
    textModeOf? e = none := by
  have hn : (headTextNames ++ bodyTextNames).contains e.name = false :=
    contains_eq_false_of_admits ha (by decide) (by decide)
  refine Option.eq_none_iff_forall_ne_some.2 fun mode hm => ?_
  rw [Bool.eq_false_iff, ne_eq, List.contains_iff_mem] at hn
  exact hn (mem_of_textModeOf? hm).2

/-- Regular forests are legible in legacy pages. -/
theorem Forest.isLegible_of_isRegular {f : Forest} {outer : List Element}
    (h : f.isRegular outer = true) : f.isLegible true outer = true := by
  induction f generalizing outer with
  | nil => rfl
  | leaf l next ih =>
    rw [isRegular, Bool.and_eq_true] at h
    rw [isLegible, Bool.and_eq_true]
    exact ⟨h.1, ih h.2⟩
  | element e content next ihc ih =>
    simp only [isRegular, Bool.and_eq_true] at h
    obtain ⟨⟨⟨he, ha⟩, hcontent⟩, hnext⟩ := h
    simp only [isLegible, textModeOf?_of_admits ha, Bool.and_eq_true, he, ha,
      sparesParagraph_legacy, ih hnext, true_and, and_true]
    split_ifs at hcontent ⊢
    · exact hcontent
    · exact ihc hcontent
  | fragment content next => cases h

/-- The forest that is read where one has been written after some text: texts and comments have no
    null characters any more, and texts have lost the line feed that was to be skipped. -/
def Forest.reread (skip : Bool) (cs : List Char) : Forest → Forest
  | nil => ofText (readText skip cs)
  | leaf (.text s) next => next.reread skip (cs ++ s.toList)
  | leaf (.comment s) next =>
    ofText (readText skip cs) ++
      leaf (.comment (String.ofList (Token.replaceNull s.toList))) (next.reread false [])
  | leaf (.doctype name) next =>
    ofText (readText skip cs) ++ leaf (.doctype name) (next.reread false [])
  | element e content next =>
    ofText (readText skip cs) ++
      element e (content.reread (e.isHtml lineNames) []) (next.reread false [])
  | fragment content next =>
    ofText (readText skip cs) ++ fragment (content.reread false []) (next.reread false [])

/-- Reading changes no elements. -/
theorem Forest.elements_reread (f : Forest) (skip : Bool) (cs : List Char) :
    (f.reread skip cs).elements = f.elements := by
  induction f generalizing skip cs with
  | nil => exact elements_ofText _
  | leaf l next ih =>
    cases l with
    | text s => exact ih _ _
    | comment s => rw [reread, elements_append, elements_ofText, elements, ih]; rfl
    | doctype name => rw [reread, elements_append, elements_ofText, elements, ih]; rfl
  | element e content next ihc ih =>
    rw [reread, elements_append, elements_ofText, elements, ihc, ih]
    rfl
  | fragment content next ihc ih =>
    rw [reread, elements_append, elements_ofText, elements, ihc, ih]
    rfl

theorem vocabulary_of_isWritable (he : e.isWritable = true) : e.vocabulary = .html := by
  simp only [Element.isWritable, Bool.and_eq_true, decide_eq_true_eq] at he
  exact he.1.1.1.1

/-- The start tag of an element that can be written starts that element. -/
theorem element_of_isWritable (he : e.isWritable = true) :
    Tag.element ⟨e.name, e.attributes, false⟩ = e := by
  rw [Tag.element, ← vocabulary_of_isWritable he]

theorem fits_nil : fits outer [] := fun _ => by simp

theorem fits_text {s : String} (hs : (Leaf.text s).isRegular outer = true) (hc : fits outer cs) :
    fits outer (cs ++ s.toList) := fun hp =>
  List.forall_mem_append.2 ⟨hc hp, fun c hm => by
    have hr := List.all_eq_true.1 hs c hm
    simpa [hp] using (Bool.and_eq_true_iff.1 hr).2⟩

theorem Forest.write_element (e : Element) (content next : Forest) :
    (element e content next).write false = e.writeStart ++
      (if e.isHtml voidNames then [] else content.write (e.isHtml rawNames) ++ e.writeEnd) ++
      next.write false := rfl

/-- A comment is read after some text. -/
theorem leads_comment {s : String} (hs : Token.isWritableComment s.toList = true)
    (hc : fits outer cs) (rest : List Char) (h : Stands outer b) :
    ∃ b', Leads (escape false cs ++ ((Leaf.comment s).write false ++ rest)) b rest b' ∧
      Gains (.ofText (readText b.skipLine cs) ++
        .leaf (.comment (String.ofList (Token.replaceNull s.toList))) .nil) outer b b' ∧
      b'.skipLine = false := by
  have hscan := Token.scanMarkup_comment hs false rest
  have hlength := length_lt_write_comment s rest
  rw [Leaf.write_comment_append] at hscan hlength ⊢
  obtain ⟨b₁, b₀, hl, hf, hg⟩ := leads_text hc _ h
  have ha : Stands outer { b₀ with skipLine := false } := hg.stands.aside
  have hcomment : Gains (.leaf (.comment (String.ofList (Token.replaceNull s.toList))) .nil) outer
      b₀ (Builder.holds (.leaf (.comment (String.ofList (Token.replaceNull s.toList))))
        { b₀ with skipLine := false }) :=
    ⟨ha.holds _, Draft.elements_grow, rfl, fun hs => hs.holds hg.stands.grown (by simp)⟩
  exact ⟨_, hl.trans (leads_token hf hg.stands rfl hscan hlength (rules_comment ha _)),
    hg.trans hcomment, rfl⟩

/-- A start tag is read after some text, and handled by the rules. -/
theorem leads_tag (he : e.isWritable = true) (hc : fits outer cs) (rest : List Char)
    (h : Stands outer b) :
    ∃ b₀, Gains (.ofText (readText b.skipLine cs)) outer b b₀ ∧ b₀.skipLine = false ∧
      ∀ b', rules (.startTag ⟨e.name, e.attributes, false⟩) b₀ = (.done, b') →
        Leads (escape false cs ++ (e.writeStart ++ rest)) b rest b' := by
  have hscan := Token.scanMarkup_start he false rest
  obtain ⟨ds, hds⟩ : ∃ ds, e.writeStart ++ rest = '<' :: ds := ⟨_, rfl⟩
  have hlength := length_lt_writeStart e rest
  rw [hds] at hscan hlength ⊢
  obtain ⟨b₁, b₀, hl, hf, hg⟩ := leads_text hc ds h
  exact ⟨{ b₀ with skipLine := false }, ⟨hg.stands.aside, hg.elements, hg.setting, hg.shows⟩, rfl,
    fun b' hr => hl.trans (leads_token hf hg.stands rfl hscan hlength hr)⟩

/-- The start tag of an admitted element is read after some text. -/
theorem leads_start (he : e.isWritable = true) (ha : admits outer e.name = true)
    (hspare : sparesParagraph b.legacy outer e.name = true)
    (hc : fits outer cs) (rest : List Char) (h : Stands outer b) :
    ∃ b₀ b', Leads (escape false cs ++ (e.writeStart ++ rest)) b rest b' ∧
      Gains (.ofText (readText b.skipLine cs)) outer b b₀ ∧ b₀.skipLine = false ∧
      Starts outer e b₀ b' := by
  obtain ⟨b₀, hg, hk, hl⟩ := leads_tag he hc rest h
  obtain ⟨b', hr, hs⟩ :=
    rules_start ⟨e.name, e.attributes, false⟩ hg.stands ha (hg.legacy ▸ hspare)
  rw [element_of_isWritable he] at hs
  exact ⟨b₀, b', hl b' hr, hg, hk, hs⟩

theorem Forest.reread_onlyText {content : Forest} {text : List Char}
    (ht : content.onlyText? = some text) (hn : '\x00' ∉ text) :
    content.reread false [] = ofText text := by
  unfold onlyText? at ht
  split at ht
  next =>
    rw [← Option.some.inj ht]
    rfl
  next s =>
    rw [← Option.some.inj ht] at hn ⊢
    exact congrArg ofText (filter_null hn)
  next => cases ht

theorem dropOrderMark_append {cs : List Char} (h : cs.head? ≠ some '\uFEFF') (rest : List Char) :
    dropOrderMark (cs ++ '<' :: rest) = cs ++ '<' :: rest := by
  cases cs with
  | nil => rfl
  | cons c cs =>
    rw [List.cons_append, dropOrderMark]
    rintro _ ⟨⟩
    exact h rfl

/-- An element that holds only text is read, after some text. -/
theorem leads_text_element {mode : TextMode} {content : Forest} (he : e.isWritable = true)
    (hm : textModeOf? e = some mode) (hk : e.keeps mode content = true)
    (hp : partsOf? outer = none) (hc : fits outer cs) (hrest : dropOrderMark rest = rest)
    (h : Stands outer b) :
    ∃ b', Leads (escape false cs ++ (e.writeStart ++
        ((if e.isHtml voidNames then [] else content.write (e.isHtml rawNames) ++ e.writeEnd) ++
          rest))) b rest b' ∧
      Gains (.ofText (readText b.skipLine cs) ++
        .element e (content.reread (e.isHtml lineNames) []) .nil) outer b b' ∧
      b'.skipLine = false := by
  have hv : e.isHtml voidNames = false := isHtml_of_textModeOf? hm (by decide)
  have hline : e.isHtml lineNames = false := isHtml_of_textModeOf? hm (by decide)
  have htag := element_of_isWritable he
  have hm' : textModeOf? (Tag.element ⟨e.name, e.attributes, false⟩) = some mode := by
    rw [htag]
    exact hm
  obtain ⟨b₀, hg, hk₀, hl⟩ := leads_tag he hc (content.write (e.isHtml rawNames) ++
    (e.writeEnd ++ rest)) h
  obtain ⟨allowed, skip, hskip, hr⟩ := rules_start_textual hg.stands hp hm'
  rw [htag] at hskip hr
  have hskip' : skip = true → e.isHtml ["textarea"] = true := fun hs =>
    (hskip hs).resolve_left (by rw [hk₀]; exact Bool.false_ne_true)
  obtain ⟨text, d, htext, hd, hl'⟩ :=
    leads_entered he hm hk hg.stands.puts hg.stands.grown allowed hskip' hrest
  rw [hv, if_neg Bool.false_ne_true, hline, List.append_assoc,
    Forest.reread_onlyText htext (Element.keeps_text hk htext).2]
  exact ⟨_, (hl _ hr).trans hl', hg.trans (hg.stands.receives hd), rfl⟩

/-- The end tag of the innermost element is read. -/
theorem leads_end (he : e.isWritable = true) (hn : pageNames.contains e.name = false)
    (rest : List Char) (hf : Follows b b₀) (h : Stands (e :: outer) b₀) :
    ∃ b', Leads (e.writeEnd ++ rest) b rest b' ∧ Ends outer { b₀ with skipLine := false } b' := by
  have haside : Stands (e :: outer) { b₀ with skipLine := false } := h.aside
  obtain ⟨b', hr, hk⟩ := rules_end haside hn
  exact ⟨b', leads_token hf h rfl (Token.scanMarkup_end he false rest)
    (length_lt_writeEnd e rest) hr, hk⟩

/-- An element that cannot hold anything has been read. -/
theorem Starts.gains_void (hs : Starts outer e b b') (hv : e.isHtml voidNames = true) :
    Gains (.element e .nil .nil) outer b b' := by
  have hstands := hs.stands
  rw [inside, if_pos hv] at hstands
  refine ⟨hstands, hs.elements, hs.setting, fun hshows => ?_⟩
  have hopen := hs.shows hshows
  rwa [if_pos hv] at hopen

/-- An element has been read, with what it holds. -/
theorem Starts.gains_element (hs : Starts outer e b b₁) (hv : e.isHtml voidNames = false)
    {content : Forest} {b₂ : Builder} (hg : Gains content (e :: outer) b₁ b₂)
    (he : Ends outer { b₂ with skipLine := false } b') :
    Gains (.element e content .nil) outer b b' where
  stands := he.stands
  elements := by
    rw [he.elements, hg.elements, hs.elements, List.append_assoc, Forest.elements,
      Forest.elements, List.append_nil]
    rfl
  setting := he.setting.trans (hg.setting.trans hs.setting)
  shows hshows := by
    have hopen := hs.shows hshows
    rw [hv, if_neg Bool.false_ne_true] at hopen
    exact he.shows (hg.shows hopen)

theorem not_line_of_void (hv : e.isHtml voidNames = true) : e.isHtml lineNames = false := by
  have hn : ∀ n ∈ voidNames, lineNames.contains n = false := by decide
  rw [Element.isHtml, Bool.and_eq_true, List.contains_iff_mem] at hv
  rw [Element.isHtml, hn _ hv.2, Bool.and_false]

/-- What has been written of an element after its start tag is read, if its content is. -/
theorem Starts.leads_rest (hs : Starts outer e b₀ b) (hk : b₀.skipLine = false)
    (he : e.isWritable = true) (ha : admits outer e.name = true) {content : Forest}
    (hvoid : e.isHtml voidNames = true → content = .nil)
    (hcontent : e.isHtml voidNames = false → Stands (e :: outer) b → ∀ rest, ∃ b₁ b₂,
      Leads (content.write false ++ '<' :: rest) b ('<' :: rest) b₁ ∧ Follows b₁ b₂ ∧
        Gains (content.reread b.skipLine []) (e :: outer) b b₂) (rest : List Char) :
    ∃ b', Leads ((if e.isHtml voidNames then []
        else content.write (e.isHtml rawNames) ++ e.writeEnd) ++ rest) b rest b' ∧
      Gains (.element e (content.reread (e.isHtml lineNames) []) .nil) outer b₀ b' ∧
      b'.skipLine = false := by
  have hskip : b.skipLine = e.isHtml lineNames := by rw [hs.skipLine, hk, Bool.false_or]
  -- a void element is closed already, any other one by its end tag
  cases hv : e.isHtml voidNames with
  | true =>
    obtain rfl := hvoid hv
    have hline := not_line_of_void hv
    rw [hline]
    exact ⟨b, .refl _ _, hs.gains_void hv, hskip.trans hline⟩
  | false =>
    have hstands := hs.stands
    rw [inside, hv, if_neg Bool.false_ne_true] at hstands
    obtain ⟨b₁, b₂, hl, hf, hg⟩ := hcontent hv hstands ('/' :: e.name.toList ++ '>' :: rest)
    obtain ⟨b', hl', he'⟩ := leads_end he (pageNames_of_admits ha) rest hf hg.stands
    rw [hskip] at hg
    refine ⟨b', ?_, hs.gains_element hv hg he', he'.skipLine⟩
    rw [if_neg Bool.false_ne_true, not_raw_of_admits ha, List.append_assoc]
    refine Leads.trans ?_ hl'
    simpa [Element.writeEnd] using hl

/-- The machine reads a forest that has been written, after some text and before a tag. The
    induction is on the forest, whose text is put off until the next tag. -/
theorem leads_forest {f : Forest} (hf : f.isLegible b.legacy outer = true) (hc : fits outer cs)
    (rest : List Char) (h : Stands outer b) :
    ∃ b₁ b₀, Leads (escape false cs ++ (f.write false ++ '<' :: rest)) b ('<' :: rest) b₁ ∧
      Follows b₁ b₀ ∧ Gains (f.reread b.skipLine cs) outer b b₀ := by
  induction f generalizing outer cs rest b with
  | nil => exact leads_text hc rest h
  | fragment content next => cases hf
  | leaf l next ih =>
    rw [Forest.isLegible, Bool.and_eq_true] at hf
    cases l with
    | doctype name => cases hf.1
    | text s =>
      obtain ⟨b₁, b₀, hl, hfollows, hg⟩ := ih hf.2 (fits_text hf.1 hc) rest h
      refine ⟨b₁, b₀, ?_, hfollows, hg⟩
      rw [escape_append, List.append_assoc] at hl
      rw [Forest.write, List.append_assoc]
      exact hl
    | comment s =>
      obtain ⟨b', hl, hg, hk⟩ := leads_comment hf.1 hc (next.write false ++ '<' :: rest) h
      rw [← hg.legacy] at hf
      obtain ⟨b₁, b₀, hl', hfollows, hg'⟩ := ih hf.2 fits_nil rest hg.stands
      rw [hk] at hg'
      refine ⟨b₁, b₀, ?_, hfollows, ?_⟩
      · rw [Forest.write, List.append_assoc]
        exact hl.trans hl'
      · have hboth := hg.trans hg'
        rwa [Forest.append_assoc] at hboth
  | element e content next ihc ih =>
    rw [Forest.isLegible, Bool.and_eq_true, Bool.and_eq_true] at hf
    obtain ⟨⟨he, hkind⟩, hnext⟩ := hf
    rw [Forest.write_element, List.append_assoc, List.append_assoc]
    -- the element, with the text before it
    obtain ⟨b', hl, hg, hk⟩ : ∃ b', Leads (escape false cs ++ (e.writeStart ++
        ((if e.isHtml voidNames then [] else content.write (e.isHtml rawNames) ++ e.writeEnd) ++
          (next.write false ++ '<' :: rest)))) b (next.write false ++ '<' :: rest) b' ∧
        Gains (.ofText (readText b.skipLine cs) ++
          .element e (content.reread (e.isHtml lineNames) []) .nil) outer b b' ∧
        b'.skipLine = false := by
      cases hm : textModeOf? e with
      | some mode =>
        rw [hm] at hkind
        simp only [Bool.and_eq_true, Option.isNone_iff_eq_none, decide_eq_true_eq] at hkind
        exact leads_text_element he hm hkind.1.2 hkind.1.1 hc (dropOrderMark_append hkind.2 rest) h
      | none =>
        rw [hm] at hkind
        simp only [Bool.and_eq_true] at hkind
        obtain ⟨⟨ha, hspare⟩, hcontent⟩ := hkind
        obtain ⟨b₀, b₁, hl, hg, hk, hs⟩ := leads_start he ha hspare hc _ h
        obtain ⟨b', hl', hg', hk'⟩ := hs.leads_rest hk he ha
          (fun hv => of_decide_eq_true (by rwa [hv, if_pos rfl] at hcontent))
          (fun hv hstands rest => by
            rw [hv, if_neg Bool.false_ne_true, ← hg.legacy, ← hs.legacy] at hcontent
            exact ihc hcontent fits_nil rest hstands) (next.write false ++ '<' :: rest)
        exact ⟨b', hl.trans hl', hg.trans hg', hk'⟩
    -- what is beside it
    rw [← hg.legacy] at hnext
    obtain ⟨b₂, b₃, hl₂, hf₂, hg₂⟩ := ih hnext fits_nil rest hg.stands
    rw [hk] at hg₂
    refine ⟨b₂, b₃, hl.trans hl₂, hf₂, ?_⟩
    have hall := hg.trans hg₂
    rwa [Forest.append_assoc] at hall

end SchemaExtraction.Markup
