import SchemaExtraction.Markup.Builder.Parse
import SchemaExtraction.Proofs.Markup.Tables

/-!
# One token in regular content

Whatever the mode, the start tag of an admitted element opens it, the end tag of the innermost
element closes it, and comments and text add no elements. White space between the parts of a table
waits for the next tag or comment, which is then handled as if the white space had stood there.

Results:
* `rules_start`, `rules_end`, `rules_comment`: tags and comments in all modes of regular content.
* `feed_text`, `feed_space`: text, and white space between the parts of a table.
* `feed_of_rules`: a tag or comment after white space that has waited.
-/

namespace SchemaExtraction.Markup

open Build

variable {e : Element} {outer : List Element} {b b' b₀ : Builder} {tag : Tag} {token : Token}

/-! ## Handling -/

theorem Standing.html {d : Draft} {ids : List NodeId} {fs : List Formatting}
    (h : Standing d ids outer fs) (he : e ∈ outer) : e.vocabulary = .html := by
  induction h with
  | body _ _ _ hb _ hr =>
    rcases List.mem_cons.1 he with rfl | he
    · exact hb
    · rwa [List.mem_singleton.1 he]
  | inside _ _ _ hv _ _ _ ih =>
    rcases List.mem_cons.1 he with rfl | he
    · exact hv
    · exact ih he

/-- The innermost open element is one of HTML. -/
theorem Stands.exists_html (h : Stands outer b) :
    ∃ id ids, b.stack = id :: ids ∧ (b.draft.element id).vocabulary = .html := by
  obtain ⟨id, ids, hs⟩ := List.exists_cons_of_ne_nil h.standing.ne_nil.1
  have hid : id ∈ b.stack := by rw [hs]; exact List.mem_cons_self
  obtain ⟨e, he, hk⟩ := h.standing.exists_kind hid
  exact ⟨id, ids, hs, by rw [Draft.element_of_kind? hk]; exact h.standing.html he⟩

theorem Stands.readsForeign_eq_false (h : Stands outer b) : readsForeign b = false := by
  obtain ⟨id, ids, hs, hv⟩ := h.exists_html
  rw [readsForeign, hs]
  simp [hv]

/-- Where the next token is not read inside an element of another vocabulary, it is not handled by
    the rules of one. -/
theorem isForeign_eq_false (h : readsForeign b = false) (token : Token) :
    isForeign token b = false := by
  unfold readsForeign at h
  unfold isForeign
  cases hs : b.stack with
  | nil => rfl
  | cons id ids =>
    rw [hs] at h
    dsimp only at h ⊢
    rw [h, Bool.false_and]

theorem Stands.isForeign_eq_false (h : Stands outer b) (token : Token) :
    isForeign token b = false :=
  Markup.isForeign_eq_false h.readsForeign_eq_false token

theorem handle_of_done (hf : isForeign token b = false) (fuel : Nat)
    (hr : rules token b = (.done, b')) : handle (fuel + 1) token b = ((), b') := by
  refine (bind_eq rfl).trans ?_
  rw [hf]
  exact bind_eq hr

theorem handle_of_again (hf : isForeign token b = false) (fuel : Nat)
    (hr : rules token b = (.again, b')) : handle (fuel + 1) token b = handle fuel token b' := by
  refine (bind_eq rfl).trans ?_
  rw [hf]
  exact bind_eq hr

theorem get_bind {α : Type} (f : Builder → Build α) (b : Builder) : (get >>= f) b = f b b := rfl

/-! ## Start tags -/

/-- Where everything but parts of tables is admitted, the start tag of what is no such part is
    handled by the rules of the body. -/
theorem rules_start_body (h : Stands outer b) (hp : partsOf? outer = none)
    (hn : (partNames ++ ["td", "th", "tr"]).contains tag.name = false) :
    rules (.startTag tag) b = bodyStart tag b := by
  have hparts : ¬ (partNames.contains tag.name || ["td", "th", "tr"].contains tag.name) = true := by
    rwa [← List.contains_append, Bool.not_eq_true]
  rcases h.standing.modeOf_eq hp with hm | hm | hm
  · rw [rules, get_bind, h.mode.trans hm]
    rfl
  · rw [rules, get_bind, h.mode.trans hm, inCell]
    exact congrFun (if_neg hparts) b
  · rw [rules, get_bind, h.mode.trans hm, inCaption]
    exact congrFun (if_neg hparts) b

/-- The start tag of an admitted element. -/
theorem rules_start (tag : Tag) (h : Stands outer b) (ha : admits outer tag.name = true)
    (hs : sparesParagraph b.legacy outer tag.name = true) :
    ∃ b', rules (.startTag tag) b = (.done, b') ∧ Starts outer tag.element b b' := by
  cases hp : partsOf? outer with
  | none =>
    rw [rules_start_body h hp
      (contains_eq_false_of_subset (not_mem_irregularNames hp ha) (by decide))]
    exact bodyStart_starts h hp ha hs
  | some names =>
    obtain ⟨t, inner, rfl, parts, hparts, ht, rfl⟩ := exists_part hp
    have hn := ha
    rw [admits, hp, List.contains_iff_mem] at hn
    simp only [tableParts, List.mem_cons, List.not_mem_nil, or_false] at hparts
    rcases hparts with rfl | rfl | rfl | rfl
    · rw [rules, get_bind, h.mode.trans (modeOf_table ht)]
      exact tableStart_starts h ht ha hn
    · rw [rules, get_bind, h.mode.trans (modeOf_group ht)]
      exact rowStart_starts h ht ha (List.mem_singleton.1 hn)
    · rw [rules, get_bind, h.mode.trans (modeOf_row ht)]
      exact cellStart_starts h ht ha hn
    · rw [rules, get_bind, h.mode.trans (modeOf_columns ht)]
      exact columnStart_starts h ha (List.mem_singleton.1 hn)

/-! ## End tags -/

/-- Where everything but parts of tables is admitted, the end tag of an element other than a table
    is handled by the rules of the body. -/
theorem rules_end_body (hm : b.mode = .inBody ∨ b.mode = .inCell ∨ b.mode = .inCaption)
    {name : String} (hi : irregularNames.contains name = false) (ht : name ≠ "table") :
    rules (.endTag name) b = bodyEnd name b := by
  have hn (names : List String) (hf : ∀ n ∈ names, n ∈ irregularNames) :
      ¬ names.contains name = true := Bool.eq_false_iff.1 (contains_eq_false_of_subset hi hf)
  have htd : name ≠ "td" := ne_of_contains hi (by decide)
  have hth : name ≠ "th" := ne_of_contains hi (by decide)
  have htr : name ≠ "tr" := ne_of_contains hi (by decide)
  rcases hm with hm | hm | hm
  · rw [rules, get_bind, hm]
    rfl
  · rw [rules, get_bind, hm, inCell]
    dsimp only
    rw [if_neg (by simp [htd, hth]), if_neg (hn _ (by decide)), if_neg]
    · rfl
    · have hgroup := hn groupNames (by decide)
      simpa [ht, htr] using hgroup
  · rw [rules, get_bind, hm, inCaption]
    dsimp only
    rw [if_neg (ne_of_contains hi (by decide)), if_neg ht, if_neg (hn _ (by decide))]
    rfl

/-- The end tag of the innermost element. -/
theorem rules_end (h : Stands (e :: outer) b) (hn : pageNames.contains e.name = false) :
    ∃ b', rules (.endTag e.name) b = (.done, b') ∧ Ends outer b b' := by
  obtain ⟨id, ids, added, fs, i⟩ := h.exists_innermost hn
  have top {names : List String} (hn : e.name ∈ names) : e.isHtml names = true := by
    rw [i.isHtml_eq, List.contains_iff_mem]
    exact hn
  cases hp : partsOf? outer with
  | none =>
    by_cases ht : e.name = "table"
    · rw [rules, get_bind, h.mode.trans (modeOf_table (top (by simp [ht])))]
      exact i.tableEnd_ends h ht
    · have hi := i.not_irregular hp
      have hmode : b.mode = modeOf outer :=
        h.mode.trans (Stands.modeOf_eq hi (by rw [i.isHtml_eq]; simpa using ht))
      rw [rules_end_body (hmode ▸ i.standing.modeOf_eq hp) hi ht]
      exact i.bodyEnd_ends hp h ht
  | some names =>
    obtain ⟨t, inner, rfl, parts, hparts, -, rfl⟩ := exists_part hp
    have ha := i.admitted
    rw [admits, hp, List.contains_iff_mem] at ha
    simp only [tableParts, List.mem_cons, List.not_mem_nil, or_false] at hparts
    -- the mode is that of the part of a table that is closed; a column is void and has no end tag
    rcases hparts with rfl | rfl | rfl | rfl
    · by_cases hcaption : e.name = "caption"
      · rw [rules, get_bind, h.mode.trans (modeOf_caption (top (by simp [hcaption])))]
        exact i.captionEnd_ends h hcaption
      by_cases hcolumns : e.name = "colgroup"
      · rw [rules, get_bind, h.mode.trans (modeOf_columns (top (by simp [hcolumns])))]
        exact i.columnsEnd_ends h hcolumns
      have hgroup : e.name ∈ groupNames := by simpa [hcaption, hcolumns] using ha
      rw [rules, get_bind, h.mode.trans (modeOf_group (top hgroup))]
      exact i.groupEnd_ends h hgroup
    · rw [rules, get_bind, h.mode.trans (modeOf_row (top ha))]
      exact i.rowEnd_ends h (List.mem_singleton.1 ha)
    · rw [rules, get_bind, h.mode.trans (modeOf_cell (top ha))]
      exact i.cellEnd_ends h ha
    · have hvoid := i.not_void
      rw [List.mem_singleton.1 ha] at hvoid
      cases hvoid

/-! ## Comments and text -/

/-- The modes of regular content. -/
theorem modeOf_mem (outer : List Element) : modeOf outer ∈ [Mode.inBody, .inCell, .inRow,
    .inTableBody, .inCaption, .inColumnGroup, .inTable] := by
  induction outer with
  | nil => decide
  | cons e outer ih =>
    rw [modeOf]
    split_ifs <;> first | decide | exact ih

theorem rules_comment (h : Stands outer b) (s : String) :
    rules (.comment s) b = (.done, b.holds (.leaf (.comment s))) := by
  have hins := h.puts.insertComment_eq s
  have hm := modeOf_mem outer
  simp only [List.mem_cons, List.not_mem_nil, or_false] at hm
  rcases hm with hm | hm | hm | hm | hm | hm | hm <;>
  · rw [rules, get_bind, h.mode.trans hm]
    exact bind_eq hins

/-! ## Text -/

/-- Text is added to the innermost open element. -/
theorem Stands.appendText (h : Stands outer b) (s : String) (mode : Mode) :
    Adds (.leaf (.text s) .nil) outer b { b with
      draft := b.draft.appendText (b.stack.headD root) s, returnMode := mode } := by
  obtain ⟨e, -, hk⟩ := h.exists_current
  obtain ⟨hg, hs⟩ := Draft.grown_appendText h.grown hk s
  refine ⟨⟨⟨hg, h.standing.mono hs.kind, h.form, h.mode, h.textMode, h.templates, h.fostering,
    h.pending⟩, hs.elements.trans (List.append_nil _).symm, rfl, fun hshows => ?_⟩, rfl⟩
  exact hshows.appendText h.grown s

theorem Stands.insertText_adds (h : Stands outer b) (cs : List Char) :
    ∃ b', insertText cs b = ((), b') ∧ Adds (.ofText cs) outer b b' := by
  cases cs with
  | nil => exact ⟨b, rfl, .refl h⟩
  | cons c cs => exact ⟨_, h.puts.insertText_eq (List.cons_ne_nil c cs), h.appendText _ _⟩

theorem inBody_text (h : Stands outer b) (ht : token.isText = true) :
    ∃ b', inBody token b = (.done, b') ∧ Adds (.ofText (characters token)) outer b b' := by
  cases token with
  | space cs =>
    obtain ⟨b', hb, hk⟩ := h.insertText_adds cs
    exact ⟨b', (bind_eq h.reopenFormatting_eq).trans (bind_eq hb), hk⟩
  | word cs =>
    have ha : Stands outer { b with framesetAllowed := false } := h.aside
    obtain ⟨b', hb, hk⟩ := ha.insertText_adds cs
    exact ⟨b', (bind_eq h.reopenFormatting_eq).trans ((bind_eq rfl).trans (bind_eq hb)),
      hk.toGains.of_same rfl rfl rfl, hk.skipLine⟩
  | null => exact ⟨b, rfl, .refl h⟩
  | fault => exact ⟨b, rfl, .refl h⟩
  | _ => cases ht

theorem rules_text (h : Stands outer b) (hp : partsOf? outer = none) (ht : token.isText = true) :
    rules token b = inBody token b := by
  rcases h.standing.modeOf_eq hp with hm | hm | hm
  · rw [rules, get_bind, h.mode.trans hm]
  · rw [rules, get_bind, h.mode.trans hm]
    cases token <;> first | rfl | cases ht
  · rw [rules, get_bind, h.mode.trans hm]
    cases token <;> first | rfl | cases ht

/-- How a token is fed to the machine. -/
theorem feed_eq (token : Token) (b : Builder) : feed token b =
    (match if b.skipLine then dropLine token else token with
      | .space [] | .word [] | .fault => pure ()
      | .doctype d => if b.mode = Mode.initial then handle 1 (.doctype d) else pure ()
      | token => handle (2 * b.stack.length + 20) token) { b with skipLine := false } := by
  unfold feed
  refine (bind_eq rfl).trans ((bind_eq rfl).trans ?_)
  cases (if b.skipLine then dropLine token else token) with
  | space cs => cases cs <;> rfl
  | word cs => cases cs <;> rfl
  | _ => rfl

theorem isText_dropLine (ht : token.isText = true) : (dropLine token).isText = true := by
  unfold dropLine
  split
  · rfl
  · rfl
  · exact ht

/-- The characters of a token of text, without a line feed that is to be dropped. -/
def kept (skip : Bool) (token : Token) : List Char :=
  characters (if skip then dropLine token else token)

/-- Where everything but parts of tables is admitted, text is added to the innermost element. -/
theorem feed_text (h : Stands outer b) (hp : partsOf? outer = none) (ht : token.isText = true) :
    ∃ b', feed token b = ((), b') ∧ Gains (.ofText (kept b.skipLine token)) outer b b' ∧
      b'.skipLine = false := by
  have ha : Stands outer { b with skipLine := false } := h.aside
  rw [feed_eq, kept]
  have ht' : (if b.skipLine then dropLine token else token).isText = true := by
    split
    · exact isText_dropLine ht
    · exact ht
  generalize (if b.skipLine then dropLine token else token) = token' at ht'
  have hnone : Gains (.ofText []) outer b { b with skipLine := false } :=
    (Adds.refl ha).toGains.of_same rfl rfl rfl
  obtain ⟨b', hb, hk⟩ := inBody_text ha ht'
  have hhandle : handle (2 * b.stack.length + 20) token' { b with skipLine := false } = ((), b') :=
    handle_of_done (ha.isForeign_eq_false _) _ ((rules_text ha hp ht').trans hb)
  split
  · exact ⟨_, rfl, hnone, rfl⟩
  · exact ⟨_, rfl, hnone, rfl⟩
  · exact ⟨_, rfl, hnone, rfl⟩
  · cases ht'
  · exact ⟨b', hhandle, hk.toGains.of_same rfl rfl rfl, hk.skipLine⟩

/-! ## White space in tables -/

/-- Tags and comments. -/
def isTagOrComment : Token → Bool
  | .startTag _ | .endTag _ | .comment _ => true
  | _ => false

/-- The machine handles every tag and comment as another one does, at once or after it has added
    the white space that has waited. -/
def Follows (b b₀ : Builder) : Prop :=
  b = b₀ ∨ (b.textMode = .markup ∧ b.mode = .inTableText ∧ b.skipLine = false ∧
    b₀.skipLine = false ∧ readsForeign b = false ∧
    ∀ token, isTagOrComment token = true →
      isForeign token b = false ∧ rules token b = (.again, b₀))

/-- A tag or comment that is dealt with at once. -/
theorem feed_of_rules (hf : Follows b b₀) (h : Stands outer b₀)
    (ht : isTagOrComment token = true)
    (hr : rules token { b₀ with skipLine := false } = (.done, b')) : feed token b = ((), b') := by
  have hdrop : (if b.skipLine then dropLine token else token) = token := by
    cases token with
    | startTag _ | endTag _ | comment _ => exact ite_self _
    | _ => cases ht
  have hfeed : feed token b =
      handle (2 * b.stack.length + 20) token { b with skipLine := false } := by
    rw [feed_eq, hdrop]
    cases token with
    | startTag _ | endTag _ | comment _ => rfl
    | _ => cases ht
  rw [hfeed]
  rcases hf with rfl | ⟨-, -, hskip, hskip₀, -, hagain⟩
  · have ha : Stands outer { b with skipLine := false } := h.aside
    exact handle_of_done (ha.isForeign_eq_false token) _ hr
  · have hb : { b with skipLine := false } = b := by cases b; cases hskip; rfl
    have hb₀ : { b₀ with skipLine := false } = b₀ := by cases b₀; cases hskip₀; rfl
    rw [hb₀] at hr
    rw [hb]
    obtain ⟨hforeign, hrules⟩ := hagain token ht
    exact (handle_of_again hforeign _ hrules).trans
      (handle_of_done (h.isForeign_eq_false token) _ hr)

/-- White space waits where nothing but parts of tables is admitted, except among columns. -/
theorem handle_space_waits (h : Stands outer b) {c : Char} {cs : List Char}
    (hskip : b.skipLine = false) (fuel : Nat)
    (hr : rules (.space (c :: cs)) b =
      (.again, { b with returnMode := b.mode, mode := .inTableText })) :
    ∃ b₁ b₀, handle (fuel + 2) (.space (c :: cs)) b = ((), b₁) ∧ Follows b₁ b₀ ∧
      Adds (.ofText (c :: cs)) outer b b₀ := by
  have hforeign := h.isForeign_eq_false
  have hwait : handle (fuel + 2) (.space (c :: cs)) b = ((), { b with
      returnMode := b.mode, mode := .inTableText, pending := [.space (c :: cs)] }) := by
    refine (handle_of_again (hforeign _) _ hr).trans (handle_of_done
      (b := { b with returnMode := b.mode, mode := .inTableText }) (hforeign _) _ ?_)
    rw [rules, get_bind]
    show (Outcome.done, { b with
      returnMode := b.mode, mode := .inTableText, pending := .space (c :: cs) :: b.pending }) = _
    rw [h.pending]
  refine ⟨_, _, hwait, Or.inr ⟨h.textMode, rfl, hskip, ?_, h.readsForeign_eq_false, fun token ht =>
    ⟨hforeign token, ?_⟩⟩, h.appendText (String.ofList (c :: cs)) b.mode⟩
  · exact hskip
  · have hputs : Builder.PutsInside { b with returnMode := b.mode, mode := .inTableText } :=
      ⟨h.puts.fostering, h.puts.current⟩
    have hins := hputs.insertText_eq (List.cons_ne_nil c cs)
    -- the next token first puts the white space in its place
    have hagain : rules token { b with
        returnMode := b.mode, mode := .inTableText, pending := [.space (c :: cs)] } =
        (do insertText (c :: cs ++ []); againIn b.mode : Build Outcome)
          { b with returnMode := b.mode, mode := .inTableText, pending := [] } := by
      cases token with
      | startTag _ | endTag _ | comment _ => rfl
      | _ => cases ht
    rw [hagain, List.append_nil, ← h.pending]
    exact (bind_eq hins).trans rfl

/-- In a table, a group and a row it is not yet said where text belongs. -/
theorem rules_space (hm : b.mode = .inTable ∨ b.mode = .inTableBody ∨ b.mode = .inRow)
    (cs : List Char) : rules (.space cs) b = deferText (.space cs) b := by
  rcases hm with hm | hm | hm
  · rw [rules, get_bind, hm]
    rfl
  · rw [rules, get_bind, hm]
    rfl
  · rw [rules, get_bind, hm]
    rfl

theorem handle_space (h : Stands outer b) {names : List String} (hp : partsOf? outer = some names)
    {c : Char} {cs : List Char} (hskip : b.skipLine = false) (fuel : Nat) :
    ∃ b₁ b₀, handle (fuel + 2) (.space (c :: cs)) b = ((), b₁) ∧ Follows b₁ b₀ ∧
      Adds (.ofText (c :: cs)) outer b b₀ := by
  obtain ⟨t, inner, rfl, parts, hparts, ht, rfl⟩ := exists_part hp
  have waits (ht : t.isHtml tableNames = true)
      (hm : b.mode = .inTable ∨ b.mode = .inTableBody ∨ b.mode = .inRow) :
      ∃ b₁ b₀, handle (fuel + 2) (.space (c :: cs)) b = ((), b₁) ∧ Follows b₁ b₀ ∧
        Adds (.ofText (c :: cs)) (t :: inner) b b₀ := by
    refine handle_space_waits h hskip fuel ((rules_space hm _).trans ?_)
    refine (bind_eq (h.currentIs_eq tableNames)).trans ?_
    rw [ht]
    rfl
  simp only [tableParts, List.mem_cons, List.not_mem_nil, or_false] at hparts
  -- columns take white space at once
  rcases hparts with rfl | rfl | rfl | rfl
  · exact waits (Element.isHtml_mono ht (by decide)) (Or.inl (h.mode.trans (modeOf_table ht)))
  · exact waits (Element.isHtml_mono ht (by decide))
      (Or.inr (Or.inl (h.mode.trans (modeOf_group ht))))
  · exact waits (Element.isHtml_mono ht (by decide))
      (Or.inr (Or.inr (h.mode.trans (modeOf_row ht))))
  · obtain ⟨b', hb, hk⟩ := h.insertText_adds (c :: cs)
    have hr : rules (.space (c :: cs)) b = (.done, b') := by
      rw [rules, get_bind, h.mode.trans (modeOf_columns ht)]
      exact bind_eq hb
    exact ⟨b', b', handle_of_done (h.isForeign_eq_false _) _ hr, Or.inl rfl, hk⟩

/-- White space among the parts of a table is added to the innermost one. -/
theorem feed_space (h : Stands outer b) {names : List String} (hp : partsOf? outer = some names)
    (cs : List Char) :
    ∃ b₁ b₀, feed (.space cs) b = ((), b₁) ∧ Follows b₁ b₀ ∧
      Gains (.ofText (kept b.skipLine (.space cs))) outer b b₀ := by
  have ha : Stands outer { b with skipLine := false } := h.aside
  have hspace : ∃ cs', (if b.skipLine then dropLine (.space cs) else .space cs) = .space cs' := by
    split
    · unfold dropLine
      split
      next cs' _ => exact ⟨cs', rfl⟩
      next heq => cases heq
      next => exact ⟨cs, rfl⟩
    · exact ⟨cs, rfl⟩
  obtain ⟨cs', hcs⟩ := hspace
  rw [feed_eq, kept, hcs]
  cases cs' with
  | nil => exact ⟨_, _, rfl, Or.inl rfl, (Adds.refl ha).toGains.of_same rfl rfl rfl⟩
  | cons c cs =>
    obtain ⟨b₁, b₀, hb, hf, hk⟩ := handle_space ha hp rfl (2 * b.stack.length + 18)
    exact ⟨b₁, b₀, hb, hf, hk.toGains.of_same rfl rfl rfl⟩

end SchemaExtraction.Markup
