import SchemaExtraction.Proofs.Markup.Frames

/-!
# Start tags in the body

A start tag that is admitted in the body, or in a cell or the caption of a table, opens its element
and closes nothing. An element that cannot hold anything is added without being opened.

Results:
* `Stands.starts_plain`, `Stands.starts_void`: the machine after the tag of an ordinary element.
* `bodyBlock_starts`, `bodyInline_starts`: the elements that have rules of their own.
* `bodyStart_starts`: every start tag that is admitted in the body.
-/

namespace SchemaExtraction.Markup

open Build

variable {outer : List Element} {b : Builder} {tag : Tag}

/-- The elements that are open after the start tag of one. -/
def inside (outer : List Element) (e : Element) : List Element :=
  if e.isHtml voidNames then outer else e :: outer

/-- Elements in which a line feed right after the start tag is dropped. -/
def lineNames : List String := ["pre", "listing"]

/-- The machine after the start tag of an element. -/
structure Starts (outer : List Element) (e : Element) (b b' : Builder) : Prop where
  stands : Stands (inside outer e) b'
  elements : b'.draft.elements = b.draft.elements ++ [e]
  setting : b'.setting = b.setting
  skipLine : b'.skipLine = (b.skipLine || e.isHtml lineNames)
  shows : ∀ {e₀ f frames}, b.Shows ((e₀, f) :: frames) →
    b'.Shows (if e.isHtml voidNames then (e₀, f ++ .element e .nil .nil) :: frames
      else (e, .nil) :: (e₀, f) :: frames)

theorem Starts.legacy {e : Element} {b' : Builder} (h : Starts outer e b b') :
    b'.legacy = b.legacy := congrArg Prod.fst h.setting

/-- Elements that are more than opened by their start tags in the body. -/
def ownNames : List String := ["form", "table"] ++ lineNames ++ objectNames ++ voidNames

/-- What opens an element. -/
theorem Starts.of_opens {e : Element} {b' : Builder}
    (hg : b.draft.Grown) (hv : e.isHtml voidNames = false)
    (hs : Stands (e :: outer) b') (hd : b'.draft = (b.opens e).draft)
    (ht : b'.stack = (b.opens e).stack) (hl : b'.setting = b.setting)
    (hk : b'.skipLine = (b.skipLine || e.isHtml lineNames)) : Starts outer e b b' where
  stands := by rwa [inside, hv, if_neg Bool.false_ne_true]
  elements := hd ▸ Draft.elements_grow
  setting := hl
  skipLine := hk
  shows h := by
    rw [hv, if_neg Bool.false_ne_true, Builder.Shows, hd, ht]
    exact h.opens hg e

namespace Stands

/-- An element without content is added. -/
theorem starts_void (h : Stands outer b) (hv : voidNames.contains tag.name = true)
    {allowed : Bool} {mode : Mode} :
    Starts outer tag.element b { b.holds (.element tag.element) with
      framesetAllowed := allowed, returnMode := mode } := by
  have hvoid : tag.element.isHtml voidNames = true := (Element.isHtml_eq rfl _).trans hv
  have hn : ∀ n ∈ voidNames, lineNames.contains n = false := by decide
  have hl : tag.element.isHtml lineNames = false :=
    (Element.isHtml_eq rfl _).trans (hn _ (List.contains_iff_mem.1 hv))
  refine ⟨?_, Draft.elements_grow, rfl, ?_, fun hs => ?_⟩
  · rw [inside, if_pos hvoid]
    exact h.holds _
  · rw [hl, Bool.or_false]
    rfl
  · rw [if_pos hvoid]
    exact hs.holds h.grown (by simp)

theorem not_template (hi : irregularNames.contains tag.name = false) :
    tag.element.isHtml ["template"] = false := Element.isHtml_eq_false hi (by decide)

theorem modeOf_eq {e : Element} (hi : irregularNames.contains e.name = false)
    (ht : e.isHtml ["table"] = false) : modeOf (e :: outer) = modeOf outer := by
  have hn (names : List String) (hf : ∀ n ∈ names, n ∈ irregularNames) :
      e.isHtml names = false := Element.isHtml_eq_false hi hf
  rw [modeOf, hn ["td", "th"] (by decide), hn ["tr"] (by decide), hn groupNames (by decide),
    hn ["caption"] (by decide), hn ["colgroup"] (by decide), ht]
  rfl

/-- An element is opened that has neither a mode nor other rules of its own. -/
theorem starts_plain (h : Stands outer b) (hp : partsOf? outer = none)
    (ha : admits outer tag.name = true)
    (ho : ("form" :: "table" :: voidNames).contains tag.name = false)
    {added fs : List Formatting} (hs : Standing b.draft b.stack outer fs)
    (hadd : Entry b.draft.cells.size tag.element added) {allowed skip : Bool} {mode : Mode}
    (hskip : skip = (b.skipLine || lineNames.contains tag.name)) :
    Starts outer tag.element b { b.opens tag.element with
      formatting := added ++ fs, framesetAllowed := allowed, skipLine := skip,
      returnMode := mode } := by
  have hi := not_mem_irregularNames hp ha
  have hvoid : tag.element.isHtml voidNames = false := Element.isHtml_eq_false ho (by decide)
  have ht : tag.element.isHtml ["table"] = false := Element.isHtml_eq_false ho (by decide)
  have hf : tag.element.isHtml ["form"] = false := Element.isHtml_eq_false ho (by decide)
  refine .of_opens h.grown hvoid ?_ rfl rfl rfl (by rw [hskip, Element.isHtml_eq rfl]; rfl)
  rw [Element.isHtml_eq rfl] at hvoid
  refine h.opens rfl ha hvoid hs hadd ?_ ?_
  · exact h.mode.trans (modeOf_eq hi ht).symm
  · rw [formOf, if_neg (Bool.eq_false_iff.1 hf)]
    exact h.form

theorem closeOpenParagraph_eq (h : Stands outer b)
    (hp : isWithin endsButtonScope ["p"] outer = false) : closeOpenParagraph b = ((), b) :=
  bind_eq (h.inScope_eq_false hp)

theorem not_endsFormatting (hi : irregularNames.contains tag.name = false)
    (ho : objectNames.contains tag.name = false) : endsFormatting tag.element = false := by
  have hobjects : tag.element.isHtml objectNames = false := Element.isHtml_eq_false ho (by decide)
  have hparts : tag.element.isHtml ["caption", "td", "th"] = false :=
    Element.isHtml_eq_false hi (by decide)
  rw [Element.isHtml_eq rfl] at hobjects hparts
  rw [endsFormatting, Element.isHtml_eq rfl, List.contains_append, hobjects, hparts, Bool.or_self]

/-- An element is opened that is none of formatting. -/
theorem starts_simple (h : Stands outer b) (hp : partsOf? outer = none)
    (ha : admits outer tag.name = true) (ho : ownNames.contains tag.name = false)
    {allowed : Bool} {mode : Mode} :
    Starts outer tag.element b { b.opens tag.element with
      framesetAllowed := allowed, returnMode := mode } := by
  have hobjects : objectNames.contains tag.name = false :=
    contains_eq_false_of_subset ho (by decide)
  have hline : lineNames.contains tag.name = false := contains_eq_false_of_subset ho (by decide)
  exact h.starts_plain hp ha (contains_eq_false_of_subset ho (by decide)) h.standing
    (.none (not_endsFormatting (not_mem_irregularNames hp ha) hobjects))
    (by rw [hline, Bool.or_false]; rfl)

/-- An element is opened in which a line feed right after the tag is dropped. -/
theorem starts_line (h : Stands outer b) (hp : partsOf? outer = none)
    (ha : admits outer tag.name = true) (hn : lineNames.contains tag.name = true) :
    Starts outer tag.element b { b.opens tag.element with
      framesetAllowed := false, skipLine := true } := by
  have ho : ∀ n ∈ lineNames, ("form" :: "table" :: voidNames).contains n = false ∧
    objectNames.contains n = false := by decide
  obtain ⟨ho, hobjects⟩ := ho tag.name (List.contains_iff_mem.1 hn)
  exact h.starts_plain hp ha ho h.standing
    (.none (not_endsFormatting (not_mem_irregularNames hp ha) hobjects))
    (by rw [hn, Bool.or_true])

theorem currentIs_eq_false (h : Stands outer b) {names : List String}
    (hw : isWithin (fun _ => true) names outer = false) : currentIs names b = (false, b) := by
  obtain ⟨e, outer, rfl⟩ := List.exists_cons_of_ne_nil h.standing.ne_nil.2
  rw [isWithin, Bool.not_true, Bool.false_and, Bool.or_false] at hw
  rw [h.currentIs_eq, hw]

theorem formOf_eq_none {ids : List NodeId} (hw : isWithin (fun _ => false) ["form"] outer = false) :
    formOf ids outer = none := by
  induction outer generalizing ids with
  | nil => cases ids <;> rfl
  | cons e outer ih =>
    rw [isWithin, Bool.or_eq_false_iff] at hw
    cases ids with
    | nil => rfl
    | cons id ids => rw [formOf, hw.1, if_neg Bool.false_ne_true, ih hw.2]

theorem aside (h : Stands outer b) {allowed skip : Bool} {mode : Mode} :
    Stands outer { b with framesetAllowed := allowed, skipLine := skip, returnMode := mode } :=
  ⟨h.grown, h.standing, h.form, h.mode, h.textMode, h.templates, h.fostering, h.pending⟩

theorem insertItem_eq (h : Stands outer b) (hi : irregularNames.contains tag.name = false)
    {names : List String} (hn : isWithin endsItems names outer = false)
    (hp : isWithin endsButtonScope ["p"] outer = false) :
    insertItem names tag b =
      ((), Builder.opens tag.element { b with framesetAllowed := false }) := by
  have ha : Stands outer { b with framesetAllowed := false } := h.aside
  have hitem : openItem? b.draft names b.stack = none := by
    rw [← Option.not_isSome_iff_eq_none, h.standing.openItem?_isSome, hn]
    exact Bool.false_ne_true
  refine (bind_eq rfl).trans ((bind_eq rfl).trans ?_)
  dsimp only
  rw [hitem]
  exact (bind_eq (ha.closeOpenParagraph_eq hp)).trans (ha.puts.insertTag_eq (not_template hi))

/-- A form is opened where none is open. -/
theorem insertForm_starts (h : Stands outer b) (ha : admits outer tag.name = true)
    (hname : tag.name = "form") (hw : isWithin (fun _ => false) ["form"] outer = false)
    (hp : isWithin endsButtonScope ["p"] outer = false) :
    ∃ b', insertForm tag b = ((), b') ∧ Starts outer tag.element b b' := by
  have he (names : List String) : tag.element.isHtml names = names.contains "form" :=
    (Element.isHtml_eq rfl names).trans (congrArg names.contains hname)
  have hf : b.form.isNone = true := by rw [h.form, formOf_eq_none hw]; rfl
  refine ⟨{ b.opens tag.element with form := some b.draft.cells.size }, ?_, ?_⟩
  · refine (bind_eq h.isOpen_template).trans ((bind_eq rfl).trans ?_)
    rw [hf]
    exact (bind_eq (h.closeOpenParagraph_eq hp)).trans (bind_eq (h.puts.insert_eq (he _)))
  · refine .of_opens h.grown (he _) ?_ rfl rfl rfl (by rw [he]; exact (Bool.or_false _).symm)
    refine h.opens rfl ha (by rw [Tag.element, hname]; rfl) h.standing (.none (he _)) ?_ ?_
    · exact h.mode.trans (modeOf_eq (by rw [Tag.element, hname]; rfl) (he _)).symm
    · rw [formOf, he]
      rfl

/-- A table is opened that closes no paragraph. -/
theorem insertTable_starts (h : Stands outer b) (ha : admits outer tag.name = true)
    (hname : tag.name = "table") :
    Starts outer tag.element b { b.opens tag.element with
      framesetAllowed := false, mode := .inTable } := by
  have he (names : List String) : tag.element.isHtml names = names.contains "table" :=
    (Element.isHtml_eq rfl names).trans (congrArg names.contains hname)
  refine .of_opens h.grown (he _) ?_ rfl rfl rfl (by rw [he]; exact (Bool.or_false _).symm)
  refine h.opens rfl ha (by rw [Tag.element, hname]; rfl) h.standing (.none (he _)) ?_ ?_
  · simp only [modeOf, he]
    rfl
  · rw [formOf, he]
    exact h.form

/-! ### Formatting -/

theorem limitAlike_standing {d : Draft} {ids : List NodeId} {fs : List Formatting}
    (h : Standing d ids outer fs) (tag : Tag) : Standing d ids outer (limitAlike tag fs) := by
  rw [limitAlike]
  split
  · split
    next f hf =>
      refine h.erase ?_
      rintro rfl
      have hm := List.of_mem_filter (List.mem_of_getLast? hf)
      simp [madeBy] at hm
    next => exact h
  · exact h

/-- A formatting element is opened. -/
theorem insertFormattingTag_starts (h : Stands outer b) (hp : partsOf? outer = none)
    (ha : admits outer tag.name = true)
    (hn : ("a" :: "nobr" :: formattingNames).contains tag.name = true) :
    ∃ b', insertFormattingTag tag b = ((), b') ∧ Starts outer tag.element b b' := by
  have hi := not_mem_irregularNames hp ha
  have ho : ∀ n ∈ "a" :: "nobr" :: formattingNames, ownNames.contains n = false := by decide
  have ho := ho tag.name (List.contains_iff_mem.1 hn)
  have hline : lineNames.contains tag.name = false := contains_eq_false_of_subset ho (by decide)
  have hs := limitAlike_standing h.standing tag
  have hl : Stands outer { b with formatting := limitAlike tag b.formatting } :=
    ⟨h.grown, hs, h.form, h.mode, h.textMode, h.templates, h.fostering, h.pending⟩
  refine ⟨_, (bind_eq rfl).trans (bind_eq (hl.puts.insert_eq (not_template hi))), ?_⟩
  have hadd : Entry b.draft.cells.size tag.element [.element b.draft.cells.size tag] :=
    .element tag hn (not_endsFormatting hi (contains_eq_false_of_subset ho (by decide))) rfl
  exact h.starts_plain hp ha (contains_eq_false_of_subset ho (by decide)) hs hadd
    (by rw [hline, Bool.or_false]; rfl)

theorem closeLink_eq (h : Stands outer b) (hw : isWithin endsFormatting ["a"] outer = false) :
    closeLink b = ((), b) := by
  refine (bind_eq rfl).trans ?_
  rw [h.standing.findFormatting?_eq_none hw]
  rfl

theorem insertInline_eq (h : Stands outer b) (hi : irregularNames.contains tag.name = false) :
    insertInline tag b = ((), b.opens tag.element) :=
  (bind_eq h.reopenFormatting_eq).trans (h.puts.insertTag_eq (not_template hi))

/-- An element in text is added that holds nothing. -/
theorem insertInlineVoid_starts (h : Stands outer b)
    (hi : irregularNames.contains tag.name = false) (hv : voidNames.contains tag.name = true) :
    ∃ b', insertInlineVoid tag b = ((), b') ∧ Starts outer tag.element b b' := by
  have hvoid := h.puts.insertVoid_eq (not_template hi)
  have heq : insertInlineVoid tag b =
      (if !(tag.name = "input" && isHiddenInput tag) then forbidFrameset else pure ())
        (b.holds (.element tag.element)) :=
    (bind_eq h.reopenFormatting_eq).trans (bind_eq hvoid)
  cases hc : !(decide (tag.name = "input") && isHiddenInput tag) with
  | false =>
    rw [hc] at heq
    exact ⟨_, heq, h.starts_void hv⟩
  | true =>
    rw [hc] at heq
    exact ⟨_, heq, h.starts_void hv⟩

/-- An element that formatting does not cross is opened. -/
theorem opens_object (h : Stands outer b) (ha : admits outer tag.name = true)
    (hn : objectNames.contains tag.name = true) :
    Starts outer tag.element b { b.opens tag.element with
      formatting := .marker :: b.formatting, framesetAllowed := false } := by
  have hn' : ∀ n ∈ objectNames, irregularNames.contains n = false ∧
      (["form", "table"] ++ lineNames ++ voidNames).contains n = false := by decide
  obtain ⟨hi, ho⟩ := hn' tag.name (by simpa using hn)
  have he {names : List String}
      (hf : ∀ n ∈ names, n ∈ ["form", "table"] ++ lineNames ++ voidNames) :
      tag.element.isHtml names = false := Element.isHtml_eq_false ho hf
  have hvoid : tag.element.isHtml voidNames = false := he (by decide)
  refine .of_opens h.grown hvoid ?_ rfl rfl rfl
    (by rw [he (by decide)]; exact (Bool.or_false _).symm)
  rw [Element.isHtml_eq rfl] at hvoid
  have hm : endsFormatting tag.element = true := by
    rw [endsFormatting, Element.isHtml_eq rfl, List.contains_append, Tag.element, hn, Bool.true_or]
  refine h.opens rfl ha hvoid h.standing (.marker hm) ?_ ?_
  · exact h.mode.trans (modeOf_eq hi (he (by decide))).symm
  · rw [formOf, he (by decide)]
    exact h.form

/-- No element is closed whose end tag may be left out. -/
theorem closeImplied_eq (h : Stands outer b) {names fewer : List String}
    (hw : isWithin (fun _ => true) names outer = false) (hf : ∀ n ∈ fewer, n ∈ names) :
    closeImplied fewer b = ((), b) := by
  obtain ⟨e, outer, rfl⟩ := List.exists_cons_of_ne_nil h.standing.ne_nil.2
  obtain ⟨id, ids, hs, he, -⟩ := List.map_eq_cons_iff.1 h.standing.map_element
  rw [isWithin, Bool.not_true, Bool.false_and, Bool.or_false] at hw
  have hn : e.isHtml fewer = false := by
    rw [Element.isHtml, Bool.and_eq_false_iff] at hw ⊢
    exact hw.imp_right fun hc => by
      rw [Bool.eq_false_iff, ne_eq, List.contains_iff_mem] at hc ⊢
      exact fun hm => hc (hf _ hm)
  have hd : b.stack.dropWhile (fun id => (b.draft.element id).isHtml fewer) = b.stack := by
    rw [hs, List.dropWhile_cons_of_neg (by rw [he, hn]; exact Bool.false_ne_true)]
  show ((), { b with stack := b.stack.dropWhile _ }) = _
  rw [hd]

/-- A part of ruby text is opened where nothing is left open that it closes. -/
theorem insertRuby_eq (h : Stands outer b) (hi : irregularNames.contains tag.name = false)
    {close : Build Unit} (hc : close b = ((), b)) :
    (do
      if ← inScope endsScope ["ruby"] then close
      insertTag tag
      return true : Build Bool) b = (true, b.opens tag.element) := by
  have hins := h.puts.insertTag_eq (not_template hi)
  refine (bind_eq (h.inScope_eq _ _)).trans ?_
  split
  · exact (bind_eq hc).trans (bind_eq hins)
  · exact bind_eq hins

end Stands

section Block

variable (h : Stands outer b) (hp : partsOf? outer = none) (ha : admits outer tag.name = true)
include h hp ha

/-- The start tag of a block. -/
theorem bodyBlock_starts (hs : sparesParagraph b.legacy outer tag.name = true) :
    (∃ b', bodyBlock tag b = (true, b') ∧ Starts outer tag.element b b') ∨
      (bodyBlock tag b = (false, b) ∧
        (["form", "table", "hr"] ++ lineNames).contains tag.name = false) := by
  have hi := not_mem_irregularNames hp ha
  have hins := h.puts.insertTag_eq (Stands.not_template hi)
  have hparagraph (hn : paragraphEnders.contains tag.name = true) :=
    isWithin_of_admits hp ha .paragraph (by simp [Interruption.all]) hn
  have hclose (hn : paragraphEnders.contains tag.name = true) :=
    h.closeOpenParagraph_eq (hparagraph hn)
  have opens (names : List String) (hname : tag.name ∈ names)
      (hn : ∀ n ∈ names, paragraphEnders.contains n = true ∧ ownNames.contains n = false) :=
    hn tag.name hname
  unfold bodyBlock
  dsimp only
  -- the rules as they are tried: what each of them would close first is not open
  by_cases hblock : (decide (tag.name = "p") || blockNames.contains tag.name) = true
  · rw [if_pos hblock]
    have hn := opens ("p" :: blockNames) (by simpa using hblock) (by decide)
    exact Or.inl ⟨_, (bind_eq (hclose hn.1)).trans (bind_eq hins), h.starts_simple hp ha hn.2⟩
  rw [if_neg hblock]
  by_cases hheading : headingNames.contains tag.name = true
  · rw [if_pos hheading]
    have hn := opens headingNames (by simpa using hheading) (by decide)
    have hcurrent := h.currentIs_eq_false
      (isWithin_of_admits hp ha .heading (by simp [Interruption.all]) hheading)
    exact Or.inl ⟨_, (bind_eq (hclose hn.1)).trans ((bind_eq hcurrent).trans (bind_eq hins)),
      h.starts_simple hp ha hn.2⟩
  rw [if_neg hheading]
  by_cases hpre : (decide (tag.name = "pre") || decide (tag.name = "listing")) = true
  · rw [if_pos hpre]
    have hline : lineNames.contains tag.name = true := by simpa [lineNames] using hpre
    have hn : ∀ n ∈ lineNames, paragraphEnders.contains n = true := by decide
    exact Or.inl ⟨_, (bind_eq (hclose (hn _ (List.contains_iff_mem.1 hline)))).trans (bind_eq hins),
      h.starts_line hp ha hline⟩
  rw [if_neg hpre]
  by_cases hform : tag.name = "form"
  · rw [if_pos hform]
    obtain ⟨b', hb, hs⟩ := h.insertForm_starts ha hform
      (isWithin_of_admits hp ha .form (by simp [Interruption.all]) (by rw [hform]; rfl))
      (hparagraph (by rw [hform]; rfl))
    exact Or.inl ⟨b', bind_eq hb, hs⟩
  rw [if_neg hform]
  by_cases hli : tag.name = "li"
  · rw [if_pos hli]
    have hitem := h.insertItem_eq hi
      (isWithin_of_admits hp ha .item (by simp [Interruption.all]) (by rw [hli]; rfl))
      (hparagraph (by rw [hli]; rfl))
    exact Or.inl ⟨_, bind_eq hitem, h.starts_simple hp ha (by rw [hli]; rfl)⟩
  rw [if_neg hli]
  by_cases hdd : (decide (tag.name = "dd") || decide (tag.name = "dt")) = true
  · rw [if_pos hdd]
    have hn := opens ["dd", "dt"] (by simpa using hdd) (by decide)
    have hitem := h.insertItem_eq hi
      (isWithin_of_admits hp ha .term (by simp [Interruption.all])
        (by simpa [Interruption.term] using hdd)) (hparagraph hn.1)
    exact Or.inl ⟨_, bind_eq hitem, h.starts_simple hp ha hn.2⟩
  rw [if_neg hdd]
  rw [if_neg (ne_of_contains hi (by decide))]
  by_cases htable : tag.name = "table"
  · rw [if_pos htable]
    refine Or.inl ⟨_, (bind_eq rfl).trans ?_, h.insertTable_starts ha htable⟩
    cases hlegacy : b.legacy with
    | true => exact bind_eq hins
    | false =>
      rw [sparesParagraph, hlegacy, htable] at hs
      exact (bind_eq (h.closeOpenParagraph_eq (by simpa using hs))).trans (bind_eq hins)
  rw [if_neg htable]
  by_cases hhr : tag.name = "hr"
  · rw [if_pos hhr]
    have hvoid := h.puts.insertVoid_eq (Stands.not_template hi)
    exact Or.inl ⟨_, (bind_eq (hclose (by rw [hhr]; rfl))).trans (bind_eq hvoid),
      h.starts_void (by rw [hhr]; rfl)⟩
  rw [if_neg hhr]
  rw [if_neg (ne_of_contains hi (by decide))]
  simp only [Bool.or_eq_true, decide_eq_true_eq, not_or] at hpre
  exact Or.inr ⟨rfl, by simp [lineNames, hform, htable, hhr, hpre]⟩

/-- The start tag of an element in text. -/
theorem bodyInline_starts :
    (∃ b', bodyInline tag b = (true, b') ∧ Starts outer tag.element b b') ∨
      (bodyInline tag b = (false, b) ∧ (objectNames ++ "input" :: inlineVoidNames ++
        ["param", "source", "track"]).contains tag.name = false) := by
  have hi := not_mem_irregularNames hp ha
  have ht := Stands.not_template hi
  have hins := h.puts.insertTag_eq ht
  have hinline := h.insertInline_eq hi
  have own (names : List String) (hname : tag.name ∈ names)
      (hn : ∀ n ∈ names, ownNames.contains n = false) := hn tag.name hname
  unfold bodyInline
  dsimp only
  -- again the rules as they are tried, with nothing open that they would close
  by_cases hbutton : tag.name = "button"
  · rw [if_pos hbutton]
    have hn := own ["button"] (by simpa using hbutton) (by decide)
    have hw := isWithin_of_admits hp ha .button (by simp [Interruption.all]) (by rw [hbutton]; rfl)
    exact Or.inl ⟨_, (bind_eq (h.inScope_eq_false hw)).trans (bind_eq hinline),
      h.starts_simple hp ha hn⟩
  rw [if_neg hbutton]
  by_cases hlink : tag.name = "a"
  · rw [if_pos hlink]
    have hw := isWithin_of_admits hp ha .link (by simp [Interruption.all]) (by rw [hlink]; rfl)
    obtain ⟨b', hb, hs⟩ := h.insertFormattingTag_starts hp ha (by rw [hlink]; rfl)
    exact Or.inl ⟨b', (bind_eq (h.closeLink_eq hw)).trans
      ((bind_eq h.reopenFormatting_eq).trans (bind_eq hb)), hs⟩
  rw [if_neg hlink]
  by_cases hformatting : formattingNames.contains tag.name = true
  · rw [if_pos hformatting]
    obtain ⟨b', hb, hs⟩ := h.insertFormattingTag_starts hp ha
      (by simp only [List.contains_cons, hformatting, Bool.or_true])
    exact Or.inl ⟨b', (bind_eq h.reopenFormatting_eq).trans (bind_eq hb), hs⟩
  rw [if_neg hformatting]
  by_cases hnobr : tag.name = "nobr"
  · rw [if_pos hnobr]
    have hw := isWithin_of_admits hp ha .unbroken (by simp [Interruption.all]) (by rw [hnobr]; rfl)
    obtain ⟨b', hb, hs⟩ := h.insertFormattingTag_starts hp ha (by rw [hnobr]; rfl)
    exact Or.inl ⟨b', (bind_eq h.reopenFormatting_eq).trans
      ((bind_eq (h.inScope_eq_false hw)).trans (bind_eq hb)), hs⟩
  rw [if_neg hnobr]
  by_cases hobject : objectNames.contains tag.name = true
  · rw [if_pos hobject]
    exact Or.inl ⟨_, bind_eq hinline, h.opens_object ha hobject⟩
  rw [if_neg hobject]
  by_cases hvoid : (decide (tag.name = "input") || inlineVoidNames.contains tag.name) = true
  · rw [if_pos hvoid]
    have hn : ∀ n ∈ "input" :: inlineVoidNames, voidNames.contains n = true := by decide
    obtain ⟨b', hb, hs⟩ := h.insertInlineVoid_starts hi (hn tag.name (by simpa using hvoid))
    exact Or.inl ⟨b', bind_eq hb, hs⟩
  rw [if_neg hvoid]
  rw [if_neg (ne_of_contains hi (by decide))]
  by_cases hparam : ["param", "source", "track"].contains tag.name = true
  · rw [if_pos hparam]
    have hn : ∀ n ∈ ["param", "source", "track"], voidNames.contains n = true := by decide
    exact Or.inl ⟨_, bind_eq (h.puts.insertVoid_eq ht),
      h.starts_void (hn tag.name (by simpa using hparam))⟩
  rw [if_neg hparam]
  have hnoembed : tag.name ≠ "noembed" := ne_of_contains hi (by decide)
  have hnoscript : tag.name ≠ "noscript" := ne_of_contains hi (by decide)
  rw [if_neg (ne_of_contains hi (by decide)), if_neg (ne_of_contains hi (by decide)),
    if_neg (by simp [hnoembed, hnoscript]), if_neg (ne_of_contains hi (by decide))]
  by_cases hoption : (decide (tag.name = "option") || decide (tag.name = "optgroup")) = true
  · rw [if_pos hoption]
    have hn := own ["option", "optgroup"] (by simpa using hoption) (by decide)
    have hw := isWithin_of_admits hp ha .option (by simp [Interruption.all])
      (by simpa [Interruption.option] using hoption)
    exact Or.inl ⟨_, (bind_eq (h.currentIs_eq_false hw)).trans (bind_eq hinline),
      h.starts_simple hp ha hn⟩
  rw [if_neg hoption]
  have hruby (hn : Interruption.ruby.tags.contains tag.name = true) :=
    isWithin_of_admits hp ha .ruby (by simp [Interruption.all]) hn
  by_cases hbase : (decide (tag.name = "rb") || decide (tag.name = "rtc")) = true
  · rw [if_pos hbase]
    have hn : ∀ n ∈ ["rb", "rtc"], Interruption.ruby.tags.contains n = true ∧
      ownNames.contains n = false := by decide
    obtain ⟨hpart, hplain⟩ := hn tag.name (by simpa using hbase)
    have hclose := h.closeImplied_eq (hruby hpart) fun _ hn => hn
    exact Or.inl ⟨_, h.insertRuby_eq hi hclose, h.starts_simple hp ha hplain⟩
  rw [if_neg hbase]
  by_cases htext : (decide (tag.name = "rp") || decide (tag.name = "rt")) = true
  · rw [if_pos htext]
    have hn : ∀ n ∈ ["rp", "rt"], Interruption.ruby.tags.contains n = true ∧
      ownNames.contains n = false := by decide
    obtain ⟨hpart, hplain⟩ := hn tag.name (by simpa using htext)
    have hclose : closeImpliedBut "rtc" b = ((), b) := h.closeImplied_eq (hruby hpart) (by decide)
    exact Or.inl ⟨_, h.insertRuby_eq hi hclose, h.starts_simple hp ha hplain⟩
  rw [if_neg htext, if_neg (ne_of_contains hi (by decide)), if_neg (ne_of_contains hi (by decide))]
  -- the tag is left to the rule for ordinary elements
  rw [Bool.not_eq_true] at hobject hvoid hparam
  refine Or.inr ⟨rfl, ?_⟩
  rw [List.contains_append, List.contains_append, hobject, hparam, Bool.or_false, Bool.false_or]
  exact hvoid

/-- The start tag of an element that is admitted in the body. -/
theorem bodyStart_starts (hs : sparesParagraph b.legacy outer tag.name = true) :
    ∃ b', bodyStart tag b = (.done, b') ∧ Starts outer tag.element b b' := by
  have hi := not_mem_irregularNames hp ha
  have hstray : ¬ strayNames.contains tag.name = true := fun hm => by
    rw [irregularNames, List.contains_append, hm, Bool.or_true] at hi
    cases hi
  unfold bodyStart
  dsimp only
  rw [if_neg (ne_of_contains hi (by decide))]
  by_cases hhead : headNames.contains tag.name = true
  · rw [if_pos hhead]
    have hn : ∀ n ∈ headNames, irregularNames.contains n = true ∨
      headVoidNames.contains n = true ∧ voidNames.contains n = true := by decide
    obtain ⟨hhead, hvoid⟩ :=
      (hn tag.name (by simpa using hhead)).resolve_left (Bool.eq_false_iff.1 hi)
    refine ⟨b.holds (.element tag.element), ?_, h.starts_void hvoid⟩
    unfold inHead
    dsimp only
    rw [if_neg (ne_of_contains hi (by decide)), if_pos hhead]
    exact bind_eq (h.puts.insertVoid_eq (Stands.not_template hi))
  rw [if_neg hhead, if_neg (ne_of_contains hi (by decide)), if_neg (ne_of_contains hi (by decide)),
    if_neg hstray]
  rcases bodyBlock_starts h hp ha hs with ⟨b', hb, hs⟩ | ⟨hblock, hn⟩
  · exact ⟨b', bind_eq hb, hs⟩
  rcases bodyInline_starts h hp ha with ⟨b', hb, hs⟩ | ⟨hinline, hn'⟩
  · exact ⟨b', (bind_eq hblock).trans (bind_eq hb), hs⟩
  have ho : ∀ n ∈ ownNames, irregularNames.contains n = true ∨ headNames.contains n = true ∨
    (["form", "table", "hr"] ++ lineNames).contains n = true ∨
    (objectNames ++ "input" :: inlineVoidNames ++
      ["param", "source", "track"]).contains n = true := by decide
  have ho : ownNames.contains tag.name = false := by
    refine Bool.eq_false_iff.2 fun hm => ?_
    have := ho tag.name (by simpa using hm)
    rw [hi, Bool.eq_false_iff.2 hhead, hn, hn'] at this
    simp at this
  exact ⟨_, (bind_eq hblock).trans ((bind_eq hinline).trans (bind_eq (h.insertInline_eq hi))),
    h.starts_simple hp ha ho⟩

end Block

end SchemaExtraction.Markup
