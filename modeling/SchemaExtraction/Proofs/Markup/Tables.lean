import SchemaExtraction.Proofs.Markup.EndTags

/-!
# Tags in tables

Inside the parts of a table only other parts are admitted, each right inside of the one that it
belongs into. Their start tags open them and nothing else, and their end tags close just them and
go back to the mode around them.

Results:
* `tableStart_starts`, `rowStart_starts`, `cellStart_starts`, `columnStart_starts`: the start tags.
* `exists_holder`: what a part stands right inside of.
* `Innermost.tableEnd_ends`, `Innermost.captionEnd_ends`, `Innermost.columnsEnd_ends`,
  `Innermost.groupEnd_ends`, `Innermost.rowEnd_ends`, `Innermost.cellEnd_ends`: the end tags.
-/

namespace SchemaExtraction.Markup

open Build

variable {e t : Element} {outer : List Element} {b : Builder} {tag : Tag}

/-! ## Start tags -/

theorem Stands.popTo_eq (h : Stands (t :: outer) b) {names : List String}
    (ht : t.isHtml names = true) : popTo names b = ((), b) := by
  obtain ⟨id, ids, hs, he, -⟩ := List.map_eq_cons_iff.1 h.standing.map_element
  have hd : b.stack.dropWhile (fun id => !(b.draft.element id).isHtml names) = b.stack := by
    rw [hs, List.dropWhile_cons_of_neg (by rw [he, ht]; exact Bool.false_ne_true)]
  show ((), { b with stack := b.stack.dropWhile _ }) = _
  rw [hd]

/-- The parts of tables that hold something. -/
def partTags : List String := ["caption", "colgroup", "td", "th", "tr"] ++ groupNames

/-- A part of a table is opened. -/
theorem Stands.opens_part (h : Stands outer b) (ha : admits outer tag.name = true)
    (hn : partTags.contains tag.name = true) {added : List Formatting}
    (hadd : Entry b.draft.cells.size tag.element added) {inside : Mode}
    (hm : inside = modeOf (tag.element :: outer)) {mode : Mode} :
    Starts outer tag.element b { b.opens tag.element with
      formatting := added ++ b.formatting, mode := inside, returnMode := mode } := by
  have hn' : ∀ n ∈ partTags, ("form" :: lineNames ++ voidNames).contains n = false := by decide
  have hp := hn' tag.name (List.contains_iff_mem.1 hn)
  have hvoid : tag.element.isHtml voidNames = false := Element.isHtml_eq_false hp (by decide)
  have hform : tag.element.isHtml ["form"] = false := Element.isHtml_eq_false hp (by decide)
  refine .of_opens h.grown hvoid ?_ rfl rfl rfl
    (by rw [Element.isHtml_eq_false hp (by decide)]; exact (Bool.or_false _).symm)
  rw [Element.isHtml_eq rfl] at hvoid
  refine h.opens rfl ha hvoid h.standing hadd hm ?_
  rw [formOf, if_neg (Bool.eq_false_iff.1 hform)]
  exact h.form

theorem endsFormatting_tag
    (hn : (objectNames ++ ["caption", "td", "th"]).contains tag.name = false) :
    endsFormatting tag.element = false := (Element.isHtml_eq rfl _).trans hn

theorem not_template_of_admits (ha : admits outer tag.name = true) :
    tag.element.isHtml ["template"] = false :=
  Element.isHtml_eq_false (pageNames_of_admits ha) (by decide)

/-- A part that stands right inside of a table. -/
theorem tableStart_starts (h : Stands (t :: outer) b) (ht : t.isHtml ["table"] = true)
    (ha : admits (t :: outer) tag.name = true)
    (hn : tag.name ∈ ["caption", "colgroup"] ++ groupNames) :
    ∃ b', tableStart tag b = (.done, b') ∧ Starts (t :: outer) tag.element b b' := by
  have hclear : clearToTable b = ((), b) := h.popTo_eq (Element.isHtml_mono ht (by decide))
  have htemplate := not_template_of_admits ha
  have hins := h.puts.insertTag_eq htemplate
  unfold tableStart
  dsimp only
  by_cases hcaption : tag.name = "caption"
  · rw [if_pos hcaption]
    -- the marker comes before the element
    have hmarked : Builder.PutsInside { b with formatting := .marker :: b.formatting } :=
      ⟨h.puts.fostering, h.puts.current⟩
    refine ⟨_, (bind_eq hclear).trans ((bind_eq rfl).trans
      ((bind_eq (hmarked.insertTag_eq htemplate)).trans (bind_eq rfl))), ?_⟩
    have hm : endsFormatting tag.element = true :=
      (Element.isHtml_eq rfl _).trans (by rw [Tag.element, hcaption]; rfl)
    refine h.opens_part ha (by rw [hcaption]; rfl) (.marker hm) ?_
    simp [modeOf, Element.isHtml, Tag.element, hcaption, groupNames]
  rw [if_neg hcaption]
  by_cases hcolgroup : tag.name = "colgroup"
  · rw [if_pos hcolgroup]
    refine ⟨_, (bind_eq hclear).trans ((bind_eq hins).trans (bind_eq rfl)), ?_⟩
    refine h.opens_part ha (by rw [hcolgroup]; rfl)
      (.none (endsFormatting_tag (by rw [hcolgroup]; rfl))) ?_
    simp [modeOf, Element.isHtml, Tag.element, hcolgroup, groupNames]
  rw [if_neg hcolgroup]
  have hgroup : tag.name ∈ groupNames := by simpa [hcaption, hcolgroup] using hn
  have hfacts : ∀ n ∈ groupNames, n ≠ "col" ∧ partTags.contains n = true ∧
    (objectNames ++ ["caption", "td", "th"]).contains n = false ∧ ["td", "th"].contains n = false ∧
    ["tr"].contains n = false := by decide
  obtain ⟨hcol, hpart, hformatting, hcell, hrow⟩ := hfacts tag.name hgroup
  rw [if_neg hcol, if_pos (List.contains_iff_mem.2 hgroup)]
  refine ⟨_, (bind_eq hclear).trans ((bind_eq hins).trans (bind_eq rfl)), ?_⟩
  refine h.opens_part ha hpart (.none (endsFormatting_tag hformatting)) ?_
  rw [modeOf, Element.isHtml_eq rfl, Element.isHtml_eq rfl, Element.isHtml_eq rfl, Tag.element,
    hcell, hrow, List.contains_iff_mem.2 hgroup]
  rfl

/-- A row in a group. -/
theorem rowStart_starts (h : Stands (t :: outer) b) (ht : t.isHtml groupNames = true)
    (ha : admits (t :: outer) tag.name = true) (hn : tag.name = "tr") :
    ∃ b', inTableBody (.startTag tag) b = (.done, b') ∧ Starts (t :: outer) tag.element b b' := by
  have hclear : clearToGroup b = ((), b) := h.popTo_eq (Element.isHtml_mono ht (by decide))
  have hins := h.puts.insertTag_eq (not_template_of_admits ha)
  unfold inTableBody
  dsimp only
  rw [if_pos hn]
  refine ⟨_, (bind_eq hclear).trans ((bind_eq hins).trans (bind_eq rfl)), ?_⟩
  refine h.opens_part ha (by rw [hn]; rfl) (.none (endsFormatting_tag (by rw [hn]; rfl))) ?_
  simp [modeOf, Element.isHtml, Tag.element, hn]

/-- A cell in a row. -/
theorem cellStart_starts (h : Stands (t :: outer) b) (ht : t.isHtml ["tr"] = true)
    (ha : admits (t :: outer) tag.name = true) (hn : tag.name ∈ ["td", "th"]) :
    ∃ b', inRow (.startTag tag) b = (.done, b') ∧ Starts (t :: outer) tag.element b b' := by
  have hclear : clearToRow b = ((), b) := h.popTo_eq (Element.isHtml_mono ht (by decide))
  have hins := h.puts.insertTag_eq (not_template_of_admits ha)
  have hfacts : ∀ n ∈ ["td", "th"], (decide (n = "th") || decide (n = "td")) = true ∧
    partTags.contains n = true ∧ (objectNames ++ ["caption", "td", "th"]).contains n = true ∧
    ["td", "th"].contains n = true := by decide
  obtain ⟨hcell, hpart, hformatting, hmode⟩ := hfacts tag.name hn
  unfold inRow
  dsimp only
  rw [if_pos hcell]
  refine ⟨_, (bind_eq hclear).trans ((bind_eq hins).trans ((bind_eq rfl).trans (bind_eq rfl))), ?_⟩
  have hm : endsFormatting tag.element = true := (Element.isHtml_eq rfl _).trans hformatting
  refine h.opens_part ha hpart (.marker hm) ?_
  rw [modeOf, Element.isHtml_eq rfl, Tag.element, hmode]
  rfl

/-- A column. -/
theorem columnStart_starts (h : Stands outer b) (ha : admits outer tag.name = true)
    (hn : tag.name = "col") :
    ∃ b', inColumnGroup (.startTag tag) b = (.done, b') ∧ Starts outer tag.element b b' := by
  have hvoid := h.puts.insertVoid_eq (not_template_of_admits ha)
  unfold inColumnGroup
  dsimp only
  rw [if_neg (by rw [hn]; decide), if_pos hn]
  exact ⟨_, bind_eq hvoid, h.starts_void (by rw [hn]; rfl)⟩

/-! ## What is around a part -/

/-- A part stands right inside of what it belongs into. -/
theorem exists_holder (parts : List String × List String) (hparts : parts ∈ tableParts)
    {name : String} (ha : admits outer name = true) (hn : name ∈ parts.2) :
    ∃ t inner, outer = t :: inner ∧ t.isHtml parts.1 = true := by
  have hunique : ∀ p ∈ tableParts, ∀ q ∈ tableParts, ∀ n ∈ p.2, n ∈ q.2 → p = q := by decide
  have hirregular : ∀ p ∈ tableParts, ∀ n ∈ p.2, irregularNames.contains n = true := by decide
  cases hp : partsOf? outer with
  | none =>
    have hi := not_mem_irregularNames hp ha
    rw [hirregular parts hparts name hn] at hi
    cases hi
  | some names =>
    obtain ⟨t, inner, ho, parts', hparts', ht, rfl⟩ := exists_part hp
    rw [admits, hp, List.contains_iff_mem] at ha
    rw [← hunique parts hparts parts' hparts' name hn ha] at ht
    exact ⟨t, inner, ho, ht⟩

theorem modeOf_table (ht : t.isHtml ["table"] = true) : modeOf (t :: outer) = .inTable := by
  simp only [Element.isHtml, Bool.and_eq_true, decide_eq_true_eq, List.contains_iff_mem,
    List.mem_singleton] at ht
  simp [modeOf, Element.isHtml, ht, groupNames]

theorem modeOf_group (ht : t.isHtml groupNames = true) : modeOf (t :: outer) = .inTableBody := by
  simp only [Element.isHtml, Bool.and_eq_true, decide_eq_true_eq, List.contains_iff_mem] at ht
  have hn : ∀ n ∈ groupNames, n ≠ "td" ∧ n ≠ "th" ∧ n ≠ "tr" := by decide
  simp [modeOf, Element.isHtml, ht, hn t.name ht.2]

theorem modeOf_row (ht : t.isHtml ["tr"] = true) : modeOf (t :: outer) = .inRow := by
  simp only [Element.isHtml, Bool.and_eq_true, decide_eq_true_eq, List.contains_iff_mem,
    List.mem_singleton] at ht
  simp [modeOf, Element.isHtml, ht]

theorem modeOf_cell (ht : t.isHtml ["td", "th"] = true) : modeOf (t :: outer) = .inCell := by
  rw [modeOf, ht]
  rfl

theorem modeOf_caption (ht : t.isHtml ["caption"] = true) : modeOf (t :: outer) = .inCaption := by
  simp only [Element.isHtml, Bool.and_eq_true, decide_eq_true_eq, List.contains_iff_mem,
    List.mem_singleton] at ht
  simp [modeOf, Element.isHtml, ht, groupNames]

theorem modeOf_columns (ht : t.isHtml ["colgroup"] = true) :
    modeOf (t :: outer) = .inColumnGroup := by
  simp only [Element.isHtml, Bool.and_eq_true, decide_eq_true_eq, List.contains_iff_mem,
    List.mem_singleton] at ht
  simp [modeOf, Element.isHtml, ht, groupNames]

/-- Where everything but parts of tables is admitted, the rules are those of the body, of a cell or
    of a caption. -/
theorem Standing.modeOf_eq {d : Draft} {ids : List NodeId} {fs : List Formatting}
    (h : Standing d ids outer fs) (hp : partsOf? outer = none) :
    modeOf outer = .inBody ∨ modeOf outer = .inCell ∨ modeOf outer = .inCaption := by
  induction h with
  | body _ _ _ hv hn hv' hn' => simp [modeOf, Element.isHtml, hv, hn, hv', hn', groupNames]
  | @inside id e ids outer added fs hs _ _ hv ha hvoid _ ih =>
    by_cases hcell : e.isHtml ["td", "th"] = true
    · exact Or.inr (Or.inl (modeOf_cell hcell))
    by_cases hcaption : e.isHtml ["caption"] = true
    · exact Or.inr (Or.inr (modeOf_caption hcaption))
    have hholder : ∀ parts ∈ tableParts, ¬ e.isHtml parts.1 = true := by
      simpa [partsOf?, List.find?_eq_none] using hp
    have hmode : modeOf (e :: outer) = modeOf outer := by
      simp only [tableParts, List.forall_mem_cons] at hholder
      rw [modeOf, if_neg hcell, if_neg hholder.2.2.1, if_neg hholder.2.1, if_neg hcaption,
        if_neg hholder.2.2.2.1, if_neg hholder.1]
    rw [hmode]
    refine ih ?_
    -- an element among parts of tables is one of them, and those have been ruled out
    cases ho : partsOf? outer with
    | none => rfl
    | some names =>
      obtain ⟨_, _, -, parts, hparts, -, rfl⟩ := exists_part ho
      rw [admits, ho, List.contains_iff_mem] at ha
      have hn : ∀ parts ∈ tableParts, ∀ n ∈ parts.2, n ∈ ["td", "th"] ∨ n ∈ ["caption"] ∨
        (∃ p ∈ tableParts, n ∈ p.1) ∨ voidNames.contains n = true := by decide
      have he {names : List String} (hm : e.name ∈ names) : e.isHtml names = true := by
        rw [Element.isHtml_eq hv, List.contains_iff_mem]
        exact hm
      rcases hn parts hparts e.name ha with hn | hn | ⟨p, hp, hn⟩ | hn
      · exact absurd (he hn) hcell
      · exact absurd (he hn) hcaption
      · exact absurd (he hn) (hholder p hp)
      · rw [hvoid] at hn
        cases hn

/-! ## End tags -/

namespace Innermost

variable {id : NodeId} {ids : List NodeId} {added fs : List Formatting}
  (i : Innermost e outer b id ids added fs) (h : Stands (e :: outer) b)
include i h

/-- A part of a table is closed. -/
theorem ends_part (hn : partTags.contains e.name = true) {outside : Mode}
    (hm : outside = modeOf outer) :
    Ends outer b { b with stack := ids, formatting := fs, mode := outside } := by
  have hform : ∀ n ∈ partTags, ["form"].contains n = false := by decide
  refine .of_stack h.grown i.stack (h.closes i.standing hm ?_) rfl rfl rfl rfl
  rw [h.form, i.stack, formOf, i.isHtml_eq, hform e.name (List.contains_iff_mem.1 hn)]
  rfl

omit h in
/-- What belongs right into a table has its mode around it. -/
theorem modeOf_eq_inTable (hn : e.name ∈ ["caption", "colgroup"] ++ groupNames) :
    Mode.inTable = modeOf outer := by
  obtain ⟨t, inner, rfl, ht⟩ :=
    exists_holder (["table"], ["caption", "colgroup"] ++ groupNames) (by decide) i.admitted hn
  exact (modeOf_table ht).symm

theorem captionEnd_ends (hn : e.name = "caption") :
    ∃ b', inCaption (.endTag e.name) b = (.done, b') ∧ Ends outer b b' := by
  have hname : ["caption"].contains e.name = true := by rw [hn]; rfl
  have hm : endsFormatting e = true := (i.isHtml_eq _).trans (by rw [hn]; rfl)
  unfold inCaption
  dsimp only
  rw [if_pos hn]
  refine ⟨_, (bind_eq (i.inScope_eq h _ hname)).trans
    ((bind_eq (i.closeImplied_eq (by rw [hn]; decide))).trans
    ((bind_eq (i.popThrough_eq hname)).trans ((bind_eq (i.clearToMarker_eq hm)).trans
    (bind_eq rfl)))), ?_⟩
  exact i.ends_part h (by rw [hn]; rfl) (i.modeOf_eq_inTable (by rw [hn]; decide))

theorem columnsEnd_ends (hn : e.name = "colgroup") :
    ∃ b', inColumnGroup (.endTag e.name) b = (.done, b') ∧ Ends outer b b' := by
  have hcurrent : currentIs ["colgroup"] b = (true, b) := by
    rw [h.currentIs_eq, i.isHtml_eq, hn]
    rfl
  have hfs : fs = b.formatting :=
    i.formatting_eq ((i.isHtml_eq _).trans (by rw [hn]; rfl)) (by rw [hn]; rfl)
  subst hfs
  unfold inColumnGroup
  dsimp only
  rw [if_pos hn]
  refine ⟨_, (bind_eq hcurrent).trans ((bind_eq i.pop_eq).trans (bind_eq rfl)), ?_⟩
  exact i.ends_part h (by rw [hn]; rfl) (i.modeOf_eq_inTable (by rw [hn]; decide))

theorem groupEnd_ends (hn : e.name ∈ groupNames) :
    ∃ b', inTableBody (.endTag e.name) b = (.done, b') ∧ Ends outer b b' := by
  have hfacts : ∀ n ∈ groupNames, n ∈ ["caption", "colgroup"] ++ groupNames ∧
    partTags.contains n = true ∧ (objectNames ++ ["caption", "td", "th"]).contains n = false ∧
    ("a" :: "nobr" :: formattingNames).contains n = false := by decide
  obtain ⟨htable, hpart, hmarker, hformatting⟩ := hfacts e.name hn
  have hclear : clearToGroup b = ((), b) := h.popTo_eq (by
    rw [i.isHtml_eq, List.contains_iff_mem]
    exact List.mem_cons_of_mem _ (List.mem_cons_of_mem _ hn))
  have hfs : fs = b.formatting := i.formatting_eq ((i.isHtml_eq _).trans hmarker) hformatting
  subst hfs
  unfold inTableBody
  dsimp only
  rw [if_pos (List.contains_iff_mem.2 hn)]
  refine ⟨_, (bind_eq (i.inScope_eq h _ (by simp))).trans ((bind_eq hclear).trans
    ((bind_eq i.pop_eq).trans (bind_eq rfl))), ?_⟩
  exact i.ends_part h hpart (i.modeOf_eq_inTable htable)

theorem rowEnd_ends (hn : e.name = "tr") :
    ∃ b', inRow (.endTag e.name) b = (.done, b') ∧ Ends outer b b' := by
  obtain ⟨t, inner, rfl, ht⟩ :=
    exists_holder (groupNames, ["tr"]) (by decide) i.admitted (by rw [hn]; decide)
  have hname : ["tr"].contains e.name = true := by rw [hn]; rfl
  have hclear : clearToRow b = ((), b) := h.popTo_eq ((i.isHtml_eq _).trans (by rw [hn]; rfl))
  have hfs : fs = b.formatting :=
    i.formatting_eq ((i.isHtml_eq _).trans (by rw [hn]; rfl)) (by rw [hn]; rfl)
  subst hfs
  unfold inRow
  dsimp only
  rw [if_pos hn]
  refine ⟨_, (bind_eq (i.inScope_eq h _ hname)).trans ((bind_eq hclear).trans
    ((bind_eq i.pop_eq).trans (bind_eq rfl))), ?_⟩
  exact i.ends_part h (by rw [hn]; rfl) (modeOf_group ht).symm

theorem cellEnd_ends (hn : e.name ∈ ["td", "th"]) :
    ∃ b', inCell (.endTag e.name) b = (.done, b') ∧ Ends outer b b' := by
  obtain ⟨t, inner, rfl, ht⟩ := exists_holder (["tr"], ["td", "th"]) (by decide) i.admitted hn
  have hfacts : ∀ n ∈ ["td", "th"], (decide (n = "td") || decide (n = "th")) = true ∧
    impliedNames.contains n = false ∧ partTags.contains n = true ∧
    (objectNames ++ ["caption", "td", "th"]).contains n = true := by decide
  obtain ⟨hcell, himplied, hpart, hmarker⟩ := hfacts e.name hn
  have hname : [e.name].contains e.name = true := by simp
  unfold inCell
  dsimp only
  rw [if_pos hcell]
  refine ⟨_, (bind_eq (i.inScope_eq h _ hname)).trans ((bind_eq (i.closeImplied_eq himplied)).trans
    ((bind_eq (i.popThrough_eq hname)).trans
    ((bind_eq (i.clearToMarker_eq ((i.isHtml_eq _).trans hmarker))).trans (bind_eq rfl)))), ?_⟩
  exact i.ends_part h hpart (modeOf_row ht).symm

theorem tableEnd_ends (hn : e.name = "table") :
    ∃ b', inTable (.endTag e.name) b = (.done, b') ∧ Ends outer b b' := by
  have hfs : fs = b.formatting :=
    i.formatting_eq ((i.isHtml_eq _).trans (by rw [hn]; rfl)) (by rw [hn]; rfl)
  have hstanding : Standing ({ b with stack := ids } : Builder).draft ids outer fs := i.standing
  have hmode := hstanding.modeFor_eq
  have hname : ["table"].contains e.name = true := by rw [hn]; rfl
  unfold inTable
  dsimp only
  rw [if_pos hn]
  refine ⟨{ b with stack := ids, mode := modeFor { b with stack := ids } ids }, ?_, ?_⟩
  · exact (bind_eq (i.inScope_eq h _ hname)).trans
      ((bind_eq (i.popThrough_eq hname)).trans (bind_eq rfl))
  subst hfs
  refine .of_stack h.grown i.stack (h.closes i.standing hmode ?_) rfl rfl rfl rfl
  rw [h.form, i.stack, formOf, i.isHtml_eq, hn]
  rfl

end Innermost

end SchemaExtraction.Markup
