import SchemaExtraction.Proofs.Markup.StartTags

/-!
# End tags in the body

The end tag of the innermost open element closes that element and no other one. An entry that the
element has in the list of formatting elements goes with it.

Results:
* `Innermost.ends_with`, `Innermost.ends_pop`: the machine after an element has been closed.
* `Innermost.bodyEnd_ends`: every end tag of an element that has been opened in the body.
-/

namespace SchemaExtraction.Markup

open Build

/-- Elements that are more than closed by their end tags in the body. -/
def ownEnds : List String :=
  ["table", "form"] ++ objectNames ++ "a" :: "nobr" :: formattingNames

variable {e : Element} {outer : List Element} {b : Builder} {id : NodeId} {ids : List NodeId}
  {added fs : List Formatting}

namespace Innermost

variable (i : Innermost e outer b id ids added fs)
include i

theorem isHtml_eq (names : List String) : e.isHtml names = names.contains e.name :=
  Element.isHtml_eq i.html names

theorem popThrough_eq {names : List String} (hn : names.contains e.name = true) :
    popThrough names b = ((), { b with stack := ids }) := by
  have hd : closeThrough (·.isHtml names) b.draft b.stack = ids := by
    have htop : (b.draft.element id).isHtml names = true := by rw [i.element, i.isHtml_eq, hn]
    rw [closeThrough, i.stack, List.dropWhile_cons_of_neg (by rw [htop]; decide)]
    rfl
  show ((), { b with stack := closeThrough _ _ _ }) = _
  rw [hd]

theorem closeImplied_eq {names : List String} (hn : names.contains e.name = false) :
    closeImplied names b = ((), b) := by
  have hd : b.stack.dropWhile (fun id => (b.draft.element id).isHtml names) = b.stack := by
    rw [i.stack, List.dropWhile_cons_of_neg (by rw [i.element, i.isHtml_eq, hn]; decide)]
  show ((), { b with stack := b.stack.dropWhile _ }) = _
  rw [hd]

theorem closeNamed_eq : closeNamed e.name b = ((), { b with stack := ids }) := by
  have hn : e.isHtml [e.name] = true := by rw [i.isHtml_eq]; simp
  have hd : b.stack.dropWhile (fun id => !(b.draft.element id).isHtml [e.name] &&
      !(b.draft.element id).isHtml specialNames) = id :: ids := by
    rw [i.stack, List.dropWhile_cons_of_neg (by rw [i.element, hn]; exact Bool.false_ne_true)]
  refine (bind_eq rfl).trans ?_
  dsimp only
  rw [hd]
  dsimp only
  rw [i.element, hn]
  rfl

theorem inScope_eq (h : Stands (e :: outer) b) (ends : Element → Bool) {names : List String}
    (hn : names.contains e.name = true) : inScope ends names b = (true, b) := by
  rw [h.inScope_eq, isWithin, i.isHtml_eq, hn, Bool.true_or]

theorem not_irregular (hp : partsOf? outer = none) : irregularNames.contains e.name = false :=
  not_mem_irregularNames hp i.admitted

theorem closeInScope_eq (h : Stands (e :: outer) b) (hn : impliedNames.contains e.name = false) :
    closeInScope e.name b = ((), { b with stack := ids }) := by
  have hname : [e.name].contains e.name = true := by simp
  exact (bind_eq (i.inScope_eq h endsScope hname)).trans
    ((bind_eq (i.closeImplied_eq hn)).trans (i.popThrough_eq hname))

theorem pop_eq : pop b = ((), { b with stack := ids }) := by
  show ((), { b with stack := b.stack.drop 1 }) = _
  rw [i.stack]
  rfl

/-- The marker of an element is the last one. -/
theorem clearToMarker_eq (hm : endsFormatting e = true) :
    clearToMarker { b with stack := ids } = ((), { b with stack := ids, formatting := fs }) := by
  have hfs : (b.formatting.dropWhile (· ≠ Formatting.marker)).drop 1 = fs := by
    rw [i.formatting]
    cases i.entry with
    | none hn => simp [hm] at hn
    | element tag _ hn => simp [hm] at hn
    | marker => rfl
  show ((), { b with
    stack := ids, formatting := (b.formatting.dropWhile (· ≠ Formatting.marker)).drop 1 }) = _
  rw [hfs]

/-- An element that is none of formatting has added nothing to the list. -/
theorem formatting_eq (hm : endsFormatting e = false)
    (hf : ("a" :: "nobr" :: formattingNames).contains e.name = false) : fs = b.formatting := by
  have hadd : added = [] := by
    cases i.entry with
    | none => rfl
    | element tag hn =>
      rw [hf] at hn
      cases hn
    | marker hn =>
      rw [hm] at hn
      cases hn
  rw [i.formatting, hadd, List.nil_append]

variable (hp : partsOf? outer = none)
include hp

theorem endsFormatting_eq_false (ho : objectNames.contains e.name = false) :
    endsFormatting e = false := by
  have hparts : e.isHtml ["caption", "td", "th"] = false :=
    Element.isHtml_eq_false (i.not_irregular hp) (by decide)
  rw [i.isHtml_eq] at hparts
  rw [endsFormatting, i.isHtml_eq, List.contains_append, ho, hparts, Bool.or_self]

variable (h : Stands (e :: outer) b)
include h

/-- An element is closed with what it has added to the list of formatting elements. -/
theorem ends_with (ht : e.name ≠ "table") (hf : e.name ≠ "form") :
    Ends outer b { b with stack := ids, formatting := fs } := by
  refine .of_stack h.grown i.stack (h.closes i.standing ?_ ?_) rfl rfl rfl rfl
  · exact h.mode.trans (Stands.modeOf_eq (i.not_irregular hp) (by rw [i.isHtml_eq]; simpa using ht))
  · rw [h.form, i.stack, formOf, i.isHtml_eq, if_neg (by simpa using hf)]

/-- An element is closed that is none of formatting. -/
theorem ends_pop (hn : ownEnds.contains e.name = false) :
    Ends outer b { b with stack := ids } := by
  have hobjects : objectNames.contains e.name = false := contains_eq_false_of_subset hn (by decide)
  have hformatting : ("a" :: "nobr" :: formattingNames).contains e.name = false :=
    contains_eq_false_of_subset hn (by decide)
  have hfs := i.formatting_eq (i.endsFormatting_eq_false hp hobjects) hformatting
  subst hfs
  exact i.ends_with hp h (ne_of_contains hn (by decide)) (ne_of_contains hn (by decide))

/-- An element in its scope is closed when there is nothing inside of it to close first. -/
theorem closeScoped_ends {ends : Element → Bool} {names : List String} {close : Build Unit}
    (hn : names.contains e.name = true) (hc : close b = ((), b))
    (hplain : ownEnds.contains e.name = false) :
    ∃ b', (do
      if ← inScope ends names then
        close
        popThrough names
      done : Build Outcome) b = (.done, b') ∧ Ends outer b b' :=
  ⟨_, (bind_eq (i.inScope_eq h ends hn)).trans
    ((bind_eq hc).trans (bind_eq (i.popThrough_eq hn))), i.ends_pop hp h hplain⟩

theorem closeForm_ends (hname : e.name = "form") :
    ∃ b', closeForm b = ((), b') ∧ Ends outer b b' := by
  have he (names : List String) : e.isHtml names = names.contains "form" :=
    (i.isHtml_eq names).trans (congrArg names.contains hname)
  have hf : b.form = some id := by
    rw [h.form, i.stack, formOf, he]
    rfl
  have hs : scopeHolds b.draft endsScope (· = id) b.stack = true := by
    rw [i.stack, scopeHolds, decide_eq_true rfl, Bool.true_or]
  have himplied : b.stack.dropWhile (fun id => (b.draft.element id).isHtml impliedNames) =
      b.stack := by
    rw [i.stack, List.dropWhile_cons_of_neg (by rw [i.element, he]; decide)]
  have hclose : closeImplied impliedNames { b with form := none } =
      ((), { b with form := none }) := by
    show ((), { b with form := none, stack := b.stack.dropWhile _ }) = _
    rw [himplied]
  have ha := i.admitted
  rw [hname] at ha
  have hnone : formOf ids outer = none :=
    Stands.formOf_eq_none (isWithin_of_admits hp ha .form (by simp [Interruption.all]) rfl)
  have hfs := i.formatting_eq ((i.isHtml_eq _).trans (by rw [hname]; rfl)) (by rw [hname]; rfl)
  refine ⟨{ b with form := none, stack := ids }, ?_, ?_⟩
  · refine (bind_eq h.isOpen_template).trans ((bind_eq rfl).trans ((bind_eq rfl).trans ?_))
    dsimp only
    rw [hf]
    dsimp only
    rw [if_pos hs]
    refine (bind_eq hclose).trans ?_
    show ((), { b with form := none, stack := b.stack.erase id }) = _
    rw [i.stack, List.erase_cons_head]
  · subst hfs
    refine .of_stack h.grown i.stack (h.closes i.standing ?_ hnone.symm) rfl rfl rfl rfl
    exact h.mode.trans (Stands.modeOf_eq (i.not_irregular hp) (he _))

omit hp h

/-- One round of closing an element that has an entry is enough. -/
theorem closeFormattingOnce_eq {tag : Tag} (hadd : added = [.element id tag])
    (hname : tag.name = e.name) :
    closeFormattingOnce e.name b = (false, { b with stack := ids, formatting := fs }) := by
  have hfs : b.formatting = .element id tag :: fs := by rw [i.formatting, hadd]; rfl
  have hfind : findFormatting? e.name b.formatting = some (id, tag) := by
    rw [hfs]
    simp [findFormatting?, sinceMarker, hname]
  have hspan : b.stack.span (· ≠ id) = ([], id :: ids) := by
    rw [i.stack, List.span_eq_takeWhile_dropWhile]
    simp
  have hscope : scopeHolds b.draft endsScope (· = id) b.stack = true := by
    rw [i.stack, scopeHolds, decide_eq_true rfl, Bool.true_or]
  have hdrop : b.formatting.filter (fun f => !Formatting.isOf id f) = fs := by
    rw [hfs, List.filter_cons_of_neg (by simp [Formatting.isOf]), List.filter_eq_self]
    exact fun f hf => by rw [i.standing.isOf_eq_false i.not_mem hf]; rfl
  refine (bind_eq rfl).trans ?_
  dsimp only
  rw [hfind]
  dsimp only
  rw [hspan]
  dsimp only
  rw [if_neg (by simp), hscope]
  show (false, { b with
    stack := ids, formatting := b.formatting.filter fun f => !Formatting.isOf id f }) = _
  rw [hdrop]

include hp h

/-- A formatting element is closed with its entry, if it has still got one. -/
theorem closeFormatting_ends (hf : ("a" :: "nobr" :: formattingNames).contains e.name = true) :
    ∃ b', closeFormatting e.name b = ((), b') ∧ Ends outer b b' := by
  have ho : ∀ n ∈ "a" :: "nobr" :: formattingNames, n ≠ "table" ∧ n ≠ "form" ∧
    (objectNames ++ ["caption", "td", "th"]).contains n = false := by decide
  obtain ⟨ht, hform, ho⟩ := ho e.name (List.contains_iff_mem.1 hf)
  have hn : e.isHtml [e.name] = true := by rw [i.isHtml_eq]; simp
  have hcurrent : b.stack.headD root = id := by rw [i.stack]; rfl
  refine ⟨{ b with stack := ids, formatting := fs }, ?_, i.ends_with hp h ht hform⟩
  refine (bind_eq rfl).trans ?_
  rw [hcurrent, i.element, hn, Bool.true_and]
  -- with an entry one round is enough; without one the element is taken off the stack as it is
  cases i.entry with
  | none =>
    have hfs : b.formatting = fs := i.formatting
    have hnone : formattingTag? id b.formatting = none := by
      refine List.findSome?_eq_none_iff.2 fun f hf => ?_
      have hnew := i.standing.isOf_eq_false i.not_mem (hfs ▸ hf)
      cases f with
      | marker => rfl
      | element n tag => exact if_neg (of_decide_eq_false hnew)
    rw [hnone, ← hfs]
    show ((), { b with stack := b.stack.drop 1 }) = _
    rw [i.stack]
    rfl
  | element tag _ _ hname =>
    have hsome : formattingTag? id b.formatting = some tag := by
      rw [i.formatting]
      simp [formattingTag?]
    rw [hsome]
    exact bind_eq (i.closeFormattingOnce_eq rfl hname)
  | marker hm =>
    rw [endsFormatting, i.isHtml_eq, ho] at hm
    cases hm

/-- The end tag of an element that has been opened in the body. -/
theorem bodyEnd_ends (ht : e.name ≠ "table") :
    ∃ b', bodyEnd e.name b = (.done, b') ∧ Ends outer b b' := by
  have hi := i.not_irregular hp
  have top {names : List String} (hn : names.contains e.name = true) (ends : Element → Bool) :=
    i.inScope_eq h ends hn
  unfold bodyEnd
  rw [if_neg (ne_of_contains hi (by decide)), if_neg (ne_of_contains hi (by decide)),
    if_neg (ne_of_contains hi (by decide))]
  -- the rules as they are tried: what each of them closes is the innermost element alone
  by_cases hform : e.name = "form"
  · rw [if_pos hform]
    obtain ⟨b', hb, hs⟩ := i.closeForm_ends hp h hform
    exact ⟨b', bind_eq hb, hs⟩
  rw [if_neg hform]
  by_cases hparagraph : e.name = "p"
  · rw [if_pos hparagraph]
    have hclose : closeParagraph b = ((), { b with stack := ids }) :=
      (bind_eq (i.closeImplied_eq (by rw [hparagraph]; decide))).trans
        (i.popThrough_eq (by rw [hparagraph]; rfl))
    exact ⟨_, (bind_eq (top (by rw [hparagraph]; rfl) _)).trans (bind_eq hclose),
      i.ends_pop hp h (by rw [hparagraph]; rfl)⟩
  rw [if_neg hparagraph]
  by_cases hli : e.name = "li"
  · rw [if_pos hli]
    have hclose : closeImpliedBut "li" b = ((), b) :=
      i.closeImplied_eq (by rw [hli]; decide)
    exact i.closeScoped_ends hp h (by rw [hli]; rfl) hclose (by rw [hli]; rfl)
  rw [if_neg hli]
  by_cases hdd : (decide (e.name = "dd") || decide (e.name = "dt")) = true
  · rw [if_pos hdd]
    have hn : ∀ n ∈ ["dd", "dt"], (impliedNames.erase n).contains n = false ∧
      ownEnds.contains n = false := by decide
    obtain ⟨himplied, hplain⟩ := hn e.name (by simpa using hdd)
    have hname : [e.name].contains e.name = true := by simp
    have hclose : closeImpliedBut e.name b = ((), b) := i.closeImplied_eq himplied
    exact i.closeScoped_ends hp h hname hclose hplain
  rw [if_neg hdd]
  by_cases hheading : headingNames.contains e.name = true
  · rw [if_pos hheading]
    have hn : ∀ n ∈ headingNames, impliedNames.contains n = false ∧
      ownEnds.contains n = false := by decide
    obtain ⟨himplied, hplain⟩ := hn e.name (List.contains_iff_mem.1 hheading)
    exact i.closeScoped_ends hp h hheading (i.closeImplied_eq himplied) hplain
  rw [if_neg hheading]
  by_cases hblock : (blockNames.contains e.name ||
      ["button", "listing", "pre"].contains e.name) = true
  · rw [if_pos hblock]
    have hn : ∀ n ∈ blockNames ++ ["button", "listing", "pre"],
      impliedNames.contains n = false ∧ ownEnds.contains n = false := by decide
    obtain ⟨himplied, hplain⟩ := hn e.name (by simpa using hblock)
    exact ⟨_, bind_eq (i.closeInScope_eq h himplied), i.ends_pop hp h hplain⟩
  rw [if_neg hblock]
  by_cases hobject : objectNames.contains e.name = true
  · rw [if_pos hobject]
    have hn : ∀ n ∈ objectNames, impliedNames.contains n = false := by decide
    have himplied := hn e.name (List.contains_iff_mem.1 hobject)
    have hname : [e.name].contains e.name = true := by simp
    have hmarker : endsFormatting e = true := by
      rw [endsFormatting, i.isHtml_eq, List.contains_append, hobject, Bool.true_or]
    exact ⟨_, (bind_eq (top hname _)).trans ((bind_eq (i.closeInScope_eq h himplied)).trans
      (bind_eq (i.clearToMarker_eq hmarker))), i.ends_with hp h ht hform⟩
  rw [if_neg hobject]
  by_cases hformatting : (decide (e.name = "a") || decide (e.name = "nobr") ||
      formattingNames.contains e.name) = true
  · rw [if_pos hformatting]
    obtain ⟨b', hb, hs⟩ := i.closeFormatting_ends hp h (by simpa [or_assoc] using hformatting)
    exact ⟨b', bind_eq hb, hs⟩
  rw [if_neg hformatting]
  have hbr : e.name ≠ "br" := fun hbr => by
    have hvoid := i.not_void
    rw [hbr] at hvoid
    contradiction
  rw [if_neg hbr]
  -- an ordinary element has no end of its own
  refine ⟨_, bind_eq i.closeNamed_eq, i.ends_pop hp h (Bool.eq_false_iff.2 fun hm => ?_)⟩
  have hn : ∀ n ∈ ownEnds, n = "table" ∨ n = "form" ∨ objectNames.contains n = true ∨
    (decide (n = "a") || decide (n = "nobr") || formattingNames.contains n) = true := by decide
  rcases hn e.name (List.contains_iff_mem.1 hm) with hn | hn | hn | hn
  · exact ht hn
  · exact hform hn
  · exact hobject hn
  · exact hformatting hn

end Innermost

end SchemaExtraction.Markup
