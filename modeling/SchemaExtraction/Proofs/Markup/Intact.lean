import SchemaExtraction.Proofs.Markup.RoundTrip

/-!
# What reading loses

A page is read with its line ends made line feeds and without null characters, and a line feed right
after some start tags is dropped. Content that has nothing of this is read back as it was, up to the
joining of texts.

Results:
* `cr_not_mem_write`: content that is read as it is written has no line ends to unify.
* `Forest.reread_alike`: intact content is read back.
-/

namespace SchemaExtraction.Markup

open Build

variable {e : Element} {outer : List Element}

/-! ## Line ends -/

theorem unifyLinesFrom_eq {cs : List Char} (h : '\r' ∉ cs) (acc : List Char) :
    unifyLinesFrom acc cs = acc.reverse ++ cs := by
  induction cs generalizing acc with
  | nil => simp [unifyLinesFrom]
  | cons c cs ih =>
    simp only [List.mem_cons, not_or] at h
    rw [unifyLinesFrom, ih h.2]
    · simp
    · rintro _ rfl
      exact absurd rfl h.1
    · rintro rfl
      exact absurd rfl h.1

theorem cr_not_mem_escape {quoted : Bool} {cs : List Char} (h : '\r' ∉ cs) :
    '\r' ∉ escape quoted cs := by
  simp only [escape, List.mem_flatMap, not_exists, not_and]
  intro c hc
  have hne : '\r' ≠ c := fun he => h (he ▸ hc)
  unfold escapeChar
  split_ifs
  · decide
  · decide
  · decide
  · decide
  · decide
  · simpa using hne

theorem cr_not_mem_name {stop : Char → Bool} {name : List Char} (hs : stop '\r' = true)
    (h : isWritableName stop name = true) : '\r' ∉ name := by
  intro hm
  simp only [isWritableName, Bool.and_eq_true, List.all_eq_true] at h
  have := (h.2 _ hm).2
  simp [hs] at this

theorem cr_not_mem_attribute {a : Attribute} (h : a.isWritable = true) : '\r' ∉ a.write := by
  simp only [Attribute.isWritable, Bool.and_eq_true, decide_eq_true_eq, List.all_eq_true] at h
  obtain ⟨⟨hspace, hname⟩, hvalue⟩ := h
  have hn := cr_not_mem_name (by decide) hname
  have hv : '\r' ∉ escape true a.value.toList := cr_not_mem_escape fun hm => (hvalue _ hm).1 rfl
  simp [Attribute.write, Attribute.writtenName, hspace, hn, hv]

theorem cr_not_mem_tags (h : e.isWritable = true) :
    '\r' ∉ e.writeStart ∧ '\r' ∉ e.writeEnd := by
  simp only [Element.isWritable, Bool.and_eq_true, List.all_eq_true] at h
  have hn := cr_not_mem_name (by decide) h.1.1.1.2
  have ha : ∀ a ∈ e.attributes, '\r' ∉ a.write := fun a hm => cr_not_mem_attribute (h.1.2 a hm)
  constructor
  · simpa [Element.writeStart, hn, List.mem_flatMap] using ha
  · simp [Element.writeEnd, hn]

theorem cr_not_mem_leaf {l : Leaf} (h : l.isRegular outer = true) : '\r' ∉ l.write false := by
  cases l with
  | doctype name => cases h
  | comment s =>
    have ho : "<!--".toList = ['<', '!', '-', '-'] := String.toList_ofList
    have hc : "-->".toList = ['-', '-', '>'] := String.toList_ofList
    simp only [Leaf.isRegular, Token.isWritableComment, Bool.and_eq_true, Bool.not_eq_true',
      List.contains_eq_mem, decide_eq_false_iff_not] at h
    rw [Leaf.write_comment, ho, hc]
    simp [h.2]
  | text s =>
    rw [Leaf.write_text]
    refine cr_not_mem_escape fun hm => ?_
    have := List.all_eq_true.1 h _ hm
    simp at this

theorem cr_not_mem_text {mode : TextMode} {content : Forest} (h : e.keeps mode content = true)
    (raw : Bool) : '\r' ∉ content.write raw := by
  cases ht : content.onlyText? with
  | none => rw [Element.keeps, ht] at h; cases h
  | some cs =>
    have hcs := (Element.keeps_text h ht).1
    rw [Forest.write_of_onlyText? ht]
    split_ifs
    · exact hcs
    · exact cr_not_mem_escape hcs

theorem cr_not_mem_write {f : Forest} {legacy : Bool} (h : f.isLegible legacy outer = true) :
    '\r' ∉ f.write false := by
  induction f generalizing outer with
  | nil => simp [Forest.write]
  | fragment content next => cases h
  | leaf l next ih =>
    rw [Forest.isLegible, Bool.and_eq_true] at h
    rw [Forest.write, List.mem_append, not_or]
    exact ⟨cr_not_mem_leaf h.1, ih h.2⟩
  | element e content next ihc ih =>
    rw [Forest.isLegible, Bool.and_eq_true, Bool.and_eq_true] at h
    obtain ⟨⟨he, hkind⟩, hnext⟩ := h
    obtain ⟨hstart, hend⟩ := cr_not_mem_tags he
    rw [Forest.write_element, List.mem_append, List.mem_append, not_or, not_or]
    refine ⟨⟨hstart, ?_⟩, ih hnext⟩
    split_ifs with hv
    · simp
    rw [List.mem_append, not_or]
    refine ⟨?_, hend⟩
    -- what holds nothing but text is not written like other content
    cases hm : textModeOf? e with
    | some mode =>
      rw [hm] at hkind
      simp only [Bool.and_eq_true] at hkind
      exact cr_not_mem_text hkind.1.2 _
    | none =>
      rw [hm] at hkind
      simp only [Bool.and_eq_true, hv, Bool.false_eq_true, if_false] at hkind
      rw [not_raw_of_admits hkind.1.1]
      exact ihc hkind.2

/-! ## Lost characters -/

namespace Forest

/-- The text that a forest begins with. -/
def opening : Forest → List Char
  | leaf (.text s) _ => s.toList
  | _ => []

/-- Whether a forest is read back where it has been written. -/
def isIntact : Forest → Bool
  | nil => true
  | leaf (.text s) next => s.toList ≠ [] && !s.toList.contains '\x00' && next.isIntact
  | leaf (.comment s) next => !s.toList.contains '\x00' && next.isIntact
  | leaf (.doctype _) _ => false
  | element e content next =>
    (!e.isHtml lineNames || content.opening.head? ≠ some '\n') && content.isIntact && next.isIntact
  | fragment _ _ => false

theorem readText_eq {skip : Bool} {cs : List Char} (hn : '\x00' ∉ cs)
    (hl : skip = true → cs.head? ≠ some '\n') : readText skip cs = cs := by
  cases skip with
  | false => exact filter_null hn
  | true =>
    have hline : afterLine cs = cs := by
      unfold afterLine
      split
      · exact absurd rfl (hl rfl)
      · rfl
    rw [readText, if_pos rfl, hline]
    exact filter_null hn

theorem ofText_toList {s : String} (hs : s.toList ≠ []) : ofText s.toList = leaf (.text s) nil := by
  rw [ofText, List.isEmpty_eq_false_iff.2 hs, String.ofList_toList]
  rfl

/-- Nodes after some text are alike if they are without it. -/
theorem Alike.after_text {f g : Forest} (h : f.Alike g) {skip : Bool} {cs : List Char}
    (hn : '\x00' ∉ cs) (hl : skip = true → cs.head? ≠ some '\n') :
    (ofText (readText skip cs) ++ f).Alike (ofText cs ++ g) := by
  rw [readText_eq hn hl]
  exact Alike.append rfl h

/-- Intact content is read back after some text. -/
theorem reread_alike {f : Forest} (hf : f.isIntact = true) {skip : Bool} {cs : List Char}
    (hn : '\x00' ∉ cs) (hl : skip = true → (cs ++ f.opening).head? ≠ some '\n') :
    (f.reread skip cs).Alike (ofText cs ++ f) := by
  have hnil : '\x00' ∉ ([] : List Char) := List.not_mem_nil
  induction f generalizing skip cs with
  | nil =>
    rw [show opening nil = [] from rfl, List.append_nil] at hl
    rw [reread, readText_eq hn hl, append_nil]
    rfl
  | leaf l next ih =>
    cases l with
    | text s =>
      simp only [isIntact, Bool.and_eq_true, Bool.not_eq_true', decide_eq_true_eq,
        List.contains_eq_mem, decide_eq_false_iff_not] at hf
      obtain ⟨⟨hne, hs⟩, hnext⟩ := hf
      -- texts side by side are one text, whose first character decides about a line break
      have hboth : '\x00' ∉ cs ++ s.toList := by simp [hn, hs]
      have hhead : (cs ++ s.toList ++ next.opening).head? = (cs ++ s.toList).head? :=
        List.head?_append_of_ne_nil _ (List.append_ne_nil_of_right_ne_nil _ hne)
      have hrest := ih hnext hboth (hhead ▸ hl)
      have hcut := (ofText_append cs s.toList).append (rfl : next.Alike next)
      rw [ofText_toList hne, append_assoc] at hcut
      exact hrest.trans hcut
    | comment s =>
      simp only [isIntact, Bool.and_eq_true, Bool.not_eq_true', List.contains_eq_mem,
        decide_eq_false_iff_not] at hf
      rw [show opening (leaf (.comment s) next) = [] from rfl, List.append_nil] at hl
      have hrest : (next.reread false []).Alike next := ih hf.2 hnil Bool.noConfusion
      rw [reread, Token.replaceNull_eq hf.1, String.ofList_toList]
      refine Alike.after_text ?_ hn hl
      exact Alike.append (f := leaf (.comment s) nil) rfl hrest
    | doctype name => cases hf
  | element e content next ihc ih =>
    simp only [isIntact, Bool.and_eq_true, Bool.or_eq_true, Bool.not_eq_true',
      decide_eq_true_eq] at hf
    obtain ⟨⟨hline, hcontent⟩, hnext⟩ := hf
    rw [show opening (element e content next) = [] from rfl, List.append_nil] at hl
    rw [reread]
    refine Alike.after_text ?_ hn hl
    have hinside : (content.reread (e.isHtml lineNames) []).Alike content :=
      ihc hcontent hnil fun h => hline.resolve_left (by rw [h]; exact Bool.noConfusion)
    exact (hinside.element e).append (ih hnext hnil Bool.noConfusion)
  | fragment content next => cases hf

/-- Intact content that is nothing but text is this text. -/
theorem ofText_alike {f : Forest} (hf : f.isIntact = true) {cs : List Char}
    (ht : f.onlyText? = some cs) (hn : '\x00' ∉ cs) : (ofText cs).Alike f := by
  have hread : (f.reread false []).Alike f := reread_alike hf List.not_mem_nil Bool.noConfusion
  rwa [reread_onlyText ht hn] at hread

end Forest
end SchemaExtraction.Markup
