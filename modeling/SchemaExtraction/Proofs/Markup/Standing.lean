import SchemaExtraction.Proofs.Markup.Growth
import SchemaExtraction.Proofs.Markup.Regular

/-!
# Where the machine stands

In regular content the machine for pages has no surprises: its stack is the open elements, its
draft only grows, its mode is that of the innermost open element that has one, and every element in
its list of formatting elements is still open.

Results:
* `Standing.scopeHolds_eq`, `Standing.openItem?_isSome`, `Standing.findFormatting?_eq_none`,
  `Standing.modeFor_eq`: what the machine finds among the open elements.
* `Builder.PutsInside.insert_eq`: nodes are put into the innermost open element.
* `Stands.holds`, `Stands.opens`, `Stands.closes`: what keeps the machine in regular content.
-/

namespace SchemaExtraction.Markup

open Build

theorem Draft.kind?_add {d : Draft} {id : NodeId} {kind kind' : Kind}
    (h : d.kind? id = some kind') : (d.add kind).kind? id = some kind' := by
  have hid := Nat.ne_of_lt (lt_size_of_kind? h)
  rw [kind?, add, Array.getElem?_push, if_neg hid, ← kind?, h]

theorem Draft.kind?_grow_of_some {d : Draft} {id parent : NodeId} {kind kind' : Kind}
    {e : Element} (hp : d.kind? parent = some (.element e)) (h : d.kind? id = some kind') :
    (d.grow parent kind).kind? id = some kind' := by
  rw [kind?_grow (lt_size_of_kind? hp), if_neg (Nat.ne_of_lt (lt_size_of_kind? h)), h]

/-! ## Open elements -/

/-- The mode inside of some open elements. -/
def modeOf : List Element → Mode
  | [] => .inBody
  | e :: outer =>
    if e.isHtml ["td", "th"] then .inCell
    else if e.isHtml ["tr"] then .inRow
    else if e.isHtml groupNames then .inTableBody
    else if e.isHtml ["caption"] then .inCaption
    else if e.isHtml ["colgroup"] then .inColumnGroup
    else if e.isHtml ["table"] then .inTable
    else modeOf outer

/-- The innermost open form. -/
def formOf : List NodeId → List Element → Option NodeId
  | id :: ids, e :: outer => if e.isHtml ["form"] then some id else formOf ids outer
  | _, _ => none

/-- What an element has added to the list of formatting elements. One whose entry was dropped,
    because there were too many others like it, has added nothing. -/
inductive Entry (id : NodeId) (e : Element) : List Formatting → Prop
  | none : endsFormatting e = false → Entry id e []
  | element (tag : Tag) : ("a" :: "nobr" :: formattingNames).contains e.name = true →
      endsFormatting e = false → tag.name = e.name → Entry id e [.element id tag]
  | marker : endsFormatting e = true → Entry id e [.marker]

/-- The open elements of a draft inside the body, innermost first: their numbers, what they are and
    what they have added to the list of formatting elements. -/
inductive Standing (d : Draft) : List NodeId → List Element → List Formatting → Prop
  | body {body root : NodeId} {b r : Element} : body ≠ root →
      d.kind? body = some (.element b) → d.kind? root = some (.element r) →
      b.vocabulary = .html → b.name = "body" → r.vocabulary = .html → r.name = "html" →
      Standing d [body, root] [b, r] []
  | inside {id : NodeId} {e : Element} {ids : List NodeId} {outer : List Element}
      {added fs : List Formatting} : Standing d ids outer fs → id ∉ ids →
      d.kind? id = some (.element e) → e.vocabulary = .html → admits outer e.name = true →
      voidNames.contains e.name = false → Entry id e added →
      Standing d (id :: ids) (e :: outer) (added ++ fs)

namespace Standing

variable {d d' : Draft} {ids : List NodeId} {outer : List Element} {fs : List Formatting}

theorem ne_nil (h : Standing d ids outer fs) : ids ≠ [] ∧ outer ≠ [] := by
  cases h <;> simp

theorem map_element (h : Standing d ids outer fs) : ids.map d.element = outer := by
  induction h with
  | body _ hb hr => simp [Draft.element_of_kind? hb, Draft.element_of_kind? hr]
  | inside _ _ hk _ _ _ _ ih => rw [List.map_cons, ih, Draft.element_of_kind? hk]

theorem exists_kind (h : Standing d ids outer fs) {id : NodeId} (hid : id ∈ ids) :
    ∃ e ∈ outer, d.kind? id = some (.element e) := by
  induction h with
  | body _ hb hr =>
    rcases List.mem_cons.1 hid with rfl | hid
    · exact ⟨_, by simp, hb⟩
    · obtain rfl := List.mem_singleton.1 hid
      exact ⟨_, by simp, hr⟩
  | inside _ _ hk _ _ _ _ ih =>
    rcases List.mem_cons.1 hid with rfl | hid
    · exact ⟨_, by simp, hk⟩
    · obtain ⟨e, he, hk⟩ := ih hid
      exact ⟨e, by simp [he], hk⟩

theorem not_template (h : Standing d ids outer fs) {e : Element} (he : e ∈ outer) :
    e.isHtml ["template"] = false := by
  induction h with
  | body _ _ _ _ hb _ hr =>
    simp only [List.mem_cons, List.not_mem_nil, or_false] at he
    rcases he with rfl | rfl
    · simp [Element.isHtml, hb]
    · simp [Element.isHtml, hr]
  | inside _ _ _ _ ha _ _ ih =>
    rcases List.mem_cons.1 he with rfl | he
    · exact Element.isHtml_eq_false (pageNames_of_admits ha) (by decide)
    · exact ih he

/-- What is open stays open in a draft with the same elements. -/
theorem mono (h : Standing d ids outer fs)
    (hk : ∀ id e, d.kind? id = some (.element e) → d'.kind? id = some (.element e)) :
    Standing d' ids outer fs := by
  induction h with
  | body hne hb hr hb' hr' hb'' hr'' => exact .body hne (hk _ _ hb) (hk _ _ hr) hb' hr' hb'' hr''
  | inside _ hid he hv ha hn hadd ih => exact .inside ih hid (hk _ _ he) hv ha hn hadd

/-- Every formatting element in the list is open. -/
theorem mem_of_mem (h : Standing d ids outer fs) {id : NodeId} {tag : Tag}
    (hf : Formatting.element id tag ∈ fs) : id ∈ ids := by
  induction h with
  | body => simp at hf
  | inside _ _ _ _ _ _ hadd ih =>
    rcases List.mem_append.1 hf with hf | hf
    · cases hadd with
      | none => simp at hf
      | element tag' => simp_all
      | marker => simp at hf
    · exact List.mem_cons_of_mem _ (ih hf)

theorem isOf_eq_false (h : Standing d ids outer fs) {id : NodeId} (hid : id ∉ ids)
    {f : Formatting} (hf : f ∈ fs) : f.isOf id = false := by
  cases f with
  | marker => rfl
  | element n tag =>
    refine decide_eq_false ?_
    rintro rfl
    exact hid (h.mem_of_mem hf)

/-- An element stays open when its entry is dropped. -/
theorem erase (h : Standing d ids outer fs) {f : Formatting} (hf : f ≠ .marker) :
    Standing d ids outer (fs.erase f) := by
  induction h with
  | body hne hb hr hb' hr' hb'' hr'' => exact .body hne hb hr hb' hr' hb'' hr''
  | inside hs hid he hv ha hn hadd ih =>
    cases hadd with
    | none hm => exact .inside ih hid he hv ha hn (.none hm)
    | element tag hname hm ht =>
      rw [List.singleton_append, List.erase_cons]
      split
      · exact .inside hs hid he hv ha hn (.none hm)
      · exact .inside ih hid he hv ha hn (.element tag hname hm ht)
    | marker hm =>
      rw [List.singleton_append, List.erase_cons_tail (by simpa using hf.symm)]
      exact .inside ih hid he hv ha hn (.marker hm)

/-! ### What is found among the open elements -/

theorem scopeHolds_eq (h : Standing d ids outer fs) (ends : Element → Bool) (names : List String) :
    scopeHolds d ends (fun id => (d.element id).isHtml names) ids = isWithin ends names outer := by
  rw [← h.map_element]
  clear h
  induction ids with
  | nil => rfl
  | cons id ids ih => rw [scopeHolds, List.map_cons, isWithin, ih]

theorem openItem?_isSome (h : Standing d ids outer fs) (names : List String) :
    (openItem? d names ids).isSome = isWithin endsItems names outer := by
  rw [← h.map_element]
  clear h
  induction ids with
  | nil => rfl
  | cons id ids ih =>
    simp only [openItem?, List.map_cons, isWithin, ← ih, endsItems]
    split_ifs with hn he
    · simp [hn]
    · rw [Bool.eq_false_iff.2 hn, he]
      rfl
    · rw [Bool.eq_false_iff.2 hn, Bool.eq_false_iff.2 he]
      rfl

/-- Nothing has to be opened again. -/
theorem span_settled (h : Standing d ids outer fs) :
    fs.span (fun f => !isSettled ids f) = ([], fs) := by
  cases fs with
  | nil => rfl
  | cons f fs =>
    have hf : isSettled ids f = true := by
      cases f with
      | marker => rfl
      | element id tag => exact List.contains_iff_mem.2 (h.mem_of_mem List.mem_cons_self)
    rw [List.span_eq_takeWhile_dropWhile, List.takeWhile_cons_of_neg (by simp [hf]),
      List.dropWhile_cons_of_neg (by simp [hf])]

/-- A name that no element has up to the last marker is not found in the list of formatting
    elements. -/
theorem findFormatting?_eq_none (h : Standing d ids outer fs) {name : String}
    (hn : isWithin endsFormatting [name] outer = false) : findFormatting? name fs = none := by
  induction h with
  | body => rfl
  | @inside id e ids outer added fs hs hid he hv ha hp hadd ih =>
    rw [isWithin, Bool.or_eq_false_iff] at hn
    obtain ⟨hne, hn⟩ := hn
    cases hadd with
    | none hm => exact ih (by simpa [hm] using hn)
    | element tag _ hm ht =>
      have hname : tag.name ≠ name := by
        rintro rfl
        simp [Element.isHtml_eq hv, ht] at hne
      have := ih (by simpa [hm] using hn)
      simpa [findFormatting?, sinceMarker, hname] using this
    | marker hm => simp [findFormatting?, sinceMarker]

theorem modeFor_eq {b : Builder} (h : Standing b.draft ids outer fs) :
    modeFor b ids = modeOf outer := by
  generalize hd : b.draft = d at h
  induction h with
  | body _ hb _ hv hn hv' hn' =>
    simp [modeFor, modeOf, hd, Draft.element_of_kind? hb, Element.isHtml, hv, hn, hv', hn',
      groupNames]
  | inside hs _ hk _ ha _ _ ih =>
    have hp : ∀ n ∈ pageNames, _ := fun n hm =>
      Element.isHtml_eq_false (pageNames_of_admits ha) (List.forall_mem_singleton.2 hm)
    simp only [pageNames, List.forall_mem_cons] at hp
    have hg (e : Element) : e.isHtml ["tbody", "thead", "tfoot"] = e.isHtml groupNames := by
      simp only [Element.isHtml, groupNames, List.contains_cons]
      ac_rfl
    simp only [modeFor, modeOf, hd, Draft.element_of_kind? hk, hp, ih, hg,
      List.isEmpty_eq_false_iff.2 hs.ne_nil.1, Bool.not_false, Bool.and_true, Bool.false_eq_true,
      if_false]

end Standing

/-! ## The machine -/

/-- A step of the machine and what it goes on with. -/
theorem bind_eq {α β : Type} {m : Build α} {f : α → Build β} {a : α} {b b' : Builder}
    (h : m b = (a, b')) : (m >>= f) b = f a b' := by
  show (match m b with | (a, b) => f a b) = _
  rw [h]

/-- The machine stands inside some open elements. -/
structure Stands (outer : List Element) (b : Builder) : Prop where
  grown : b.draft.Grown
  standing : Standing b.draft b.stack outer b.formatting
  form : b.form = formOf b.stack outer
  mode : b.mode = modeOf outer
  textMode : b.textMode = .markup
  templates : b.templates = []
  fostering : b.fostering = false
  pending : b.pending = []

/-- The innermost open element with its number and what it has added to the list of formatting
    elements. -/
structure Innermost (e : Element) (outer : List Element) (b : Builder) (id : NodeId)
    (ids : List NodeId) (added fs : List Formatting) : Prop where
  stack : b.stack = id :: ids
  formatting : b.formatting = added ++ fs
  element : b.draft.element id = e
  not_mem : id ∉ ids
  entry : Entry id e added
  standing : Standing b.draft ids outer fs
  html : e.vocabulary = .html
  admitted : admits outer e.name = true
  not_void : voidNames.contains e.name = false

namespace Builder

/-- The machine after a node has been added to the innermost open element. -/
def holds (kind : Kind) (b : Builder) : Builder :=
  { b with draft := b.draft.grow (b.stack.headD root) kind }

/-- The machine after an element has been opened. -/
def opens (e : Element) (b : Builder) : Builder :=
  { b.holds (.element e) with stack := b.draft.cells.size :: b.stack }

/-- Nodes are put behind the children of the innermost open element. -/
structure PutsInside (b : Builder) : Prop where
  fostering : b.fostering = false
  current : ∃ e, b.draft.kind? (b.stack.headD root) = some (.element e) ∧
    e.isHtml ["template"] = false

namespace PutsInside

variable {b : Builder}

/-- The spot for a node is behind the children of the innermost open element. -/
theorem spotIn_eq (h : b.PutsInside) (d : Draft)
    (hd : ∀ id e, b.draft.kind? id = some (.element e) → d.kind? id = some (.element e)) :
    spotIn (b.stack.headD root) { b with draft := d } =
      (.inside (b.stack.headD root), { b with draft := d }) := by
  obtain ⟨e, hk, ht⟩ := h.current
  have hh : holder d (b.stack.headD root) = b.stack.headD root := by
    rw [holder, Draft.element_of_kind? (hd _ _ hk), ht]
    rfl
  show (if b.fostering && _ then _ else _, _) = _
  rw [h.fostering, hh]
  rfl

theorem insertClosed_eq (h : b.PutsInside) {e : Element} (ht : e.isHtml ["template"] = false) :
    insertClosed e b = (b.draft.cells.size, b.holds (.element e)) := by
  have ha : addElement e b =
      (b.draft.cells.size, { b with draft := b.draft.add (.element e) }) := by
    refine (bind_eq rfl).trans ?_
    rw [ht]
    rfl
  have hs := h.spotIn_eq (b.draft.add (.element e)) fun _ _ he => Draft.kind?_add he
  exact (bind_eq ha).trans ((bind_eq rfl).trans (bind_eq hs))

theorem insert_eq (h : b.PutsInside) {e : Element} (ht : e.isHtml ["template"] = false) :
    insert e b = (b.draft.cells.size, b.opens e) :=
  bind_eq (h.insertClosed_eq ht)

theorem insertTag_eq (h : b.PutsInside) {tag : Tag}
    (ht : tag.element.isHtml ["template"] = false) :
    insertTag tag b = ((), b.opens tag.element) :=
  bind_eq (h.insert_eq ht)

theorem insertVoid_eq (h : b.PutsInside) {tag : Tag}
    (ht : tag.element.isHtml ["template"] = false) :
    insertVoid tag b = ((), b.holds (.element tag.element)) :=
  bind_eq (h.insertClosed_eq ht)

theorem insertComment_eq (h : b.PutsInside) (s : String) :
    insertComment s b = ((), b.holds (.leaf (.comment s))) :=
  have hs := h.spotIn_eq (b.draft.add (.leaf (.comment s))) fun _ _ he => Draft.kind?_add he
  (bind_eq rfl).trans ((bind_eq rfl).trans (bind_eq hs))

theorem insertText_eq (h : b.PutsInside) {cs : List Char} (hcs : cs ≠ []) :
    insertText cs b = ((), { b with
      draft := b.draft.appendText (b.stack.headD root) (String.ofList cs) }) := by
  rw [insertText, List.isEmpty_eq_false_iff.2 hcs]
  exact (bind_eq rfl).trans (bind_eq (h.spotIn_eq b.draft fun _ _ he => he))

end PutsInside
end Builder

namespace Stands

variable {outer : List Element} {b : Builder}

theorem inScope_eq (h : Stands outer b) (ends : Element → Bool) (names : List String) :
    inScope ends names b = (isWithin ends names outer, b) :=
  congrArg (·, b) (h.standing.scopeHolds_eq ends names)

theorem inScope_eq_false (h : Stands outer b) {ends : Element → Bool} {names : List String}
    (hw : isWithin ends names outer = false) : inScope ends names b = (false, b) := by
  rw [h.inScope_eq, hw]

theorem isOpen_template (h : Stands outer b) : isOpen ["template"] b = (false, b) := by
  refine congrArg (·, b) (List.any_eq_false.2 fun id hid => ?_)
  obtain ⟨e, he, hk⟩ := h.standing.exists_kind hid
  rw [Draft.element_of_kind? hk, h.standing.not_template he]
  exact Bool.false_ne_true

theorem exists_current (h : Stands outer b) : ∃ e ∈ outer,
    b.draft.kind? (b.stack.headD root) = some (.element e) := by
  obtain ⟨id, ids, hs⟩ := List.exists_cons_of_ne_nil h.standing.ne_nil.1
  rw [hs]
  exact h.standing.exists_kind (by rw [hs]; exact List.mem_cons_self)

theorem currentElement_eq {e : Element} (h : Stands (e :: outer) b) :
    currentElement b = (e, b) := by
  have hm := h.standing.map_element
  cases hs : b.stack with
  | nil => simp [hs] at hm
  | cons id ids =>
    rw [hs, List.map_cons] at hm
    rw [← (List.cons.inj hm).1]
    show (b.draft.element (b.stack.headD root), b) = _
    rw [hs]
    rfl

theorem currentIs_eq {e : Element} (h : Stands (e :: outer) b) (names : List String) :
    currentIs names b = (e.isHtml names, b) := by
  show ((currentElement b).1.isHtml names, (currentElement b).2) = _
  rw [h.currentElement_eq]

theorem puts (h : Stands outer b) : b.PutsInside := by
  obtain ⟨e, he, hk⟩ := h.exists_current
  exact ⟨h.fostering, e, hk, h.standing.not_template he⟩

/-- All formatting elements are open. -/
theorem reopenFormatting_eq (h : Stands outer b) : reopenFormatting b = ((), b) := by
  have hs := h.standing.span_settled
  let marked := b.formatting.span fun f => !isSettled b.stack f
  show (openAgain [] marked.1.reverse >>= fun opened =>
    modify fun b : Builder => { b with formatting := opened ++ marked.2 } : Build Unit) b = _
  rw [show marked = _ from hs]
  rfl

/-! ### What keeps the machine inside some elements -/

/-- A node is added to the innermost open element. -/
theorem holds (h : Stands outer b) (kind : Kind) {allowed skip : Bool} {mode : Mode} :
    Stands outer { b.holds kind with
      framesetAllowed := allowed, skipLine := skip, returnMode := mode } := by
  obtain ⟨e, -, hk⟩ := h.exists_current
  refine ⟨Draft.grown_grow h.grown hk, h.standing.mono fun id e he => ?_, h.form, h.mode,
    h.textMode, h.templates, h.fostering, h.pending⟩
  exact Draft.kind?_grow_of_some hk he

/-- An element is opened. -/
theorem opens (h : Stands outer b) {e : Element} (hv : e.vocabulary = .html)
    (ha : admits outer e.name = true) (hn : voidNames.contains e.name = false)
    {added fs : List Formatting} (hs : Standing b.draft b.stack outer fs)
    (hadd : Entry b.draft.cells.size e added)
    {inside : Mode} (hm : inside = modeOf (e :: outer)) {form : Option NodeId}
    (hf : form = formOf (b.draft.cells.size :: b.stack) (e :: outer))
    {allowed skip : Bool} {mode : Mode} :
    Stands (e :: outer) { b.opens e with
      formatting := added ++ fs, mode := inside, form := form,
      framesetAllowed := allowed, skipLine := skip, returnMode := mode } := by
  obtain ⟨_, -, hk⟩ := h.exists_current
  have hp' := Draft.lt_size_of_kind? hk
  refine ⟨Draft.grown_grow h.grown hk, ?_, hf, hm, h.textMode, h.templates, h.fostering,
    h.pending⟩
  refine .inside (hs.mono fun id e he => Draft.kind?_grow_of_some hk he) (fun hid => ?_) ?_ hv ha hn
    hadd
  · obtain ⟨_, -, hk⟩ := h.standing.exists_kind hid
    exact Nat.lt_irrefl _ (Draft.lt_size_of_kind? hk)
  · exact (Draft.kind?_grow hp' _).trans (if_pos rfl)

theorem exists_innermost {e : Element} (h : Stands (e :: outer) b)
    (hn : pageNames.contains e.name = false) :
    ∃ id ids added fs, Innermost e outer b id ids added fs := by
  have hs := h.standing
  generalize hstack : b.stack = stack at hs
  generalize hformatting : b.formatting = formatting at hs
  cases hs with
  | body _ _ _ _ hb => simp [hb, pageNames] at hn
  | inside hs hid hk hv ha hn hadd =>
    exact ⟨_, _, _, _, hstack, hformatting, Draft.element_of_kind? hk, hid, hadd, hs, hv, ha, hn⟩

/-- The innermost element is closed. -/
theorem closes {e : Element} (h : Stands (e :: outer) b) {ids : List NodeId}
    {fs : List Formatting} (hs : Standing b.draft ids outer fs) {outside : Mode}
    (hm : outside = modeOf outer) {form : Option NodeId} (hf : form = formOf ids outer)
    {allowed skip : Bool} {mode : Mode} :
    Stands outer { b with
      stack := ids, formatting := fs, mode := outside, form := form,
      framesetAllowed := allowed, skipLine := skip, returnMode := mode } :=
  ⟨h.grown, hs, hf, hm, h.textMode, h.templates, h.fostering, h.pending⟩

end Stands

end SchemaExtraction.Markup
