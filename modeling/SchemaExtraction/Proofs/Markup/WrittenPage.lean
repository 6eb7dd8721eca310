import SchemaExtraction.Proofs.Markup.Opening

/-!
# The page of a written element

A text that is an element as it is written, with regular content, is read as a page that has this
element and its content and otherwise only what every page has. The first tag opens the root
element, the head and, unless it belongs into the head, the body; from there on the content is
read as it was written.

Results:
* `feed_opens`, `feed_opens_head`: the first tag of a page.
* `readsAs_write`: the machine reads the whole text.
* `Page.parse_write`: the elements of the page.
-/

namespace SchemaExtraction.Markup

open Build

variable {e : Element} {outer : List Element} {b b' : Builder} {token : Token}

/-! ## The parts of every page -/

/-- An element of HTML without attributes. -/
def bare (name : String) : Element := ⟨.html, name, []⟩

/-- What is open at the start of the body. -/
def body : List Element := [bare "body", bare "html"]

/-- The machine in the head of a page, of which some draft has been made. -/
def inHeadOf (d : Draft) : Builder :=
  { start with draft := d, mode := .inHead, stack := [1, 0], head := some 1, legacy := true }

/-- The machine at the start of the body. -/
def inBodyOf (d : Draft) : Builder :=
  { inHeadOf d with
    draft := d.grow 0 (.element (bare "body")), mode := .inBody, stack := [d.cells.size, 0] }

/-- A draft with a root and a head. -/
def headed : Draft := start.draft.grow 0 (.element (bare "head"))

variable {d : Draft} {tag : Tag}

theorem headed_grown : headed.Grown :=
  Draft.grown_grow (rootDraft_grown (bare "html")) (e := bare "html") rfl

/-- The first tag opens the root element and the head. -/
theorem handle_start (hi : irregularNames.contains tag.name = false) (fuel : Nat) :
    handle (fuel + 3) (.startTag tag) start = handle fuel (.startTag tag) (inHeadOf headed) := by
  have hhtml : tag.name ≠ "html" := ne_of_contains hi (by decide)
  have hhead : tag.name ≠ "head" := ne_of_contains hi (by decide)
  have h₁ : rules (.startTag tag) start =
      (.again, { start with legacy := true, mode := .beforeHtml }) := rfl
  have h₂ : rules (.startTag tag) { start with legacy := true, mode := .beforeHtml } =
      (.again, { start with legacy := true, mode := .beforeHead, stack := [0] }) :=
    (congrFun (if_neg hhtml) _).trans rfl
  have h₃ : rules (.startTag tag) { start with
      legacy := true, mode := .beforeHead, stack := [0] } = (.again, inHeadOf headed) :=
    (congrFun (if_neg hhtml) _).trans ((congrFun (if_neg hhead) _).trans rfl)
  rw [handle_of_again rfl _ h₁, handle_of_again rfl _ h₂, handle_of_again rfl _ h₃]

/-- What does not belong into the head and is no other part of the page. -/
def leavesHead : Token → Prop
  | .startTag tag => (headVoidNames ++ irregularNames).contains tag.name = false
  | .finish => True
  | _ => False

theorem inHead_leaves (ht : leavesHead token) (b : Builder) :
    inHead token b = (do pop; againIn .afterHead : Build Outcome) b := by
  cases token with
  | startTag tag =>
    have ne {n : String} (hn : (headVoidNames ++ irregularNames).contains n = true) :
        tag.name ≠ n := ne_of_contains ht hn
    have hvoid : headVoidNames.contains tag.name = false :=
      contains_eq_false_of_subset ht (by decide)
    have hraw : ["noframes", "style", "noscript"].contains tag.name = false :=
      contains_eq_false_of_subset ht (by decide)
    unfold inHead
    dsimp only
    rw [if_neg (ne (by decide)), if_neg (Bool.eq_false_iff.1 hvoid), if_neg (ne (by decide)),
      if_neg (Bool.eq_false_iff.1 hraw), if_neg (ne (by decide)), if_neg (ne (by decide)),
      if_neg (ne (by decide))]
  | finish => rfl
  | _ => cases ht

theorem afterHead_leaves (ht : leavesHead token) (b : Builder) :
    afterHead token b = (do insertImplied "body"; againIn .inBody : Build Outcome) b := by
  cases token with
  | startTag tag =>
    have ne {n : String} (hn : (headVoidNames ++ irregularNames).contains n = true) :
        tag.name ≠ n := ne_of_contains ht hn
    have hhead : headNames.contains tag.name = false := contains_eq_false_of_subset ht (by decide)
    unfold afterHead
    dsimp only
    rw [if_neg (ne (by decide)), if_neg (ne (by decide)), if_neg (ne (by decide)),
      if_neg (Bool.eq_false_iff.1 hhead), if_neg (ne (by decide))]
  | finish => rfl
  | _ => cases ht

/-- The body is opened by what does not belong into the head. -/
theorem handle_leaves_head (hd : d.kind? 0 = some (.element (bare "html")))
    (hh : d.kind? 1 = some (.element (bare "head")))
    (ht : leavesHead token) (fuel : Nat) :
    handle (fuel + 2) token (inHeadOf d) = handle fuel token (inBodyOf d) := by
  have hf {b : Builder} {id : NodeId} {ids : List NodeId} (hs : b.stack = id :: ids)
      (hv : (b.draft.element id).vocabulary = .html) : isForeign token b = false := by
    unfold isForeign
    simp [hs, hv]
  have hputs : Builder.PutsInside { inHeadOf d with stack := [0], mode := .afterHead } :=
    ⟨rfl, bare "html", hd, rfl⟩
  have h₁ : rules token (inHeadOf d) =
      (.again, { inHeadOf d with stack := [0], mode := .afterHead }) := inHead_leaves ht _
  have h₂ : rules token { inHeadOf d with stack := [0], mode := .afterHead } =
      (.again, inBodyOf d) := by
    have hins := hputs.insert_eq (e := bare "body") (by decide)
    refine (afterHead_leaves ht _).trans ?_
    have himplied : insertImplied "body" { inHeadOf d with stack := [0], mode := .afterHead } =
        ((), Builder.opens (bare "body") { inHeadOf d with stack := [0], mode := .afterHead }) :=
      bind_eq hins
    exact bind_eq himplied
  rw [handle_of_again (hf rfl (by rw [inHeadOf, Draft.element_of_kind? hh]; rfl)) _ h₁,
    handle_of_again (hf rfl (by rw [inHeadOf, Draft.element_of_kind? hd]; rfl)) _ h₂]

/-- The machine stands at the start of the body. -/
theorem stands_inBodyOf (hg : d.Grown) (hd : d.kind? 0 = some (.element (bare "html"))) :
    Stands body (inBodyOf d) := by
  have hsize := Draft.lt_size_of_kind? hd
  have hmode : modeOf body = .inBody := by decide
  refine ⟨Draft.grown_grow hg hd, ?_, (Stands.formOf_eq_none (by decide)).symm, hmode.symm,
    rfl, rfl, rfl, rfl⟩
  refine .body (Nat.ne_of_gt hsize) ?_ (Draft.kind?_grow_of_some hd hd) rfl rfl rfl rfl
  exact (Draft.kind?_grow hsize _).trans (if_pos rfl)

/-! ## The first and the last token -/

theorem feed_start (tag : Tag) : feed (.startTag tag) start = handle 20 (.startTag tag) start := rfl

/-- The start tag of an element that does not belong into the head. -/
theorem feed_opens (tag : Tag) (ha : admits body tag.name = true)
    (hv : headVoidNames.contains tag.name = false) :
    ∃ b, feed (.startTag tag) start = ((), b) ∧ Starts body tag.element (inBodyOf headed) b := by
  have hi : irregularNames.contains tag.name = false := not_mem_irregularNames (by decide) ha
  have ht : leavesHead (.startTag tag) := by
    rw [leavesHead, List.contains_append, hv, hi, Bool.or_self]
  have hs := stands_inBodyOf headed_grown rfl
  obtain ⟨b, hr, hb⟩ := rules_start tag hs ha (sparesParagraph_legacy _ _)
  refine ⟨b, ?_, hb⟩
  rw [feed_start, handle_start hi, handle_leaves_head rfl rfl ht]
  exact handle_of_done (hs.isForeign_eq_false _) _ hr

/-- The start tag of an element that belongs into the head and holds nothing. -/
theorem feed_opens_head (tag : Tag) (hv : headVoidNames.contains tag.name = true) :
    feed (.startTag tag) start =
      ((), inHeadOf (headed.grow 1 (.element tag.element))) := by
  have hn : ∀ n ∈ headVoidNames, irregularNames.contains n = false ∧ n ≠ "html" ∧
    n ≠ "template" := by decide
  obtain ⟨hi, hhtml, htemplate⟩ := hn tag.name (List.contains_iff_mem.1 hv)
  have hputs : (inHeadOf headed).PutsInside := ⟨rfl, bare "head", rfl, by decide⟩
  have hr : rules (.startTag tag) (inHeadOf headed) =
      (.done, inHeadOf (headed.grow 1 (.element tag.element))) := by
    refine (congrFun (if_neg hhtml) _).trans ((congrFun (if_pos hv) _).trans ?_)
    exact bind_eq (hputs.insertVoid_eq (by simp [Element.isHtml, Tag.element, htemplate]))
  rw [feed_start, handle_start hi]
  exact handle_of_done (by rfl) _ hr

/-- Nothing happens at the end of a page in the body. -/
theorem handle_finish (h : Stands body b) (fuel : Nat) : handle (fuel + 1) .finish b = ((), b) := by
  have hmode : b.mode = .inBody := h.mode.trans (by decide)
  refine handle_of_done (h.isForeign_eq_false _) _ ?_
  rw [rules, get_bind, hmode]
  refine (bind_eq rfl).trans ?_
  rw [h.templates]
  rfl

theorem run_nil_body (fuel : Nat) (h : Stands body b) :
    run (fuel + 1) [] b = { b with skipLine := false } := by
  have ha : Stands body { b with skipLine := false } := h.aside
  refine run_nil fuel h.textMode ?_ ?_
  · rw [h.mode]
    decide
  · rw [feed_eq]
    have hd : (if b.skipLine then dropLine .finish else .finish) = Token.finish := ite_self _
    rw [hd]
    exact handle_finish ha _

theorem run_nil_head (fuel : Nat) (hg : d.Grown) (hd : d.kind? 0 = some (.element (bare "html")))
    (hh : d.kind? 1 = some (.element (bare "head"))) :
    run (fuel + 1) [] (inHeadOf d) = inBodyOf d := by
  refine run_nil fuel rfl (fun h => by cases h) ?_
  have hfeed : feed .finish (inHeadOf d) = handle 24 .finish (inHeadOf d) := rfl
  have ht : leavesHead .finish := trivial
  rw [hfeed, handle_leaves_head hd hh ht]
  exact handle_finish (stands_inBodyOf hg hd) _

/-! ## Pages of one element -/

/-- A text is read as a page that has some elements besides the root, the head and the body. -/
def ReadsAs (es : List Element) (cs : List Char) : Prop :=
  ∃ b b' es', Leads cs start [] b ∧ (∀ fuel, run (fuel + 1) [] b = b') ∧ b'.draft.Grown ∧
    b'.draft.elements = bare "html" :: es' ∧ es'.Perm (bare "head" :: bare "body" :: es)

/-- The first tag of a page is read. -/
theorem leads_opening (he : e.isWritable = true)
    (hb : feed (.startTag ⟨e.name, e.attributes, false⟩) start = ((), b)) (rest : List Char) :
    Leads (e.writeStart ++ rest) start rest b :=
  .of_scanMarkup rfl rfl (by decide) (Token.scanMarkup_start he false rest)
    (length_lt_writeStart e rest) (by simp) ((bind_eq hb).trans rfl)

theorem elements_headed : headed.elements = [bare "html", bare "head"] := rfl

theorem elements_inBodyOf (d : Draft) :
    (inBodyOf d).draft.elements = d.elements ++ [bare "body"] := Draft.elements_grow

/-- An element that belongs into the head. -/
theorem readsAs_head (he : e.isWritable = true) (hv : headVoidNames.contains e.name = true) :
    ReadsAs [e] (e.writeStart ++ []) := by
  have hk : headed.kind? 1 = some (.element (bare "head")) := rfl
  have hg : (headed.grow 1 (.element e)).Grown := Draft.grown_grow headed_grown hk
  have hd : (headed.grow 1 (.element e)).kind? 0 = some (.element (bare "html")) :=
    Draft.kind?_grow_of_some hk rfl
  have hh : (headed.grow 1 (.element e)).kind? 1 = some (.element (bare "head")) :=
    Draft.kind?_grow_of_some hk rfl
  have hb := feed_opens_head ⟨e.name, e.attributes, false⟩ hv
  rw [element_of_isWritable he] at hb
  refine ⟨_, _, [bare "head", e, bare "body"], leads_opening he hb [],
    fun fuel => run_nil_head fuel hg hd hh, (stands_inBodyOf hg hd).grown, ?_,
    (List.Perm.swap _ _ _).cons _⟩
  rw [elements_inBodyOf, Draft.elements_grow, elements_headed]
  rfl

section Body

variable (he : e.isWritable = true) (ha : admits body e.name = true)
  (hv : headVoidNames.contains e.name = false)
include he ha hv

/-- An element of the body that holds nothing. -/
theorem readsAs_void (hvoid : e.isHtml voidNames = true) : ReadsAs [e] (e.writeStart ++ []) := by
  obtain ⟨b, hb, hs⟩ := feed_opens ⟨e.name, e.attributes, false⟩ ha hv
  rw [element_of_isWritable he] at hs
  have hstands := hs.stands
  rw [inside, if_pos hvoid] at hstands
  refine ⟨b, _, _, leads_opening he hb [], fun fuel => run_nil_body fuel hstands, hstands.grown, ?_,
    .rfl⟩
  rw [hs.elements, elements_inBodyOf, elements_headed]
  rfl

/-- An element of the body with its content. -/
theorem readsAs_open (hvoid : e.isHtml voidNames = false) {content : Forest}
    (hc : content.isRegular (e :: body) = true) :
    ReadsAs (e :: content.elements) (e.writeStart ++ (content.write false ++ e.writeEnd)) := by
  obtain ⟨b, hb, hs⟩ := feed_opens ⟨e.name, e.attributes, false⟩ ha hv
  rw [element_of_isWritable he] at hs
  have hstands := hs.stands
  rw [inside, if_neg (Bool.eq_false_iff.1 hvoid)] at hstands
  have hlegible : content.isLegible b.legacy (e :: body) = true := by
    rw [hs.legacy]
    exact Forest.isLegible_of_isRegular hc
  obtain ⟨b₁, b₀, hl, hf, hg⟩ :=
    leads_forest hlegible fits_nil ('/' :: e.name.toList ++ ['>']) hstands
  obtain ⟨b', hl', hk⟩ := leads_end he (pageNames_of_admits ha) [] hf hg.stands
  rw [List.append_nil] at hl'
  refine ⟨b', _, _, (leads_opening he hb _).trans (hl.trans hl'),
    fun fuel => run_nil_body fuel hk.stands, hk.stands.grown, ?_, .rfl⟩
  refine hk.elements.trans ?_
  have hb₀ := hg.elements
  rw [Forest.elements_reread, hs.elements, elements_inBodyOf, elements_headed] at hb₀
  exact hb₀

end Body

/-- The machine reads an element that has been written, with its content. -/
theorem readsAs_write {content : Forest}
    (hr : (Forest.element e content .nil).isRegular body = true) :
    ReadsAs (e :: content.elements) ((Forest.element e content .nil).write false) := by
  simp only [Forest.isRegular, Bool.and_eq_true, and_true] at hr
  obtain ⟨⟨he, ha⟩, hcontent⟩ := hr
  rw [Forest.write_element, not_raw_of_admits ha, Forest.write, List.append_nil]
  cases hvoid : e.isHtml voidNames with
  | true =>
    rw [hvoid, if_pos rfl, decide_eq_true_eq] at hcontent
    rw [if_pos rfl, hcontent]
    cases hv : headVoidNames.contains e.name with
    | true => exact readsAs_head he hv
    | false => exact readsAs_void he ha hv hvoid
  | false =>
    rw [hvoid, if_neg Bool.false_ne_true] at hcontent
    rw [if_neg Bool.false_ne_true]
    refine readsAs_open he ha (Bool.eq_false_iff.2 fun hv => ?_) hvoid hcontent
    -- what belongs into the head and is not text holds nothing
    have hn : ∀ n ∈ headVoidNames, voidNames.contains n = true := by decide
    rw [Element.isHtml_eq (vocabulary_of_isWritable he), hn e.name (List.contains_iff_mem.1 hv)]
      at hvoid
    cases hvoid

/-- An element that has been written is read with its content: its page has the elements of a bare
    page, it and those inside of it. -/
theorem Page.parse_write {content : Forest}
    (hr : (Forest.element e content .nil).isRegular body = true) :
    (Page.parse (String.ofList ((Forest.element e content .nil).write false))).content.elements.Perm
      (bare "head" :: bare "body" :: e :: content.elements) := by
  obtain ⟨b, b', es, hl, hrun, hg, he, hp⟩ := readsAs_write hr
  have hunify : unifyLines (dropOrderMark ((Forest.element e content .nil).write false)) =
      (Forest.element e content .nil).write false :=
    (unifyLinesFrom_eq (cr_not_mem_write (Forest.isLegible_of_isRegular hr)) []).trans rfl
  obtain ⟨fuel, hfuel, hb⟩ := hl _ (Nat.lt_succ_self _)
  obtain ⟨fuel, rfl⟩ := Nat.exists_eq_add_of_lt hfuel
  have hpage : Page.parse (String.ofList ((Forest.element e content .nil).write false)) =
      page b' := by
    rw [Page.parse, String.toList_ofList, hunify]
    exact congrArg page (hb.trans (hrun _))
  rw [hpage]
  exact (hg.perm_content he).trans hp

end SchemaExtraction.Markup
