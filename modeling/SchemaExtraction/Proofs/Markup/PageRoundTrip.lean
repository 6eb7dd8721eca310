import SchemaExtraction.Proofs.Markup.Opening

/-!
# Whole pages are read back

A page that is laid out as pages are written, a document type and comments, the root element with a
head and a body in it, and comments again, is read back from its written form if its head and its
body are. Only texts side by side become one text.

Results:
* `leads_body`, `leads_behind`, `leads_after`: the machine reads the body and what is behind it.
* `Layout.leads_page`: the machine reads a whole page.
* `Layout.parse_write`, `Page.parse_write_of_isLegible`: the page is read back.
-/

namespace SchemaExtraction.Markup

open Build

/-! ## Behind the body -/

variable {b b' : Builder} {m : Mode} {e r : Element} {f g : Forest} {cs rest : List Char}
  {token : Token} {setting : Bool × List Leaf × List Leaf}

/-- The machine behind the body: the root element holds all that is below it. -/
structure Builder.Behind (m : Mode) (setting : Bool × List Leaf × List Leaf) (r : Element)
    (g : Forest) (b : Builder) : Prop where
  mode : b.mode = m
  textMode : b.textMode = .markup
  skipLine : b.skipLine = false
  stack : b.stack ≠ []
  current : ∃ e, b.draft.kind? (b.stack.headD root) = some (.element e) ∧ e.vocabulary = .html
  setting : b.setting = setting
  grown : b.draft.Grown
  shows : b.draft.Shows [root] [(r, g)]

namespace Builder.Behind

theorem readsForeign_eq_false (h : b.Behind m setting r g) : readsForeign b = false := by
  obtain ⟨id, ids, hs⟩ := List.exists_cons_of_ne_nil h.stack
  obtain ⟨e, hk, hv⟩ := h.current
  have hk : b.draft.kind? id = some (.element e) := by
    rw [hs] at hk
    exact hk
  rw [readsForeign, hs]
  simp [Draft.element_of_kind? hk, hv]

/-- A token is read and handled. -/
theorem leads (h : b.Behind m setting r g) (hm : m ≠ .inText) (ht : isPlainToken token = true)
    (hs : Token.scanMarkup false cs = ([token], rest)) (hl : rest.length < cs.length)
    (hr : rules token b = (.done, b')) : Leads cs b rest b' :=
  leads_plain h.textMode (h.mode ▸ hm) ht h.skipLine h.readsForeign_eq_false hs hl hr

/-- The root element gets a comment. -/
theorem receives (h : b.Behind m setting r g) (s : String) :
    Builder.Behind m setting r (g ++ .leaf (.comment s) .nil) { b with
      draft := b.draft.grow root (.leaf (.comment s)) } := by
  obtain ⟨e, hk, hv⟩ := h.current
  have hroot : b.draft.kind? ([root].headD root) = some (.element r) := by
    obtain ⟨id, ids, hs, hk⟩ := h.shows.exists_current
    rwa [← (List.cons.inj hs).1] at hk
  have hkind : Kind.leaf (.comment s) ≠ .fragment := by simp
  have hd : b.draft.Receives [root] _ _ := Draft.receives_grow h.grown hroot hkind
  exact ⟨h.mode, h.textMode, h.skipLine, h.stack, ⟨e, hd.kind _ _ hk, hv⟩, h.setting, hd.grown,
    hd.shows h.shows⟩

end Builder.Behind

/-- The content of the body is read, and its end tag. -/
theorem leads_body (he : e.isWritable = true) (hn : e.name = "body") (hrv : r.vocabulary = .html)
    (hrn : r.name = "html") (hf : f.isLegible setting.1 [e, r] = true) (hi : f.isIntact = true)
    (h : b.Outside .inBody setting [(e, .nil), (r, g)]) (rest : List Char) :
    ∃ b', Leads (f.write false ++ (e.writeEnd ++ rest)) b rest b' ∧
      b'.Behind .afterBody setting r (g ++ .element e f .nil) := by
  have hev := vocabulary_of_isWritable he
  have hlegacy : b.legacy = setting.1 := congrArg Prod.fst h.setting
  obtain ⟨b₁, b₀, hl, hfollows, hg⟩ := leads_forest (hlegacy ▸ hf) fits_nil
    ('/' :: e.name.toList ++ ['>'] ++ rest) (h.stands hev hn hrv hrn)
  rw [h.skipLine] at hg
  have hgains : Gains f [e, r] b b₀ :=
    hg.alike (Forest.reread_alike hi List.not_mem_nil Bool.noConfusion)
  -- the end tag finds the body in scope with nothing open inside of it
  have hstands : Stands [e, r] { b₀ with skipLine := false } := hgains.stands.aside
  have hwithin : isWithin endsScope ["body"] [e, r] = true := by
    simp [isWithin, Element.isHtml, hev, hn]
  have hmode : b₀.mode = .inBody := by
    rw [hgains.stands.mode]
    simp [modeOf, Element.isHtml, hn, hrn, groupNames]
  have hrules : rules (.endTag e.name) { b₀ with skipLine := false } =
      bodyEnd e.name { b₀ with skipLine := false } := by
    rw [rules, get_bind, hmode]
    rfl
  have hend : rules (.endTag e.name) { b₀ with skipLine := false } =
      (.done, { b₀ with skipLine := false, mode := .afterBody }) := by
    rw [hrules, hn]
    refine (congrFun (if_neg (by decide)) _).trans ((congrFun (if_pos rfl) _).trans ?_)
    refine (bind_eq (hstands.inScope_eq _ _)).trans ?_
    rw [hwithin]
    rfl
  have hlast := leads_token hfollows hgains.stands rfl (Token.scanMarkup_end he false rest)
    (length_lt_writeEnd e rest) hend
  have hshows : b₀.Shows [(e, f), (r, g)] := hgains.shows h.shows
  obtain ⟨id, hstack, -, hk, -⟩ := hshows.exists_pair
  refine ⟨_, hl.trans hlast, rfl, hgains.stands.textMode, rfl, ?_, ⟨e, ?_, hev⟩,
    hgains.setting.trans h.setting, hgains.stands.grown, hshows.closes hgains.stands.grown hstack⟩
  · exact hstack ▸ List.cons_ne_nil _ _
  · exact (congrArg (fun ids => b₀.draft.kind? (ids.headD root)) hstack).trans hk

/-- Whether a forest is nothing but comments that are read back. -/
def Forest.isNotes : Forest → Bool
  | nil => true
  | leaf l next => l.isNote && next.isNotes
  | _ => false

/-- Comments behind the body are read. -/
theorem leads_behind (hf : f.isNotes = true) (h : b.Behind .afterBody setting r g)
    (rest : List Char) :
    ∃ b', Leads (f.write false ++ rest) b rest b' ∧ b'.Behind .afterBody setting r (g ++ f) := by
  induction f generalizing b g with
  | nil =>
    rw [Forest.append_nil]
    exact ⟨b, .refl _ _, h⟩
  | leaf l next ih =>
    rw [Forest.isNotes, Bool.and_eq_true] at hf
    obtain ⟨hl, hnext⟩ := hf
    cases l with
    | comment s =>
      obtain ⟨hscan, hlength⟩ := scanMarkup_note hl (next.write false ++ rest)
      have hrules : rules (.comment s) b = afterBody (.comment s) b := by
        rw [rules, get_bind, h.mode]
      have hr : rules (.comment s) b =
          (.done, { b with draft := b.draft.grow root (.leaf (.comment s)) }) := hrules.trans rfl
      obtain ⟨b', hb', ho'⟩ := ih hnext (h.receives s)
      rw [Forest.write, List.append_assoc]
      refine ⟨b', (h.leads (by decide) rfl hscan hlength hr).trans hb', ?_⟩
      rwa [Forest.append_assoc] at ho'
    | _ => cases hl
  | _ => cases hf

/-- The end tag of the root element is read. -/
theorem leads_root_end (hr : r.isWritable = true) (hn : r.name = "html")
    (h : b.Behind .afterBody setting r g) (rest : List Char) :
    ∃ b', Leads (r.writeEnd ++ rest) b rest b' ∧ b'.Behind .afterAfterBody setting r g := by
  have hrules : rules (.endTag r.name) b = afterBody (.endTag r.name) b := by
    rw [rules, get_bind, h.mode]
  have hend : rules (.endTag r.name) b = (.done, { b with mode := .afterAfterBody }) :=
    hrules.trans (congrFun (if_pos hn) b)
  exact ⟨_, h.leads (by decide) rfl (Token.scanMarkup_end hr false rest)
    (length_lt_writeEnd r rest) hend, { h with mode := rfl }⟩

/-- Comments behind the root element are read. -/
theorem leads_after {ls : List Leaf} (hn : ls.all Leaf.isNote = true) {legacy : Bool}
    {before after : List Leaf}
    (h : b.Behind .afterAfterBody (legacy, before, after) r g) (rest : List Char) :
    ∃ b', Leads (ls.flatMap (Leaf.write false) ++ rest) b rest b' ∧
      b'.Behind .afterAfterBody (legacy, before, ls.reverse ++ after) r g := by
  induction ls generalizing b after with
  | nil => exact ⟨b, .refl _ _, h⟩
  | cons l ls ih =>
    rw [List.all_cons, Bool.and_eq_true] at hn
    obtain ⟨hl, hls⟩ := hn
    cases l with
    | comment s =>
      obtain ⟨hscan, hlength⟩ := scanMarkup_note hl (ls.flatMap (Leaf.write false) ++ rest)
      have hrules : rules (.comment s) b = afterAfterBody (.comment s) b := by
        rw [rules, get_bind, h.mode]
      have hbeside : insertCommentBeside s b = ((), { b with after := .comment s :: b.after }) :=
        congrArg (Prod.mk ()) (if_neg (by simpa using h.stack))
      have hr : rules (.comment s) b = (.done, { b with after := .comment s :: b.after }) :=
        hrules.trans (bind_eq hbeside)
      have hsetting := congrArg (fun t => (t.1, t.2.1, Leaf.comment s :: t.2.2)) h.setting
      have ho : Builder.Behind .afterAfterBody (legacy, before, .comment s :: after) r g
          { b with after := .comment s :: b.after } :=
        ⟨h.mode, h.textMode, h.skipLine, h.stack, h.current, hsetting, h.grown, h.shows⟩
      obtain ⟨b', hb', ho'⟩ := ih hls ho
      rw [List.flatMap_cons, List.append_assoc, List.reverse_cons, List.append_assoc]
      exact ⟨b', (h.leads (by decide) rfl hscan hlength hr).trans hb', ho'⟩
    | _ => cases hl

/-! ## Line ends -/

theorem cr_not_mem_note {l : Leaf} (h : l.isNote = true) : '\r' ∉ l.write false := by
  cases l with
  | comment s =>
    rw [Leaf.isNote, Bool.and_eq_true] at h
    exact cr_not_mem_leaf (show (Leaf.comment s).isRegular [] = true from h.1)
  | _ => cases h

theorem cr_not_mem_notes (h : f.isNotes = true) : '\r' ∉ f.write false := by
  induction f with
  | nil => exact List.not_mem_nil
  | leaf l next ih =>
    rw [Forest.isNotes, Bool.and_eq_true] at h
    rw [Forest.write, List.mem_append, not_or]
    exact ⟨cr_not_mem_note h.1, ih h.2⟩
  | _ => cases h

theorem cr_not_mem_sparse {inHead : Bool} (h : f.isSparse inHead = true) :
    '\r' ∉ f.write false := by
  induction f with
  | nil => exact List.not_mem_nil
  | leaf l next ih =>
    rw [Forest.isSparse, Bool.and_eq_true] at h
    rw [Forest.write, List.mem_append, not_or]
    refine ⟨?_, ih h.2⟩
    cases l with
    | text s =>
      have hs := h.1
      simp only [Leaf.isSparse, Bool.and_eq_true, List.all_eq_true, decide_eq_true_eq] at hs
      exact cr_not_mem_escape fun hm => (hs.2 _ hm).2 rfl
    | comment s => exact cr_not_mem_note h.1
    | doctype name => cases h.1
  | element e content next _ ih =>
    simp only [Forest.isSparse, Bool.and_eq_true] at h
    obtain ⟨⟨⟨⟨-, he⟩, hfits⟩, -⟩, hnext⟩ := h
    rw [Forest.write_element, List.mem_append, List.mem_append, not_or, not_or]
    refine ⟨⟨(cr_not_mem_tags he).1, ?_⟩, ih hnext⟩
    split_ifs
    · exact List.not_mem_nil
    rw [List.mem_append, not_or]
    refine ⟨?_, (cr_not_mem_tags he).2⟩
    unfold Element.fitsHead at hfits
    split at hfits
    · simp only [Bool.and_eq_true] at hfits
      exact cr_not_mem_text hfits.1.2 _
    · rw [Bool.and_eq_true, decide_eq_true_eq] at hfits
      rw [hfits.2]
      exact List.not_mem_nil
  | fragment content next => cases h

theorem cr_not_mem_before {ls : List Leaf} {legacy legacy' : Bool}
    (h : legacy? legacy ls = some legacy') : ∀ l ∈ ls, '\r' ∉ l.write false := by
  induction ls generalizing legacy with
  | nil => exact List.forall_mem_nil _
  | cons l ls ih =>
    rw [List.forall_mem_cons]
    cases l with
    | text s => cases h
    | comment s =>
      obtain ⟨hnote, hls⟩ := legacy?_comment h
      exact ⟨cr_not_mem_note hnote, ih hls⟩
    | doctype name =>
      obtain ⟨rfl, rfl, hls⟩ := legacy?_doctype h
      exact ⟨by decide, ih hls⟩

/-! ## Layouts -/

/-- The leaves at the start of a forest, and what follows them. -/
def Forest.cutLeaves : Forest → Forest × Forest
  | leaf l next => (.leaf l next.cutLeaves.1, next.cutLeaves.2)
  | f => (.nil, f)

theorem Forest.append_cutLeaves (f : Forest) : f.cutLeaves.1 ++ f.cutLeaves.2 = f := by
  induction f with
  | leaf l next ih => exact congrArg (leaf l) ih
  | _ => rfl

/-- A page by its parts. -/
structure Layout where
  /-- comments with a document type among them or none -/
  before : List Leaf
  root : Element
  head : Element
  headContent : Forest
  /-- white space and comments -/
  between : Forest
  body : Element
  content : Forest
  /-- comments -/
  behind : Forest
  /-- comments -/
  after : List Leaf

namespace Layout

/-- The page that is laid out. -/
def page (l : Layout) : Page where
  before := l.before
  root := l.root
  content := .element l.head l.headContent (l.between ++ .element l.body l.content l.behind)
  after := l.after

/-- The parts of a page whose root element holds a head, leaves, a body and what is behind it. -/
def of? (page : Page) : Option Layout :=
  match page.content with
  | .element head headContent next =>
    match next.cutLeaves with
    | (between, .element body content behind) =>
      some ⟨page.before, page.root, head, headContent, between, body, content, behind, page.after⟩
    | _ => none
  | _ => none

theorem page_of_of? {page : Page} {l : Layout} (h : of? page = some l) : l.page = page := by
  unfold of? at h
  split at h
  next head headContent next hcontent =>
    split at h
    next between body content behind hcut =>
      obtain rfl := Option.some.inj h
      have hnext := Forest.append_cutLeaves next
      rw [hcut] at hnext
      rw [Layout.page, hnext, ← hcontent]
    next => cases h
  next => cases h

/-- Whether all parts of a page are read back. -/
def isLegible (l : Layout) : Bool :=
  match legacy? true l.before with
  | some legacy =>
    l.root.isWritable && l.root.name = "html" && l.head.isWritable && l.head.name = "head" &&
      l.headContent.isSparse true && l.between.isSparse false &&
      l.body.isWritable && l.body.name = "body" &&
      l.content.isLegible legacy [l.body, l.root] && l.content.isIntact &&
      l.behind.isNotes && l.after.all Leaf.isNote
  | none => false

/-- What it is for a page to be legible. -/
structure Legible (legacy : Bool) (l : Layout) : Prop where
  before : legacy? true l.before = some legacy
  root : l.root.isWritable = true
  root_name : l.root.name = "html"
  head : l.head.isWritable = true
  head_name : l.head.name = "head"
  headContent : l.headContent.isSparse true = true
  between : l.between.isSparse false = true
  body : l.body.isWritable = true
  body_name : l.body.name = "body"
  content : l.content.isLegible legacy [l.body, l.root] = true
  intact : l.content.isIntact = true
  behind : l.behind.isNotes = true
  after : l.after.all Leaf.isNote = true

theorem exists_legible {l : Layout} (h : l.isLegible = true) : ∃ legacy, l.Legible legacy := by
  unfold isLegible at h
  split at h
  next legacy hb =>
    simp only [Bool.and_eq_true, decide_eq_true_eq] at h
    obtain ⟨⟨⟨⟨⟨⟨⟨⟨⟨⟨⟨h₁, h₂⟩, h₃⟩, h₄⟩, h₅⟩, h₆⟩, h₇⟩, h₈⟩, h₉⟩, h₁₀⟩, h₁₁⟩, h₁₂⟩ := h
    exact ⟨legacy, hb, h₁, h₂, h₃, h₄, h₅, h₆, h₇, h₈, h₉, h₁₀, h₁₁, h₁₂⟩
  next => cases h

/-! ## Reading a layout back -/

variable {l : Layout} {legacy : Bool}

theorem write_page (h : l.Legible legacy) (rest : List Char) :
    l.page.write ++ rest = l.before.flatMap (Leaf.write false) ++ (l.root.writeStart ++
      (l.head.writeStart ++ (l.headContent.write false ++ (l.head.writeEnd ++
        (l.between.write false ++ (l.body.writeStart ++ (l.content.write false ++
          (l.body.writeEnd ++ (l.behind.write false ++ (l.root.writeEnd ++
            (l.after.flatMap (Leaf.write false) ++ rest))))))))))) := by
  have hnames : ∀ n ∈ ["html", "head", "body"],
      voidNames.contains n = false ∧ rawNames.contains n = false := by decide
  have hopen {e : Element} (he : e.isWritable = true) (hn : e.name ∈ ["html", "head", "body"]) :
      e.isHtml voidNames = false ∧ e.isHtml rawNames = false := by
    rw [Element.isHtml_eq (vocabulary_of_isWritable he),
      Element.isHtml_eq (vocabulary_of_isWritable he)]
    exact hnames _ hn
  obtain ⟨hroot, hroot'⟩ := hopen h.root (by simp [h.root_name])
  obtain ⟨hhead, hhead'⟩ := hopen h.head (by simp [h.head_name])
  obtain ⟨hbody, hbody'⟩ := hopen h.body (by simp [h.body_name])
  simp only [Page.write, page, Page.rootPlace, Place.outer, Forest.write_append, hroot,
    hroot', hhead, hhead', hbody, hbody', Bool.false_eq_true, if_false, Forest.write,
    List.append_nil, List.append_assoc]

/-- The machine reads a whole page. -/
theorem leads_page (h : l.Legible legacy) :
    ∃ b', Leads l.page.write start [] b' ∧
      b'.Behind .afterAfterBody (legacy, l.before.reverse, l.after.reverse) l.root
        l.page.content := by
  have hr := Element.isOuter_of_name h.root (by rw [h.root_name]; decide)
  have hh := Element.isOuter_of_name h.head (by rw [h.head_name]; decide)
  have hrv := vocabulary_of_isWritable h.root
  have hbefore := leads_before h.before []
  rw [List.append_nil] at hbefore
  have hroot := leads_root h.root h.root_name legacy l.before.reverse
  have ho := rooted_outside legacy l.before.reverse l.root
  -- the parts of the page in turn, each from where the one before has led
  obtain ⟨b₁, hl₁, ho₁⟩ := leads_head_start hr h.head ho h.head_name _
  obtain ⟨b₂, hl₂, ho₂⟩ := leads_sparse h.headContent (List.forall_mem_nil _) _ ho₁ hh
  obtain ⟨b₃, hl₃, ho₃⟩ := leads_head_end h.head ho₂ h.head_name _
  obtain ⟨b₄, hl₄, ho₄⟩ := leads_sparse h.between (List.forall_mem_nil _) _ ho₃ hr
  obtain ⟨b₅, hl₅, ho₅⟩ := leads_body_start hr h.body ho₄ h.body_name _
  obtain ⟨b₆, hl₆, ho₆⟩ := leads_body h.body h.body_name hrv h.root_name h.content h.intact ho₅ _
  obtain ⟨b₇, hl₇, ho₇⟩ := leads_behind h.behind ho₆ _
  obtain ⟨b₈, hl₈, ho₈⟩ := leads_root_end h.root h.root_name ho₇ _
  obtain ⟨b₉, hl₉, ho₉⟩ := leads_after h.after ho₈ []
  have hwrite := write_page h []
  rw [List.append_nil] at hwrite
  rw [hwrite]
  refine ⟨b₉, (hbefore _).trans ((hroot _).trans (hl₁.trans (hl₂.trans (hl₃.trans (hl₄.trans
    (hl₅.trans (hl₆.trans (hl₇.trans (hl₈.trans hl₉))))))))), ?_⟩
  rw [List.append_nil, Forest.append_assoc, Forest.append_assoc] at ho₉
  exact ho₉

/-- Nothing happens at the end of a page. -/
theorem run_nil_behind {setting : Bool × List Leaf × List Leaf} {r : Element} {g : Forest}
    {b : Builder} (h : b.Behind .afterAfterBody setting r g) (fuel : Nat) :
    run (fuel + 1) [] b = b := by
  have hrules : rules .finish b = afterAfterBody .finish b := by
    rw [rules, get_bind, h.mode]
  refine run_nil fuel h.textMode (h.mode ▸ by decide) ?_
  have hb : { b with skipLine := false } = b := by
    have hk := h.skipLine
    cases b
    cases hk
    rfl
  rw [feed_eq, h.skipLine, hb]
  exact handle_of_done (isForeign_eq_false h.readsForeign_eq_false _) _ (hrules.trans rfl)

theorem cr_not_mem_page (h : l.Legible legacy) : '\r' ∉ l.page.write := by
  have hwrite := write_page h []
  rw [List.append_nil] at hwrite
  have hnotes : ∀ l' ∈ l.after, '\r' ∉ l'.write false := fun l' hl' =>
    cr_not_mem_note (List.all_eq_true.1 h.after l' hl')
  rw [hwrite]
  simp only [List.mem_append, List.mem_flatMap, List.append_nil, not_or, not_exists, not_and]
  exact ⟨cr_not_mem_before h.before, (cr_not_mem_tags h.root).1, (cr_not_mem_tags h.head).1,
    cr_not_mem_sparse h.headContent, (cr_not_mem_tags h.head).2, cr_not_mem_sparse h.between,
    (cr_not_mem_tags h.body).1, cr_not_mem_write h.content, (cr_not_mem_tags h.body).2,
    cr_not_mem_notes h.behind, (cr_not_mem_tags h.root).2, hnotes⟩

/-- What has been written of a page begins with a tag, a comment or a document type. -/
theorem exists_write_eq (h : l.Legible legacy) : ∃ cs, l.page.write = '<' :: cs := by
  have hwrite := write_page h []
  rw [List.append_nil] at hwrite
  rw [hwrite]
  have hbefore := h.before
  generalize l.before = ls at hbefore ⊢
  cases ls with
  | nil => exact ⟨_, rfl⟩
  | cons l' ls =>
    rw [List.flatMap_cons, List.append_assoc]
    cases l' with
    | comment s => exact ⟨_, Leaf.write_comment_append s _⟩
    | doctype name =>
      have ho : "<!DOCTYPE ".toList = '<' :: ['!', 'D', 'O', 'C', 'T', 'Y', 'P', 'E', ' '] :=
        String.toList_ofList
      have hw : (Leaf.doctype name).write false = "<!DOCTYPE ".toList ++ name.toList ++ ['>'] := rfl
      rw [hw, ho]
      exact ⟨_, rfl⟩
    | text s => cases hbefore

/-- A page that is laid out as pages are written is read back from its written form, but for texts
    side by side. -/
theorem parse_write (h : l.isLegible = true) :
    (Page.parse (String.ofList l.page.write)).join = l.page.join := by
  obtain ⟨legacy, h⟩ := exists_legible h
  obtain ⟨b, hl, hb⟩ := leads_page h
  obtain ⟨cs, hcs⟩ := exists_write_eq h
  have hunify : unifyLines (dropOrderMark l.page.write) = l.page.write := by
    have hdrop : dropOrderMark l.page.write = l.page.write := by
      rw [hcs]
      rfl
    rw [hdrop]
    exact unifyLinesFrom_eq (cr_not_mem_page h) []
  obtain ⟨fuel, hfuel, hrun⟩ := hl _ (Nat.lt_succ_self _)
  obtain ⟨fuel, rfl⟩ := Nat.exists_eq_add_of_lt hfuel
  have hpage : Page.parse (String.ofList l.page.write) = Build.page b := by
    rw [Page.parse, String.toList_ofList, hunify]
    exact congrArg Build.page (hrun.trans (run_nil_behind hb _))
  obtain ⟨-, hroot, hcontent⟩ := hb.shows.content hb.grown
  have hbefore : b.before.reverse = l.before :=
    (congrArg (fun s => s.2.1.reverse) hb.setting).trans (List.reverse_reverse _)
  have hafter : b.after.reverse = l.after :=
    (congrArg (fun s => s.2.2.reverse) hb.setting).trans (List.reverse_reverse _)
  rw [hpage, Build.page, hbefore, hafter, hroot]
  exact congrArg (Page.mk l.before l.root · l.after) hcontent

end Layout

/-! ## Pages that are read back -/

namespace Page

/-- Whether a page is laid out as pages are written and all its parts are read back. -/
def isLegible (page : Page) : Bool := (Layout.of? page).any Layout.isLegible

/-- A legible page is read back from its written form, but for texts side by side. -/
theorem parse_write_of_isLegible {page : Page} (h : page.isLegible = true) :
    (parse (String.ofList page.write)).join = page.join := by
  obtain ⟨l, hl, hlegible⟩ := (Option.any_eq_true _ _).1 h
  rw [← Layout.page_of_of? hl]
  exact l.parse_write hlegible

theorem Alike.of_join {p q : Page} (h : p.join = q.join) : p.Alike q where
  root := show p.join.root = q.join.root from congrArg Page.root h
  content := show p.join.content = q.join.content from congrArg Page.content h

end Page
end SchemaExtraction.Markup
