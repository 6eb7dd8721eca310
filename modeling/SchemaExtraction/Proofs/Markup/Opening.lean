import SchemaExtraction.Proofs.Markup.Intact

/-!
# From the start of a page to its body

Before the body of a page that has been written stand its document type and comments, the start tag
of the root element, the head with what belongs into it, and white space. The machine reads all of
it back, and stands at the start of the body then.

Results:
* `leads_before`: what precedes the root element.
* `leads_sparse`: the content of the head, and what stands between it and the body.
* `leads_root`, `leads_head_start`, `leads_head_end`, `leads_body_start`: the tags between them.
* `Builder.Outside.stands`: where the machine is at the start of the body.
-/

namespace SchemaExtraction.Markup

open Build

variable {b b' : Builder} {m : Mode} {e : Element} {f : Forest} {frames : List Frame}
  {cs rest : List Char} {token : Token}

/-! ## One token -/

/-- Tokens that are fed to the machine as they are. -/
def isPlainToken : Token → Bool
  | .startTag _ | .endTag _ | .comment _ => true
  | .space cs => !cs.isEmpty
  | _ => false

theorem feed_of_done (ht : isPlainToken token = true) (hk : b.skipLine = false)
    (hf : readsForeign b = false) (hr : rules token b = (.done, b')) : feed token b = ((), b') := by
  have hb : { b with skipLine := false } = b := by cases b; cases hk; rfl
  have hh : handle (2 * b.stack.length + 20) token b = ((), b') :=
    handle_of_done (isForeign_eq_false hf token) _ hr
  rw [feed_eq, hk, hb]
  cases token with
  | space cs =>
    cases cs with
    | nil => cases ht
    | cons c cs => exact hh
  | startTag _ | endTag _ | comment _ => exact hh
  | _ => cases ht

/-- A token is read and handled. -/
theorem leads_plain (htext : b.textMode = .markup) (hm : b.mode ≠ .inText)
    (ht : isPlainToken token = true) (hk : b.skipLine = false) (hf : readsForeign b = false)
    (hs : Token.scanMarkup false cs = ([token], rest)) (hl : rest.length < cs.length)
    (hr : rules token b = (.done, b')) : Leads cs b rest b' := by
  refine .of_scanMarkup htext hf hm hs hl ?_ ((bind_eq (feed_of_done ht hk hf hr)).trans rfl)
  intro h
  rw [← List.mem_singleton.1 h] at ht
  cases ht

/-- Comments that are read back. -/
def Leaf.isNote : Leaf → Bool
  | .comment s => Token.isWritableComment s.toList && !s.toList.contains '\x00'
  | _ => false

theorem scanMarkup_note {s : String} (hs : (Leaf.comment s).isNote = true) (rest : List Char) :
    Token.scanMarkup false ((Leaf.comment s).write false ++ rest) = ([.comment s], rest) ∧
      rest.length < ((Leaf.comment s).write false ++ rest).length := by
  simp only [Leaf.isNote, Bool.and_eq_true, Bool.not_eq_true', List.contains_eq_mem,
    decide_eq_false_iff_not] at hs
  have hscan := Token.scanMarkup_comment hs.1 false rest
  rw [Token.replaceNull_eq hs.2, String.ofList_toList] at hscan
  exact ⟨hscan, length_lt_write_comment s rest⟩

/-! ## Outside of the body -/

/-- The machine between the start tag of the root element and that of the body. -/
structure Builder.Outside (m : Mode) (setting : Bool × List Leaf × List Leaf)
    (frames : List Frame) (b : Builder) : Prop where
  mode : b.mode = m
  textMode : b.textMode = .markup
  skipLine : b.skipLine = false
  templates : b.templates = []
  formatting : b.formatting = []
  form : b.form = none
  fostering : b.fostering = false
  pending : b.pending = []
  setting : b.setting = setting
  grown : b.draft.Grown
  shows : b.Shows frames

/-- The element is the root element or the head. -/
def Element.isOuter (e : Element) : Bool := e.isHtml ["html", "head"]

namespace Builder.Outside

variable {setting : Bool × List Leaf × List Leaf}

theorem current (h : b.Outside m setting ((e, f) :: frames)) :
    b.draft.kind? (b.stack.headD root) = some (.element e) := by
  obtain ⟨id, ids, hs, hk⟩ := h.shows.exists_current
  rw [hs]
  exact hk

theorem puts (h : b.Outside m setting ((e, f) :: frames)) (he : e.isOuter = true) :
    b.PutsInside := by
  have hn : ∀ n ∈ ["html", "head"], ["template"].contains n = false := by decide
  rw [Element.isOuter, Element.isHtml, Bool.and_eq_true, List.contains_iff_mem] at he
  refine ⟨h.fostering, e, h.current, ?_⟩
  rw [Element.isHtml, hn _ he.2, Bool.and_false]

theorem readsForeign_eq_false (h : b.Outside m setting ((e, f) :: frames))
    (he : e.isOuter = true) : readsForeign b = false := by
  obtain ⟨id, ids, hs, hk⟩ := h.shows.exists_current
  rw [Element.isOuter, Element.isHtml, Bool.and_eq_true, decide_eq_true_eq] at he
  have hv : (b.draft.element id).vocabulary = .html := by
    rw [Draft.element_of_kind? hk]
    exact he.1
  rw [readsForeign, hs]
  simp [hv]

/-- The innermost element receives some nodes. -/
theorem receives (h : b.Outside m setting ((e, f) :: frames)) {added : Forest} {d : Draft}
    (hd : b.draft.Receives b.stack added d) {m' : Mode} {t : TextMode} {allowed skip : Bool}
    (ht : t = .markup) (hk : skip = false) :
    Builder.Outside m setting ((e, f ++ added) :: frames) { b with
      draft := d, returnMode := m', textMode := t, framesetAllowed := allowed, skipLine := skip } :=
  ⟨h.mode, ht, hk, h.templates, h.formatting, h.form, h.fostering, h.pending, h.setting, hd.grown,
    hd.shows h.shows⟩

theorem alike (h : b.Outside m setting ((e, f) :: frames)) {g : Forest} (hg : f.Alike g) :
    b.Outside m setting ((e, g) :: frames) :=
  { h with shows := h.shows.alike hg }

/-- An element is opened inside of the innermost one. -/
theorem opens (h : b.Outside m setting ((e, f) :: frames)) (e' : Element) {m' : Mode}
    {head : Option NodeId} {allowed : Bool} :
    Builder.Outside m' setting ((e', .nil) :: (e, f) :: frames) { b.opens e' with
      mode := m', head := head, framesetAllowed := allowed } :=
  ⟨rfl, h.textMode, h.skipLine, h.templates, h.formatting, h.form, h.fostering, h.pending,
    h.setting, Draft.grown_grow h.grown h.current, h.shows.opens h.grown e'⟩

/-- The innermost element of two is closed. -/
theorem closes {e' : Element} {g : Forest}
    (h : b.Outside m setting ((e', g) :: (e, f) :: frames)) (m' : Mode) :
    Builder.Outside m' setting ((e, f ++ .element e' g .nil) :: frames) { b with
      mode := m', stack := b.stack.drop 1 } := by
  obtain ⟨id, ids, hs, -⟩ := h.shows.exists_current
  refine ⟨rfl, h.textMode, h.skipLine, h.templates, h.formatting, h.form, h.fostering, h.pending,
    h.setting, h.grown, ?_⟩
  have hclosed := h.shows.closes h.grown hs
  rw [Builder.Shows, hs]
  exact hclosed

/-- A token is read and handled. -/
theorem leads (h : b.Outside m setting ((e, f) :: frames)) (he : e.isOuter = true)
    (hm : m ≠ .inText) (ht : isPlainToken token = true)
    (hs : Token.scanMarkup false cs = ([token], rest)) (hl : rest.length < cs.length)
    (hr : rules token b = (.done, b')) : Leads cs b rest b' :=
  leads_plain h.textMode (h.mode ▸ hm) ht h.skipLine (h.readsForeign_eq_false he) hs hl hr

/-- A start tag is read and handled. -/
theorem leads_start (h : b.Outside m setting ((e, f) :: frames)) (he : e.isOuter = true)
    (hm : m ≠ .inText) {e' : Element} (hw : e'.isWritable = true)
    (hr : rules (.startTag ⟨e'.name, e'.attributes, false⟩) b = (.done, b')) (rest : List Char) :
    Leads (e'.writeStart ++ rest) b rest b' :=
  h.leads he hm rfl (Token.scanMarkup_start hw false rest) (length_lt_writeStart e' rest) hr

end Builder.Outside

/-! ## White space, comments and the head -/

/-- White space and comments that are read back outside of the body. -/
def Leaf.isSparse : Leaf → Bool
  | .text s => s.toList ≠ [] && s.toList.all fun c => isSpace c && c ≠ '\r'
  | l => l.isNote

/-- Whether an element with its content is read back in the head. -/
def Element.fitsHead (e : Element) (content : Forest) : Bool :=
  match textModeOf? e with
  | some mode =>
    ("noscript" :: headTextNames).contains e.name && e.keeps mode content && content.isIntact
  | none => headVoidNames.contains e.name && content = .nil

/-- Whether a forest is read back outside of the body: there are only white space and comments and,
    in the head, elements that belong there. -/
def Forest.isSparse (inHead : Bool) : Forest → Bool
  | nil => true
  | leaf l next => l.isSparse && next.isSparse inHead
  | element e content next =>
    inHead && e.isWritable && e.fitsHead content && (next.write false).head? ≠ some '\uFEFF' &&
      next.isSparse inHead
  | fragment _ _ => false

/-- The mode in the head, or between the head and the body. -/
def headMode (inHead : Bool) : Mode := if inHead then .inHead else .afterHead

variable {setting : Bool × List Leaf × List Leaf} {inHead : Bool}

theorem rules_space_outside (hm : b.mode = headMode inHead) (cs : List Char) :
    rules (.space cs) b = (do insertText cs; done : Build Outcome) b := by
  rw [rules, get_bind, hm]
  cases inHead <;> rfl

theorem rules_comment_outside (hm : b.mode = headMode inHead) (s : String) :
    rules (.comment s) b = (do insertComment s; done : Build Outcome) b := by
  rw [rules, get_bind, hm]
  cases inHead <;> rfl

theorem headMode_ne (inHead : Bool) : headMode inHead ≠ .inText := by cases inHead <;> decide

section Outside

variable (h : b.Outside (headMode inHead) setting ((e, f) :: frames)) (he : e.isOuter = true)
include h he

/-- White space is read. -/
theorem leads_spaces (hs : ∀ c ∈ cs, isSpace c = true) (rest : List Char) :
    ∃ b', Leads (cs ++ '<' :: rest) b ('<' :: rest) b' ∧
      b'.Outside (headMode inHead) setting ((e, f ++ .ofText cs) :: frames) := by
  cases cs with
  | nil => exact ⟨b, .refl _ _, by rwa [show Forest.ofText [] = .nil from rfl, Forest.append_nil]⟩
  | cons c cs =>
    have hins := (h.puts he).insertText_eq (List.cons_ne_nil c cs)
    have hr : rules (.space (c :: cs)) b = (.done, { b with
        draft := b.draft.appendText (b.stack.headD root) (String.ofList (c :: cs)) }) :=
      (rules_space_outside h.mode _).trans (bind_eq hins)
    have hscan := Token.scanMarkup_space (List.cons_ne_nil c cs) hs false rest
    have hlength : ('<' :: rest).length < (c :: cs ++ '<' :: rest).length := by
      simp only [List.length_append, List.length_cons]
      omega
    refine ⟨_, h.leads he (headMode_ne _) rfl hscan hlength hr, ?_⟩
    exact h.receives (Draft.receives_text h.grown h.current _) h.textMode h.skipLine

/-- A comment is read. -/
theorem leads_note {s : String} (hs : (Leaf.comment s).isNote = true) (rest : List Char) :
    ∃ b', Leads ((Leaf.comment s).write false ++ rest) b rest b' ∧
      b'.Outside (headMode inHead) setting ((e, f ++ .leaf (.comment s) .nil) :: frames) := by
  obtain ⟨hscan, hlength⟩ := scanMarkup_note hs rest
  have hins := (h.puts he).insertComment_eq s
  have hr : rules (.comment s) b = (.done, b.holds (.leaf (.comment s))) :=
    (rules_comment_outside h.mode s).trans (bind_eq hins)
  refine ⟨_, h.leads he (headMode_ne _) rfl hscan hlength hr, ?_⟩
  have hkind : Kind.leaf (.comment s) ≠ .fragment := by simp
  exact h.receives (Draft.receives_grow h.grown h.current hkind) h.textMode h.skipLine

end Outside

/-- An element that belongs into the head is read. -/
theorem leads_head_element (h : b.Outside .inHead setting ((e, f) :: frames))
    (he : e.isOuter = true) {e' : Element} {content : Forest} (hw : e'.isWritable = true)
    (hf : e'.fitsHead content = true) (hrest : dropOrderMark rest = rest) :
    ∃ b', Leads (e'.writeStart ++ ((if e'.isHtml voidNames then []
        else content.write (e'.isHtml rawNames) ++ e'.writeEnd) ++ rest)) b rest b' ∧
      b'.Outside .inHead setting ((e, f ++ .element e' content .nil) :: frames) := by
  have htag := element_of_isWritable hw
  have hrules (token : Token) : rules token b = inHead token b := by rw [rules, get_bind, h.mode]
  unfold Element.fitsHead at hf
  -- an element with text is read up to its end tag, any other one in the head is void
  cases hm : textModeOf? e' with
  | some mode =>
    rw [hm] at hf
    simp only [Bool.and_eq_true] at hf
    obtain ⟨⟨hn, hk⟩, hintact⟩ := hf
    have hn' : ("noscript" :: headTextNames).contains
      (Tag.mk e'.name e'.attributes false).name = true := hn
    obtain ⟨mode', hm', hr⟩ := inHead_textual (h.puts he) hn'
    rw [htag] at hm' hr
    obtain rfl := Option.some.inj (hm.symm.trans hm')
    have hv : e'.isHtml voidNames = false := isHtml_of_textModeOf? hm (by decide)
    have hskip : b.skipLine = true → e'.isHtml ["textarea"] = true := fun hs => by
      rw [h.skipLine] at hs
      cases hs
    obtain ⟨cs, d, htext, hd, hl⟩ :=
      leads_entered hw hm hk (h.puts he) h.grown b.framesetAllowed hskip hrest
    have hcontent := Forest.ofText_alike hintact htext (Element.keeps_text hk htext).2
    rw [hv, if_neg Bool.false_ne_true, List.append_assoc]
    exact ⟨_, (h.leads_start he (by decide) hw ((hrules _).trans hr) _).trans hl,
      (h.receives hd rfl rfl).alike (Forest.Alike.append rfl (hcontent.element e'))⟩
  | none =>
    rw [hm, Bool.and_eq_true, decide_eq_true_eq] at hf
    obtain ⟨hn, rfl⟩ := hf
    have hnames : ∀ n ∈ headVoidNames, voidNames.contains n = true ∧
      ["html", "template"].contains n = false := by decide
    obtain ⟨hvoid, hnot⟩ := hnames _ (List.contains_iff_mem.1 hn)
    have hv : e'.isHtml voidNames = true :=
      (Element.isHtml_eq (vocabulary_of_isWritable hw) _).trans hvoid
    have ht : (Tag.element ⟨e'.name, e'.attributes, false⟩).isHtml ["template"] = false :=
      Element.isHtml_eq_false hnot (by decide)
    have hins := (h.puts he).insertVoid_eq ht
    rw [htag] at hins
    have hr : rules (.startTag ⟨e'.name, e'.attributes, false⟩) b =
        (.done, b.holds (.element e')) :=
      (hrules _).trans ((congrFun (if_neg (ne_of_contains hnot (by decide))) _).trans
        ((congrFun (if_pos hn) _).trans (bind_eq hins)))
    rw [hv, if_pos rfl]
    have hkind : Kind.element e' ≠ .fragment := by simp
    exact ⟨_, h.leads_start he (by decide) hw hr _,
      h.receives (Draft.receives_grow h.grown h.current hkind) h.textMode h.skipLine⟩

/-- What stands in the head, or between the head and the body, is read after some white space and
    before a tag. The induction is on the forest, whose white space is put off until something
    else comes. -/
theorem leads_sparse (hf : f.isSparse inHead = true) (hs : ∀ c ∈ cs, isSpace c = true)
    (rest : List Char) {g : Forest}
    (h : b.Outside (headMode inHead) setting ((e, g) :: frames)) (he : e.isOuter = true) :
    ∃ b', Leads (cs ++ (f.write false ++ '<' :: rest)) b ('<' :: rest) b' ∧
      b'.Outside (headMode inHead) setting ((e, g ++ (.ofText cs ++ f)) :: frames) := by
  induction f generalizing cs b g with
  | nil =>
    rw [Forest.append_nil]
    exact leads_spaces h he hs rest
  | leaf l next ih =>
    rw [Forest.isSparse, Bool.and_eq_true] at hf
    cases l with
    | doctype name => cases hf.1
    | text s =>
      obtain ⟨hl, hnext⟩ := hf
      simp only [Leaf.isSparse, Bool.and_eq_true, List.all_eq_true, decide_eq_true_eq] at hl
      -- the white space is put off with what is there of it already
      have hboth : ∀ c ∈ cs ++ s.toList, isSpace c = true :=
        List.forall_mem_append.2 ⟨hs, fun c hc => (hl.2 c hc).1⟩
      obtain ⟨b', hb, ho⟩ := ih hnext hboth h
      rw [List.append_assoc] at hb
      rw [Forest.write, Leaf.write_text, escape_space fun c hc => (hl.2 c hc).1, List.append_assoc]
      refine ⟨b', hb, ho.alike (Forest.Alike.append rfl ?_)⟩
      have hcut := (Forest.ofText_append cs s.toList).append (rfl : next.Alike next)
      rwa [Forest.ofText_toList hl.1, Forest.append_assoc] at hcut
    | comment s =>
      obtain ⟨hnote, hnext⟩ := hf
      obtain ⟨b₁, hb₁, ho₁⟩ := leads_spaces h he hs _
      obtain ⟨b₂, hb₂, ho₂⟩ := leads_note ho₁ he hnote (next.write false ++ '<' :: rest)
      obtain ⟨b', hb', ho'⟩ := ih hnext (List.forall_mem_nil _) ho₂
      rw [Leaf.write_comment_append] at hb₂
      rw [Forest.write, List.append_assoc, Leaf.write_comment_append]
      refine ⟨b', hb₁.trans (hb₂.trans hb'), ?_⟩
      rw [Forest.append_assoc, Forest.append_assoc] at ho'
      exact ho'
  | element e' content next _ ih =>
    simp only [Forest.isSparse, Bool.and_eq_true, decide_eq_true_eq] at hf
    obtain ⟨⟨⟨⟨hin, hw⟩, hfits⟩, hhead⟩, hnext⟩ := hf
    subst hin
    have hds (ds : List Char) : e'.writeStart ++ ds = '<' :: (e'.name.toList ++
      e'.attributes.flatMap Attribute.write ++ ['>'] ++ ds) := rfl
    obtain ⟨b₁, hb₁, ho₁⟩ := leads_spaces h he hs _
    obtain ⟨b₂, hb₂, ho₂⟩ := leads_head_element ho₁ he hw hfits (dropOrderMark_append hhead rest)
    obtain ⟨b', hb', ho'⟩ := ih hnext (List.forall_mem_nil _) ho₂
    rw [hds] at hb₂
    rw [Forest.write_element, List.append_assoc, List.append_assoc, hds]
    refine ⟨b', hb₁.trans (hb₂.trans hb'), ?_⟩
    rw [Forest.append_assoc, Forest.append_assoc] at ho'
    exact ho'
  | fragment content next => cases hf

/-! ## Before the root element -/

/-- What a page that begins with some leaves is, comments and at most one document type: a legacy
    page or not. Document types but that of the present format are not read back. -/
def legacy? : Bool → List Leaf → Option Bool
  | legacy, [] => some legacy
  | legacy, .doctype name :: ls => if legacy && name = "html" then legacy? false ls else none
  | legacy, l :: ls => if l.isNote then legacy? legacy ls else none

/-- The machine before the root element. The page is a legacy page as long as it has no document
    type. -/
def prologue (legacy : Bool) (before : List Leaf) : Builder :=
  { start with mode := if legacy then .initial else .beforeHtml, before := before }

theorem prologue_mode (legacy : Bool) (before : List Leaf) :
    (prologue legacy before).mode ≠ .inText := by
  cases legacy <;> exact Mode.noConfusion

/-- The document type of the present format. -/
def presentDoctype : Doctype := ⟨some "html", none, none, false⟩

theorem scanMarkup_doctype (rest : List Char) :
    Token.scanMarkup false ((Leaf.doctype "html").write false ++ rest) =
      ([.doctype presentDoctype], rest) := by
  have ho : "<!DOCTYPE ".toList = ['<', '!', 'D', 'O', 'C', 'T', 'Y', 'P', 'E', ' '] :=
    String.toList_ofList
  have hn : "html".toList = ['h', 't', 'm', 'l'] := String.toList_ofList
  have hw : (Leaf.doctype "html").write false ++ rest =
      '<' :: '!' :: 'D' :: 'O' :: 'C' :: 'T' :: 'Y' :: 'P' :: 'E' :: ' ' :: 'h' :: 't' :: 'm' ::
        'l' :: '>' :: rest := by
    show "<!DOCTYPE ".toList ++ "html".toList ++ ['>'] ++ rest = _
    rw [ho, hn]
    rfl
  rw [hw]
  rfl

theorem feed_doctype (before : List Leaf) :
    feed (.doctype presentDoctype) (prologue true before) =
      ((), prologue false (.doctype "html" :: before)) := rfl

/-- The document type is read. -/
theorem leads_doctype (before : List Leaf) (rest : List Char) :
    Leads ((Leaf.doctype "html").write false ++ rest) (prologue true before) rest
      (prologue false (.doctype "html" :: before)) := by
  have hpos : 0 < ((Leaf.doctype "html").write false).length := by decide
  have hlength : rest.length < ((Leaf.doctype "html").write false ++ rest).length :=
    Nat.lt_of_lt_of_eq (Nat.lt_add_of_pos_left hpos) List.length_append.symm
  exact .of_scanMarkup rfl rfl (prologue_mode _ _) (scanMarkup_doctype _) hlength (by simp)
    ((bind_eq (feed_doctype before)).trans rfl)

/-- A comment before the root element is read. -/
theorem leads_note_before {s : String} (hs : (Leaf.comment s).isNote = true) (legacy : Bool)
    (before : List Leaf) (rest : List Char) :
    Leads ((Leaf.comment s).write false ++ rest) (prologue legacy before) rest
      (prologue legacy (.comment s :: before)) := by
  obtain ⟨hscan, hlength⟩ := scanMarkup_note hs rest
  have hr : rules (.comment s) (prologue legacy before) =
      (.done, prologue legacy (.comment s :: before)) := by cases legacy <;> rfl
  exact leads_plain rfl (prologue_mode _ _) rfl rfl rfl hscan hlength hr

theorem legacy?_doctype {legacy legacy' : Bool} {name : String} {ls : List Leaf}
    (h : legacy? legacy (.doctype name :: ls) = some legacy') :
    legacy = true ∧ name = "html" ∧ legacy? false ls = some legacy' := by
  rw [legacy?] at h
  split at h
  next hname =>
    rw [Bool.and_eq_true, decide_eq_true_eq] at hname
    exact ⟨hname.1, hname.2, h⟩
  next => cases h

theorem legacy?_comment {legacy legacy' : Bool} {s : String} {ls : List Leaf}
    (h : legacy? legacy (.comment s :: ls) = some legacy') :
    (Leaf.comment s).isNote = true ∧ legacy? legacy ls = some legacy' := by
  rw [legacy?] at h
  · split at h
    next hnote => exact ⟨hnote, h⟩
    next => cases h
  · exact fun _ h => nomatch h

/-- What precedes the root element is read. -/
theorem leads_before {ls : List Leaf} {legacy legacy' : Bool}
    (h : legacy? legacy ls = some legacy') (before : List Leaf) (rest : List Char) :
    Leads (ls.flatMap (Leaf.write false) ++ rest) (prologue legacy before) rest
      (prologue legacy' (ls.reverse ++ before)) := by
  induction ls generalizing legacy before with
  | nil =>
    obtain rfl := Option.some.inj h
    exact .refl _ _
  | cons l ls ih =>
    rw [List.flatMap_cons, List.append_assoc, List.reverse_cons, List.append_assoc]
    cases l with
    | text s => cases h
    | comment s =>
      obtain ⟨hnote, hls⟩ := legacy?_comment h
      exact (leads_note_before hnote legacy before _).trans (ih hls _)
    | doctype name =>
      obtain ⟨rfl, rfl, hls⟩ := legacy?_doctype h
      exact (leads_doctype before _).trans (ih hls _)

/-- A draft that is nothing but a root element. -/
def rootDraft (e : Element) : Draft := ⟨#[⟨.element e, #[], none⟩]⟩

theorem rootDraft_grown (e : Element) : (rootDraft e).Grown := by
  refine ⟨Nat.one_pos, fun id h0 hid => absurd hid (Nat.not_lt.2 h0), rfl, fun id p hid => ?_,
    fun p => ?_⟩
  · rcases id with _ | id <;> cases hid
  · rcases p with _ | p <;> rfl

theorem rootDraft_shows (e : Element) : (rootDraft e).Shows [root] [(e, .nil)] :=
  .cons List.not_mem_nil rfl rfl .nil rfl .nil

/-- The machine after the start tag of the root element. -/
def rooted (legacy : Bool) (before : List Leaf) (e : Element) : Builder :=
  { start with
    draft := rootDraft e, mode := .beforeHead, stack := [root], legacy := legacy, before := before }

theorem rooted_outside (legacy : Bool) (before : List Leaf) (e : Element) :
    (rooted legacy before e).Outside .beforeHead (legacy, before, []) [(e, .nil)] :=
  ⟨rfl, rfl, rfl, rfl, rfl, rfl, rfl, rfl, rfl, rootDraft_grown e, rootDraft_shows e⟩

/-- The start tag of the root element is read. -/
theorem leads_root (he : e.isWritable = true) (hn : e.name = "html") (legacy : Bool)
    (before : List Leaf) (rest : List Char) :
    Leads (e.writeStart ++ rest) (prologue legacy before) rest (rooted legacy before e) := by
  have hroot : e = ⟨.html, "html", e.attributes⟩ := by
    conv_lhs => rw [← element_of_isWritable he]
    rw [Tag.element, hn]
  have hstart (b : Builder) : beforeHtml (.startTag ⟨e.name, e.attributes, false⟩) b =
      (.done, { b with
        draft := b.draft.changeElement root ({ · with attributes := e.attributes }),
        stack := root :: b.stack, mode := .beforeHead }) := congrFun (if_pos hn) b
  have hrooted : ({ prologue false before with
      legacy := legacy, stack := [root], mode := .beforeHead
      draft := start.draft.changeElement root ({ · with attributes := e.attributes }) } : Builder) =
      rooted legacy before e := by
    rw [hroot]
    rfl
  have hfeed : feed (.startTag ⟨e.name, e.attributes, false⟩) (prologue legacy before) =
      ((), rooted legacy before e) := by
    have hfeed : feed (.startTag ⟨e.name, e.attributes, false⟩) (prologue legacy before) =
        handle 20 (.startTag ⟨e.name, e.attributes, false⟩) (prologue legacy before) := rfl
    rw [hfeed, ← hrooted]
    -- without a document type the page becomes a legacy page first and the tag is read again
    cases legacy with
    | true =>
      have hinitial : rules (.startTag ⟨e.name, e.attributes, false⟩) (prologue true before) =
          (.again, { prologue true before with legacy := true, mode := .beforeHtml }) := rfl
      rw [handle_of_again rfl _ hinitial]
      exact handle_of_done rfl _ (hstart _)
    | false => exact handle_of_done rfl _ (hstart _)
  exact .of_scanMarkup rfl rfl (prologue_mode _ _) (Token.scanMarkup_start he false rest)
    (length_lt_writeStart e rest) (by simp) ((bind_eq hfeed).trans rfl)

/-! ## From the root element to the body -/

theorem Element.isOuter_of_name (he : e.isWritable = true)
    (hn : ["html", "head"].contains e.name = true) : e.isOuter = true :=
  (Element.isHtml_eq (vocabulary_of_isWritable he) _).trans hn

section Head

variable {r : Element} {g : Forest} (hr : r.isOuter = true) (he : e.isWritable = true)
include hr he

/-- The start tag of the head is read. -/
theorem leads_head_start (h : b.Outside .beforeHead setting [(r, g)]) (hn : e.name = "head")
    (rest : List Char) :
    ∃ b', Leads (e.writeStart ++ rest) b rest b' ∧
      b'.Outside .inHead setting [(e, .nil), (r, g)] := by
  have htag := element_of_isWritable he
  have ht : (Tag.element ⟨e.name, e.attributes, false⟩).isHtml ["template"] = false := by
    rw [Tag.element, hn]
    rfl
  have hins := (h.puts hr).insert_eq ht
  rw [htag] at hins
  have hhtml : e.name ≠ "html" := by
    rw [hn]
    decide
  have hrules : rules (.startTag ⟨e.name, e.attributes, false⟩) b = (.done, { b.opens e with
      head := some b.draft.cells.size, mode := .inHead }) := by
    rw [rules, get_bind, h.mode]
    refine (congrFun (if_neg hhtml) b).trans ((congrFun (if_pos hn) b).trans ?_)
    rw [htag]
    exact bind_eq hins
  exact ⟨_, h.leads_start hr (by decide) he hrules rest, h.opens e⟩

/-- The start tag of the body is read. -/
theorem leads_body_start (h : b.Outside .afterHead setting [(r, g)]) (hn : e.name = "body")
    (rest : List Char) :
    ∃ b', Leads (e.writeStart ++ rest) b rest b' ∧
      b'.Outside .inBody setting [(e, .nil), (r, g)] := by
  have htag := element_of_isWritable he
  have ht : (Tag.element ⟨e.name, e.attributes, false⟩).isHtml ["template"] = false := by
    rw [Tag.element, hn]
    rfl
  have hins := (h.puts hr).insertTag_eq ht
  rw [htag] at hins
  have hhtml : e.name ≠ "html" := by
    rw [hn]
    decide
  have hrules : rules (.startTag ⟨e.name, e.attributes, false⟩) b = (.done, { b.opens e with
      mode := .inBody, framesetAllowed := false }) := by
    rw [rules, get_bind, h.mode]
    refine (congrFun (if_neg hhtml) b).trans ((congrFun (if_pos hn) b).trans ?_)
    exact bind_eq hins
  exact ⟨_, h.leads_start hr (by decide) he hrules rest, h.opens e⟩

omit hr

/-- The end tag of the head is read. -/
theorem leads_head_end (h : b.Outside .inHead setting [(e, f), (r, g)]) (hn : e.name = "head")
    (rest : List Char) :
    ∃ b', Leads (e.writeEnd ++ rest) b rest b' ∧
      b'.Outside .afterHead setting [(r, g ++ .element e f .nil)] := by
  have houter := Element.isOuter_of_name he (by rw [hn]; decide)
  have hrules : rules (.endTag e.name) b =
      (.done, { b with mode := .afterHead, stack := b.stack.drop 1 }) := by
    rw [rules, get_bind, h.mode]
    exact congrFun (if_pos hn) b
  exact ⟨_, h.leads houter (by decide) rfl (Token.scanMarkup_end he false rest)
    (length_lt_writeEnd e rest) hrules, h.closes .afterHead⟩

end Head

/-- The machine stands at the start of the body. -/
theorem Builder.Outside.stands {r : Element} {g : Forest}
    (h : b.Outside .inBody setting [(e, f), (r, g)]) (hev : e.vocabulary = .html)
    (hen : e.name = "body") (hrv : r.vocabulary = .html) (hrn : r.name = "html") :
    Stands [e, r] b := by
  have hform (id : NodeId) (ids : List NodeId) : formOf (id :: ids) [e, r] = none :=
    Stands.formOf_eq_none (by simp [isWithin, Element.isHtml, hen, hrn])
  have hmode : modeOf [e, r] = .inBody := by
    simp [modeOf, Element.isHtml, hen, hrn, groupNames]
  obtain ⟨id, hstack, hne, hk, hroot⟩ := h.shows.exists_pair
  refine ⟨h.grown, ?_, ?_, h.mode.trans hmode.symm, h.textMode, h.templates, h.fostering, h.pending⟩
  · rw [hstack, h.formatting]
    exact .body hne hk hroot hev hen hrv hrn
  · rw [hstack, hform, h.form]

end SchemaExtraction.Markup
