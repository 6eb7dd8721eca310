import SchemaExtraction.Proofs.Text.Occurrences
import SchemaExtraction.Value.Template

/-!
# Templates in pieces

A template is literals with placeholders between them, and perhaps an opener that nothing closes
behind them. However the marks of the two forms of placeholder and the texts between them meet, the
pass finds these pieces: an opener never straddles the end of a literal, nor a closer that of a
path, and what is put in is not looked at.

Results:
* `findOpener?_eq_some_iff`: the first opener of a template.
* `exists_pieces`: every template is written in pieces.
* `interpolate_pieces`: what is filled in.
-/

namespace SchemaExtraction.Template

/-! ## Templates without placeholders -/

/-- Whether a text has no placeholder: none is opened, or the first one is never closed. -/
def isPlain (cs : List Char) : Bool :=
  match findOpener? cs with
  | none => true
  | some (_, form, body) => (Text.cut? form.closer body).isNone

theorem fill_of_isPlain {cs : List Char} (h : isPlain cs = true) (context : Value) :
    fill context cs = cs := by
  unfold isPlain at h
  rw [fill]
  split
  next => rfl
  next before form body hopener =>
    rw [hopener] at h
    dsimp only at h
    split
    next => rfl
    next path rest hcut =>
      rw [hcut] at h
      cases h

theorem interpolate_of_isPlain {template : String} (h : isPlain template.toList = true)
    (context : Value) : interpolate template context = template := by
  rw [interpolate, fill_of_isPlain h, String.ofList_toList]

/-! ## The first opener -/

/-- Whether a text opens no placeholder. -/
def IsLiteral (cs : List Char) : Prop := ∀ form : Form, ¬ form.opener <:+: cs

variable {c : Char} {cs before path rest : List Char} {form : Form}

theorem isLiteral_cons :
    IsLiteral (c :: cs) ↔ (∀ form : Form, ¬ form.opener <+: c :: cs) ∧ IsLiteral cs := by
  simp only [IsLiteral, List.infix_cons_iff, not_or, forall_and]

theorem findOpener?_opener (form : Form) (cs : List Char) :
    findOpener? (form.opener ++ cs) = some ([], form, cs) := by
  cases form <;> rfl

theorem findOpener?_cons (h : ∀ form : Form, ¬ form.opener <+: c :: cs) :
    findOpener? (c :: cs) =
      (findOpener? cs).map fun (before, form, after) => (c :: before, form, after) := by
  rw [findOpener?]
  · rintro cs rfl rfl
    exact h .dollar ⟨cs, rfl⟩
  · rintro cs rfl rfl
    exact h .percent ⟨cs, rfl⟩

/-- The first character of an opener comes in no opener again. -/
theorem Form.exists_opener_eq (form : Form) :
    ∃ c cs, form.opener = c :: cs ∧ ∀ other : Form, c ∉ other.opener.tail := by
  cases form <;> exact ⟨_, _, rfl, fun other => by cases other <;> decide⟩

theorem Form.exists_closer_eq (form : Form) : ∃ c cs, form.closer = c :: cs ∧ c ∉ cs := by
  cases form <;> exact ⟨_, _, rfl, by decide⟩

theorem findOpener?_append (h : IsLiteral before) (form : Form) (rest : List Char) :
    findOpener? (before ++ form.opener ++ rest) = some (before, form, rest) := by
  induction before with
  | nil => exact findOpener?_opener form rest
  | cons d before ih =>
    obtain ⟨hnot, h⟩ := isLiteral_cons.1 h
    obtain ⟨c, cs, hopener, hc⟩ := form.exists_opener_eq
    have hnot' (other : Form) : ¬ other.opener <+: d :: (before ++ form.opener ++ rest) := by
      have :=
        Text.not_prefix_append (hc other) (List.cons_ne_nil d before) (hnot other) (cs ++ rest)
      simpa [hopener] using this
    rw [List.cons_append, List.cons_append, findOpener?_cons hnot', ih h]
    rfl

theorem findOpener?_eq_none_iff : findOpener? cs = none ↔ IsLiteral cs := by
  induction cs with
  | nil => exact ⟨fun _ form => by cases form <;> decide, fun _ => rfl⟩
  | cons c cs ih =>
    rw [isLiteral_cons]
    by_cases h : ∀ form : Form, ¬ form.opener <+: c :: cs
    · rw [findOpener?_cons h, Option.map_eq_none_iff, ih, and_iff_right h]
    · push Not at h
      obtain ⟨form, rest, hrest⟩ := h
      rw [← hrest, findOpener?_opener]
      simpa using fun h _ => h form (List.prefix_append _ _)

instance (cs : List Char) : Decidable (IsLiteral cs) := decidable_of_iff _ findOpener?_eq_none_iff

/-- The opener that is found is the first one. -/
theorem findOpener?_eq_some_iff : findOpener? cs = some (before, form, rest) ↔
    cs = before ++ form.opener ++ rest ∧ IsLiteral before := by
  constructor
  · induction cs generalizing before with
    | nil => exact nofun
    | cons c cs ih =>
      intro h
      by_cases hnot : ∀ form : Form, ¬ form.opener <+: c :: cs
      · rw [findOpener?_cons hnot] at h
        obtain ⟨⟨before, form, rest⟩, hcs, h⟩ := Option.map_eq_some_iff.1 h
        cases h
        obtain ⟨rfl, hbefore⟩ := ih hcs
        refine ⟨rfl, isLiteral_cons.2 ⟨fun other hother => hnot other ?_, hbefore⟩⟩
        exact hother.trans ⟨form.opener ++ rest, by simp⟩
      · push Not at hnot
        obtain ⟨other, more, hmore⟩ := hnot
        rw [← hmore, findOpener?_opener] at h
        cases h
        exact ⟨hmore.symm, findOpener?_eq_none_iff.1 rfl⟩
  · rintro ⟨rfl, h⟩
    exact findOpener?_append h form rest

/-! ## Filling in -/

theorem fill_of_isLiteral (h : IsLiteral cs) (context : Value) : fill context cs = cs := by
  refine fill_of_isPlain ?_ context
  rw [isPlain, findOpener?_eq_none_iff.2 h]

/-- An opener that nothing closes is text, and so is what follows. -/
theorem fill_open (h : IsLiteral before) (hrest : ¬ form.closer <:+: rest) (context : Value) :
    fill context (before ++ form.opener ++ rest) = before ++ form.opener ++ rest := by
  refine fill_of_isPlain ?_ context
  rw [isPlain, findOpener?_append h]
  exact Option.isNone_iff_eq_none.2 (Text.cut?_eq_none_iff.2 hrest)

/-- The first placeholder is filled in, and then what is behind it. -/
theorem fill_closed (h : IsLiteral before) (hpath : ¬ form.closer <:+: path) (context : Value)
    (rest : List Char) :
    fill context (before ++ form.opener ++ (path ++ form.closer ++ rest)) =
      before ++ expand context path ++ fill context rest := by
  have hcut : Text.cut? form.closer (path ++ form.closer ++ rest) = some (path, rest) := by
    obtain ⟨c, cs, hcloser, hc⟩ := form.exists_closer_eq
    rw [hcloser] at hpath ⊢
    exact Text.cut?_append hc hpath rest
  rw [fill]
  split
  next hnone =>
    rw [findOpener?_append h] at hnone
    cases hnone
  next _ _ _ hsome =>
    rw [findOpener?_append h] at hsome
    cases hsome
    split
    next hnone =>
      rw [hcut] at hnone
      cases hnone
    next _ _ hsome =>
      rw [hcut] at hsome
      cases hsome
      rfl

/-! ## Pieces -/

/-- Text of a template that opens no placeholder. -/
structure Literal where
  text : List Char
  isLiteral : IsLiteral text

/-- A placeholder: a form and a path that does not hold what closes the form. -/
structure Placeholder where
  form : Form
  path : List Char
  isOpen : ¬ form.closer <:+: path

/-- A template in pieces: a literal, and placeholders with a literal behind each. -/
structure Pieces where
  first : Literal
  rest : List (Placeholder × Literal)

namespace Placeholder

/-- A placeholder as it is written. -/
def write (p : Placeholder) : List Char := p.form.opener ++ p.path ++ p.form.closer

/-- What is put in: the text of the value at the path without the blanks around it, and nothing when
    there is none. -/
def shown (context : Value) (p : Placeholder) : String :=
  ((Path.lookup? context (String.ofList (Text.trim p.path))).map Value.toText).getD ""

theorem expand_path (context : Value) (p : Placeholder) :
    expand context p.path = (p.shown context).toList := by
  rw [expand, shown]
  cases Path.lookup? context (String.ofList (Text.trim p.path)) <;> rfl

end Placeholder

namespace Pieces

/-- A template as it is written. -/
def write (t : Pieces) : List Char :=
  t.first.text ++ t.rest.flatMap fun (p, literal) => p.write ++ literal.text

/-- A template filled in. -/
def filled (context : Value) (t : Pieces) : List Char :=
  t.first.text ++ t.rest.flatMap fun (p, literal) => (p.shown context).toList ++ literal.text

theorem write_cons (first : Literal) (p : Placeholder) (next : Literal)
    (rest : List (Placeholder × Literal)) :
    write ⟨first, (p, next) :: rest⟩ =
      first.text ++ p.form.opener ++ (p.path ++ p.form.closer ++ write ⟨next, rest⟩) := by
  simp [write, Placeholder.write]

theorem filled_cons (context : Value) (first : Literal) (p : Placeholder) (next : Literal)
    (rest : List (Placeholder × Literal)) :
    filled context ⟨first, (p, next) :: rest⟩ =
      first.text ++ (p.shown context).toList ++ filled context ⟨next, rest⟩ := by
  simp [filled]

end Pieces

/-- What may stand behind the pieces of a template: nothing, or an opener that nothing closes. -/
inductive IsEnding : List Char → Prop
  | nothing : IsEnding []
  | opener (form : Form) {tail : List Char} (h : ¬ form.closer <:+: tail) :
      IsEnding (form.opener ++ tail)

theorem fill_ending {ending : List Char} (h : IsEnding ending) (literal : Literal)
    (context : Value) : fill context (literal.text ++ ending) = literal.text ++ ending := by
  cases h with
  | nothing => rw [List.append_nil, fill_of_isLiteral literal.isLiteral]
  | opener form h =>
    rw [← List.append_assoc]
    exact fill_open literal.isLiteral h context

theorem fill_pieces {ending : List Char} (h : IsEnding ending) (context : Value) (t : Pieces) :
    fill context (t.write ++ ending) = t.filled context ++ ending := by
  obtain ⟨first, rest⟩ := t
  induction rest generalizing first with
  | nil => simpa [Pieces.write, Pieces.filled] using fill_ending h first context
  | cons next rest ih =>
    obtain ⟨p, next⟩ := next
    have hmore : Pieces.write ⟨first, (p, next) :: rest⟩ ++ ending = first.text ++ p.form.opener ++
        (p.path ++ p.form.closer ++ (Pieces.write ⟨next, rest⟩ ++ ending)) := by
      rw [Pieces.write_cons, List.append_assoc, List.append_assoc (p.path ++ p.form.closer)]
    rw [hmore, fill_closed first.isLiteral p.isOpen, ih, p.expand_path, Pieces.filled_cons,
      ← List.append_assoc]

/-- Every template is written in pieces, with nothing or an opener that nothing closes behind
    them. -/
theorem exists_pieces (cs : List Char) :
    ∃ (t : Pieces) (ending : List Char), cs = t.write ++ ending ∧ IsEnding ending := by
  fun_induction fill .null cs with
  | case1 cs h =>
    have hliteral := findOpener?_eq_none_iff.1 h
    exact ⟨⟨⟨cs, hliteral⟩, []⟩, [], by simp [Pieces.write], .nothing⟩
  | case2 cs before form body h hcut =>
    obtain ⟨rfl, hliteral⟩ := findOpener?_eq_some_iff.1 h
    refine ⟨⟨⟨before, hliteral⟩, []⟩, form.opener ++ body, by simp [Pieces.write], ?_⟩
    exact .opener form (Text.cut?_eq_none_iff.1 hcut)
  | case3 cs before form body h path rest hcut ih =>
    obtain ⟨rfl, hliteral⟩ := findOpener?_eq_some_iff.1 h
    obtain ⟨rfl, hfirst⟩ := Text.cut?_eq_some_iff.1 hcut
    obtain ⟨t, ending, rfl, hending⟩ := ih
    have hpath : ¬ form.closer <:+: path := hfirst.not_infix (by cases form <;> decide)
    refine ⟨⟨⟨before, hliteral⟩, (⟨form, path, hpath⟩, t.first) :: t.rest⟩, ending, ?_, hending⟩
    rw [Pieces.write_cons]
    simp

/-- A template in pieces keeps its literals and shows the value of each placeholder, whatever the
    values look like. If an opener that nothing closes follows, all from there on stays as it is. -/
theorem interpolate_pieces (context : Value) (t : Pieces) :
    interpolate (String.ofList t.write) context = String.ofList (t.filled context) ∧
    ∀ (form : Form) (tail : List Char), ¬ form.closer <:+: tail →
      interpolate (String.ofList (t.write ++ form.opener ++ tail)) context =
        String.ofList (t.filled context ++ form.opener ++ tail) := by
  constructor
  · have h := fill_pieces .nothing context t
    rw [List.append_nil, List.append_nil] at h
    rw [interpolate, String.toList_ofList, h]
  · intro form tail htail
    rw [interpolate, String.toList_ofList, List.append_assoc, fill_pieces (.opener form htail),
      List.append_assoc]

/-- The path of one form holds the marks of the other, the first value looks like a placeholder, and
    the last opener is followed by what closes the other form. -/
theorem interpolate_pieces_marks :
    let context := Value.obj [("a<%=b%>", .str "<%= n %>"), ("n", .ofNat 5)]
    let t : Pieces := ⟨⟨"$".toList, by decide⟩,
      [(⟨.dollar, " a<%=b%>".toList, by decide⟩, ⟨"<%".toList, by decide⟩),
        (⟨.percent, "n ".toList, by decide⟩, ⟨"%>".toList, by decide⟩)]⟩
    let tail := "n%>".toList
    String.ofList t.write = "$$\x7b a<%=b%>\x7d<%<%=n %>%>" ∧
      interpolate (String.ofList t.write) context = String.ofList (t.filled context) ∧
      String.ofList (t.filled context) = "$<%= n %><%5%>" ∧ ¬ Form.dollar.closer <:+: tail ∧
      interpolate (String.ofList (t.write ++ Form.dollar.opener ++ tail)) context =
        String.ofList (t.filled context ++ Form.dollar.opener ++ tail) := by
  intro context t tail
  have htail : ¬ Form.dollar.closer <:+: tail := by decide
  obtain ⟨hplain, hopen⟩ := interpolate_pieces context t
  exact ⟨by decide +kernel, hplain, by decide +kernel, htail, hopen .dollar tail htail⟩

end SchemaExtraction.Template
