import SchemaExtraction.Text.Search
import SchemaExtraction.Value.Coercion
import SchemaExtraction.Value.Path

/-!
# Templates

A template is text with placeholders `${path}` and `<%= path %>`. One pass from left to right puts
the text of the value at each path in its place; what is put in is not looked at again. An opener
without a closer is text, and so is all that follows it.
-/

namespace SchemaExtraction.Template

/-- The two forms of placeholder. -/
inductive Form where
  | dollar
  | percent
deriving DecidableEq, Repr

namespace Form

/-- What opens a placeholder. -/
def opener : Form → List Char
  | dollar => ['$', '\x7b']
  | percent => ['<', '%', '=']

/-- What closes a placeholder. -/
def closer : Form → List Char
  | dollar => ['\x7d']
  | percent => ['%', '>']

end Form

/-- The text before the first opener, its form, and the text after it. -/
def findOpener? : List Char → Option (List Char × Form × List Char)
  | [] => none
  | '$' :: '\x7b' :: cs => some ([], .dollar, cs)
  | '<' :: '%' :: '=' :: cs => some ([], .percent, cs)
  | c :: cs => (findOpener? cs).map fun (before, form, after) => (c :: before, form, after)

theorem length_of_findOpener? {cs before after : List Char} {form : Form}
    (h : findOpener? cs = some (before, form, after)) : after.length < cs.length := by
  fun_induction findOpener? cs generalizing before with
  | case1 => cases h
  | case2 => cases h; simp only [List.length_cons]; omega
  | case3 => cases h; simp only [List.length_cons]; omega
  | case4 c cs _ _ ih =>
    obtain ⟨⟨b, f, a⟩, hb, e⟩ := Option.map_eq_some_iff.1 h
    simp only [Prod.mk.injEq] at e
    obtain ⟨rfl, rfl, rfl⟩ := e
    have := ih hb
    simp
    omega

/-- The text of the value at a path; nothing when there is none. -/
def expand (context : Value) (path : List Char) : List Char :=
  match Path.lookup? context (String.ofList (Text.trim path)) with
  | some v => v.toText.toList
  | none => []

/-- Fills in the placeholders of a template. -/
def fill (context : Value) (cs : List Char) : List Char :=
  match _h : findOpener? cs with
  | none => cs
  | some (before, form, body) =>
    match _h' : Text.cut? form.closer body with
    | none => cs
    | some (path, rest) => before ++ expand context path ++ fill context rest
termination_by cs.length
decreasing_by
  have := length_of_findOpener? _h
  have := Text.length_after_lt (by cases form <;> simp [Form.closer]) _h'
  omega

/-- Fills in the placeholders of a template text. -/
def interpolate (template : String) (context : Value) : String :=
  String.ofList (fill context template.toList)

end SchemaExtraction.Template
