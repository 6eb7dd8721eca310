import SchemaExtraction.Engine.Markup
import SchemaExtraction.Proofs.Markup.Removal
import SchemaExtraction.Proofs.Markup.SelectorLists

/-!
# Cleaning by a list of selectors

The selectors of a list are joined with commas and read as one text. A selector that leaves
something open, such as a bracket or a string, takes the comma and the next selector with it, so
what is taken away is what the selectors match as they are glued together. Selectors that leave
nothing open are taken one by one.

Results:
* `read?_glued`: a joined list is read as the selectors that are glued together.
* `clean_glued`: what cleaning takes away, for any list of selectors.
* `clean_loses_selector`: two selectors that do nothing together.
-/

namespace SchemaExtraction.Markup

/-! ## Selectors glued together -/

/-- The selectors of a list from one on, where one that leaves something open goes on with a comma
    and the next. -/
def glueFrom (selector : String) : List String → List String
  | [] => [selector]
  | next :: rest =>
    if Selector.isClosed selector.toList then selector :: glueFrom next rest
    else glueFrom (selector ++ "," ++ next) rest

/-- The selectors of a list as they are glued together. -/
def glue : List String → List String
  | [] => []
  | selector :: rest => glueFrom selector rest

/-- Whether a text writes selectors of which one matches the element at a place. -/
def selects (selector : String) (p : Place) : Bool :=
  (Group.read? selector).any fun g => Group.matches g p

/-- A joined list is read as the selectors that are glued together. -/
theorem read?_glued (selector : String) (rest : List String) :
    Group.read? (",".intercalate (selector :: rest)) =
      ((glueFrom selector rest).mapM Group.read?).map List.flatten := by
  induction rest generalizing selector with
  | nil =>
    rw [String.intercalate_singleton, glueFrom, List.mapM_cons]
    cases Group.read? selector <;> simp
  | cons next rest ih =>
    rw [glueFrom]
    split
    next hclosed =>
      rw [String.intercalate_cons_cons, Group.read?_comma hclosed, ih, List.mapM_cons]
      cases Group.read? selector <;> cases (glueFrom next rest).mapM Group.read? <;> rfl
    next =>
      rw [← ih, String.intercalate_cons_append, String.intercalate_cons_cons, String.append_assoc]

/-- What a list of selectors matches that is read from several texts. -/
theorem mapM_read? {selectors : List String} {gs : List Group}
    (h : selectors.mapM Group.read? = some gs) (p : Place) :
    Group.matches gs.flatten p = selectors.any fun s => selects s p := by
  induction selectors generalizing gs with
  | nil =>
    cases h
    rfl
  | cons s selectors ih =>
    rw [List.mapM_cons] at h
    obtain ⟨g, hg, h⟩ := Option.bind_eq_some_iff.1 h
    obtain ⟨gs, hgs, h⟩ := Option.bind_eq_some_iff.1 h
    cases h
    rw [List.flatten_cons, Group.matches_append, ih hgs, List.any_cons, selects, hg]
    rfl

theorem isSome_mapM_read? (selectors : List String) :
    (selectors.mapM Group.read?).isSome = selectors.all fun s => (Group.read? s).isSome := by
  induction selectors with
  | nil => rfl
  | cons s selectors ih =>
    rw [List.mapM_cons, List.all_cons, ← ih]
    cases Group.read? s <;> cases selectors.mapM Group.read? <;> rfl

theorem glue_of_closed {selectors : List String}
    (h : ∀ s ∈ selectors.dropLast, Selector.isClosed s.toList = true) :
    glue selectors = selectors := by
  cases selectors with
  | nil => rfl
  | cons selector rest =>
    induction rest generalizing selector with
    | nil => rfl
    | cons next rest ih =>
      rw [List.dropLast_cons_cons, List.forall_mem_cons] at h
      rw [glue, glueFrom, if_pos h.1]
      exact congrArg (selector :: ·) (ih next h.2)

/-! ## What is taken away -/

/-- Cleaning takes away what one of the selectors matches as they are glued together, and fails if
    one of these cannot be read. Selectors that leave nothing open stay as they are. -/
theorem clean_glued {text : String} (htext : text ≠ "") {selectors : List String}
    (hselectors : selectors ≠ []) :
    clean (.str text) selectors =
        (if (glue selectors).all fun s => (Group.read? s).isSome then
          .ok (.str (String.ofList ((Page.parse text).prune fun p =>
            (glue selectors).any fun s => selects s p).write))
        else .error (.badSelector (",".intercalate selectors) "not a list of selectors")) ∧
      ((∀ s ∈ selectors.dropLast, Selector.isClosed s.toList = true) →
        glue selectors = selectors) := by
  refine ⟨?_, glue_of_closed⟩
  obtain ⟨selector, rest, rfl⟩ := List.exists_cons_of_ne_nil hselectors
  have hread := read?_glued selector rest
  have hclean : clean (.str text) (selector :: rest) =
      (cleanPage text (selector :: rest)).map .str := by
    simp [clean, htext]
  rw [glue, ← isSome_mapM_read?, hclean, cleanPage, readGroup, hread]
  cases hgs : (glueFrom selector rest).mapM Group.read? with
  | none => rfl
  | some gs =>
    have hmatches : Group.matches gs.flatten = fun p => (glueFrom selector rest).any fun s =>
      selects s p := funext (mapM_read? hgs)
    have hremove : (Page.parse text).remove gs.flatten = (Page.parse text).prune fun p =>
        (glueFrom selector rest).any fun s => selects s p := by
      rw [Page.remove, Page.detach_eq_prune, hmatches]
    rw [← hremove]
    rfl

/-- A string that is left open takes the comma and the next selector with it, unless it is in the
    last one. -/
theorem clean_glued_open :
    let text := "<p title='x,i'>a</p><i>b</i><b class=c>d</b>"
    let selectors := ["p[title='x", "i']", ".c"]
    let closed := [".c", "b, i", "p[title='x"]
    text ≠ "" ∧ selectors ≠ [] ∧ glue selectors = ["p[title='x,i']", ".c"] ∧
      clean (.str text) selectors =
        (if (glue selectors).all fun s => (Group.read? s).isSome then
          .ok (.str (String.ofList ((Page.parse text).prune fun p =>
            (glue selectors).any fun s => selects s p).write))
        else .error (.badSelector (",".intercalate selectors) "not a list of selectors")) ∧
      clean (.str text) selectors =
        .ok (.str "<html><head></head><body><i>b</i></body></html>") ∧
      (∀ s ∈ closed.dropLast, Selector.isClosed s.toList = true) ∧ glue closed = closed := by
  intro text selectors closed
  have htext : text ≠ "" := by decide
  have hselectors : selectors ≠ [] := by decide
  have hglue : glue selectors = ["p[title='x,i']", ".c"] := by decide +kernel
  have hclosed : ∀ s ∈ closed.dropLast, Selector.isClosed s.toList = true := by decide +kernel
  exact ⟨htext, hselectors, hglue, (clean_glued htext hselectors).1, by decide +kernel, hclosed,
    (clean_glued htext (List.cons_ne_nil _ _)).2 hclosed⟩

/-- Both selectors can be read and match something, and together they do nothing. -/
theorem clean_loses_selector :
    let text := "<p title=x>a</p><i>b</i>"
    let selectors := ["p[title='x", "i"]
    (∀ s ∈ selectors, (Group.read? s).isSome = true ∧
      ∃ p ∈ (Page.parse text).places, selects s p = true) ∧
      clean (.str text) selectors =
        .ok (.str "<html><head></head><body><p title=\"x\">a</p><i>b</i></body></html>") ∧
      String.ofList ((Page.parse text).prune fun p => selectors.any fun s => selects s p).write =
        "<html><head></head><body></body></html>" := by
  intro text selectors
  have hfound : (selectors.all fun s => (Group.read? s).isSome &&
      (Page.parse text).places.any fun p => selects s p) = true := by
    decide +kernel
  refine ⟨fun s hs => ?_, by decide +kernel, by decide +kernel⟩
  have h := List.all_eq_true.1 hfound s hs
  rw [Bool.and_eq_true, List.any_eq_true] at h
  exact h

end SchemaExtraction.Markup
