import SchemaExtraction.Extraction.Builtin
import SchemaExtraction.Proofs.Extraction.Run

/-!
# Redaction

Cleaning a structured document takes the named entries out of an object, or the named texts out of
a list, and leaves the rest as it is: it leaves the largest part of the document that has none of
the names. So it does not matter in how many steps and in which order the names are taken out. An
extractor does not look at the document before it takes the engine of its default format, and the
engine for pages has nothing to take out of objects and lists.

Results:
* `Structured.clean_eq_redacted`: what is taken out of a structured document.
* `Value.isRest_redacted`, `Value.IsRest.unique`: what is left is the largest part without them.
* `Structured.clean_clean`: cleaning once, several times and by other lists of the same names.
* `Extractor.clean_by_default_format`: what an extractor with the built-in engines takes out.
* `Extractor.clean_keeps_secret`: a default format under which everything stays.
-/

namespace SchemaExtraction

/-- An object without the entries that have one of some names, or a list without the items that
    are one of these names. -/
def Value.redacted (names : List String) : Value → Value
  | obj entries => obj (entries.filter fun e => e.1 ∉ names)
  | arr items => arr (items.filter fun v => ∀ name ∈ names, v ≠ str name)
  | v => v

/-! ## Parts without some names -/

namespace Value

/-- Whether a document is part of another one: an object with some of its entries or a list with
    some of its items, each as it is and in their order. Any other document is its only part. -/
inductive IsPart : Value → Value → Prop
  | entries {es fs : List (String × Value)} (h : es.Sublist fs) : IsPart (obj es) (obj fs)
  | items {vs ws : List Value} (h : vs.Sublist ws) : IsPart (arr vs) (arr ws)
  | whole (v : Value) : IsPart v v

/-- Whether an object has an entry with one of some names, or a list an item that is one of them. -/
def Mentions (names : List String) : Value → Prop
  | obj entries => ∃ e ∈ entries, e.1 ∈ names
  | arr items => ∃ name ∈ names, str name ∈ items
  | _ => False

variable {u v w : Value} {names others first second : List String}

theorem IsPart.of_obj {fs : List (String × Value)} (h : v.IsPart (obj fs)) :
    ∃ es, v = obj es ∧ es.Sublist fs := by
  cases h with
  | entries h => exact ⟨_, rfl, h⟩
  | whole => exact ⟨fs, rfl, List.Sublist.refl fs⟩

theorem IsPart.of_arr {ws : List Value} (h : v.IsPart (arr ws)) :
    ∃ vs, v = arr vs ∧ vs.Sublist ws := by
  cases h with
  | items h => exact ⟨_, rfl, h⟩
  | whole => exact ⟨ws, rfl, List.Sublist.refl ws⟩

theorem IsPart.trans (h : u.IsPart v) (h' : v.IsPart w) : u.IsPart w := by
  cases h with
  | entries h =>
    cases h' with
    | entries h' => exact .entries (h.trans h')
    | whole => exact .entries h
  | items h =>
    cases h' with
    | items h' => exact .items (h.trans h')
    | whole => exact .items h
  | whole => exact h'

theorem IsPart.antisymm (h : v.IsPart w) (h' : w.IsPart v) : v = w := by
  cases h with
  | entries h =>
    cases h' with
    | entries h' => rw [h.eq_of_length_le h'.length_le]
    | whole => rfl
  | items h =>
    cases h' with
    | items h' => rw [h.eq_of_length_le h'.length_le]
    | whole => rfl
  | whole => rfl

/-- A document has what its parts have. -/
theorem Mentions.of_part (hm : v.Mentions names) (h : v.IsPart w) : w.Mentions names := by
  cases h with
  | entries h =>
    obtain ⟨e, he, hname⟩ := hm
    exact ⟨e, h.subset he, hname⟩
  | items h =>
    obtain ⟨name, hname, hitem⟩ := hm
    exact ⟨name, hname, h.subset hitem⟩
  | whole => exact hm

theorem mentions_append :
    v.Mentions (first ++ second) ↔ v.Mentions first ∨ v.Mentions second := by
  cases v <;> simp [Mentions, or_and_right, and_or_left, exists_or]

theorem mentions_congr (h : ∀ name, name ∈ names ↔ name ∈ others) :
    v.Mentions names ↔ v.Mentions others := by
  cases v <;> simp [Mentions, h]

/-- Whether a document is what is left of another one without some names: it has none of them, and
    so has no larger part. -/
structure IsRest (names : List String) (rest v : Value) : Prop where
  part : rest.IsPart v
  free : ¬ rest.Mentions names
  largest : ∀ part : Value, part.IsPart v → ¬ part.Mentions names → part.IsPart rest

theorem IsRest.unique (hu : IsRest names u w) (hv : IsRest names v w) : u = v :=
  (hv.largest u hu.part hu.free).antisymm (hu.largest v hv.part hv.free)

/-- What is left of what is left is left without both lists of names. -/
theorem IsRest.trans (hu : IsRest second u v) (hv : IsRest first v w) :
    IsRest (first ++ second) u w where
  part := hu.part.trans hv.part
  free hm := by
    rcases mentions_append.1 hm with hm | hm
    · exact hv.free (hm.of_part hu.part)
    · exact hu.free hm
  largest part hpart hfree := by
    have hfirst : ¬ part.Mentions first := fun hm => hfree (mentions_append.2 (.inl hm))
    have hsecond : ¬ part.Mentions second := fun hm => hfree (mentions_append.2 (.inr hm))
    exact hu.largest part (hv.largest part hpart hfirst) hsecond

theorem IsRest.congr (h : IsRest names u v) (hnames : ∀ name, name ∈ names ↔ name ∈ others) :
    IsRest others u v where
  part := h.part
  free hm := h.free ((mentions_congr hnames).2 hm)
  largest part hpart hfree :=
    h.largest part hpart fun hm => hfree ((mentions_congr hnames).1 hm)

theorem sublist_filter {α : Type} {l m : List α} {p : α → Bool} (h : l.Sublist m)
    (hl : ∀ a ∈ l, p a = true) : l.Sublist (m.filter p) :=
  List.filter_eq_self.2 hl ▸ h.filter p

theorem isRest_redacted (names : List String) (v : Value) : IsRest names (v.redacted names) v := by
  cases v with
  | obj entries =>
    refine ⟨.entries List.filter_sublist, ?_, fun part hpart hfree => ?_⟩
    · rintro ⟨e, he, hname⟩
      exact of_decide_eq_true (List.mem_filter.1 he).2 hname
    · obtain ⟨es, rfl, hes⟩ := hpart.of_obj
      exact .entries (sublist_filter hes fun e he => decide_eq_true fun hname =>
        hfree ⟨e, he, hname⟩)
  | arr items =>
    refine ⟨.items List.filter_sublist, ?_, fun part hpart hfree => ?_⟩
    · rintro ⟨name, hname, hitem⟩
      exact of_decide_eq_true (List.mem_filter.1 hitem).2 name hname rfl
    · obtain ⟨vs, rfl, hvs⟩ := hpart.of_arr
      exact .items (sublist_filter hvs fun v hv => decide_eq_true fun name hname hitem =>
        hfree ⟨name, hname, hitem ▸ hv⟩)
  | _ => exact ⟨.whole _, id, fun part hpart _ => hpart⟩

end Value

namespace Structured

theorem isTextIn_iff (names : List String) (v : Value) :
    isTextIn names v = true ↔ ∃ name ∈ names, v = .str name := by
  cases v <;> simp [isTextIn]

/-- One name after the other is taken out of an object, all at once out of a list. -/
theorem clean_eq_redacted (document : Value) (names : List String) :
    clean document names = document.redacted names := by
  cases document with
  | obj entries =>
    rw [clean, Value.redacted, Entries.foldl_erase]
  | arr items =>
    rw [clean, Value.redacted]
    congr 1
    refine List.filter_congr fun v _ => ?_
    rw [Bool.eq_iff_iff, Bool.not_eq_true', ← Bool.not_eq_true, isTextIn_iff, decide_eq_true_eq]
    simp
  | _ => rfl

theorem isRest_clean (document : Value) (names : List String) :
    Value.IsRest names (clean document names) document :=
  clean_eq_redacted document names ▸ Value.isRest_redacted names document

/-- Cleaning leaves the largest part of a document without the names. It leaves the same when the
    names are taken out in two steps, and by every other list of the same names. -/
theorem clean_clean (document : Value) (first second : List String) :
    Value.IsRest (first ++ second) (clean document (first ++ second)) document ∧
      clean (clean document first) second = clean document (first ++ second) ∧
      ∀ names, (∀ name, name ∈ names ↔ name ∈ first ++ second) →
        clean document names = clean document (first ++ second) := by
  have hrest := isRest_clean document (first ++ second)
  refine ⟨hrest, ?_, fun names hnames => ?_⟩
  · have htwice := (isRest_clean (clean document first) second).trans (isRest_clean document first)
    exact htwice.unique hrest
  · exact ((isRest_clean document names).congr hnames).unique hrest

/-- Names that are written twice or that no entry has make no difference. -/
theorem clean_clean_tokens :
    let document := Value.obj [("key", .str "x"), ("name", .str "kept"), ("secret", .ofNat 1)]
    let kept := Value.obj [("name", .str "kept")]
    let first := ["secret"]
    let second := ["key", "none"]
    let names := ["none", "key", "secret", "key"]
    (∀ name, name ∈ names ↔ name ∈ first ++ second) ∧ clean document names = kept ∧
      clean document names = clean document (first ++ second) ∧
      clean (clean document first) second = clean document (first ++ second) ∧
      Value.IsRest (first ++ second) (clean document (first ++ second)) document := by
  intro document kept first second names
  have hmore : names ⊆ first ++ second := by decide
  have hless : first ++ second ⊆ names := by decide
  have hnames : ∀ name, name ∈ names ↔ name ∈ first ++ second := fun name =>
    ⟨fun h => hmore h, fun h => hless h⟩
  obtain ⟨hrest, htwice, hother⟩ := clean_clean document first second
  exact ⟨hnames, by decide, hother names hnames, htwice, hrest⟩

end Structured

namespace Extractor

variable {σ : Type}

/-- The engine for pages leaves objects and lists as they are, and any other default format leaves
    them to the engine for structured documents. -/
theorem outcome_clean (settings : Settings) (pipeline : Pipeline (StateM σ)) {document : Value}
    (hd : Structured.accepts document = true) (selectors : List String) (s : σ) :
    Run.outcome ({ builtin settings with pipeline := pipeline }.clean document selectors) s =
      .ok (if settings.defaultFormat = some .markup then document
        else document.redacted selectors) := by
  have structured : Run.outcome (lift .step (Structured.engine.clean document selectors)) s =
      .ok (document.redacted selectors) := by
    rw [← Structured.clean_eq_redacted]
    rfl
  have markup : Run.outcome (lift .step (Markup.engine.clean document selectors)) s =
      .ok document := by
    cases document with
    | obj | arr => rfl
    | _ => cases hd
  have infer : Format.infer document = .structured := by
    cases document with
    | obj | arr => rfl
    | _ => cases hd
  obtain ⟨_ | _ | _, concurrency, field⟩ := settings
  · simp only [clean, engines, Engines.select, infer]
    exact structured
  · exact structured
  · exact markup

/-- Under every default format but that of pages, an object loses the named entries and a list the
    named texts, and nothing else; with pages as the default format both stay as they are. -/
theorem clean_by_default_format (settings : Settings) (pipeline : Pipeline (StateM σ))
    (selectors : List String) (s : σ) :
    let x : Extractor (StateM σ) := { builtin settings with pipeline := pipeline }
    (∀ entries, Run.outcome (x.clean (.obj entries) selectors) s =
      .ok (.obj (if settings.defaultFormat = some .markup then entries
        else entries.filter fun e => e.1 ∉ selectors))) ∧
    ∀ items, Run.outcome (x.clean (.arr items) selectors) s =
      .ok (.arr (if settings.defaultFormat = some .markup then items
        else items.filter fun v => ∀ text ∈ selectors, v ≠ .str text)) := by
  intro x
  constructor
  · intro entries
    rw [outcome_clean settings pipeline rfl, apply_ite Value.obj]
    rfl
  · intro items
    rw [outcome_clean settings pipeline rfl, apply_ite Value.arr]
    rfl

/-- With pages as the default format a key that is to be removed stays. -/
theorem clean_keeps_secret :
    let settings : Settings := { Settings.standard with defaultFormat := some .markup }
    let x : Extractor (StateM Unit) := builtin settings
    let document := Value.obj [("name", .str "kept"), ("secret", .str "x")]
    settings.fault? = none ∧
      Run.outcome (x.clean document ["secret"]) () = .ok document ∧
      document ≠ .obj [("name", .str "kept")] :=
  ⟨by decide, rfl, by simp⟩

end Extractor
end SchemaExtraction
