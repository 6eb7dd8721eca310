import SchemaExtraction.Proofs.Schema.Spelling

/-!
# The grammar of schemas

Which values are schemas, steps and filter uses, said of the values alone. A schema is read if and
only if it belongs to the grammar, and what is read is what it spells: every name but the two
reserved ones is a field, a list becomes a chain with a step for each item, and an object a nested
schema. A single item that is not a step, at any depth, makes the whole value unreadable.

Results:
* `Wire.isStep_iff`, `Wire.isSchema_iff`: the values that are read.
* `Wire.IsSchema.isStep`: the items of a schema that have to be steps.
* `Wire.schema?_accepts_grammar`: which values are read as a schema, and as which one.
-/

namespace SchemaExtraction.Wire

/-! ## Grammar -/

/-- A text. -/
def IsText (v : Value) : Prop := ∃ s, v = .str s

/-- A truth value. -/
def IsFlag (v : Value) : Prop := ∃ b, v = .bool b

/-- An integer of 32 bits. -/
def IsInt32 (v : Value) : Prop :=
  ∃ n : WordInt, v = .num (.int n) ∧ -0x80000000 ≤ n.val ∧ n.val < 0x80000000

/-- A list of items of one kind. -/
def IsListOf (P : Value → Prop) (v : Value) : Prop := ∃ items, v = .arr items ∧ ∀ w ∈ items, P w

/-- The use of a filter: `id` is a text, `priority` is left out or an integer of 32 bits, `opts` may
    be anything. -/
structure IsUse (v : Value) : Prop where
  record : IsRecord useNames v
  id : ∃ s, held useNames "id" v = some (.str s)
  priority : ∀ w, held useNames "priority" v = some w → IsInt32 w

/-- A step: the four locators are left out, null or texts, `or` is left out or a truth value,
    `filters` is left out or a list of filter uses. -/
structure IsStep (v : Value) : Prop where
  record : IsRecord stepNames v
  locators : ∀ name ∈ ["ref", "selector", "unselector", "prop"], ∀ w,
    held stepNames name v = some w → w = .null ∨ IsText w
  fallback : ∀ w, held stepNames "or" v = some w → IsFlag w
  filters : ∀ w, held stepNames "filters" v = some w → IsListOf IsUse w

/-- A chain of steps. -/
def IsChain : Value → Prop := IsListOf IsStep

mutual

/-- A schema: an object whose scope is left out, null or a chain, whose merge flag is left out or a
    truth value, and all other entries of which are fields. -/
inductive IsSchema : Value → Prop
  | intro {entries : List (String × Value)}
      (scope : ∀ v, (scopeName, v) ∈ entries → v = .null ∨ IsChain v)
      (merged : ∀ v, (mergeName, v) ∈ entries → IsFlag v)
      (fields : ∀ name v, (name, v) ∈ entries → ¬IsReserved name → IsField v) :
      IsSchema (.obj entries)

/-- A field: a chain of steps or a schema. -/
inductive IsField : Value → Prop
  | chain {v : Value} (h : IsChain v) : IsField v
  | schema {v : Value} (h : IsSchema v) : IsField v

end

/-- An item that stands where a step has to be: in the scope or in a list among the fields, of an
    object or of one that is nested in it. -/
inductive HasStep : Value → Value → Prop
  | chain {entries : List (String × Value)} {name : String} {items : List Value} {item : Value}
      (hn : name ≠ mergeName) (he : (name, .arr items) ∈ entries) (hi : item ∈ items) :
      HasStep (.obj entries) item
  | nested {entries : List (String × Value)} {name : String} {v item : Value}
      (hn : ¬IsReserved name) (he : (name, v) ∈ entries) (h : HasStep v item) :
      HasStep (.obj entries) item

/-! ## What can be read -/

variable {α : Type}

section

variable {R : Spelling α} {P : Value → Prop} {o : Option Value}

theorem exists_optional (h : ∀ v ∈ o, (∃ a, R v a) ↔ P v) :
    (∃ a, R.Optional o a) ↔ ∀ v, o = some v → v = .null ∨ P v := by
  constructor
  · rintro ⟨_, _ | _ | ⟨_, hr⟩⟩ w hw
    · cases hw
    · exact .inl (Option.some.inj hw).symm
    · cases hw
      exact .inr ((h _ rfl).1 ⟨_, hr⟩)
  · intro hp
    cases o with
    | none => exact ⟨none, .absent⟩
    | some v =>
      by_cases hv : v = .null
      · exact ⟨none, hv ▸ .null⟩
      · obtain ⟨a, ha⟩ := (h v rfl).2 ((hp v rfl).resolve_left hv)
        exact ⟨some a, .given hv ha⟩

theorem exists_orDefault (h : ∀ v ∈ o, (∃ a, R v a) ↔ P v) (default : α) :
    (∃ a, R.OrDefault default o a) ↔ ∀ v, o = some v → P v := by
  constructor
  · rintro ⟨_, _ | hr⟩ w hw
    · cases hw
    · cases hw
      exact (h _ rfl).1 ⟨_, hr⟩
  · intro hp
    cases o with
    | none => exact ⟨default, .absent⟩
    | some v =>
      obtain ⟨a, ha⟩ := (h v rfl).2 (hp v rfl)
      exact ⟨a, .given ha⟩

theorem exists_list (h : ∀ w, (∃ a, R w a) ↔ P w) (v : Value) :
    (∃ as, R.list v as) ↔ IsListOf P v := by
  constructor
  · rintro ⟨as, items, rfl, has⟩
    refine ⟨items, rfl, fun w hw => ?_⟩
    obtain ⟨a, -, ha⟩ := exists_of_forall₂ has.flip hw
    exact (h w).1 ⟨a, ha⟩
  · rintro ⟨items, rfl, hp⟩
    obtain ⟨as, has⟩ := exists_forall₂ fun w hw => (h w).2 (hp w hw)
    exact ⟨as, items, rfl, has⟩

end

theorem exists_int32 (v : Value) : (∃ n, Spelling.int32 v n) ↔ IsInt32 v := by
  constructor
  · rintro ⟨n, w, rfl, hw⟩
    have := n.toInt_lt
    have := n.le_toInt
    exact ⟨w, rfl, by omega, by omega⟩
  · rintro ⟨w, rfl, hl, hu⟩
    exact ⟨Int32.ofInt w.val, w, rfl, (Int32.toInt_ofInt_of_le (by omega) (by omega)).symm⟩

theorem exists_use (v : Value) : (∃ u, Spelling.use v u) ↔ IsUse v := by
  have hpriority := exists_orDefault (o := held useNames "priority" v)
    (fun w _ => exists_int32 w) 0
  have hoptions : ∃ o, Spelling.any.Optional (held useNames "opts" v) o :=
    (exists_optional (P := fun _ => True) fun w _ => by simp [Spelling.any]).2
      fun _ _ => .inr trivial
  constructor
  · rintro ⟨u, hr, hid, hp, -⟩
    exact ⟨hr, ⟨_, hid⟩, hpriority.1 ⟨_, hp⟩⟩
  · rintro ⟨hr, ⟨id, hid⟩, hp⟩
    obtain ⟨priority, hp⟩ := hpriority.2 hp
    obtain ⟨options, ho⟩ := hoptions
    exact ⟨⟨id, priority, options⟩, hr, hid, hp, ho⟩

theorem exists_step (v : Value) : (∃ s, Spelling.step v s) ↔ IsStep v := by
  have htext (name) := exists_optional (R := .text) (P := IsText) (o := held stepNames name v)
    fun w _ => Iff.rfl
  have hflag := exists_orDefault (R := .flag) (P := IsFlag) (o := held stepNames "or" v)
    (fun w _ => Iff.rfl) false
  have hfilters := exists_orDefault (o := held stepNames "filters" v)
    (fun w _ => exists_list exists_use w) []
  constructor
  · rintro ⟨s, hr, hre, hs, hu, hp, hb, hf⟩
    refine ⟨hr, ?_, hflag.1 ⟨_, hb⟩, hfilters.1 ⟨_, hf⟩⟩
    intro name hname
    rw [← htext name]
    simp only [List.mem_cons, List.not_mem_nil, or_false] at hname
    rcases hname with rfl | rfl | rfl | rfl
    exacts [⟨_, hre⟩, ⟨_, hs⟩, ⟨_, hu⟩, ⟨_, hp⟩]
  · rintro ⟨hr, hl, hb, hf⟩
    obtain ⟨reference, hre⟩ := (htext "ref").2 (hl _ (by simp))
    obtain ⟨selector, hs⟩ := (htext "selector").2 (hl _ (by simp))
    obtain ⟨unselector, hu⟩ := (htext "unselector").2 (hl _ (by simp))
    obtain ⟨property, hp⟩ := (htext "prop").2 (hl _ (by simp))
    obtain ⟨fallback, hb⟩ := hflag.2 hb
    obtain ⟨filters, hf⟩ := hfilters.2 hf
    exact ⟨⟨reference, selector, unselector, property, fallback, filters⟩, hr, hre, hs, hu, hp,
      hb, hf⟩

/-- A step is read if and only if it is in the grammar. -/
theorem isStep_iff {v : Value} (hv : v.NoRepeats) : IsStep v ↔ ∃ s, step? v = some s := by
  simp only [reads_step hv _, exists_step]

theorem isChain_iff {v : Value} (hv : v.NoRepeats) :
    IsChain v ↔ ∃ steps, chain? v = some steps := by
  simp only [reads_chain hv _, Spelling.chain, exists_list exists_step, IsChain]

theorem exists_fields? {es : List (String × Value)} :
    (∃ fs, fields? es = some fs) ↔ ∀ e ∈ es, ¬IsReserved e.1 → ∃ f, field? e.2 = some f := by
  simp only [fields?_eq, mapM_eq_some_iff, Option.map_eq_some_iff]
  constructor
  · rintro ⟨fs, hfs⟩ e he hr
    obtain ⟨_, -, f, hf, -⟩ :=
      exists_of_forall₂ hfs.flip (List.mem_filter.2 ⟨he, decide_eq_true hr⟩)
    exact ⟨f, hf⟩
  · intro h
    refine exists_forall₂ fun e he => ?_
    obtain ⟨he, hr⟩ := List.mem_filter.1 he
    obtain ⟨f, hf⟩ := h e he (of_decide_eq_true hr)
    exact ⟨(e.1, f), f, hf, rfl⟩

theorem isField_of_isSchema_iff {v : Value} (hv : v.NoRepeats)
    (h : IsSchema v ↔ ∃ s, schema? v = some s) : IsField v ↔ ∃ f, field? v = some f := by
  simp only [reads_field hv (reads_schema v hv) _]
  constructor
  · rintro (⟨hc⟩ | ⟨hs⟩)
    · obtain ⟨steps, hc⟩ := (isChain_iff hv).1 hc
      exact ⟨_, .steps ((reads_chain hv _).1 hc)⟩
    · obtain ⟨s, hs⟩ := h.1 hs
      exact ⟨_, .nested ((reads_schema v hv _).1 hs)⟩
  · rintro ⟨_, hc | hs⟩
    · exact .chain ((isChain_iff hv).2 ⟨_, (reads_chain hv _).2 hc⟩)
    · exact .schema (h.2 ⟨_, (reads_schema v hv _).2 hs⟩)

mutual

/-- A schema is read if and only if it is in the grammar. -/
theorem isSchema_iff (v : Value) (hv : v.NoRepeats) :
    IsSchema v ↔ ∃ s, schema? v = some s := by
  cases v with
  | obj entries =>
    have hfields := isField_iff entries hv.values
    have hscope : (∃ scope, optional? chain? (Entries.get? scopeName entries) = some scope) ↔
        ∀ v, (scopeName, v) ∈ entries → v = .null ∨ IsChain v := by
      have hr : ∀ w ∈ Entries.get? scopeName entries, Reads chain? .chain w :=
        fun w hw => reads_chain (hv.values _ (Entries.mem_of_get? hw))
      simp only [optional?_eq_some_iff hr, ← Entries.get?_eq_some_iff hv.keys]
      exact exists_optional fun w _ => exists_list exists_step w
    have hmerged : (∃ b, orDefault? false bool? (Entries.get? mergeName entries) = some b) ↔
        ∀ v, (mergeName, v) ∈ entries → IsFlag v := by
      simp only [orDefault?_eq_some_iff (fun w _ => reads_flag w),
        ← Entries.get?_eq_some_iff hv.keys]
      exact exists_orDefault (fun w _ => Iff.rfl) false
    -- the scope, the flag and the fields are read on their own
    rw [schema?_obj hv.keys]
    simp only [Option.bind_eq_some_iff, Option.map_eq_some_iff]
    constructor
    · rintro ⟨hs, hm, hf⟩
      obtain ⟨scope, hs⟩ := hscope.2 hs
      obtain ⟨merged, hm⟩ := hmerged.2 hm
      obtain ⟨fs, hfs⟩ := exists_fields?.2 fun e he hr => (hfields e he).1 (hf e.1 e.2 he hr)
      exact ⟨_, scope, hs, merged, hm, fs, hfs, rfl⟩
    · rintro ⟨_, scope, hs, merged, hm, fs, hfs, -⟩
      refine .intro (hscope.1 ⟨_, hs⟩) (hmerged.1 ⟨_, hm⟩) fun name v he hr => ?_
      exact (hfields _ he).2 (exists_fields?.1 ⟨_, hfs⟩ _ he hr)
  | _ =>
    rw [schema?_eq_none (by nofun)]
    exact ⟨nofun, nofun⟩

theorem isField_iff (es : List (String × Value)) (h : ∀ e ∈ es, e.2.NoRepeats) :
    ∀ e ∈ es, IsField e.2 ↔ ∃ f, field? e.2 = some f := by
  match es with
  | [] => simp
  | (name, v) :: es =>
    intro e he
    rcases List.mem_cons.1 he with rfl | he
    · have hv : v.NoRepeats := h (name, v) (by simp)
      exact isField_of_isSchema_iff hv (isSchema_iff v hv)
    · exact isField_iff es (fun e he => h e (by simp [he])) e he

end

/-! ## Steps of a schema -/

/-- Wherever a schema has to have a step, it has one. -/
theorem IsSchema.isStep {v item : Value} (hv : IsSchema v) (h : HasStep v item) : IsStep item := by
  have hitem {items : List Value} (hc : IsChain (.arr items)) (hi : item ∈ items) :
      IsStep item := by
    obtain ⟨_, ⟨⟩, hc⟩ := hc
    exact hc item hi
  induction h with
  | @chain entries name items item hn he hi =>
    cases hv with
    | intro scope _ fields =>
      by_cases hs : name = scopeName
      · rcases scope _ (hs ▸ he) with hnull | hc
        · cases hnull
        · exact hitem hc hi
      · cases fields name _ he (not_or.2 ⟨hs, hn⟩) with
        | chain hc => exact hitem hc hi
        | schema hs => cases hs
  | @nested entries name w item hn he h ih =>
    cases hv with
    | intro _ _ fields =>
      cases fields name w he hn with
      | chain hc =>
        obtain ⟨_, rfl, _⟩ := hc
        cases h
      | schema hs => exact ih hs hitem

/-- A value in which no object has a key twice is read as a schema if and only if it is in the
    grammar. What is read is what the value spells: the names other than the two reserved ones are
    the fields, a list is a chain with one step for each item in the same order, an object is a
    nested schema. One item that is not a step, wherever it stands, and nothing is read. -/
theorem schema?_accepts_grammar {v : Value} (hv : v.NoRepeats) :
    ((∃ s, schema? v = some s) ↔ IsSchema v) ∧
      (∀ s, schema? v = some s ↔ Spelling.schema v s) ∧
      ∀ item, HasStep v item → ¬IsStep item → schema? v = none := by
  refine ⟨(isSchema_iff v hv).symm, reads_schema v hv, fun item hi hn => ?_⟩
  by_contra h
  obtain ⟨s, hs⟩ := Option.ne_none_iff_exists'.1 h
  exact hn (((isSchema_iff v hv).2 ⟨s, hs⟩).isStep hi)

/-- Records by name and by position at two depths, and the same value with a step whose `or` is not
    a truth value in the nested schema. -/
theorem schema?_accepts_grammar_nested :
    let page (fallback : Value) : Value :=
      .obj [("_merge", .bool true),
        ("_scope", .arr [.obj [("color", .ofNat 3), ("selector", .str "items")]]),
        ("tags", .obj [("_scope", .null),
          ("label", .arr [.arr [.null, .str "tag"],
            .obj [("or", fallback), ("selector", .str "$root")]])]),
        ("title", .arr [.obj [("filters", .arr [.arr [.str "filter.trim", .ofNat 2]]),
          ("ref", .null), ("selector", .str "h1")]])]
    (page (.bool true)).NoRepeats ∧ (page (.str "yes")).NoRepeats ∧
      IsSchema (page (.bool true)) ∧
      Spelling.schema (page (.bool true))
        ⟨some [.ofSelector "items"], true,
          [("tags", .nested ⟨none, false,
            [("label", .steps [.ofSelector "tag", Step.root.asFallback])]⟩),
          ("title", .steps [(Step.ofSelector "h1").withFilter (.new "filter.trim" 2)])]⟩ ∧
      schema? (page (.str "yes")) = none := by
  intro page
  have hgood : (page (.bool true)).NoRepeats := by
    have h : Json.canonical (page (.bool true)) = page (.bool true) := by decide
    exact h ▸ Value.noRepeats_canonical _
  have hbad : (page (.str "yes")).NoRepeats := by
    have h : Json.canonical (page (.str "yes")) = page (.str "yes") := by decide
    exact h ▸ Value.noRepeats_canonical _
  refine ⟨hgood, hbad, ?_, ?_, ?_⟩
  · refine (schema?_accepts_grammar hgood).1.1 (Option.isSome_iff_exists.1 ?_)
    decide
  · refine ((schema?_accepts_grammar hgood).2.1 _).1 ?_
    decide
  · refine (schema?_accepts_grammar hbad).2.2
      (.obj [("or", .str "yes"), ("selector", .str "$root")]) ?_ fun h => ?_
    · refine .nested (by decide : ¬IsReserved "tags") (.tail _ (.tail _ (.head _))) ?_
      exact .chain (by decide : "label" ≠ mergeName) (.tail _ (.head _)) (.tail _ (.head _))
    · obtain ⟨_, hb⟩ := h.fallback (.str "yes") (by decide)
      cases hb

end SchemaExtraction.Wire
