import SchemaExtraction.Proofs.Schema.Order
import SchemaExtraction.Proofs.Traversal
import SchemaExtraction.Proofs.Value.Place

/-!
# Spellings of schemas

A spelling says which values stand for a thing: a text for itself, a list for the list of what its
items stand for, a record for what its fields stand for, an object for a schema. It does not say
how a value is read. The reader of the wire form finds in a value exactly what the value spells, as
long as no object has a key twice.

Results:
* `Wire.record?_eq_some_iff`: the fields of a record, by name or by position.
* `Wire.reads_use`, `Wire.reads_step`, `Wire.reads_chain`: filter uses, steps and chains.
* `Wire.schema?_eq_some_iff`: schemas of any depth.
-/

namespace SchemaExtraction

/-- Which values stand for a thing. -/
abbrev Spelling (α : Type) := Value → α → Prop

namespace Wire

/-! ## Records -/

/-- The fields of a filter use in their order. -/
def useNames : List String := ["id", "priority", "opts"]

/-- The fields of a step in their order. -/
def stepNames : List String := ["ref", "selector", "unselector", "prop", "or", "filters"]

/-- What a record holds in a field: an object under the name of the field, a list at its
    position. -/
def held (names : List String) (name : String) : Value → Option Value
  | .obj entries => Entries.get? name entries
  | .arr items => items[names.idxOf name]?
  | _ => none

/-- A record is written as an object, or as a list of no more items than it has fields. -/
def IsRecord (names : List String) : Value → Prop
  | .obj _ => True
  | .arr items => items.length ≤ names.length
  | _ => False

/-- The names that a schema keeps for itself. -/
def IsReserved (name : String) : Prop := name = scopeName ∨ name = mergeName

instance (name : String) : Decidable (IsReserved name) := inferInstanceAs (Decidable (_ ∨ _))

end Wire

/-! ## What values stand for -/

namespace Spelling

variable {α : Type}

/-- A text stands for itself. -/
def text : Spelling String := fun v s => v = .str s

/-- A truth value stands for itself. -/
def flag : Spelling Bool := fun v b => v = .bool b

/-- An integer of 32 bits. -/
def int32 : Spelling Int32 := fun v n => ∃ w : WordInt, v = .num (.int w) ∧ w.val = n.toInt

/-- Any value stands for itself, with its keys put in order. -/
def any : Spelling Value := fun v o => o = Json.canonical v

/-- A list, item by item. -/
def list (R : Spelling α) : Spelling (List α) := fun v as =>
  ∃ items, v = .arr items ∧ List.Forall₂ R items as

/-- A field that may be left out or null. -/
inductive Optional (R : Spelling α) : Option Value → Option α → Prop
  | absent : Optional R none none
  | null : Optional R (some .null) none
  | given {v : Value} {a : α} (hv : v ≠ .null) (h : R v a) : Optional R (some v) (some a)

/-- A field that may be left out and then stands for `default`; it may not be null. -/
inductive OrDefault (default : α) (R : Spelling α) : Option Value → α → Prop
  | absent : OrDefault default R none default
  | given {v : Value} {a : α} (h : R v a) : OrDefault default R (some v) a

open Wire in
/-- A filter use: a record whose `id` has to be there. -/
structure use (v : Value) (u : FilterUse) : Prop where
  record : IsRecord useNames v
  id : held useNames "id" v = some (.str u.id)
  priority : OrDefault 0 int32 (held useNames "priority" v) u.priority
  options : Optional any (held useNames "opts" v) u.options

open Wire in
/-- A step: a record of optional fields. -/
structure step (v : Value) (s : Step) : Prop where
  record : IsRecord stepNames v
  reference : Optional text (held stepNames "ref" v) s.reference
  selector : Optional text (held stepNames "selector" v) s.selector
  unselector : Optional text (held stepNames "unselector" v) s.unselector
  property : Optional text (held stepNames "prop" v) s.property
  fallback : OrDefault false flag (held stepNames "or" v) s.fallback
  filters : OrDefault [] (list use) (held stepNames "filters" v) s.filters

/-- A chain of steps. -/
def chain : Spelling (List Step) := list step

mutual

/-- A schema: an object with a scope and a flag under the reserved names, and with a field under
    every other name. -/
inductive schema : Spelling Schema
  | intro {entries : List (String × Value)} {scope : Option (List Step)} {merged : Bool}
      {fields : List (String × Field Schema)}
      (scope_spelled : Optional chain (Entries.get? Wire.scopeName entries) scope)
      (merged_spelled : OrDefault false flag (Entries.get? Wire.mergeName entries) merged)
      (ascending : Entries.Ascending fields)
      (names : ∀ name, name ∈ Entries.keys fields ↔
        name ∈ Entries.keys entries ∧ ¬Wire.IsReserved name)
      (values : ∀ name v f, (name, v) ∈ entries → (name, f) ∈ fields → field v f) :
      schema (.obj entries) ⟨scope, merged, fields⟩

/-- A field of a schema: a list for a chain of steps, an object for a nested schema. -/
inductive field : Spelling (Field Schema)
  | steps {v : Value} {steps : List Step} (h : chain v steps) : field v (.steps steps)
  | nested {v : Value} {child : Schema} (h : schema v child) : field v (.nested child)

end

end Spelling

namespace Wire

/-! ## Reading what is spelled -/

variable {α : Type}

/-- A reader finds in a value exactly what the value stands for. -/
def Reads (read : Value → Option α) (R : Spelling α) (v : Value) : Prop :=
  ∀ a, read v = some a ↔ R v a

theorem reads_text (v : Value) : Reads Value.text? .text v := by
  intro s
  cases v <;> simp [Value.text?, Spelling.text]

theorem reads_flag (v : Value) : Reads bool? .flag v := by
  intro b
  cases v <;> simp [bool?, Spelling.flag]

theorem reads_any (v : Value) : Reads (fun v => some (Json.canonical v)) .any v := by
  intro o
  simp [Spelling.any, eq_comm]

theorem reads_int32 (v : Value) : Reads int32? .int32 v := by
  intro n
  have hn := n.toInt_lt
  have hn' := n.le_toInt
  constructor
  · intro h
    unfold int32? at h
    split at h
    · split at h
      · rename_i w hw
        cases h
        exact ⟨w, rfl, (Int32.toInt_ofInt_of_le (by omega) (by omega)).symm⟩
      · cases h
    · cases h
  · rintro ⟨w, rfl, hw⟩
    rw [int32?, if_pos (by omega), hw, Int32.ofInt_toInt]

variable {read : Value → Option α} {R : Spelling α}

theorem reads_list {v : Value} (h : ∀ items, v = .arr items → ∀ w ∈ items, Reads read R w) :
    Reads (list? read) R.list v := by
  intro as
  cases v with
  | arr items =>
    rw [list?, mapM_eq_some_iff, forall₂_congr_left (h items rfl)]
    simp [Spelling.list]
  | _ => simp [list?, Spelling.list]

theorem optional?_eq_some_iff {o : Option Value} (h : ∀ v ∈ o, Reads read R v) (a : Option α) :
    optional? read o = some a ↔ R.Optional o a := by
  match o with
  | none =>
    simp only [optional?, Option.some.injEq]
    exact ⟨by rintro rfl; exact .absent, by rintro ⟨⟩; rfl⟩
  | some v =>
    by_cases hv : v = .null
    · subst hv
      simp only [optional?, Option.some.injEq]
      exact ⟨by rintro rfl; exact .null, by rintro (_ | _ | ⟨hv, _⟩); exacts [rfl, absurd rfl hv]⟩
    · have hread : optional? read (some v) = (read v).map some := by
        cases v <;> first | rfl | exact absurd rfl hv
      rw [hread, Option.map_eq_some_iff]
      constructor
      · rintro ⟨b, hb, rfl⟩
        exact .given hv ((h v rfl b).1 hb)
      · rintro (_ | _ | ⟨-, hb⟩)
        · exact absurd rfl hv
        · exact ⟨_, (h v rfl _).2 hb, rfl⟩

theorem orDefault?_eq_some_iff {o : Option Value} (h : ∀ v ∈ o, Reads read R v) (default a : α) :
    orDefault? default read o = some a ↔ R.OrDefault default o a := by
  cases o with
  | none =>
    simp only [orDefault?, Option.some.injEq]
    exact ⟨by rintro rfl; exact .absent, by rintro ⟨⟩; rfl⟩
  | some v =>
    rw [orDefault?, h v rfl a]
    exact ⟨.given, by rintro (_ | h); exact h⟩

/-! ## Reading records -/

theorem unique?_eq {entries : List (String × Value)} (h : (Entries.keys entries).Nodup)
    (name : String) : unique? name entries = some (Entries.get? name entries) := by
  induction entries with
  | nil => rfl
  | cons e es ih =>
    obtain ⟨k, v⟩ := e
    obtain ⟨hk, hes⟩ := List.nodup_cons.1 h
    by_cases hkn : k = name
    · subst hkn
      have hrest : es.filter (·.1 = k) = [] := by
        rw [List.filter_eq_nil_iff]
        intro e he hek
        exact hk (List.mem_map.2 ⟨e, he, of_decide_eq_true hek⟩)
      simp [unique?, Entries.get?, hrest]
    · simpa [unique?, Entries.get?, hkn] using ih hes

/-- The fields of a record are what it holds under their names or at their positions. -/
theorem record?_eq_some_iff {names : List String} (hn : names.Nodup) {v : Value}
    (hv : v.NoRepeats) {fields : List (Option Value)} :
    record? names v = some fields ↔ IsRecord names v ∧ fields = names.map (held names · v) := by
  cases v with
  | obj entries =>
    have h : record? names (.obj entries) = some (names.map (Entries.get? · entries)) := by
      rw [record?, funext (unique?_eq hv.keys)]
      exact List.mapM_pure
    simp [h, IsRecord, held, eq_comm]
  | arr items =>
    have h (hlen : items.length ≤ names.length) :
        items.map some ++ List.replicate (names.length - items.length) none =
          names.map (held names · (.arr items)) := by
      refine List.ext_getElem (by simp; omega) fun i hi hi' => ?_
      rw [List.getElem_map, held, hn.idxOf_getElem]
      by_cases hlt : i < items.length
      · simp [List.getElem_append_left, hlt]
      · rw [List.getElem_append_right (by simp; omega)]
        simp [hlt]
    by_cases hlen : items.length ≤ names.length
    · simp [record?, IsRecord, hlen, ← h hlen, eq_comm]
    · simp [record?, IsRecord, hlen]
  | _ => simp [record?, IsRecord]

theorem noRepeats_of_held {names : List String} {name : String} {v w : Value}
    (hv : v.NoRepeats) (hw : held names name v = some w) : w.NoRepeats := by
  cases v with
  | obj entries => exact hv.values _ (Entries.mem_of_get? hw)
  | arr items => exact hv.items w (List.mem_of_getElem? hw)
  | _ => cases hw

/-! ## Reading uses and steps -/

/-- A filter use is read exactly as it is spelled. -/
theorem reads_use {v : Value} (hv : v.NoRepeats) : Reads filterUse? .use v := by
  intro u
  have hrecord {fields} : record? useNames v = some fields ↔ IsRecord useNames v ∧
      fields = [held useNames "id" v, held useNames "priority" v, held useNames "opts" v] :=
    record?_eq_some_iff (by decide) hv
  have hpriority (o n) := orDefault?_eq_some_iff (o := o) (fun w _ => reads_int32 w) 0 n
  have hoptions (o p) := optional?_eq_some_iff (o := o) (fun w _ => reads_any w) p
  constructor
  · intro h
    simp only [filterUse?, Option.bind_eq_bind, Option.bind_eq_some_iff] at h
    obtain ⟨fields, hfields, h⟩ := h
    obtain ⟨hr, rfl⟩ := hrecord.1 hfields
    cases hid : held useNames "id" v with
    | none => simp [hid] at h
    | some id =>
      simp only [hid, Option.bind_eq_some_iff, hpriority, hoptions, Option.pure_def,
        Option.some.injEq] at h
      obtain ⟨s, hs, n, hn, o, ho, rfl⟩ := h
      have hs := (reads_text id s).1 hs
      exact ⟨hr, hs ▸ hid, hn, ho⟩
  · rintro ⟨hr, hid, hn, ho⟩
    have hfields := hrecord.2 ⟨hr, rfl⟩
    rw [filterUse?, ← useNames, hfields, hid]
    simp [(hpriority _ _).2 hn, (hoptions _ _).2 ho, Value.text?]

/-- A step is read exactly as it is spelled. -/
theorem reads_step {v : Value} (hv : v.NoRepeats) : Reads step? .step v := by
  intro s
  have hrecord {fields} : record? stepNames v = some fields ↔ IsRecord stepNames v ∧
      fields = [held stepNames "ref" v, held stepNames "selector" v, held stepNames "unselector" v,
        held stepNames "prop" v, held stepNames "or" v, held stepNames "filters" v] :=
    record?_eq_some_iff (by decide) hv
  have htext (o t) := optional?_eq_some_iff (o := o) (fun w _ => reads_text w) t
  have hflag (o b) := orDefault?_eq_some_iff (o := o) (fun w _ => reads_flag w) false b
  have hfilters (us) := orDefault?_eq_some_iff (o := held stepNames "filters" v)
    (fun w hw => reads_list fun items hi u hu =>
      reads_use ((hi ▸ noRepeats_of_held hv hw : (Value.arr items).NoRepeats).items u hu)) [] us
  constructor
  · intro h
    simp only [step?, Option.bind_eq_bind, Option.bind_eq_some_iff] at h
    obtain ⟨fields, hfields, h⟩ := h
    obtain ⟨hr, rfl⟩ := hrecord.1 hfields
    simp only [Option.bind_eq_some_iff, htext, hflag, hfilters, Option.pure_def,
      Option.some.injEq] at h
    obtain ⟨r, hr', s, hs, u, hu, p, hp, b, hb, fs, hfs, rfl⟩ := h
    exact ⟨hr, hr', hs, hu, hp, hb, hfs⟩
  · rintro ⟨hr, hr', hs, hu, hp, hb, hfs⟩
    have hfields := hrecord.2 ⟨hr, rfl⟩
    rw [step?, ← stepNames, hfields]
    simp [(htext _ _).2 hr', (htext _ _).2 hs, (htext _ _).2 hu, (htext _ _).2 hp,
      (hflag _ _).2 hb, (hfilters _).2 hfs]

theorem reads_chain {v : Value} (hv : v.NoRepeats) : Reads chain? .chain v :=
  reads_list fun _ hi w hw => reads_step ((hi ▸ hv).items w hw)

/-! ## Reading schemas -/

theorem keys_eq_of_forall₂ {β : Type} {R : α → β → Prop} {es : List (String × α)}
    {fs : List (String × β)} (h : List.Forall₂ (fun e f => f.1 = e.1 ∧ R e.2 f.2) es fs) :
    Entries.keys fs = Entries.keys es := by
  induction h with
  | nil => rfl
  | cons he _ ih => exact congrArg₂ _ he.1 ih

/-- Reads a field. -/
def field? : Value → Option (Field Schema)
  | .arr items => (items.mapM step?).map .steps
  | v => (schema? v).map .nested

theorem fields?_cons (name : String) (v : Value) (es : List (String × Value)) :
    fields? ((name, v) :: es) =
      if IsReserved name then fields? es
      else (field? v).bind fun f => (fields? es).bind fun fs => some ((name, f) :: fs) := by
  rw [fields?]
  by_cases hr : IsReserved name
  · exact (if_pos hr).trans (if_pos hr).symm
  · refine (if_neg hr).trans (Eq.trans ?_ (if_neg hr).symm)
    cases v <;> rfl

/-- The fields are read one by one; what stands under a reserved name is not a field. -/
theorem fields?_eq (es : List (String × Value)) :
    fields? es = (es.filter fun e => ¬IsReserved e.1).mapM fun e =>
      (field? e.2).map fun f => (e.1, f) := by
  induction es with
  | nil => rfl
  | cons e es ih =>
    obtain ⟨name, v⟩ := e
    rw [fields?_cons]
    by_cases hr : IsReserved name
    · simp [hr, ih]
    · simp only [hr, if_false, ih, List.filter_cons, not_false_eq_true, decide_true, if_true,
        List.mapM_cons]
      cases field? v <;> rfl

/-- A field is read as a chain or as a schema, whichever it spells. -/
theorem reads_field {v : Value} (hv : v.NoRepeats) (h : Reads schema? .schema v) :
    Reads field? .field v := by
  intro f
  cases v with
  | arr items =>
    have hread : field? (.arr items) = (chain? (.arr items)).map .steps := rfl
    simp only [hread, Option.map_eq_some_iff, reads_chain hv _]
    constructor
    · rintro ⟨steps, hs, rfl⟩
      exact .steps hs
    · rintro (⟨hs⟩ | ⟨⟨⟩⟩)
      exact ⟨_, hs, rfl⟩
  | _ =>
    simp only [field?, Option.map_eq_some_iff, h _]
    constructor
    · rintro ⟨child, hc, rfl⟩
      exact .nested hc
    · rintro (⟨_, hs, -⟩ | ⟨hc⟩)
      · cases hs
      · exact ⟨_, hc, rfl⟩

/-- The fields of a schema are read exactly as they are spelled. -/
theorem fields?_eq_some_iff {es : List (String × Value)} {fs : List (String × Field Schema)}
    (h : ∀ e ∈ es, Reads field? .field e.2) :
    fields? es = some fs ↔
      List.Forall₂ (fun e f => f.1 = e.1 ∧ Spelling.field e.2 f.2)
        (es.filter fun e => ¬IsReserved e.1) fs := by
  rw [fields?_eq, mapM_eq_some_iff]
  refine forall₂_congr_left fun e he f => ?_
  simp only [Option.map_eq_some_iff, h e (List.mem_filter.1 he).1 _]
  constructor
  · rintro ⟨g, hg, rfl⟩
    exact ⟨rfl, hg⟩
  · rintro ⟨hf, hg⟩
    exact ⟨f.2, hg, by rw [← hf]⟩

section

variable {entries : List (String × Value)}

theorem mem_keys_unreserved (name : String) :
    name ∈ Entries.keys (entries.filter fun e => ¬IsReserved e.1) ↔
      name ∈ Entries.keys entries ∧ ¬IsReserved name := by
  simp only [Entries.keys, List.mem_map, List.mem_filter, decide_eq_true_eq]
  constructor
  · rintro ⟨e, ⟨he, hr⟩, rfl⟩
    exact ⟨⟨e, he, rfl⟩, hr⟩
  · rintro ⟨⟨e, he, rfl⟩, hr⟩
    exact ⟨e, ⟨he, hr⟩, rfl⟩

/-- The fields that are read, put in order, are the fields that are spelled. -/
theorem fields_spelled_iff (he : (Entries.keys entries).Nodup)
    {fields : List (String × Field Schema)} :
    (∃ fs, List.Forall₂ (fun e f => f.1 = e.1 ∧ Spelling.field e.2 f.2)
        (entries.filter fun e => ¬IsReserved e.1) fs ∧ Entries.ofList fs = fields) ↔
      Entries.Ascending fields ∧
        (∀ name, name ∈ Entries.keys fields ↔
          name ∈ Entries.keys entries ∧ ¬IsReserved name) ∧
        ∀ name v f, (name, v) ∈ entries → (name, f) ∈ fields → Spelling.field v f := by
  have hnodup : (Entries.keys (entries.filter fun e => ¬IsReserved e.1)).Nodup :=
    he.sublist (List.filter_sublist.map _)
  constructor
  · rintro ⟨fs, hfs, rfl⟩
    refine ⟨Entries.ascending_ofList fs, fun name => ?_, fun name v f hv hf => ?_⟩
    · rw [Entries.ofList, Entries.mem_keys_insertAll, keys_eq_of_forall₂ hfs, mem_keys_unreserved]
      simp [Entries.keys]
    · rcases Entries.mem_insertAll hf with hf | hf
      · cases hf
      obtain ⟨⟨name', w⟩, hw, hn, hr⟩ := exists_of_forall₂ hfs hf
      cases hn
      have hvw : some v = some w :=
        (Entries.get?_eq_of_mem he hv).symm.trans
          (Entries.get?_eq_of_mem he (List.mem_filter.1 hw).1)
      exact Option.some.inj hvw ▸ hr
  · rintro ⟨ha, hn, hv⟩
    -- every entry that is a field has its field among those spelled
    have hex : ∀ e ∈ entries.filter fun e => ¬IsReserved e.1, ∃ f : String × Field Schema,
        f.1 = e.1 ∧ f ∈ fields ∧ Spelling.field e.2 f.2 := by
      intro e hm
      obtain ⟨hm, hr⟩ := List.mem_filter.1 hm
      have hk := (hn e.1).2 ⟨List.mem_map_of_mem hm, of_decide_eq_true hr⟩
      obtain ⟨f, hf, hfe⟩ := List.mem_map.1 hk
      exact ⟨f, hfe, hf, hv e.1 e.2 f.2 hm (hfe ▸ hf)⟩
    obtain ⟨fs, hfs⟩ := exists_forall₂ hex
    have hfields := hfs.imp fun _ _ h => (⟨h.1, h.2.2⟩ : _ ∧ Spelling.field _ _)
    have hkeys := keys_eq_of_forall₂ hfields
    refine ⟨fs, hfields, Entries.ofList_eq_of_subset (hkeys ▸ hnodup) ha (fun f hf => ?_) ?_⟩
    · obtain ⟨_, -, -, hm, -⟩ := exists_of_forall₂ hfs hf
      exact hm
    · intro name hname
      rw [hkeys, mem_keys_unreserved]
      exact (hn name).1 hname

end

theorem schema?_eq_none {v : Value} (h : ∀ entries, v ≠ .obj entries) : schema? v = none := by
  cases v with
  | obj entries => exact absurd rfl (h entries)
  | _ =>
    rw [schema?]
    exact nofun

theorem schema?_obj {entries : List (String × Value)} (he : (Entries.keys entries).Nodup) :
    schema? (.obj entries) =
      (optional? chain? (Entries.get? scopeName entries)).bind fun scope =>
        (orDefault? false bool? (Entries.get? mergeName entries)).bind fun merged =>
          (fields? entries).map fun fields => ⟨scope, merged, Entries.ofList fields⟩ := by
  rw [schema?, unique?_eq he, unique?_eq he]
  simp only [Option.map_eq_bind, Option.bind_eq_bind, Option.bind_some]
  rfl

mutual

theorem reads_schema (v : Value) (hv : v.NoRepeats) : Reads schema? .schema v := by
  intro s
  cases v with
  | obj entries =>
    have hfields := reads_fields entries hv.values
    have hscope (o) := optional?_eq_some_iff (o := Entries.get? scopeName entries)
      (fun w hw => reads_chain (hv.values _ (Entries.mem_of_get? hw))) o
    have hmerged (b) := orDefault?_eq_some_iff (o := Entries.get? mergeName entries)
      (fun w _ => reads_flag w) false b
    rw [schema?_obj hv.keys]
    simp only [Option.bind_eq_some_iff, Option.map_eq_some_iff, hscope, hmerged,
      fields?_eq_some_iff hfields]
    constructor
    · rintro ⟨scope, hs, merged, hm, fs, hfs, rfl⟩
      obtain ⟨ha, hn, hvs⟩ := (fields_spelled_iff hv.keys).1 ⟨fs, hfs, rfl⟩
      exact .intro hs hm ha hn hvs
    · rintro ⟨hs, hm, ha, hn, hvs⟩
      obtain ⟨fs, hfs, rfl⟩ := (fields_spelled_iff hv.keys).2 ⟨ha, hn, hvs⟩
      exact ⟨_, hs, _, hm, fs, hfs, rfl⟩
  | _ =>
    rw [schema?_eq_none (by nofun)]
    exact ⟨nofun, nofun⟩

theorem reads_fields (es : List (String × Value)) (h : ∀ e ∈ es, e.2.NoRepeats) :
    ∀ e ∈ es, Reads field? .field e.2 := by
  match es with
  | [] => simp
  | (name, v) :: es =>
    intro e he
    rcases List.mem_cons.1 he with rfl | he
    · have hv : v.NoRepeats := h (name, v) (by simp)
      exact reads_field hv (reads_schema v hv)
    · exact reads_fields es (fun e he => h e (by simp [he])) e he

end

/-- A schema is read exactly as it is spelled. -/
theorem schema?_eq_some_iff {v : Value} (hv : v.NoRepeats) (s : Schema) :
    schema? v = some s ↔ Spelling.schema v s := reads_schema v hv s

end Wire
end SchemaExtraction
