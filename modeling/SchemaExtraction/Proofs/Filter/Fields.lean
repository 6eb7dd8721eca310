import SchemaExtraction.Filter.Registry
import SchemaExtraction.Proofs.Traversal

/-!
# Filtering the fields of records

A registry goes through the records, and in each record through the named fields in key order, where
the filters of a field find what those of the fields before it have left. But no filter is given a
value that another field has, so a record might as well be read as a whole before any filter runs:
each named field has what its filters make of its own value, and nothing else changes.

Results:
* `filterEntries_eq`: the named fields of a record, each on the record as it was.
* `filterRecord_eq_ok_iff`, `filterRecord_eq_error_iff`: a record after filtering, and its failure.
* `exec_named_fields`: what a registry makes of records, and when and how it fails.
-/

namespace SchemaExtraction

/-! ## Entries -/

namespace Entries

variable {α β : Type}

/-- In entries in order, those before an entry are the ones with a lesser key. -/
theorem mem_before_iff {before after : List (String × α)} {e e' : String × α}
    (h : Ascending (before ++ e :: after)) (he' : e' ∈ before ++ e :: after) :
    e' ∈ before ↔ e'.1 < e.1 := by
  rw [Ascending, keys, List.map_append, List.map_cons, List.pairwise_append] at h
  obtain ⟨-, hafter, hbefore⟩ := h
  refine ⟨fun hm => hbefore _ (List.mem_map_of_mem hm) _ List.mem_cons_self, fun hlt => ?_⟩
  rcases List.mem_append.1 he' with hm | hm
  · exact hm
  · rcases List.mem_cons.1 hm with rfl | hm
    · exact absurd hlt (String.lt_irrefl _)
    · exact absurd hlt
        (String.lt_asymm (List.rel_of_pairwise_cons hafter (List.mem_map_of_mem hm)))

theorem keys_zip {ks : List String} {vs : List β} (h : ks.length = vs.length) :
    keys (ks.zip vs) = ks :=
  List.map_fst_zip (Nat.le_of_eq h)

/-- What a key holds that stands beside the values that belong to the entries. -/
theorem exists_get?_zip {R : String × α → β → Prop} {es : List (String × α)} {vs : List β}
    (h : List.Forall₂ R es vs) (hd : (keys es).Nodup) {e : String × α} (he : e ∈ es) :
    ∃ v, R e v ∧ get? e.1 ((keys es).zip vs) = some v := by
  induction h with
  | nil => cases he
  | cons hfirst _ ih =>
    obtain ⟨hnot, hd⟩ := List.nodup_cons.1 hd
    rcases List.mem_cons.1 he with rfl | he
    · exact ⟨_, hfirst, if_pos rfl⟩
    · obtain ⟨v, hv, hget⟩ := ih hd he
      refine ⟨v, hv, (if_neg ?_).trans hget⟩
      exact fun heq => hnot (heq ▸ List.mem_map_of_mem he)

end Entries

namespace Registry

variable {r : Registry} {request : FilterRequest} {reference v w : Value} {e : FilterError}
  {entries filtered : List (String × Value)} {uses : List (String × List FilterUse)}

/-! ## The named fields of a record -/

/-- What the filters of a field make of the value that a record has under it. A field that is not
    there counts as null. -/
def filterField (r : Registry) (reference : Value) (entries : List (String × Value))
    (field : String × List FilterUse) : Except FilterError Value :=
  r.apply ((Entries.get? field.1 entries).getD .null) field.2 reference

/-- The filters of a field do not see what is set under other keys. -/
theorem filterField_insert {key : String} {field : String × List FilterUse} (h : key ≠ field.1)
    (v : Value) :
    r.filterField reference (Entries.insert key v entries) field =
      r.filterField reference entries field := by
  rw [filterField, Entries.get?_insert, if_neg h, filterField]

/-- The fields are filtered one after the other, and yet each one as the record was at first. -/
theorem filterEntries_eq (h : (Entries.keys uses).Nodup) (entries : List (String × Value)) :
    r.filterEntries reference entries uses =
      (uses.mapM (r.filterField reference entries)).map fun vs =>
        Entries.insertAll entries ((Entries.keys uses).zip vs) := by
  induction uses generalizing entries with
  | nil => rfl
  | cons field rest ih =>
    obtain ⟨hfield, hrest⟩ := List.nodup_cons.1 h
    have hsame (v : Value) :
        rest.mapM (r.filterField reference (Entries.insert field.1 v entries)) =
          rest.mapM (r.filterField reference entries) := by
      refine mapM_congr fun other hother => filterField_insert ?_ v
      exact fun heq => hfield (heq ▸ List.mem_map_of_mem hother)
    rw [filterEntries, List.mapM_cons, ← filterField]
    cases r.filterField reference entries field with
    | error e => rfl
    | ok v =>
      dsimp only
      rw [ih hrest, hsame]
      cases rest.mapM (r.filterField reference entries) <;> rfl

/-- Whether entries are those of a record with the named fields filtered: each named field has what
    its filters make of the value before, and every other key has what it had. -/
structure FieldsFiltered (r : Registry) (request : FilterRequest)
    (entries filtered : List (String × Value)) : Prop where
  ascending : Entries.Ascending filtered
  keys : ∀ key, key ∈ Entries.keys filtered ↔
    key ∈ Entries.keys entries ∨ key ∈ Entries.keys request.uses
  named : ∀ field ∈ request.uses, ∃ w, r.filterField request.reference entries field = .ok w ∧
    Entries.get? field.1 filtered = some w
  others : ∀ key ∉ Entries.keys request.uses, Entries.get? key filtered = Entries.get? key entries

theorem FieldsFiltered.unique {filtered' : List (String × Value)}
    (h : r.FieldsFiltered request entries filtered)
    (h' : r.FieldsFiltered request entries filtered') : filtered = filtered' := by
  refine Entries.eq_of_get?_eq h.ascending h'.ascending fun key => ?_
  by_cases hkey : key ∈ Entries.keys request.uses
  · obtain ⟨field, hfield, rfl⟩ := List.mem_map.1 hkey
    obtain ⟨w, hw, hget⟩ := h.named field hfield
    obtain ⟨w', hw', hget'⟩ := h'.named field hfield
    rw [hw] at hw'
    rw [hget, hget', Except.ok.inj hw']
  · rw [h.others key hkey, h'.others key hkey]

theorem fieldsFiltered_of_eq_ok (huses : Entries.Ascending request.uses)
    (hentries : Entries.Ascending entries)
    (h : r.filterEntries request.reference entries request.uses = .ok filtered) :
    r.FieldsFiltered request entries filtered := by
  have hnodup := Entries.nodup_keys huses
  rw [filterEntries_eq hnodup, map_eq_ok_iff] at h
  obtain ⟨vs, hvs, rfl⟩ := h
  have hall := mapM_eq_ok_iff.1 hvs
  have hkeys : Entries.keys ((Entries.keys request.uses).zip vs) = Entries.keys request.uses :=
    Entries.keys_zip ((List.length_map _).trans hall.length_eq)
  have hget (key : String) := Entries.get?_insertAll_of_nodup key entries (hkeys ▸ hnodup)
  refine ⟨Entries.ascending_insertAll hentries _, fun key => ?_, fun field hfield => ?_,
    fun key hkey => ?_⟩
  · rw [Entries.mem_keys_insertAll, hkeys]
  · obtain ⟨w, hw, hzip⟩ := Entries.exists_get?_zip hall hnodup hfield
    exact ⟨w, hw, by rw [hget, hzip, Option.some_or]⟩
  · rw [← hkeys] at hkey
    rw [hget, Entries.get?_eq_none hkey, Option.none_or]

/-- Whether `e` is the failure of the named field of a record that fails and has the least key. -/
def FieldFails (r : Registry) (request : FilterRequest) (entries : List (String × Value))
    (e : FilterError) : Prop :=
  ∃ field ∈ request.uses, r.filterField request.reference entries field = .error e ∧
    ∀ earlier ∈ request.uses, earlier.1 < field.1 →
      ∃ w, r.filterField request.reference entries earlier = .ok w

theorem filterEntries_eq_error_iff (huses : Entries.Ascending request.uses) :
    r.filterEntries request.reference entries request.uses = .error e ↔
      r.FieldFails request entries e := by
  have hfails : r.filterEntries request.reference entries request.uses = .error e ↔
      FailsFirst (r.filterField request.reference entries) request.uses e := by
    rw [filterEntries_eq (Entries.nodup_keys huses), map_eq_error_iff, mapM_eq_error_iff]
  rw [hfails]
  constructor
  · rintro ⟨before, field, after, hsplit, hbefore, hfield⟩
    refine ⟨field, by simp [hsplit], hfield, fun earlier hearlier hlt => hbefore earlier ?_⟩
    rw [hsplit] at huses hearlier
    exact (Entries.mem_before_iff huses hearlier).2 hlt
  · rintro ⟨field, hmem, hfield, hearlier⟩
    obtain ⟨before, after, hsplit⟩ := List.append_of_mem hmem
    refine ⟨before, field, after, hsplit, fun b hb => ?_, hfield⟩
    have hb' : b ∈ request.uses := by simp [hsplit, hb]
    refine hearlier b hb' ?_
    rw [hsplit] at huses hb'
    exact (Entries.mem_before_iff huses hb').1 hb

theorem filterEntries_eq_ok_iff (huses : Entries.Ascending request.uses)
    (hentries : Entries.Ascending entries) :
    r.filterEntries request.reference entries request.uses = .ok filtered ↔
      r.FieldsFiltered request entries filtered := by
  refine ⟨fieldsFiltered_of_eq_ok huses hentries, fun h => ?_⟩
  cases hresult : r.filterEntries request.reference entries request.uses with
  | ok filtered' => rw [h.unique (fieldsFiltered_of_eq_ok huses hentries hresult)]
  | error e =>
    obtain ⟨field, hfield, herror, -⟩ := (filterEntries_eq_error_iff huses).1 hresult
    obtain ⟨w, hw, -⟩ := h.named field hfield
    rw [herror] at hw
    cases hw

/-! ## Records -/

/-- What a record is before and after filtering; only objects have fields. -/
inductive Filtered (r : Registry) (request : FilterRequest) : Value → Value → Prop
  | fields {entries filtered : List (String × Value)}
      (h : r.FieldsFiltered request entries filtered) :
      Filtered r request (.obj entries) (.obj filtered)
  | other {v : Value} (h : v.entries? = none) : Filtered r request v v

theorem filterRecord_eq_ok_iff (huses : Entries.Ascending request.uses)
    (hv : ∀ entries, v = .obj entries → Entries.Ascending entries) :
    r.filterRecord request v = .ok w ↔ r.Filtered request v w := by
  cases v with
  | obj entries =>
    have hfields (filtered) :
        r.filterEntries request.reference entries request.uses = .ok filtered ↔
          r.FieldsFiltered request entries filtered :=
      filterEntries_eq_ok_iff huses (hv entries rfl)
    rw [filterRecord, map_eq_ok_iff]
    constructor
    · rintro ⟨filtered, hresult, rfl⟩
      exact .fields ((hfields filtered).1 hresult)
    · rintro (⟨h⟩ | ⟨h⟩)
      · exact ⟨_, (hfields _).2 h, rfl⟩
      · cases h
  | _ => exact ⟨fun h => Except.ok.inj h ▸ .other rfl, fun h => by cases h; rfl⟩

theorem filterRecord_eq_error_iff (huses : Entries.Ascending request.uses) :
    r.filterRecord request v = .error e ↔
      ∃ entries, v = .obj entries ∧ r.FieldFails request entries e := by
  cases v with
  | obj entries =>
    have hfails : r.filterEntries request.reference entries request.uses = .error e ↔
        r.FieldFails request entries e := filterEntries_eq_error_iff huses
    simp only [Value.obj.injEq, exists_eq_left', ← hfails, filterRecord, map_eq_error_iff]
  | _ => simp [filterRecord]

theorem exec_eq_mapM (r : Registry) (request : FilterRequest) (records : List Value) :
    r.exec request records = records.mapM (r.filterRecord request) := by
  induction records with
  | nil => rfl
  | cons v vs ih =>
    rw [exec, List.mapM_cons, ih]
    cases r.filterRecord request v with
    | error e => rfl
    | ok w => cases vs.mapM (r.filterRecord request) <;> rfl

/-- Whether no filter of a record fails. -/
def Passes (r : Registry) (request : FilterRequest) (v : Value) : Prop :=
  ∀ entries, v = .obj entries → ∀ field ∈ request.uses,
    ∃ w, r.filterField request.reference entries field = .ok w

/-- A record fails if one of its fields does. -/
theorem exists_filterRecord_eq_error_iff (huses : Entries.Ascending request.uses) (v : Value) :
    (∃ e, r.filterRecord request v = .error e) ↔ ∃ entries, v = .obj entries ∧
      ∃ field ∈ request.uses, ∃ e, r.filterField request.reference entries field = .error e := by
  cases v with
  | obj entries =>
    simp only [Value.obj.injEq, exists_eq_left', ← exists_mapM_eq_error_iff, filterRecord,
      map_eq_error_iff, filterEntries_eq (Entries.nodup_keys huses)]
  | _ => simp [filterRecord]

theorem passes_iff (huses : Entries.Ascending request.uses) (v : Value) :
    r.Passes request v ↔ ∃ w, r.filterRecord request v = .ok w := by
  have hfails := exists_filterRecord_eq_error_iff (r := r) huses v
  constructor
  · intro h
    cases hv : r.filterRecord request v with
    | ok w => exact ⟨w, rfl⟩
    | error e =>
      obtain ⟨entries, hentries, field, hfield, e', he'⟩ := hfails.1 ⟨e, hv⟩
      obtain ⟨w, hw⟩ := h entries hentries field hfield
      rw [he'] at hw
      cases hw
  · rintro ⟨w, hw⟩ entries hentries field hfield
    cases hv : r.filterField request.reference entries field with
    | ok w => exact ⟨w, rfl⟩
    | error e =>
      obtain ⟨e', he'⟩ := hfails.2 ⟨entries, hentries, field, hfield, e, hv⟩
      rw [hw] at he'
      cases he'

/-- A registry gives one record for each record, in their order. In an object the named fields have
    what their filters make of their own values before, whatever the other fields and records have,
    and nothing else changes; what is not an object stays as it is. It fails if and only if the
    filters of some field of some record do, with the failure of the first such record and there of
    the least such key. -/
theorem exec_named_fields (r : Registry) (request : FilterRequest) (records : List Value)
    (huses : Entries.Ascending request.uses)
    (hrecords : ∀ entries, .obj entries ∈ records → Entries.Ascending entries) :
    (∀ outs, r.exec request records = .ok outs ↔
      List.Forall₂ (r.Filtered request) records outs) ∧
    (∀ e, r.exec request records = .error e ↔
      ∃ before entries after, records = before ++ .obj entries :: after ∧
        (∀ v ∈ before, r.Passes request v) ∧ r.FieldFails request entries e) ∧
    ((∃ e, r.exec request records = .error e) ↔
      ∃ entries, .obj entries ∈ records ∧ ∃ field ∈ request.uses,
        ∃ e, r.filterField request.reference entries field = .error e) := by
  simp only [exec_eq_mapM, passes_iff huses]
  refine ⟨fun outs => ?_, fun e => ?_, ?_⟩
  · rw [mapM_eq_ok_iff]
    exact forall₂_congr_left fun v hv w =>
      filterRecord_eq_ok_iff huses fun entries h => hrecords entries (h ▸ hv)
  · rw [mapM_eq_error_iff]
    constructor
    · rintro ⟨before, v, after, hsplit, hbefore, hv⟩
      obtain ⟨entries, rfl, hfails⟩ := (filterRecord_eq_error_iff huses).1 hv
      exact ⟨before, entries, after, hsplit, hbefore, hfails⟩
    · rintro ⟨before, entries, after, hsplit, hbefore, hfails⟩
      exact ⟨before, .obj entries, after, hsplit, hbefore,
        (filterRecord_eq_error_iff huses).2 ⟨entries, rfl, hfails⟩⟩
  · rw [exists_mapM_eq_error_iff]
    constructor
    · rintro ⟨v, hv, hfails⟩
      obtain ⟨entries, rfl, hfield⟩ := (exists_filterRecord_eq_error_iff huses v).1 hfails
      exact ⟨entries, hv, hfield⟩
    · rintro ⟨entries, hmem, hfield⟩
      exact ⟨.obj entries, hmem,
        (exists_filterRecord_eq_error_iff huses _).2 ⟨entries, rfl, hfield⟩⟩

/-- A field that is not there is made from null, and what is no object stays. Of two fields that
    fail in one record the one with the lesser key is named, although the record is not the only
    one that fails. -/
theorem exec_named_fields_prices :
    let r := withBuiltins true
    let prices : FilterRequest :=
      ⟨[("price", [.new "filter.toNumber" 0]), ("tags", [.new "filter.split" 0])], .null⟩
    let failing : FilterRequest :=
      ⟨[("name", [.new "filter.replace" 0]), ("price", [.new "filter.late" 0])], .null⟩
    let first := [("name", Value.str " x "), ("price", .str " 12 ")]
    let records := [.str " y ", .obj first, .obj []]
    let outs := [.str " y ", .obj [("name", .str " x "), ("price", .ofNat 12), ("tags", .null)],
      .obj [("price", .null), ("tags", .null)]]
    let missing : FilterError := .badOptions "filter.replace" "missing string option `pattern`"
    Entries.Ascending prices.uses ∧ Entries.Ascending failing.uses ∧
      (∀ entries, .obj entries ∈ records → Entries.Ascending entries) ∧
      r.exec prices records = .ok outs ∧
      List.Forall₂ (r.Filtered prices) records outs ∧
      r.Passes failing (.str " y ") ∧ r.FieldFails failing first missing ∧
      r.exec failing records = .error missing ∧
      ∃ entries, .obj entries ∈ records ∧ ∃ field ∈ failing.uses,
        ∃ e, r.filterField failing.reference entries field = .error e := by
  intro r prices failing first records outs missing
  have hprices : Entries.Ascending prices.uses := by decide
  have hfailing : Entries.Ascending failing.uses := by decide
  have hrecords : ∀ entries, .obj entries ∈ records → Entries.Ascending entries := by
    have hfirst : Entries.Ascending first := by decide
    simp [records, hfirst, Entries.ascending_nil]
  obtain ⟨hok, -, -⟩ := exec_named_fields r prices records hprices hrecords
  obtain ⟨-, herror, hfails⟩ := exec_named_fields r failing records hfailing hrecords
  have hsingle (v : Value) (use : FilterUse) : r.apply v [use] .null = r.applyUse .null v use := by
    rw [apply, byPriority, List.mergeSort_singleton, applyAll]
    cases r.applyUse .null v use <;> rfl
  have houts : r.exec prices records = .ok outs := by
    simp only [exec, filterRecord, filterEntries, hsingle, records, prices]
    decide +kernel
  have hpasses : r.Passes failing (.str " y ") := by
    rintro entries ⟨⟩
  have hfield : r.FieldFails failing first missing := by
    have hleast : ∀ field ∈ failing.uses, ¬ field.1 < "name" := by decide
    exact ⟨("name", [.new "filter.replace" 0]), List.mem_cons_self, hsingle _ _,
      fun earlier hearlier hlt => absurd hlt (hleast earlier hearlier)⟩
  have hfirst : r.exec failing records = .error missing :=
    (herror missing).2 ⟨[.str " y "], first, [.obj []], rfl, by simpa using hpasses, hfield⟩
  exact ⟨hprices, hfailing, hrecords, houts, (hok outs).1 houts, hpasses, hfield, hfirst,
    hfails.1 ⟨missing, hfirst⟩⟩

end Registry
end SchemaExtraction
