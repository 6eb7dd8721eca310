import SchemaExtraction.Proofs.Value.DeepMerge

/-!
# Merging a value again

What has been merged into a place is there already when it is merged into it again: its scalars
replace themselves, and its lists and objects find all that they have. So a deep merge takes up its
target once and for all, an object is left alone when it is merged with itself, and so it is when it
is merged with the empty object on either side.

Results:
* `Value.inOrder_mergeInto`: merging keeps the keys of objects in order.
* `Value.mergeInto_null`: a value that is merged into nothing.
* `Value.mergeInto_mergeInto`: a value that is merged into a place again.
* `Value.merge_absorbs`: a deep merge with its target again, and objects with themselves and with
  the empty object.
-/

namespace SchemaExtraction.Value

/-! ## Keys in order -/

/-- The keys of every object in a value, at any depth, are in order. -/
inductive InOrder : Value → Prop
  | scalar {v : Value} (h : v.isScalar = true) : InOrder v
  | arr {items : List Value} (h : ∀ v ∈ items, v.InOrder) : InOrder (.arr items)
  | obj {entries : List (String × Value)} (keys : Entries.Ascending entries)
      (values : ∀ e ∈ entries, e.2.InOrder) : InOrder (.obj entries)

namespace InOrder

theorem null : InOrder .null := .scalar rfl

theorem items {vs : List Value} (h : InOrder (.arr vs)) : ∀ v ∈ vs, v.InOrder := by
  cases h with
  | scalar h => cases h
  | arr h => exact h

theorem keys {es : List (String × Value)} (h : InOrder (.obj es)) : Entries.Ascending es := by
  cases h with
  | scalar h => cases h
  | obj keys _ => exact keys

theorem values {es : List (String × Value)} (h : InOrder (.obj es)) :
    ∀ e ∈ es, e.2.InOrder := by
  cases h with
  | scalar h => cases h
  | obj _ values => exact values

theorem noRepeats {v : Value} (h : v.InOrder) : v.NoRepeats := by
  induction h with
  | scalar h => exact .scalar h
  | arr _ ih => exact .arr ih
  | obj keys _ ih => exact .obj (Entries.nodup_keys keys) ih

theorem arr_itemsOf {v : Value} (h : v.InOrder) : InOrder (.arr v.itemsOf) := by
  cases v with
  | arr items => exact h
  | _ => exact .arr (by simp [itemsOf])

theorem obj_entriesOf {v : Value} (h : v.InOrder) : InOrder (.obj v.entriesOf) := by
  cases v with
  | obj entries => exact h
  | _ => exact .obj Entries.ascending_nil (by simp [entriesOf])

theorem getD_getElem? {vs : List Value} (h : InOrder (.arr vs)) (i : Nat) :
    (vs[i]?.getD .null).InOrder := by
  cases hi : vs[i]? with
  | none => exact null
  | some v => exact h.items v (List.mem_of_getElem? hi)

theorem getD_get? {es : List (String × Value)} (h : InOrder (.obj es)) (k : String) :
    ((Entries.get? k es).getD .null).InOrder := by
  cases hk : Entries.get? k es with
  | none => exact null
  | some v => exact h.values _ (Entries.mem_of_get? hk)

theorem cons {v : Value} {vs : List Value} (hv : v.InOrder) (h : InOrder (.arr vs)) :
    InOrder (.arr (v :: vs)) :=
  .arr (List.forall_mem_cons.2 ⟨hv, h.items⟩)

theorem tail {vs : List Value} (h : InOrder (.arr vs)) : InOrder (.arr vs.tail) :=
  .arr fun v hv => h.items v (List.mem_of_mem_tail hv)

theorem insert {es : List (String × Value)} (h : InOrder (.obj es)) (k : String) {v : Value}
    (hv : v.InOrder) : InOrder (.obj (Entries.insert k v es)) := by
  refine .obj (Entries.ascending_insert k v h.keys) fun e he => ?_
  rcases Entries.mem_insert he with rfl | he
  · exact hv
  · exact h.values e he

end InOrder

mutual

/-- A value in canonical form has its keys in order. -/
theorem inOrder_canonical (v : Value) : (Json.canonical v).InOrder := by
  cases v with
  | arr items => exact .arr (inOrder_canonicalItems items)
  | obj entries =>
    refine .obj (Entries.ascending_ofList _) fun e he => ?_
    rcases Entries.mem_insertAll he with he | he
    · cases he
    · exact inOrder_canonicalEntries entries e he
  | _ => exact .scalar rfl

theorem inOrder_canonicalItems (items : List Value) :
    ∀ v ∈ Json.canonicalItems items, v.InOrder := by
  match items with
  | [] => simp [Json.canonicalItems]
  | v :: vs =>
    intro w hw
    rcases List.mem_cons.1 hw with rfl | hw
    · exact inOrder_canonical v
    · exact inOrder_canonicalItems vs w hw

theorem inOrder_canonicalEntries (entries : List (String × Value)) :
    ∀ e ∈ Json.canonicalEntries entries, e.2.InOrder := by
  match entries with
  | [] => simp [Json.canonicalEntries]
  | (k, v) :: es =>
    intro e he
    rcases List.mem_cons.1 he with rfl | he
    · exact inOrder_canonical v
    · exact inOrder_canonicalEntries es e he

end

mutual

/-- A place with its keys in order has them in order whatever is merged into it. -/
theorem inOrder_mergeInto {place : Value} (h : place.InOrder) (source : Value) :
    (mergeInto place source).InOrder := by
  cases source with
  | obj entries => exact inOrder_mergeEntries h.obj_entriesOf entries
  | arr items => exact inOrder_mergeItems h.arr_itemsOf items
  | _ => exact .scalar rfl

theorem inOrder_mergeEntries {dest : List (String × Value)} (h : InOrder (.obj dest))
    (entries : List (String × Value)) : InOrder (.obj (mergeEntries dest entries)) := by
  match entries with
  | [] => exact h
  | (k, v) :: es =>
    exact inOrder_mergeEntries (h.insert k (inOrder_mergeInto (h.getD_get? k) v)) es

theorem inOrder_mergeItems {dest : List Value} (h : InOrder (.arr dest)) (items : List Value) :
    InOrder (.arr (mergeItems dest items)) := by
  match items with
  | [] => exact h
  | v :: vs =>
    have hhead : (dest.head?.getD null).InOrder := by
      rw [List.head?_eq_getElem?]
      exact h.getD_getElem? 0
    exact (inOrder_mergeInto hhead v).cons (inOrder_mergeItems h.tail vs)

end

/-! ## Merging into nothing, and merging again -/

/-- A value that is merged into nothing is there as it is. -/
theorem mergeInto_null {v : Value} (h : v.InOrder) : mergeInto null v = v := by
  induction h with
  | scalar h => exact mergeInto_of_isScalar h null
  | arr h ih =>
    rw [mergeInto]
    refine congrArg Value.arr (List.ext_getElem? fun i => ?_)
    rw [getElem?_mergeItems]
    split
    case h_1 v hv =>
      rw [hv]
      exact congrArg some (ih v (List.mem_of_getElem? hv))
    case h_2 hn => exact hn.symm
  | @obj entries keys values ih =>
    have horder := inOrder_mergeInto .null (obj entries)
    refine congrArg Value.obj (Entries.eq_of_get?_eq horder.keys keys fun k => ?_)
    rw [get?_mergeEntries (Entries.nodup_keys keys)]
    split
    case h_1 v hv =>
      rw [hv]
      exact congrArg some (ih _ (Entries.mem_of_get? hv))
    case h_2 hn => exact hn.symm

/-- What has been merged into a place makes no difference when it is merged into it again. -/
theorem mergeInto_mergeInto {place source : Value} (hp : place.InOrder) (hs : source.NoRepeats) :
    mergeInto (mergeInto place source) source = mergeInto place source := by
  induction hs generalizing place with
  | scalar h => rw [mergeInto_of_isScalar h, mergeInto_of_isScalar h]
  | @arr items h ih =>
    refine congrArg Value.arr (List.ext_getElem? fun i => ?_)
    change (mergeItems (mergeItems place.itemsOf items) items)[i]? = _
    rw [getElem?_mergeItems, getElem?_mergeItems]
    cases hi : items[i]? with
    | none => rfl
    | some v =>
      exact congrArg some (ih v (List.mem_of_getElem? hi) (hp.arr_itemsOf.getD_getElem? i))
  | @obj entries keys values ih =>
    have horder := inOrder_mergeInto hp (obj entries)
    have hagain := inOrder_mergeInto horder (obj entries)
    refine congrArg Value.obj (Entries.eq_of_get?_eq hagain.keys horder.keys fun k => ?_)
    change Entries.get? k (mergeEntries (mergeEntries place.entriesOf entries) entries) = _
    rw [get?_mergeEntries keys, get?_mergeEntries keys]
    cases hk : Entries.get? k entries with
    | none => rfl
    | some v =>
      exact congrArg some (ih _ (Entries.mem_of_get? hk) (hp.obj_entriesOf.getD_get? k))

/-! ## Combinations -/

/-- No rule combines an object with anything before the deep merge, if the other value counts as
    present and is not a timestamp. -/
theorem unruled_obj_left (entries : List (String × Value)) {target : Value}
    (hp : target.truthy = true) (hd : target.dateLike = false) : Unruled (obj entries) target where
  source_present := rfl
  target_present := hp
  source_not_date := rfl
  target_not_date := hd
  not_numbers a b ha := by cases ha
  not_texts := .inl rfl
  not_lists := .inl fun vs h => by cases h

/-- What a deep merge gives is an object. -/
theorem exists_mergeInto_asObject (place v : Value) :
    ∃ entries, mergeInto place v.asObject = obj entries := by
  rw [asObject_eq, mergeInto]
  exact ⟨_, rfl⟩

theorem merge_obj_left {entries : List (String × Value)} (h : (obj entries).InOrder)
    {target : Value} (hp : target.truthy = true) (hd : target.dateLike = false) :
    merge (obj entries) target = mergeInto (obj entries) target.asObject := by
  rw [(unruled_obj_left entries hp hd).merge_eq]
  change mergeInto (mergeInto null (obj entries)) _ = _
  rw [mergeInto_null h]

/-- A deep merge is not changed by its target again. An object is not changed when it is combined
    with itself or with the empty object on either side. -/
theorem merge_absorbs :
    (∀ source target, target.NoRepeats → Unruled source target →
      merge (merge source target) target = merge source target) ∧
    ∀ entries, (obj entries).InOrder →
      merge (obj entries) (obj entries) = obj entries ∧
      merge (obj []) (obj entries) = obj entries ∧
      merge (obj entries) (obj []) = obj entries := by
  constructor
  · intro source target ht h
    have hplace := inOrder_mergeInto .null source.asObject
    obtain ⟨entries, hmerged⟩ := exists_mergeInto_asObject (mergeInto null source.asObject) target
    have horder : (obj entries).InOrder := hmerged ▸ inOrder_mergeInto hplace target.asObject
    rw [h.merge_eq, hmerged, merge_obj_left horder h.target_present h.target_not_date, ← hmerged]
    exact mergeInto_mergeInto hplace ht.asObject
  · -- merged with itself, an object is merged into nothing and then once more
    intro entries h
    have hempty : (obj []).InOrder := .obj Entries.ascending_nil (by simp)
    have hself := mergeInto_mergeInto .null h.noRepeats
    rw [mergeInto_null h] at hself
    rw [merge_obj_left h rfl rfl, merge_obj_left hempty rfl rfl, merge_obj_left h rfl rfl]
    exact ⟨hself, mergeInto_null h, rfl⟩

/-- An object whose only entry goes into the first item of a list. -/
theorem merge_absorbs_nested :
    let source := arr [obj [("b", ofNat 1), ("c", arr [ofNat 2, null])], str "x"]
    let target := obj [("0", obj [("c", arr [obj []]), ("d", str "y")])]
    let both := obj [("0", obj [("b", ofNat 1), ("c", arr [obj [], null]), ("d", str "y")]),
      ("1", str "x")]
    target.NoRepeats ∧ Unruled source target ∧ both.InOrder ∧
      merge source target = both ∧ merge both target = both ∧ merge both both = both ∧
      merge (obj []) both = both ∧ merge both (obj []) = both := by
  intro source target both
  have ht : target.NoRepeats := by
    have h : Json.canonical target = target := by decide
    exact h ▸ noRepeats_canonical target
  have hu : Unruled source target :=
    ⟨rfl, rfl, rfl, rfl, by rintro a b ⟨⟩, Or.inl rfl, Or.inr fun ws => Value.noConfusion⟩
  have ho : both.InOrder := by
    have h : Json.canonical both = both := by decide
    exact h ▸ inOrder_canonical both
  have hmerged : merge source target = both := by decide +kernel
  obtain ⟨habsorbs, hobject⟩ := merge_absorbs
  refine ⟨ht, hu, ho, hmerged, ?_, hobject _ ho⟩
  rw [← hmerged]
  exact habsorbs source target ht hu

end SchemaExtraction.Value
