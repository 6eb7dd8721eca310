import SchemaExtraction.Proofs.Value.Place
import SchemaExtraction.Value.Merge

/-!
# What a deep merge holds

The deep merge of two values is described place by place. A scalar of the second value stays where
it is, and so does one of the first value as long as the second value goes along with the first
one: wherever it has anything on the way to the scalar, both have an object there, or both a list.

Results:
* `Value.child?_mergeInto`: one step into a merged value.
* `Value.at?_mergeInto_scalar`: the scalars of a merged value.
* `Value.merge_scalars_and_lists`: the scalars and the lists of the combination of two values that
  no earlier rule combines.
-/

namespace SchemaExtraction.Value

/-! ## One step -/

theorem get?_mergeEntries {es : List (String × Value)} (hes : (Entries.keys es).Nodup)
    (dest : List (String × Value)) (k : String) :
    Entries.get? k (mergeEntries dest es) =
      match Entries.get? k es with
      | some v => some (mergeInto ((Entries.get? k dest).getD null) v)
      | none => Entries.get? k dest := by
  induction es generalizing dest with
  | nil => rw [mergeEntries, Entries.get?]
  | cons e es ih =>
    obtain ⟨k', v⟩ := e
    have hk' : k' ∉ Entries.keys es := (List.nodup_cons.1 hes).1
    rw [mergeEntries, ih (List.nodup_cons.1 hes).2, Entries.get?, Entries.get?_insert]
    by_cases hk : k' = k
    · subst hk
      have hn : Entries.get? k' es = none := by
        rwa [Entries.mem_keys_iff, Option.not_isSome_iff_eq_none] at hk'
      simp [hn]
    · simp [hk]

theorem getElem?_mergeItems (dest items : List Value) (i : Nat) :
    (mergeItems dest items)[i]? =
      match items[i]? with
      | some v => some (mergeInto (dest[i]?.getD null) v)
      | none => dest[i]? := by
  induction items generalizing dest i with
  | nil => rfl
  | cons v vs ih =>
    rw [mergeItems]
    cases i with
    | zero => cases dest <;> rfl
    | succ i => cases dest <;> simp [ih]

theorem length_mergeItems (dest items : List Value) :
    (mergeItems dest items).length = max dest.length items.length := by
  induction items generalizing dest with
  | nil => simp [mergeItems]
  | cons v vs ih => cases dest <;> simp [mergeItems, ih]

theorem mergeInto_of_isScalar {source : Value} (h : source.isScalar = true) (place : Value) :
    mergeInto place source = source := by
  cases source <;> first | rfl | cases h

/-- A step into a merged value: where the source has something, that is merged into what the place
    has there, and elsewhere a place of the same kind keeps what it has. -/
theorem child?_mergeInto {source : Value} (hs : source.NoRepeats) (place : Value) (s : Segment) :
    (mergeInto place source).child? s =
      match source.child? s with
      | some v => some (mergeInto ((place.child? s).getD null) v)
      | none => if place.sameKind source then place.child? s else none := by
  cases source with
  | obj entries =>
    cases s with
    | key name =>
      rw [mergeInto, child?, get?_mergeEntries hs.keys]
      cases place <;> rfl
    | index i => cases place <;> rfl
  | arr items =>
    cases s with
    | key name => cases place <;> rfl
    | index i =>
      rw [mergeInto, child?, getElem?_mergeItems]
      cases place <;> simp [child?, sameKind, itemsOf]
  | _ => cases s <;> cases place <;> rfl

theorem isScalar_mergeInto (place source : Value) :
    (mergeInto place source).isScalar = source.isScalar := by
  cases source <;> rfl

theorem sameKind_mergeInto (place source v : Value) :
    (mergeInto place source).sameKind v = source.sameKind v := by
  cases source <;> cases v <;> rfl

/-! ## Places -/

/-- Where a place and a source both have something, the one is merged into the other. -/
theorem at?_mergeInto_of_both {path : List Segment} {place source v w : Value}
    (hs : source.NoRepeats) (hv : place.at? path = some v) (hw : source.at? path = some w) :
    (mergeInto place source).at? path = some (mergeInto v w) := by
  induction path generalizing place source with
  | nil =>
    cases hv
    cases hw
    rfl
  | cons s path ih =>
    rw [at?_cons, Option.bind_eq_some_iff] at hv hw
    obtain ⟨v', hv', hv⟩ := hv
    obtain ⟨w', hw', hw⟩ := hw
    rw [at?_cons, child?_mergeInto hs, hw', hv']
    exact ih (hs.child? hw') hv hw

/-- Merging into nothing changes no place. -/
theorem at?_mergeInto_null {source : Value} (hs : source.NoRepeats) (path : List Segment) :
    (mergeInto null source).at? path = (source.at? path).map (mergeInto null) := by
  induction path generalizing source with
  | nil => rfl
  | cons s path ih =>
    rw [at?_cons, at?_cons, child?_mergeInto hs]
    cases h : source.child? s with
    | none => cases source <;> rfl
    | some v => exact ih (hs.child? h)

/-- On the way to a place the first value has an object wherever the second one has an object, and
    a list wherever it has a list, and the second value has no scalar. -/
def GoesAlong (v w : Value) (path : List Segment) : Prop :=
  ∀ way, way <+: path → ∀ w', w.at? way = some w' →
    ∃ v', v.at? way = some v' ∧ v'.sameKind w' = true

theorem GoesAlong.sameKind {v w : Value} {path : List Segment} (h : GoesAlong v w path) :
    v.sameKind w = true := by
  obtain ⟨v', hv', hk⟩ := h [] List.nil_prefix w rfl
  cases hv'
  exact hk

/-- Two values of one kind only have to go along inside. -/
theorem goesAlong_iff {v w : Value} (hk : v.sameKind w = true) {path : List Segment} :
    GoesAlong v w path ↔ ∀ way, way ≠ [] → way <+: path → ∀ w', w.at? way = some w' →
      ∃ v', v.at? way = some v' ∧ v'.sameKind w' = true := by
  constructor
  · exact fun h way _ => h way
  · intro h way hway w' hw'
    cases way with
    | nil =>
      cases hw'
      exact ⟨v, rfl, hk⟩
    | cons s way => exact h (s :: way) (by simp) hway w' hw'

theorem goesAlong_nil {v w : Value} : GoesAlong v w [] ↔ v.sameKind w = true := by
  simp [GoesAlong, at?]

theorem goesAlong_cons {v w : Value} {s : Segment} {path : List Segment} :
    GoesAlong v w (s :: path) ↔ v.sameKind w = true ∧
      ∀ w', w.child? s = some w' → ∃ v', v.child? s = some v' ∧ GoesAlong v' w' path := by
  constructor
  · intro h
    refine ⟨h.sameKind, fun w' hw' => ?_⟩
    obtain ⟨v', hv', -⟩ := h [s] (by simp) w' (by simp [at?, hw'])
    have hc : v.child? s = some v' := by simpa [at?] using hv'
    refine ⟨v', hc, fun way hway u hu => ?_⟩
    obtain ⟨u', hu', hk⟩ := h (s :: way) (by simpa using hway) u (by simp [at?, hw', hu])
    exact ⟨u', by simpa [at?, hc] using hu', hk⟩
  · rintro ⟨hk, h⟩ way hway u hu
    cases way with
    | nil => exact goesAlong_nil.2 hk [] List.nil_prefix u hu
    | cons s' way =>
      obtain ⟨rfl, htail⟩ := List.cons_prefix_cons.1 hway
      rw [at?_cons, Option.bind_eq_some_iff] at hu
      obtain ⟨w', hw', hu⟩ := hu
      obtain ⟨v', hv', hg⟩ := h w' hw'
      obtain ⟨u', hu', hk'⟩ := hg way htail u hu
      exact ⟨u', by simp [at?, hv', hu'], hk'⟩

/-- The scalars of a merged value are those of the source, and those of the place that the source
    goes along with. -/
theorem at?_mergeInto_scalar {path : List Segment} {place source c : Value}
    (hs : source.NoRepeats) (hc : c.isScalar = true) :
    (mergeInto place source).at? path = some c ↔
      source.at? path = some c ∨ place.at? path = some c ∧ GoesAlong place source path := by
  induction path generalizing place source with
  | nil =>
    have hplace : ¬(place = c ∧ place.sameKind source = true) := by
      rintro ⟨rfl, hk⟩
      rw [sameKind_eq_false hc] at hk
      cases hk
    simp only [at?, Option.some.injEq, goesAlong_nil, or_iff_left hplace]
    by_cases h : source.isScalar = true
    · rw [mergeInto_of_isScalar h]
    · constructor
      · rintro rfl
        rw [isScalar_mergeInto] at hc
        exact absurd hc h
      · rintro rfl
        exact absurd hc h
  | cons s path ih =>
    rw [at?_cons, at?_cons, at?_cons, child?_mergeInto hs, goesAlong_cons]
    cases hsource : source.child? s with
    | none => by_cases hk : place.sameKind source = true <;> simp [hk]
    | some w =>
      rw [Option.bind_some, Option.bind_some, ih (hs.child? hsource)]
      refine or_congr Iff.rfl ?_
      cases hplace : place.child? s with
      | none =>
        -- nothing is below null, and null goes along with nothing
        simp only [Option.getD_none, at?_null_eq_some]
        constructor
        · rintro ⟨⟨rfl, rfl⟩, hg⟩
          cases hg.sameKind
        · simp
      | some v =>
        simp [sameKind_of_child? hplace hsource]

theorem goesAlong_mergeInto_null {v w : Value} (hv : v.NoRepeats) (path : List Segment) :
    GoesAlong (mergeInto null v) w path ↔ GoesAlong v w path := by
  simp only [GoesAlong, at?_mergeInto_null hv, Option.map_eq_some_iff]
  constructor
  · intro h way hway w' hw'
    obtain ⟨_, ⟨v', hv', rfl⟩, hk⟩ := h way hway w' hw'
    exact ⟨v', hv', by rwa [sameKind_mergeInto] at hk⟩
  · intro h way hway w' hw'
    obtain ⟨v', hv', hk⟩ := h way hway w' hw'
    exact ⟨_, ⟨v', hv', rfl⟩, by rwa [sameKind_mergeInto]⟩

/-! ## The top of a merge -/

/-- A value as the object that it counts as at the top of a merge: the items of a list stand under
    their positions in decimal digits, and a scalar is the empty object. -/
def asObject : Value → Value
  | obj entries => obj entries
  | arr items => obj (items.mapIdx fun i v => (String.ofList (decimalDigits i), v))
  | _ => obj []

theorem sameKind_asObject (v w : Value) : v.asObject.sameKind w.asObject = true := by
  cases v <;> cases w <;> rfl

theorem entriesByPosition_eq (n : Nat) (items : List Value) :
    entriesByPosition n items =
      items.mapIdx fun i v => (String.ofList (decimalDigits (i + n)), v) := by
  induction items generalizing n with
  | nil => rfl
  | cons v vs ih =>
    rw [entriesByPosition, ih, List.mapIdx_cons, Nat.zero_add]
    simp only [Nat.add_assoc, Nat.add_comm 1]

theorem asObject_eq (v : Value) : v.asObject = obj v.topEntries := by
  cases v with
  | arr items => rw [asObject, topEntries, entriesByPosition_eq]; rfl
  | _ => rfl

theorem decimalDigits_injective : Function.Injective decimalDigits := by
  intro m n h
  have hm := readDigits_decimalDigits m
  rw [h, readDigits_decimalDigits] at hm
  exact (Option.some.inj hm).symm

theorem NoRepeats.asObject {v : Value} (h : v.NoRepeats) : v.asObject.NoRepeats := by
  cases v with
  | obj entries => exact h
  | arr items =>
    refine .obj ?_ fun e he => ?_
    · have hk : Entries.keys (items.mapIdx fun i v => (String.ofList (decimalDigits i), v)) =
          (List.range items.length).map fun i => String.ofList (decimalDigits i) :=
        List.ext_getElem (by simp [Entries.keys]) (by simp [Entries.keys])
      rw [hk]
      refine List.pairwise_map.2 (List.nodup_range.imp fun hne h => hne ?_)
      exact decimalDigits_injective (String.ofList_injective h)
    · obtain ⟨i, hi, rfl⟩ := List.mem_mapIdx.1 he
      exact h.items _ (List.getElem_mem hi)
  | _ => exact .obj List.nodup_nil (by simp)

/-- No rule combines two values before they are merged deeply: both count as present, neither is a
    timestamp, they are not both numbers other than zero, nor both texts, nor both lists. -/
structure Unruled (source target : Value) : Prop where
  source_present : source.truthy = true
  target_present : target.truthy = true
  source_not_date : source.dateLike = false
  target_not_date : target.dateLike = false
  not_numbers : ∀ a b, source.toNumber? = some a → target.toNumber? = some b →
    a.isZero = true ∨ b.isZero = true
  not_texts : source.text?.isNone = true ∨ target.text?.isNone = true
  not_lists : (∀ vs, source ≠ arr vs) ∨ ∀ ws, target ≠ arr ws

theorem Unruled.merge_eq {source target : Value} (h : Unruled source target) :
    merge source target = mergeInto (mergeInto null source.asObject) target.asObject := by
  have hsum : sum? source target = none := by
    unfold sum?
    split
    · rename_i a b ha hb
      rcases h.not_numbers a b ha hb with hz | hz <;> simp [hz]
    · rfl
  have hcombine : combine source target = deepMerge source target := by
    unfold combine
    split
    · rcases h.not_texts with ht | ht <;> cases ht
    · rcases h.not_lists with hl | hl <;> exact absurd rfl (hl _)
    · rfl
  rw [merge_undated h.source_present h.target_present h.source_not_date h.target_not_date, hsum,
    Option.getD_none, hcombine, deepMerge, asObject_eq, asObject_eq, mergeInto, mergeInto]
  rfl

/-- The combination of two values that no earlier rule combines, both taken as objects at the top.
    It has the scalars of the target, those of the source that the target does not stand in the
    way of, and no others; and where both have a list, the longer of the two lengths. -/
theorem merge_scalars_and_lists {source target : Value} (hs : source.NoRepeats)
    (ht : target.NoRepeats) (h : Unruled source target) (path : List Segment) :
    (∀ c, c.isScalar = true →
      ((merge source target).at? path = some c ↔
        target.asObject.at? path = some c ∨
          source.asObject.at? path = some c ∧
            ∀ way, way ≠ [] → way <+: path → ∀ w, target.asObject.at? way = some w →
              ∃ v, source.asObject.at? way = some v ∧ v.sameKind w = true)) ∧
    ∀ vs ws, source.asObject.at? path = some (arr vs) → target.asObject.at? path = some (arr ws) →
      ∃ items, (merge source target).at? path = some (arr items) ∧
        items.length = max vs.length ws.length := by
  rw [h.merge_eq]
  have hs' := hs.asObject
  have ht' := ht.asObject
  constructor
  · intro c hc
    have hnull : ¬(null.at? path = some c ∧ GoesAlong null source.asObject path) :=
      fun hg => Bool.noConfusion hg.2.sameKind
    rw [at?_mergeInto_scalar ht' hc, at?_mergeInto_scalar hs' hc, or_iff_left hnull,
      goesAlong_mergeInto_null hs', goesAlong_iff (sameKind_asObject _ _)]
  · intro vs ws hvs hws
    have hm : (mergeInto null source.asObject).at? path = some (mergeInto null (arr vs)) := by
      rw [at?_mergeInto_null hs', hvs, Option.map_some]
    rw [at?_mergeInto_of_both ht' hm hws]
    exact ⟨_, rfl, by simp [itemsOf, mergeInto, length_mergeItems]⟩

/-- A list whose only item goes along with the entry of key `0`. -/
theorem merge_scalars_and_lists_nested :
    let source := arr [obj [("b", ofNat 1), ("c", arr [ofNat 1, ofNat 2])]]
    let target := obj [("0", obj [("c", arr [ofNat 3])]), ("d", null)]
    source.NoRepeats ∧ target.NoRepeats ∧ Unruled source target ∧
      (merge source target).at? [.key "0", .key "c", .index 1] = some (ofNat 2) ∧
      ∃ items, (merge source target).at? [.key "0", .key "c"] = some (arr items) ∧
        items.length = 2 := by
  intro source target
  have hs : source.NoRepeats := by
    have h : Json.canonical source = source := by decide
    exact h ▸ noRepeats_canonical source
  have ht : target.NoRepeats := by
    have h : Json.canonical target = target := by decide
    exact h ▸ noRepeats_canonical target
  have h : Unruled source target :=
    ⟨rfl, rfl, rfl, rfl, by rintro a b ⟨⟩, Or.inl rfl, Or.inr fun ws => Value.noConfusion⟩
  have hobj : source.asObject =
      obj [("0", obj [("b", ofNat 1), ("c", arr [ofNat 1, ofNat 2])])] := by
    have hzero : String.ofList (decimalDigits 0) = "0" := by rw [decimalDigits]; rfl
    rw [asObject, List.mapIdx_singleton, hzero]
  refine ⟨hs, ht, h, ?_, ?_⟩
  · refine ((merge_scalars_and_lists hs ht h _).1 _ rfl).2 (Or.inr ⟨by rw [hobj]; decide, ?_⟩)
    refine (goesAlong_iff (sameKind_asObject _ _)).1 ?_
    rw [hobj]
    simp [goesAlong_cons, child?, Entries.get?, sameKind, target, asObject]
  · exact (merge_scalars_and_lists hs ht h _).2 [ofNat 1, ofNat 2] [ofNat 3]
      (by rw [hobj]; decide) (by decide)

end SchemaExtraction.Value
