/-!
# Keyed entries

The fields of an object, a schema or a registry: a list of keys with their values in ascending
order of the keys. Every operation is a recursion on the list and keeps that order.

Results:
* `get?_insert`, `get?_erase`, `get?_insertAll`: what a key holds after a change.
* `ascending_insert`, `ascending_erase`: changes keep the keys in order.
* `foldl_erase`, `erase_insertAll`: removing several keys, and a key of entries that are joined.
* `get?_ofList`, `ofList_eq_self`: putting entries in order.
* `eq_of_get?_eq`: entries in order are determined by what each key holds.
-/

namespace SchemaExtraction.Entries

variable {α β : Type}

/-- What a key holds; the first entry counts. -/
def get? (key : String) : List (String × α) → Option α
  | [] => none
  | (k, v) :: es => if k = key then some v else get? key es

/-- Sets a key, at its place in the order. -/
def insert (key : String) (value : α) : List (String × α) → List (String × α)
  | [] => [(key, value)]
  | (k, v) :: es =>
    if key < k then (key, value) :: (k, v) :: es
    else if key = k then (key, value) :: es
    else (k, v) :: insert key value es

/-- Removes a key. -/
def erase (key : String) (es : List (String × α)) : List (String × α) :=
  es.filter fun e => e.1 ≠ key

/-- Sets the keys of `es` one after the other, so that the last value of a key stays. -/
def insertAll (dest es : List (String × α)) : List (String × α) :=
  es.foldl (fun acc e => insert e.1 e.2 acc) dest

/-- The entries of a list in key order; of several entries of a key the last one stays. -/
def ofList (es : List (String × α)) : List (String × α) := insertAll [] es

/-- The keys. -/
def keys (es : List (String × α)) : List String := es.map Prod.fst

/-- Whether the keys ascend strictly. -/
def Ascending (es : List (String × α)) : Prop := (keys es).Pairwise (· < ·)

instance (es : List (String × α)) : Decidable (Ascending es) :=
  inferInstanceAs (Decidable (List.Pairwise _ _))

/-! ## Looking up after a change -/

theorem get?_insert (key k : String) (value : α) (es : List (String × α)) :
    get? k (insert key value es) = if key = k then some value else get? k es := by
  induction es with
  | nil => simp [insert, get?]
  | cons e es ih =>
    obtain ⟨k', v'⟩ := e
    simp only [insert]
    split
    · simp [get?]
    · split
      · subst_vars; simp only [get?]; split <;> simp_all
      · simp only [get?, ih]; split <;> simp_all

/-- Looking a key up among the entries whose keys have a property. -/
theorem get?_filter (p : String → Bool) (k : String) (es : List (String × α)) :
    get? k (es.filter fun e => p e.1) = if p k then get? k es else none := by
  induction es with
  | nil => simp [get?]
  | cons e es ih =>
    by_cases hk : e.1 = k <;> cases hp : p e.1 <;> simp_all [get?]

theorem get?_erase (key k : String) (es : List (String × α)) :
    get? k (erase key es) = if key = k then none else get? k es := by
  rw [erase, get?_filter fun k => k ≠ key]
  by_cases h : key = k <;> simp [h, eq_comm]

theorem get?_append (k : String) (es fs : List (String × α)) :
    get? k (es ++ fs) = (get? k es).or (get? k fs) := by
  induction es with
  | nil => rfl
  | cons e es ih => by_cases h : e.1 = k <;> simp [get?, h, ih]

theorem mem_keys_iff (k : String) (es : List (String × α)) :
    k ∈ keys es ↔ (get? k es).isSome := by
  induction es with
  | nil => simp [keys, get?]
  | cons e es ih =>
    obtain ⟨k', v'⟩ := e
    simp only [keys, List.map_cons, List.mem_cons, get?] at ih ⊢
    by_cases h : k' = k
    · simp [h]
    · simp [h, ih, Ne.symm h]

theorem get?_eq_none {k : String} {es : List (String × α)} (h : k ∉ keys es) :
    get? k es = none := by
  rwa [mem_keys_iff, Option.not_isSome_iff_eq_none] at h

theorem mem_of_get? {k : String} {v : α} {es : List (String × α)} (h : get? k es = some v) :
    (k, v) ∈ es := by
  induction es with
  | nil => simp [get?] at h
  | cons e es ih =>
    obtain ⟨k', v'⟩ := e
    simp only [get?] at h
    split at h <;> simp_all

theorem get?_eq_of_mem {k : String} {v : α} {es : List (String × α)} (hd : (keys es).Nodup)
    (h : (k, v) ∈ es) : get? k es = some v := by
  induction es with
  | nil => simp at h
  | cons e es ih =>
    obtain ⟨k', v'⟩ := e
    simp only [keys, List.map_cons, List.nodup_cons] at hd
    rcases List.mem_cons.1 h with h | h
    · simp_all [get?]
    · have hk : k' ≠ k := by
        rintro rfl
        exact hd.1 (List.mem_map_of_mem h)
      simp only [get?, hk, if_false]
      exact ih hd.2 h

theorem get?_eq_some_iff {k : String} {v : α} {es : List (String × α)} (hd : (keys es).Nodup) :
    get? k es = some v ↔ (k, v) ∈ es :=
  ⟨mem_of_get?, get?_eq_of_mem hd⟩

/-! ## Order -/

theorem ascending_cons {e : String × α} {es : List (String × α)} :
    Ascending (e :: es) ↔ (∀ k ∈ keys es, e.1 < k) ∧ Ascending es := by
  simp [Ascending, keys]

theorem mem_keys_insert (key k : String) (value : α) (es : List (String × α)) :
    k ∈ keys (insert key value es) ↔ k = key ∨ k ∈ keys es := by
  rw [mem_keys_iff, mem_keys_iff, get?_insert]
  by_cases h : key = k
  · simp [h]
  · simp [h, Ne.symm h]

theorem ascending_insert (key : String) (value : α) {es : List (String × α)} (h : Ascending es) :
    Ascending (insert key value es) := by
  induction es with
  | nil => simp [insert, Ascending, keys]
  | cons e es ih =>
    obtain ⟨k', v'⟩ := e
    rw [ascending_cons] at h
    simp only [insert]
    split
    · rename_i hlt
      refine ascending_cons.2 ⟨fun k hk => ?_, ascending_cons.2 h⟩
      rcases List.mem_cons.1 hk with rfl | hk
      · exact hlt
      · exact String.lt_trans hlt (h.1 k hk)
    · split
      · subst_vars; exact ascending_cons.2 h
      · rename_i hlt hne
        refine ascending_cons.2 ⟨fun k hk => ?_, ih h.2⟩
        rcases (mem_keys_insert _ _ _ _).1 hk with rfl | hk
        · exact Std.lt_of_le_of_ne (String.not_lt.1 hlt) (Ne.symm hne)
        · exact h.1 k hk

theorem ascending_erase (key : String) {es : List (String × α)} (h : Ascending es) :
    Ascending (erase key es) :=
  List.Pairwise.sublist (List.filter_sublist.map _) h

theorem ascending_nil : Ascending ([] : List (String × α)) := List.Pairwise.nil

theorem ascending_insertAll {dest : List (String × α)} (h : Ascending dest)
    (es : List (String × α)) : Ascending (insertAll dest es) := by
  induction es generalizing dest with
  | nil => exact h
  | cons e es ih => exact ih (ascending_insert e.1 e.2 h)

theorem ascending_ofList (es : List (String × α)) : Ascending (ofList es) :=
  ascending_insertAll ascending_nil es

theorem nodup_keys {es : List (String × α)} (h : Ascending es) : (keys es).Nodup :=
  List.Pairwise.imp (fun {_ _} hlt => by rintro rfl; exact String.lt_irrefl _ hlt) h

/-- A key stands before one value only. -/
theorem eq_of_mem {k : String} {v w : α} {es : List (String × α)} (h : Ascending es)
    (hv : (k, v) ∈ es) (hw : (k, w) ∈ es) : v = w :=
  Option.some.inj ((get?_eq_of_mem (nodup_keys h) hv).symm.trans (get?_eq_of_mem (nodup_keys h) hw))

theorem mem_insert {e : String × α} {k : String} {v : α} {es : List (String × α)}
    (h : e ∈ insert k v es) : e = (k, v) ∨ e ∈ es := by
  induction es with
  | nil => simpa [insert] using h
  | cons e' es ih =>
    obtain ⟨k', v'⟩ := e'
    simp only [insert] at h
    split at h
    · simpa using h
    · split at h
      · rcases List.mem_cons.1 h with h | h
        · exact Or.inl h
        · exact Or.inr (List.mem_cons_of_mem _ h)
      · rcases List.mem_cons.1 h with h | h
        · exact Or.inr (by simp [h])
        · exact (ih h).imp_right (List.mem_cons_of_mem _)

theorem mem_insertAll {e : String × α} {dest es : List (String × α)} (h : e ∈ insertAll dest es) :
    e ∈ dest ∨ e ∈ es := by
  induction es generalizing dest with
  | nil => exact Or.inl h
  | cons e' es ih =>
    rcases ih h with h | h
    · rcases mem_insert h with rfl | h
      · exact Or.inr (by simp)
      · exact Or.inl h
    · exact Or.inr (List.mem_cons_of_mem _ h)

theorem mem_keys_insertAll (k : String) (dest es : List (String × α)) :
    k ∈ keys (insertAll dest es) ↔ k ∈ keys dest ∨ k ∈ keys es := by
  induction es generalizing dest with
  | nil => simp [insertAll, keys]
  | cons e es ih =>
    rw [insertAll, List.foldl_cons, ← insertAll, ih, mem_keys_insert]
    simp only [keys, List.map_cons, List.mem_cons]
    rw [or_assoc, or_left_comm]

theorem get?_eq_none_of_lt {k : String} {es : List (String × α)} (h : ∀ k' ∈ keys es, k < k') :
    get? k es = none :=
  get?_eq_none fun hk => String.lt_irrefl k (h k hk)

theorem eq_of_get?_eq {es fs : List (String × α)} (he : Ascending es) (hf : Ascending fs)
    (h : ∀ k, get? k es = get? k fs) : es = fs := by
  induction es generalizing fs with
  | nil =>
    cases fs with
    | nil => rfl
    | cons f fs => have := h f.1; simp [get?] at this
  | cons e es ih =>
    obtain ⟨k, v⟩ := e
    cases fs with
    | nil => have := h k; simp [get?] at this
    | cons f fs =>
      obtain ⟨k', v'⟩ := f
      rw [ascending_cons] at he hf
      have hk : k = k' := by
        have h1 : k ∈ keys ((k', v') :: fs) := by rw [mem_keys_iff, ← h k]; simp [get?]
        have h2 : k' ∈ keys ((k, v) :: es) := by rw [mem_keys_iff, h k']; simp [get?]
        simp only [keys, List.map_cons, List.mem_cons] at h1 h2
        rcases h1 with rfl | h1
        · rfl
        · rcases h2 with rfl | h2
          · rfl
          · exact absurd (he.1 k' h2) (String.lt_asymm (hf.1 k h1))
      subst hk
      have hv : v = v' := by have := h k; simpa [get?] using this
      subst hv
      rw [ih he.2 hf.2 fun j => ?_]
      by_cases hj : k = j
      · subst hj
        rw [get?_eq_none_of_lt he.1, get?_eq_none_of_lt hf.1]
      · have := h j
        simpa [get?, hj] using this

/-- The entries of the second list come first when a key is looked up. -/
theorem get?_insertAll_of_nodup (k : String) (dest : List (String × α)) {es : List (String × α)}
    (h : (keys es).Nodup) : get? k (insertAll dest es) = (get? k es).or (get? k dest) := by
  induction es generalizing dest with
  | nil => rfl
  | cons e es ih =>
    obtain ⟨k', v'⟩ := e
    obtain ⟨hk', hes⟩ := List.nodup_cons.1 h
    rw [insertAll, List.foldl_cons, ← insertAll, ih _ hes, get?_insert, get?]
    by_cases hk : k' = k
    · subst hk
      simp [get?_eq_none hk']
    · simp [hk]

theorem get?_insertAll (k : String) (dest : List (String × α)) {es : List (String × α)}
    (h : Ascending es) : get? k (insertAll dest es) = (get? k es).or (get? k dest) :=
  get?_insertAll_of_nodup k dest (nodup_keys h)

/-- Putting entries in order changes nothing for any key, as long as no key stands twice. -/
theorem get?_ofList (k : String) {es : List (String × α)} (h : (keys es).Nodup) :
    get? k (ofList es) = get? k es := by
  rw [ofList, get?_insertAll_of_nodup k [] h, get?, Option.or_none]

/-- Entries in order come from any list of them that has all their keys. -/
theorem ofList_eq_of_subset {es fs : List (String × α)} (he : (keys es).Nodup) (hf : Ascending fs)
    (hs : ∀ e ∈ es, e ∈ fs) (hk : ∀ k ∈ keys fs, k ∈ keys es) : ofList es = fs := by
  refine eq_of_get?_eq (ascending_ofList es) hf fun k => ?_
  rw [get?_ofList k he]
  cases h : get? k es with
  | some v => exact (get?_eq_of_mem (nodup_keys hf) (hs _ (mem_of_get? h))).symm
  | none =>
    refine (get?_eq_none fun hm => ?_).symm
    have := (mem_keys_iff k es).1 (hk k hm)
    simp [h] at this

theorem ofList_eq_self {es : List (String × α)} (h : Ascending es) : ofList es = es :=
  ofList_eq_of_subset (nodup_keys h) h (fun _ he => he) fun _ hk => hk

/-- Entries in order have the same keys when they have the same set of keys. -/
theorem keys_eq_of_mem_iff {es : List (String × α)} {fs : List (String × β)} (he : Ascending es)
    (hf : Ascending fs) (h : ∀ k, k ∈ keys es ↔ k ∈ keys fs) : keys es = keys fs := by
  refine List.Perm.eq_of_pairwise (fun a b _ _ hab hba => ?_) he hf
    ((List.perm_ext_iff_of_nodup (nodup_keys he) (nodup_keys hf)).2 h)
  exact absurd hab (String.lt_asymm hba)

/-- Setting the keys of entries that have all keys of `dest` leaves nothing of `dest`. -/
theorem insertAll_eq_right {dest es : List (String × α)} (hd : Ascending dest) (he : Ascending es)
    (h : ∀ k ∈ keys dest, k ∈ keys es) : insertAll dest es = es := by
  refine eq_of_get?_eq (ascending_insertAll hd es) he fun k => ?_
  rw [get?_insertAll k dest he]
  cases hk : get? k es with
  | some v => rfl
  | none =>
    have hn : k ∉ keys dest := fun hm => by simpa [mem_keys_iff, hk] using h k hm
    rw [mem_keys_iff, Option.not_isSome_iff_eq_none] at hn
    rw [hn, Option.or_none]

theorem erase_cons (key k : String) (v : α) (es : List (String × α)) :
    erase key ((k, v) :: es) = if k = key then erase key es else (k, v) :: erase key es := by
  rw [erase, List.filter_cons]
  by_cases h : k = key <;> simp [h, erase]

theorem erase_eq_self {k : String} {es : List (String × α)} (h : k ∉ keys es) :
    erase k es = es := by
  refine List.filter_eq_self.2 fun e he => ?_
  rw [decide_eq_true_eq]
  rintro rfl
  exact h (List.mem_map_of_mem he)

/-- Removing keys one after the other leaves the entries of all other keys. -/
theorem foldl_erase (ks : List String) (es : List (String × α)) :
    ks.foldl (fun es k => erase k es) es = es.filter fun e => e.1 ∉ ks := by
  induction ks generalizing es with
  | nil => exact (List.filter_eq_self.2 fun e _ => by simp).symm
  | cons k ks ih =>
    rw [List.foldl_cons, ih, erase, List.filter_filter]
    refine List.filter_congr fun e _ => ?_
    simp [Bool.and_comm]

theorem erase_insertAll (k : String) {dest es : List (String × α)} (hd : Ascending dest)
    (he : Ascending es) : erase k (insertAll dest es) = insertAll (erase k dest) (erase k es) := by
  refine eq_of_get?_eq (ascending_erase k (ascending_insertAll hd es))
    (ascending_insertAll (ascending_erase k hd) _) fun j => ?_
  rw [get?_erase, get?_insertAll j dest he, get?_insertAll j _ (ascending_erase k he), get?_erase,
    get?_erase]
  split <;> rfl

theorem insert_insert (k : String) (v w : α) (es : List (String × α)) :
    insert k v (insert k w es) = insert k v es := by
  induction es with
  | nil => simp [insert]
  | cons e es ih =>
    obtain ⟨k', v'⟩ := e
    simp only [insert]
    split
    · simp [insert]
    · split
      · simp [insert]
      · simp [insert, *]

end SchemaExtraction.Entries
