import SchemaExtraction.Proofs.Time.Reading
import SchemaExtraction.Value.Merge

/-!
# Texts that are combined one after the other

Each text of a chain is joined to what the texts before it gave, and what they gave is looked at
again: had it become a timestamp, it would win over the text. The only place where that can happen
is after the second text, for a timestamp has at most one space, the one between a date and a time
of day. From the third text on everything is kept.

Results:
* `dateLike_of_two_spaces`: a text with two spaces is not a timestamp.
* `merge_of_dateLike`, `merge_texts`: the combination of a timestamp with anything, and that of two
  texts.
* `foldl_merge_joined`: what is combined with a text that has a space is joined to it.
* `foldl_merge_texts`: the combination of two texts and more.
-/

namespace SchemaExtraction.Value

/-! ## Timestamps -/

theorem merge_null (v : Value) : merge null v = v := rfl

theorem dateLike_empty : (str "").dateLike = false := rfl

theorem truthy_of_dateLike {v : Value} (h : v.dateLike = true) : v.truthy = true := by
  cases v with
  | str s =>
    rw [truthy, bne_iff_ne]
    rintro rfl
    rw [dateLike_empty] at h
    cases h
  | _ => cases h

/-- A timestamp wins over whatever comes after it. -/
theorem merge_of_dateLike {source : Value} (h : source.dateLike = true) (target : Value) :
    merge source target = source := by
  unfold merge
  simp only [truthy_of_dateLike h, h, Bool.not_true, Bool.false_eq_true, if_false, if_true]
  split <;> rfl

/-- There is one space in a timestamp at the most. -/
theorem dateLike_of_two_spaces {s : String} (h : 2 ≤ s.toList.count ' ') :
    (str s).dateLike = false := by
  apply Bool.eq_false_iff.mpr
  intro hd
  have hcount := Time.count_space_of_readTimestamp hd
  omega

/-! ## Texts -/

/-- A text that is neither empty nor a number nor a timestamp. -/
structure IsPlainText (s : String) : Prop where
  ne_empty : s ≠ ""
  notNumber : (str s).toNumber? = none
  notDate : (str s).dateLike = false

instance (s : String) : Decidable (IsPlainText s) :=
  decidable_of_iff (s ≠ "" ∧ (str s).toNumber? = none ∧ (str s).dateLike = false)
    ⟨fun h => ⟨h.1, h.2.1, h.2.2⟩, fun h => ⟨h.ne_empty, h.notNumber, h.notDate⟩⟩

/-- A plain text is joined to a text that is not a timestamp. -/
theorem merge_texts {s t : String} (hs : s ≠ "") (hd : (str s).dateLike = false)
    (ht : IsPlainText t) : merge (str s) (str t) = str (s ++ " " ++ t) := by
  have htruthy {u : String} (hu : u ≠ "") : (str u).truthy = true := bne_iff_ne.mpr hu
  have hsum : sum? (str s) (str t) = none := by
    unfold sum?
    rw [ht.notNumber]
    cases (str s).toNumber? <;> rfl
  rw [merge_undated (htruthy hs) (htruthy ht.ne_empty) hd ht.notDate, hsum, Option.getD_none,
    combine, joinTexts, if_neg hs, if_neg ht.ne_empty]

theorem count_joined (s t : String) :
    (s ++ " " ++ t).toList.count ' ' = s.toList.count ' ' + 1 + t.toList.count ' ' := by
  simp [String.toList_append, List.count_append]
  omega

/-- Joining two texts first makes no difference to what all are joined to. -/
theorem intercalate_joined (s t : String) (rest : List String) :
    " ".intercalate ((s ++ " " ++ t) :: rest) = " ".intercalate (s :: t :: rest) := by
  rw [String.intercalate_cons_append, String.intercalate_cons_cons]

/-- Plain texts after a text with a space are all joined to it: with the next space it cannot
    become a timestamp. -/
theorem foldl_merge_joined {s : String} {rest : List String} (hs : 1 ≤ s.toList.count ' ')
    (hd : (str s).dateLike = false) (hr : ∀ u ∈ rest, IsPlainText u) :
    (rest.map str).foldl merge (str s) = str (" ".intercalate (s :: rest)) := by
  induction rest generalizing s with
  | nil => simp [String.intercalate_singleton]
  | cons t rest ih =>
    have hne : s ≠ "" := by
      rintro rfl
      simp at hs
    have hspaces := count_joined s t
    have hkeep : (str (s ++ " " ++ t)).dateLike = false := dateLike_of_two_spaces (by omega)
    rw [List.map_cons, List.foldl_cons, merge_texts hne hd (hr t List.mem_cons_self),
      ih (by omega) hkeep fun u hu => hr u (List.mem_cons_of_mem t hu), intercalate_joined]

/-- Nothing comes after a timestamp. -/
theorem foldl_merge_of_dateLike {v : Value} (h : v.dateLike = true) (rest : List Value) :
    rest.foldl merge v = v := by
  induction rest with
  | nil => rfl
  | cons w rest ih => rw [List.foldl_cons, merge_of_dateLike h, ih]

/-- Plain texts that are combined one after the other are joined by single spaces, all of them, in
    their order, unless the first two are the date and the time of day of a timestamp. -/
theorem foldl_merge_texts {s t : String} {rest : List String}
    (h : ∀ u ∈ s :: t :: rest, IsPlainText u) :
    ((s :: t :: rest).map str).foldl merge null =
      if (str (s ++ " " ++ t)).dateLike then str (s ++ " " ++ t)
      else str (" ".intercalate (s :: t :: rest)) := by
  have hs := h s List.mem_cons_self
  have ht := h t (List.mem_cons_of_mem s List.mem_cons_self)
  have hr : ∀ u ∈ rest, IsPlainText u := by
    intro u hu
    exact h u (List.mem_cons_of_mem s (List.mem_cons_of_mem t hu))
  rw [List.map_cons, List.foldl_cons, merge_null, List.map_cons, List.foldl_cons,
    merge_texts hs.ne_empty hs.notDate ht]
  split
  case isTrue hd => exact foldl_merge_of_dateLike hd _
  case isFalse hd =>
    have hspaces := count_joined s t
    rw [foldl_merge_joined (by omega) (Bool.eq_false_iff.mpr hd) hr, intercalate_joined]

/-- Three texts without a date among them. -/
theorem foldl_merge_texts_titles :
    (∀ u ∈ ["lorem", "ipsum dolor", "5 pages"], IsPlainText u) ∧
      (["lorem", "ipsum dolor", "5 pages"].map str).foldl merge null =
        str "lorem ipsum dolor 5 pages" :=
  ⟨by decide, (foldl_merge_texts (by decide)).trans (by decide)⟩

/-- A date and a time of day become a timestamp, and the text after them is gone. -/
theorem foldl_merge_loses_text :
    (∀ u ∈ ["2024-05-06", "07:08:09Z", "late"], IsPlainText u) ∧
      (["2024-05-06", "07:08:09Z", "late"].map str).foldl merge null =
        str "2024-05-06 07:08:09Z" ∧
      str "2024-05-06 07:08:09Z" ≠ str (" ".intercalate ["2024-05-06", "07:08:09Z", "late"]) := by
  decide

end SchemaExtraction.Value
