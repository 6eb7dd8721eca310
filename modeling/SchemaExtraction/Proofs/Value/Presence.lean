import SchemaExtraction.Proofs.Number.Integers
import SchemaExtraction.Proofs.Value.Joining

/-!
# What becomes of two present values

Two values that count as present are combined to something, with one exception: numbers, or texts
that mean numbers, whose sum is too large to be rounded to a number in range. Such a sum is null.

Results:
* `Binary64.add?_eq_none_iff`: the sums that are out of range.
* `Value.toNumber?_of_dateLike`: a timestamp does not mean a number.
* `Value.merge_eq_null_iff`: the values that count as present and are combined to null.
-/

namespace SchemaExtraction

-- powers are those of the core library, whatever else is imported
attribute [local instance (high)] instPowNat

/-! ## Sums out of range -/

namespace Binary64

/-- The least exact sum that is rounded out of range: `2¹⁰²⁴ - 2⁹⁷⁰`, in units of `2⁻¹⁰⁷⁴`. It lies
    half a step below the first magnitude out of range. -/
def overflowThreshold : Nat := overflow - 2 ^ (unitBits + 970)

theorem overflow_eq : overflow = 2 ^ (54 + (unitBits + 970)) := by
  have h : unitBits + 1024 = 54 + (unitBits + 970) := by omega
  exact congrArg (2 ^ ·) h

theorem nearest_lt_overflow_iff (k : Nat) : nearest k 1 < overflow ↔ k < overflowThreshold := by
  have h := nearest_lt_two_pow_iff k (unitBits + 970)
  rw [← overflow_eq] at h
  exact h

/-- There is no sum in range if and only if the exact sum is at least the threshold. -/
theorem add?_eq_none_iff (x y : Binary64) :
    x.add? y = none ↔ overflowThreshold ≤ (x.units + y.units).natAbs := by
  rw [← Nat.not_lt, ← nearest_lt_overflow_iff, add?, ofUnits?]
  split
  case isTrue h => simp [h]
  case isFalse h => simp [h]

theorem natAbs_units (x : Binary64) : x.units.natAbs = x.magnitude := by
  unfold units
  split <;> simp

/-- No number reaches the threshold by itself. -/
theorem magnitude_lt_overflowThreshold (x : Binary64) : x.magnitude < overflowThreshold := by
  have hholds : Holds x.magnitude := (holds_iff _).2 x.isMagnitude.2
  rw [← nearest_lt_overflow_iff, nearest_of_holds hholds]
  exact x.isMagnitude.1

/-- So neither part of a sum out of range is zero. -/
theorem isZero_eq_false {x y : Binary64} (h : overflowThreshold ≤ (x.units + y.units).natAbs) :
    x.isZero = false ∧ y.isZero = false := by
  have hx := natAbs_units x
  have hy := natAbs_units y
  have hxlt := x.magnitude_lt_overflowThreshold
  have hylt := y.magnitude_lt_overflowThreshold
  simp only [isZero, beq_eq_false_iff_ne]
  omega

end Binary64

/-! ## Timestamps are no numbers -/

/-- Digits with a hyphen after them are not the text of a number. -/
theorem NumberText.readFinite_dashed {d : Char} {ds : List Char}
    (hd : ∀ c ∈ d :: ds, c.isDigit = true) (rest : List Char) :
    readFinite (d :: ds ++ '-' :: rest) = none := by
  have hfirst := hd d List.mem_cons_self
  have htake : (d :: ds ++ '-' :: rest).takeWhile Char.isDigit = d :: ds := by
    rw [List.takeWhile_append_of_pos hd, List.takeWhile_cons_of_neg (by decide), List.append_nil]
  have hdrop : (d :: ds ++ '-' :: rest).dropWhile Char.isDigit = '-' :: rest := by
    rw [List.dropWhile_append_of_pos hd, List.dropWhile_cons_of_neg (by decide)]
  have hmantissa : takeMantissa (d :: ds ++ '-' :: rest) = (d :: ds, [], '-' :: rest) := by
    rw [takeMantissa, htake, hdrop]
    rfl
  have hmagnitude : readMagnitude false (d :: ds ++ '-' :: rest) = none := by
    rw [readMagnitude, hmantissa]
    rfl
  rw [readFinite, read, List.cons_append, takeSign_of_isDigit hfirst]
  dsimp only
  rw [not_wordNotFinite hfirst, if_neg (by decide), ← List.cons_append, hmagnitude]

namespace Value

theorem toNumber?_of_dateLike {v : Value} (h : v.dateLike = true) : v.toNumber? = none := by
  cases v with
  | str s =>
    obtain ⟨d, ds, rest, hs, hd⟩ := Time.exists_year_of_readTimestamp h
    have htrim : Text.trim s.toList = d :: ds ++ '-' :: Text.dropEndWhile Text.isBlank rest := by
      have hblank := Text.isBlank_of_isDigit (hd d List.mem_cons_self)
      rw [hs, Text.trim, List.cons_append, List.dropWhile_cons_of_neg (by simp [hblank]),
        ← List.cons_append, Text.dropEndWhile_append_cons (by decide)]
    rw [toNumber?, htrim]
    exact NumberText.readFinite_dashed hd _
  | _ => cases h

/-! ## Combinations -/

theorem ne_null_of_truthy {v : Value} (h : v.truthy = true) : v ≠ null := by
  rintro rfl
  cases h

theorem combine_ne_null (source target : Value) : combine source target ≠ null := by
  unfold combine
  split <;> simp [deepMerge]

theorem ofBinary64?_eq_null_iff (x : Option Binary64) : ofBinary64? x = null ↔ x = none := by
  cases x <;> simp [ofBinary64?, ofBinary64]

/-- The sum of two values is null if and only if both mean numbers and the sum of these is out of
    range. -/
theorem sum?_eq_some_null_iff (source target : Value) :
    sum? source target = some null ↔
      ∃ a b, source.toNumber? = some a ∧ target.toNumber? = some b ∧
        Binary64.overflowThreshold ≤ (a.units + b.units).natAbs := by
  unfold sum?
  split
  case h_1 a b ha hb =>
    rw [ha, hb]
    constructor
    · intro h
      split at h
      case isTrue =>
        have hnone := (ofBinary64?_eq_null_iff _).1 (Option.some.inj h)
        exact ⟨a, b, rfl, rfl, (Binary64.add?_eq_none_iff a b).1 hnone⟩
      case isFalse => cases h
    · rintro ⟨_, _, ⟨⟩, ⟨⟩, h⟩
      obtain ⟨hazero, hbzero⟩ := Binary64.isZero_eq_false h
      rw [hazero, hbzero, (Binary64.add?_eq_none_iff a b).2 h]
      rfl
  case h_2 hnone =>
    constructor
    · rintro ⟨⟩
    · rintro ⟨a, b, ha, hb, -⟩
      exact (hnone a b ha hb).elim

/-- Two values that count as present are combined to null if and only if both mean numbers whose sum
    is out of range. -/
theorem merge_eq_null_iff {source target : Value} (hs : source.truthy = true)
    (ht : target.truthy = true) :
    merge source target = null ↔
      ∃ a b, source.toNumber? = some a ∧ target.toNumber? = some b ∧
        Binary64.overflowThreshold ≤ (a.units + b.units).natAbs := by
  cases hd : source.dateLike with
  | true =>
    rw [merge_of_dateLike hd]
    refine iff_of_false (ne_null_of_truthy hs) ?_
    rintro ⟨a, b, ha, -⟩
    rw [toNumber?_of_dateLike hd] at ha
    cases ha
  | false =>
    cases hd' : target.dateLike with
    | true =>
      rw [merge_dated hs ht hd hd']
      refine iff_of_false (ne_null_of_truthy ht) ?_
      rintro ⟨a, b, -, hb, -⟩
      rw [toNumber?_of_dateLike hd'] at hb
      cases hb
    | false =>
      rw [merge_undated hs ht hd hd', ← sum?_eq_some_null_iff]
      cases sum? source target with
      | none => simp [combine_ne_null]
      | some sum => simp

/-- The largest number is combined to null with half a step, `2⁹⁷⁰`, but not with half of that. -/
theorem merge_eq_null_iff_largest :
    let largest := num (.float ⟨false, overflow - 2 ^ (unitBits + 971), by decide +kernel⟩)
    let half := num (.float ⟨false, 2 ^ (unitBits + 970), by decide +kernel⟩)
    let quarter := num (.float ⟨false, 2 ^ (unitBits + 969), by decide +kernel⟩)
    largest.truthy = true ∧ half.truthy = true ∧ quarter.truthy = true ∧
      merge largest half = null ∧ merge largest quarter ≠ null := by
  intro largest half quarter
  have hl : largest.truthy = true := by decide +kernel
  have hh : half.truthy = true := by decide +kernel
  have hq : quarter.truthy = true := by decide +kernel
  refine ⟨hl, hh, hq, (merge_eq_null_iff hl hh).2 ⟨_, _, rfl, rfl, by decide +kernel⟩, fun h => ?_⟩
  obtain ⟨_, _, ⟨⟩, ⟨⟩, hout⟩ := (merge_eq_null_iff hl hq).1 h
  exact absurd hout (by decide +kernel)

/-- Two texts that mean large numbers, both present, leave nothing. -/
theorem merge_loses_sum :
    (str "1e308").truthy = true ∧ merge (str "1e308") (str "1e308") = null := by
  decide +kernel

end Value
end SchemaExtraction
