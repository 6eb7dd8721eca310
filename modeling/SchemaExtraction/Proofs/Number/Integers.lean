import SchemaExtraction.Proofs.Number.Rounding
import SchemaExtraction.Value.Coercion

/-!
# Integers as floating-point numbers

An integer becomes the floating-point number that holds the integer nearest to it, whether it is
given as a number or as its digits. Floating-point numbers that are integers are added like
integers, the sum being rounded, and come back as integers.

Results:
* `Binary64.isInteger_ofInt`, `Binary64.exists_add?`: integers, and their sums.
* `NumberText.readFinite_write`: the digits of an integer are read as the integer.
* `Number.isInteger_ofBinary64`: a floating-point number that is an integer as a number.
-/

namespace SchemaExtraction

-- powers are those of the core library, whatever else is imported
attribute [local instance (high)] instPowNat

namespace Binary64

/-- A number is exactly an integer. -/
def IsInteger (x : Binary64) (i : Int) : Prop := x.units = i * unity

theorem unity_pos : 0 < unity := Nat.two_pow_pos unitBits

theorem IsInteger.unique {x : Binary64} {i j : Int} (hi : x.IsInteger i) (hj : x.IsInteger j) :
    i = j := by
  have hunity : (unity : Int) ≠ 0 := Int.natCast_ne_zero.2 (Nat.ne_of_gt unity_pos)
  exact Int.eq_of_mul_eq_mul_right hunity (hi.symm.trans hj)

theorem mul_unity_neg_iff (i : Int) : i * unity < 0 ↔ i < 0 := by
  have hunity : (0 : Int) < unity := Int.natCast_pos.2 unity_pos
  constructor
  · intro hneg
    apply Int.not_le.1
    intro hpos
    have := Int.mul_nonneg hpos (Int.le_of_lt hunity)
    omega
  · exact fun hneg => Int.mul_neg_of_neg_of_pos hneg hunity

theorem nearest_mul_unity (k : Nat) : nearest (k * unity) 1 = nearest k 1 * unity :=
  nearest_mul_two_pow k unitBits

/-- A rounded magnitude with the sign of an integer. -/
theorem isInteger_rounded {x : Binary64} {i : Int} (hm : x.magnitude = nearest (i.natAbs * unity) 1)
    (hs : i ≠ 0 → x.negative = decide (i < 0)) : x.IsInteger (rounded i) := by
  rw [nearest_mul_unity] at hm
  rw [IsInteger, units, hm, rounded]
  by_cases hi : i = 0
  · subst hi
    have hzero : nearest (0 : Int).natAbs 1 = 0 := by decide
    simp only [hzero, Nat.zero_mul, Int.natCast_zero, Int.neg_zero, ite_self, Int.zero_mul]
  · rw [hs hi]
    by_cases hneg : i < 0
    · simp only [hneg, decide_true, if_true, Int.neg_mul, Int.natCast_mul]
    · simp only [hneg, decide_false, Bool.false_eq_true, if_false, Int.natCast_mul]

/-- The number next to an integer is the integer that it is rounded to. -/
theorem isInteger_ofInt (i : Int) (h : i.natAbs < 0x10000000000000000) :
    (ofInt i h).IsInteger (rounded i) :=
  isInteger_rounded rfl fun _ => rfl

theorem magnitude_of_isInteger {x : Binary64} {i : Int} (h : x.IsInteger i) :
    x.magnitude = i.natAbs * unity := by
  have hu : x.magnitude = x.units.natAbs := by
    unfold units
    split <;> simp
  rw [hu, h, Int.natAbs_mul, Int.natAbs_natCast]

theorem isZero_of_isInteger {x : Binary64} {i : Int} (h : x.IsInteger i) :
    x.isZero = true ↔ i = 0 := by
  rw [isZero, beq_iff_eq, magnitude_of_isInteger h, Nat.mul_eq_zero]
  have := unity_pos
  omega

theorem nearest_mul_unity_lt {k : Nat} (hk : k < 0x10000000000000000) :
    nearest (k * unity) 1 < overflow := by
  have hle : nearest k 1 ≤ 2 ^ (64 : Nat) := nearest_le_two_pow (by decide) (by rwa [Nat.div_one])
  have hunits : 2 ^ (64 : Nat) * unity = 2 ^ (64 + unitBits) := by rw [Nat.pow_add, unity]
  rw [nearest_mul_unity]
  calc nearest k 1 * unity ≤ 2 ^ (64 : Nat) * unity := Nat.mul_le_mul_right _ hle
    _ = 2 ^ (64 + unitBits) := hunits
    _ < overflow := Nat.pow_lt_pow_right (by decide) (by decide)

/-- A sum of integers is rounded to an integer. -/
theorem exists_add? {x y : Binary64} {i j : Int} (hx : x.IsInteger i) (hy : y.IsInteger j)
    (h : (i + j).natAbs < 0x10000000000000000) :
    ∃ z, x.add? y = some z ∧ z.IsInteger (rounded (i + j)) := by
  have hsum : x.units + y.units = (i + j) * unity := by rw [hx, hy, Int.add_mul]
  have hunity := unity_pos
  have habs : ((i + j) * unity).natAbs = (i + j).natAbs * unity := by
    rw [Int.natAbs_mul, Int.natAbs_natCast]
  have hlt : nearest ((i + j) * unity).natAbs 1 < overflow := by
    rw [habs]
    exact nearest_mul_unity_lt h
  rw [add?, hsum, ofUnits?, dif_pos hlt]
  refine ⟨_, rfl, isInteger_rounded (congrArg (nearest · 1) habs) fun hne => ?_⟩
  have hnonzero : (i + j) * (unity : Int) ≠ 0 := Int.mul_ne_zero hne (by omega)
  simp only [if_neg hnonzero, mul_unity_neg_iff]

theorem isIntegral_of_isInteger {x : Binary64} {i : Int} (h : x.IsInteger i) :
    x.isIntegral = true := by
  rw [isIntegral, magnitude_of_isInteger h, Nat.mul_mod_left]
  rfl

theorem truncate_of_isInteger {x : Binary64} {i : Int} (h : x.IsInteger i) : x.truncate = i := by
  rw [truncate, h]
  exact Int.mul_tdiv_cancel i (Int.natCast_ne_zero.2 (Nat.ne_of_gt unity_pos))

end Binary64

namespace WordInt

theorem isInteger_toBinary64 (n : WordInt) : n.toBinary64.IsInteger (Binary64.rounded n.val) :=
  Binary64.isInteger_ofInt n.val n.natAbs_lt

theorem val_clamp {i : Int} (h : minSigned ≤ i ∧ i ≤ maxSigned) : (clamp i).val = i := by
  change max minSigned (min maxSigned i) = i
  omega

end WordInt

namespace Number

/-- A number is exactly an integer. -/
def IsInteger : Number → Int → Prop
  | int n, i => n.val = i
  | float x, i => x.IsInteger i

theorem IsInteger.unique {q : Number} {i j : Int} (hi : q.IsInteger i) (hj : q.IsInteger j) :
    i = j := by
  cases q with
  | int n => exact hi.symm.trans hj
  | float x => exact Binary64.IsInteger.unique hi hj

/-- Integers of 64 bits with a sign come back as integers, and `2⁶³` as the largest of them. -/
theorem ofBinary64_eq_int {x : Binary64} {i : Int} (h : x.IsInteger i)
    (hi : WordInt.minSigned ≤ i ∧ i ≤ WordInt.maxSigned + 1) :
    ofBinary64 x = int (WordInt.clamp i) := by
  rw [ofBinary64, Binary64.truncate_of_isInteger h,
    if_pos ⟨Binary64.isIntegral_of_isInteger h, hi⟩]

/-- An integer comes back as itself, but for the first one that is too large for 64 bits with a
    sign. -/
theorem isInteger_ofBinary64 {x : Binary64} {i : Int} (h : x.IsInteger i)
    (hi : i ≠ WordInt.maxSigned + 1) : (ofBinary64 x).IsInteger i := by
  by_cases hrange : WordInt.minSigned ≤ i ∧ i ≤ WordInt.maxSigned + 1
  · rw [ofBinary64_eq_int h hrange]
    exact WordInt.val_clamp (by omega)
  · rw [ofBinary64, Binary64.truncate_of_isInteger h, if_neg fun hc => hrange hc.2]
    exact h

end Number

/-! ## Digits -/

theorem Decimal.digitCount_le {k : Nat} (hk : k < 0x10000000000000000) : digitCount k ≤ 20 := by
  have hlog : k.log2 ≤ 63 := log2_le_of_lt hk
  unfold digitCount
  dsimp only
  split
  · omega
  · split
    · omega
    · split <;> omega

/-- A natural number of at most 64 bits as a decimal. -/
theorem Binary64.ofDecimal?_natural {k : Nat} (hk : k < 0x10000000000000000) {x : Binary64}
    (hx : x.magnitude = nearest (k * unity) 1) : ofDecimal? x.negative ⟨k, 0⟩ = some x := by
  obtain ⟨negative, magnitude, hm⟩ := x
  dsimp only at hx ⊢
  by_cases h0 : k = 0
  · have hzero : nearest 0 1 = 0 := by decide
    rw [h0, Nat.zero_mul, hzero] at hx
    subst hx h0
    rw [ofDecimal?, if_pos (Or.inl rfl), zero]
  · subst hx
    have hcount := Decimal.digitCount_le hk
    have hratio : Decimal.ratio ⟨k, 0⟩ = (k * 10 ^ (0 : Nat) * unity, 10 ^ (0 : Nat)) := rfl
    rw [Nat.pow_zero, Nat.mul_one] at hratio
    rw [ofDecimal?, if_neg (by simp only [h0, false_or]; omega),
      if_neg (by dsimp only; omega), hratio, ofUnits?,
      dif_pos (nearest_mul_unity_lt hk)]

namespace NumberText

theorem takeMantissa_of_isDigit {ds : List Char} (h : ∀ c ∈ ds, c.isDigit = true) :
    takeMantissa ds = (ds, [], []) := by
  have htake : (ds ++ []).takeWhile Char.isDigit = ds ++ [] := List.takeWhile_append_of_pos h
  have hdrop : (ds ++ []).dropWhile Char.isDigit = [] := List.dropWhile_append_of_pos h
  rw [List.append_nil] at htake hdrop
  rw [takeMantissa, htake, hdrop]

/-- The digits of a natural number of at most 64 bits. -/
theorem readMagnitude_decimalDigits {k : Nat} (hk : k < 0x10000000000000000) {x : Binary64}
    (hx : x.magnitude = nearest (k * unity) 1) :
    readMagnitude x.negative (decimalDigits k) = some (finite x) := by
  have hmantissa := takeMantissa_of_isDigit fun c (h : c ∈ decimalDigits k) =>
    isDigit_of_mem_decimalDigits h
  have hne : (decimalDigits k).isEmpty = false := by
    simpa using decimalDigits_ne_nil k
  rw [readMagnitude, hmantissa]
  dsimp only
  rw [hne, List.append_nil, digitsValue_decimalDigits]
  simp only [Bool.false_and, Bool.false_eq_true, if_false, readExponent, List.length_nil]
  have hread := Binary64.ofDecimal?_natural hk hx
  change some (((Binary64.ofDecimal? x.negative ⟨k, 0⟩).map finite).getD notFinite) = _
  rw [hread]
  rfl

theorem toLower_of_isDigit {c : Char} (h : c.isDigit = true) : c.toLower = c := by
  have hdigit := Text.toNat_of_isDigit h
  unfold Char.toLower
  split
  case isTrue hupper =>
    have : 65 ≤ c.toNat := UInt32.le_iff_toNat_le.1 hupper.1
    omega
  case isFalse => rfl

/-- The words for numbers that are not finite start with letters. -/
theorem not_wordNotFinite {c : Char} (h : c.isDigit = true) (cs : List Char) :
    wordsNotFinite.any (·.toList == (c :: cs).map Char.toLower) = false := by
  have hletters : wordsNotFinite.all (fun word => word.toList.all fun d => !d.isDigit) = true := by
    decide
  rw [List.map_cons, toLower_of_isDigit h, List.any_eq_false]
  intro word hword heq
  have hword := List.all_eq_true.1 hletters word hword
  rw [beq_iff_eq.1 heq, List.all_cons, h] at hword
  cases hword

theorem takeSign_of_isDigit {c : Char} (h : c.isDigit = true) (cs : List Char) :
    takeSign (c :: cs) = (false, c :: cs) := by
  unfold takeSign
  split
  case h_1 heq => cases heq; cases h
  case h_2 heq => cases heq; cases h
  case h_3 => rfl

/-- What is written for an integer is read as the number next to it. -/
theorem readFinite_write (n : WordInt) : readFinite n.write = some n.toBinary64 := by
  obtain ⟨d, ds, hdigits⟩ := List.exists_cons_of_ne_nil (decimalDigits_ne_nil n.val.natAbs)
  have hd : d.isDigit = true := isDigit_of_mem_decimalDigits (n := n.val.natAbs) (by simp [hdigits])
  have hread := readMagnitude_decimalDigits n.natAbs_lt (x := n.toBinary64) rfl
  have hsign : n.toBinary64.negative = decide (n.val < 0) := rfl
  have hword := not_wordNotFinite hd ds
  have htake : takeSign n.write = (decide (n.val < 0), d :: ds) := by
    rw [WordInt.write, hdigits]
    split
    case isTrue hneg => simp [takeSign, hneg]
    case isFalse hpos => rw [takeSign_of_isDigit hd, decide_eq_false hpos]
  rw [hsign, hdigits] at hread
  rw [readFinite, read, htake]
  dsimp only
  rw [hword, if_neg (by decide), hread]

end NumberText
end SchemaExtraction
