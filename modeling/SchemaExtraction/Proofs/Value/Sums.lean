import SchemaExtraction.Proofs.Number.Integers
import SchemaExtraction.Value.Merge

/-!
# Sums of integers

Numbers are added as floating-point numbers, integers too: each of them is rounded first, and the
sum after. An integer of 64 bits with a sign comes out of it if the exact sum is one, and it is the
exact sum wherever nothing is rounded.

Results:
* `merge_int`: the combination of two integers by way of floating-point numbers.
* `Binary64.Rounds.natAbs_le`: the rounded sum stays in the range of the exact one.
* `merge_integers`: which integer the combination is.
-/

namespace SchemaExtraction

open Binary64 (Holds Rounds rounded rounds_rounded)

namespace Value

/-- Integers other than zero are added as floating-point numbers. -/
theorem merge_int {a b : WordInt} (ha : a.val ≠ 0) (hb : b.val ≠ 0) :
    merge (num (.int a)) (num (.int b)) =
      ofBinary64? (a.toBinary64.add? b.toBinary64) := by
  have hzero {n : WordInt} (hn : n.val ≠ 0) : n.toBinary64.isZero = false := by
    rw [Bool.eq_false_iff, ne_eq, Binary64.isZero_of_isInteger n.isInteger_toBinary64]
    exact (rounds_rounded n.val).ne_zero hn
  have htruthy {n : WordInt} (hn : n.val ≠ 0) : (num (.int n)).truthy = true := by
    simpa [truthy] using hn
  have hsum : sum? (num (.int a)) (num (.int b)) =
      some (ofBinary64? (a.toBinary64.add? b.toBinary64)) := by
    simp [sum?, toNumber?, Number.toBinary64, hzero ha, hzero hb]
  rw [merge_undated (htruthy ha) (htruthy hb) rfl rfl, hsum, Option.getD_some]

end Value

/-- Two integers of 64 bits with a sign are moved by 512 at most when they are rounded. -/
theorem Binary64.Rounds.natAbs_add_sub_le {a b a' b' : Int} (ha : Rounds a a') (hb : Rounds b b')
    (hawide : a.natAbs ≤ 0x8000000000000000) (hbwide : b.natAbs ≤ 0x8000000000000000) :
    (a' + b' - (a + b)).natAbs ≤ 1024 := by
  have hadist := ha.two_mul_dist_le (e := 10) hawide
  have hbdist := hb.two_mul_dist_le (e := 10) hbwide
  omega

/-- That is not enough for the first number beyond `2⁶³`. -/
theorem Binary64.Rounds.natAbs_le {i j m : Int} (h : Rounds j m)
    (hi : i.natAbs ≤ 0x8000000000000000) (hdist : (j - i).natAbs ≤ 1024) :
    m.natAbs ≤ 0x8000000000000000 := by
  have habove := h.le_two_pow (e := 10) (by omega)
  have hbelow := h.neg.le_two_pow (e := 10) (by omega)
  omega

namespace Value

/-- Two integers that are not zero and whose sum has 64 bits with a sign are combined to an integer.
    Each of them is rounded, and so is the sum of what they are rounded to. The first integer beyond
    64 bits with a sign aside, that is the result; it is the sum of the integers if binary64 holds
    them and their sum. -/
theorem merge_integers {a b : WordInt} (ha : a.val ≠ 0) (hb : b.val ≠ 0)
    (hasigned : a.val ≤ WordInt.maxSigned) (hbsigned : b.val ≤ WordInt.maxSigned)
    (hsum : WordInt.minSigned ≤ a.val + b.val ∧ a.val + b.val ≤ WordInt.maxSigned) :
    ∃ a' b' c n, Rounds a.val a' ∧ Rounds b.val b' ∧ Rounds (a' + b') c ∧
      merge (num (.int a)) (num (.int b)) = num (.int n) ∧
      (c ≠ WordInt.maxSigned + 1 → n.val = c) ∧
      (Holds a.val → Holds b.val → Holds (a.val + b.val) → n.val = a.val + b.val) := by
  have habounds := a.bounds
  have hbbounds := b.bounds
  unfold WordInt.minSigned at hsum
  unfold WordInt.maxSigned at *
  have hawide : a.val.natAbs ≤ 0x8000000000000000 := by omega
  have hbwide : b.val.natAbs ≤ 0x8000000000000000 := by omega
  have hra := rounds_rounded a.val
  have hrb := rounds_rounded b.val
  have hrc := rounds_rounded (rounded a.val + rounded b.val)
  have hdist := hra.natAbs_add_sub_le hrb hawide hbwide
  have hc := hrc.natAbs_le (by omega) hdist
  obtain ⟨x, hadd, hx⟩ := Binary64.exists_add? a.isInteger_toBinary64 b.isInteger_toBinary64
    (by omega)
  have hrange : WordInt.minSigned ≤ rounded (rounded a.val + rounded b.val) ∧
      rounded (rounded a.val + rounded b.val) ≤ WordInt.maxSigned + 1 := by
    unfold WordInt.minSigned WordInt.maxSigned
    omega
  refine ⟨_, _, _, WordInt.clamp (rounded (rounded a.val + rounded b.val)), hra, hrb, hrc,
    ?_, ?_, ?_⟩
  · rw [merge_int ha hb, hadd, ofBinary64?, ofBinary64, Number.ofBinary64_eq_int hx hrange]
  · intro hne
    have hlt := Int.lt_iff_le_and_ne.2 ⟨hrange.2, hne⟩
    exact WordInt.val_clamp ⟨hrange.1, Int.le_of_lt_add_one hlt⟩
  · intro hha hhb hhc
    rw [Binary64.rounded_of_holds hha, Binary64.rounded_of_holds hhb, Binary64.rounded_of_holds hhc]
    exact WordInt.val_clamp hsum

/-- A large sum is exact where binary64 holds all three numbers. -/
theorem merge_integers_large :
    let a : WordInt := ⟨4611686018427387904, by decide⟩
    let b : WordInt := ⟨4611686018427386880, by decide⟩
    a.val ≠ 0 ∧ b.val ≠ 0 ∧ a.val ≤ WordInt.maxSigned ∧ b.val ≤ WordInt.maxSigned ∧
      (WordInt.minSigned ≤ a.val + b.val ∧ a.val + b.val ≤ WordInt.maxSigned) ∧
      ∃ n, merge (num (.int a)) (num (.int b)) = num (.int n) ∧ n.val = 9223372036854774784 := by
  intro a b
  have ha : a.val ≠ 0 := by decide
  have hb : b.val ≠ 0 := by decide
  have hasigned : a.val ≤ WordInt.maxSigned := by decide
  have hbsigned : b.val ≤ WordInt.maxSigned := by decide
  have hsum : WordInt.minSigned ≤ a.val + b.val ∧ a.val + b.val ≤ WordInt.maxSigned := by decide
  obtain ⟨_, _, _, n, -, -, -, hmerge, -, hexact⟩ := merge_integers ha hb hasigned hbsigned hsum
  exact ⟨ha, hb, hasigned, hbsigned, hsum, n, hmerge, hexact (by decide) (by decide) (by decide)⟩

/-- One more than `2⁵³` is rounded down, and then so is its sum with one. -/
theorem merge_loses_units :
    let a : WordInt := ⟨9007199254740993, by decide⟩
    let b : WordInt := ⟨1, by decide⟩
    a.val ≠ 0 ∧ b.val ≠ 0 ∧ a.val ≤ WordInt.maxSigned ∧ b.val ≤ WordInt.maxSigned ∧
      (WordInt.minSigned ≤ a.val + b.val ∧ a.val + b.val ≤ WordInt.maxSigned) ∧
      merge (num (.int a)) (num (.int b)) = num (.int ⟨9007199254740992, by decide⟩) ∧
      a.val + b.val ≠ 9007199254740992 := by
  decide +kernel

end Value
end SchemaExtraction
