import SchemaExtraction.Number.Binary64

/-!
# Rounded integers

Among the integers, binary64 holds those of at most 53 significant bits. An integer is rounded to
the nearest one of them, in a tie to the even neighbour.

Results:
* `Binary64.holds_iff`: the decision procedure for what binary64 holds.
* `Binary64.Rounds.unique`: an integer is rounded to one number only.
* `Binary64.rounds_rounded`: what the library rounds an integer to.
* `Binary64.Rounds.lt_two_pow_iff`: what is rounded to less than a power of two.
* `nearest_lt_two_pow_iff`: what the library rounds to less than a power of two.
* `nearest_mul_two_pow`: rounding does not depend on the unit.
-/

namespace SchemaExtraction

-- powers are those of the core library, whatever else is imported
attribute [local instance (high)] instPowNat

theorem two_pow_le_of_excessBits {k : Nat} (hs : excessBits k ≠ 0) :
    2 ^ (52 + excessBits k) ≤ k := by
  have hlog : 52 + excessBits k = k.log2 := by
    unfold excessBits at hs ⊢
    omega
  rw [hlog]
  refine Nat.log2_self_le ?_
  rintro rfl
  exact hs rfl

/-! ## What binary64 holds -/

namespace Binary64

/-- The integers of at most 53 significant bits. -/
def Holds (i : Int) : Prop := ∃ c e : Nat, c < 2 ^ (53 : Nat) ∧ i.natAbs = c * 2 ^ e

/-- Rounding an integer to the nearest number that binary64 holds, in a tie to the even one. -/
structure Rounds (i m : Int) : Prop where
  holds : Holds m
  nearest : ∀ k, Holds k → (i - m).natAbs ≤ (i - k).natAbs
  /-- in a tie the number is an even multiple of the distance to the other one -/
  even : ∀ k, Holds k → k ≠ m → (i - k).natAbs = (i - m).natAbs → 2 * (k - m) ∣ m

theorem Holds.neg {i : Int} (h : Holds i) : Holds (-i) := by
  rwa [Holds, Int.natAbs_neg]

theorem holds_of_lt {i : Int} (h : i.natAbs < 2 ^ (53 : Nat)) : Holds i :=
  ⟨i.natAbs, 0, h, by simp⟩

/-- A coefficient may have one bit more if it is a power of two. -/
theorem holds_mul_two_pow {c : Nat} (hc : c ≤ 2 ^ (53 : Nat)) (e : Nat) :
    Holds (c * 2 ^ e : Nat) := by
  rcases Nat.lt_or_eq_of_le hc with hc | rfl
  · exact ⟨c, e, hc, rfl⟩
  · refine ⟨1, 53 + e, by decide, ?_⟩
    rw [Int.natAbs_natCast, Nat.one_mul, Nat.pow_add]

/-- Above 53 bits, what binary64 holds is a multiple of the power of two that is cut off. -/
theorem Holds.dvd {i : Int} (h : Holds i) {s : Nat} (hi : 2 ^ (52 + s) ≤ i.natAbs) :
    2 ^ s ∣ i.natAbs := by
  obtain ⟨c, e, hc, he⟩ := h
  have hs : s ≤ e := by
    apply Nat.le_of_not_lt
    intro hlt
    have hpow : 2 ^ (53 : Nat) * 2 ^ e ≤ 2 ^ (52 + s) := by
      rw [← Nat.pow_add]
      exact Nat.pow_le_pow_right (by decide) (by omega)
    have := (Nat.mul_lt_mul_right (Nat.two_pow_pos e)).2 hc
    omega
  rw [he]
  exact Nat.dvd_trans (Nat.pow_dvd_pow 2 hs) (Nat.dvd_mul_left _ _)

theorem holds_iff (i : Int) : Holds i ↔ 2 ^ excessBits i.natAbs ∣ i.natAbs := by
  constructor
  · intro h
    by_cases hs : excessBits i.natAbs = 0
    · rw [hs]
      exact Nat.one_dvd _
    · exact h.dvd (two_pow_le_of_excessBits hs)
  · rintro ⟨c, hc⟩
    refine ⟨c, excessBits i.natAbs, ?_, by rw [Nat.mul_comm]; exact hc⟩
    have hlt : i.natAbs < 2 ^ (53 + excessBits i.natAbs) := by
      refine Nat.lt_of_lt_of_le Nat.lt_log2_self (Nat.pow_le_pow_right (by decide) ?_)
      unfold excessBits
      omega
    generalize excessBits i.natAbs = s at hc hlt
    rw [hc, Nat.pow_add, Nat.mul_comm] at hlt
    exact Nat.lt_of_mul_lt_mul_right hlt

instance (i : Int) : Decidable (Holds i) := decidable_of_iff _ (holds_iff i).symm

/-! ## Rounding -/

/-- What binary64 holds is left as it is. -/
theorem rounds_self {i : Int} (h : Holds i) : Rounds i i where
  holds := h
  nearest k _ := by omega
  even k _ hne htie := by omega

theorem Rounds.unique {i m n : Int} (hm : Rounds i m) (hn : Rounds i n) : m = n := by
  have htie : (i - m).natAbs = (i - n).natAbs :=
    Nat.le_antisymm (hm.nearest n hn.holds) (hn.nearest m hm.holds)
  apply Decidable.byContradiction
  intro hne
  obtain ⟨a, ha⟩ := hm.even n hn.holds (Ne.symm hne) htie.symm
  obtain ⟨b, hb⟩ := hn.even m hm.holds hne htie
  -- both are even multiples of their distance, and so is the distance itself
  have hd : (n - m) * 1 = (n - m) * (2 * (-b - a)) := by
    rw [Int.mul_one]
    calc n - m = 2 * (m - n) * b - 2 * (n - m) * a := by rw [← ha, ← hb]
      _ = (n - m) * (2 * (-b - a)) := by
        rw [← Int.neg_sub n m]
        simp only [Int.mul_sub, Int.mul_neg, Int.neg_mul, Int.sub_mul, Int.mul_comm,
          Int.mul_left_comm]
  have h1 := Int.eq_of_mul_eq_mul_left (by omega) hd
  omega

theorem Rounds.eq_of_holds {i m : Int} (h : Rounds i m) (hi : Holds i) : m = i :=
  h.unique (rounds_self hi)

theorem Rounds.neg {i m : Int} (h : Rounds i m) : Rounds (-i) (-m) where
  holds := h.holds.neg
  nearest k hk := by
    have := h.nearest (-k) hk.neg
    omega
  even k hk hne htie := by
    obtain ⟨a, ha⟩ := h.even (-k) hk.neg (by omega) (by omega)
    refine ⟨a, ?_⟩
    have hd : 2 * (-k - m) = -(2 * (k - -m)) := by omega
    rw [hd, Int.neg_mul] at ha
    omega

/-- Between two neighbouring multiples of the power of two that is cut off, binary64 holds
    nothing. -/
theorem Holds.le_or_ge {i : Int} (h : Holds i) {k : Nat} (hs : excessBits k ≠ 0) :
    i ≤ (k / 2 ^ excessBits k * 2 ^ excessBits k : Nat) ∨
      ((k / 2 ^ excessBits k + 1) * 2 ^ excessBits k : Nat) ≤ i := by
  have hk := two_pow_le_of_excessBits hs
  generalize excessBits k = s at hk
  have hquotient : 2 ^ (52 : Nat) ≤ k / 2 ^ s := by
    rwa [Nat.le_div_iff_mul_le (Nat.two_pow_pos s), ← Nat.pow_add]
  have hlow : 2 ^ (52 + s) ≤ k / 2 ^ s * 2 ^ s := by
    rw [Nat.pow_add]
    exact Nat.mul_le_mul_right _ hquotient
  apply Decidable.byContradiction
  intro hbetween
  obtain ⟨c, hc⟩ := h.dvd (s := s) (by omega)
  have hbelow : k / 2 ^ s * 2 ^ s < c * 2 ^ s := by rw [Nat.mul_comm c]; omega
  have habove : c * 2 ^ s < (k / 2 ^ s + 1) * 2 ^ s := by rw [Nat.mul_comm c]; omega
  have := Nat.lt_of_mul_lt_mul_right hbelow
  have := Nat.lt_of_mul_lt_mul_right habove
  omega

/-- Rounding down to the lower one of two neighbours. -/
theorem rounds_down {i low high : Int} (hl : low ≤ i) (hlow : Holds low)
    (hbetween : ∀ k, Holds k → k ≤ low ∨ high ≤ k)
    (hnear : 2 * (i - low) ≤ high - low)
    (heven : 2 * (i - low) = high - low → 2 * (high - low) ∣ low) : Rounds i low where
  holds := hlow
  nearest k hk := by
    have := hbetween k hk
    omega
  even k hk hne htie := by
    have hk : k = high := by
      have := hbetween k hk
      omega
    rw [hk]
    exact heven (by omega)

/-- Rounding up to the higher one of two neighbours. -/
theorem rounds_up {i low high : Int} (hh : i ≤ high) (hhigh : Holds high)
    (hbetween : ∀ k, Holds k → k ≤ low ∨ high ≤ k)
    (hnear : high - low ≤ 2 * (i - low))
    (heven : 2 * (i - low) = high - low → 2 * (high - low) ∣ high) : Rounds i high := by
  have hbelow (k : Int) (hk : Holds k) : k ≤ -high ∨ -low ≤ k := by
    have := hbetween (-k) hk.neg
    omega
  have h : Rounds (-i) (-high) := by
    refine rounds_down (by omega) hhigh.neg hbelow (by omega) fun htie => ?_
    rw [Int.dvd_neg, show -low - -high = high - low by omega]
    exact heven (by omega)
  have := h.neg
  rwa [Int.neg_neg, Int.neg_neg] at this

theorem two_mul_dvd_mul_of_even {q : Nat} (h : q % 2 = 0) (w : Nat) :
    2 * (w : Int) ∣ (q * w : Nat) := by
  have hdvd : 2 * w ∣ q * w := Nat.mul_dvd_mul_right (Nat.dvd_of_mod_eq_zero h) w
  exact Int.natCast_dvd_natCast.2 hdvd

/-- Naturals are rounded by the last step of every operation. -/
theorem rounds_nearest (k : Nat) : Rounds k (nearest k 1) := by
  unfold nearest
  dsimp only
  rw [Nat.div_one, Nat.one_mul]
  by_cases hs : excessBits k = 0
  · have hk : Holds k := by
      rw [holds_iff, Int.natAbs_natCast, hs]
      exact Nat.one_dvd _
    simpa [hs, Nat.mod_one] using rounds_self hk
  · have hquotient : k / 2 ^ excessBits k < 2 ^ (53 : Nat) := by
      have := quotient_lt k 1
      rwa [Nat.div_one, Nat.one_mul] at this
    have hbetween := fun i (h : Holds i) => h.le_or_ge hs
    have hlow := holds_mul_two_pow (Nat.le_of_lt hquotient) (excessBits k)
    have hhigh := holds_mul_two_pow hquotient (excessBits k)
    have hk := Nat.div_add_mod k (2 ^ excessBits k)
    have hr := Nat.mod_lt k (Nat.two_pow_pos (excessBits k))
    -- only these facts about the quotient and the remainder count from here
    generalize 2 ^ excessBits k = w at *
    generalize k / w = q at *
    generalize k % w = r at *
    have hstep : ((q + 1) * w : Nat) = ((q * w : Nat) : Int) + w := by
      rw [Nat.add_mul, Nat.one_mul]
      rfl
    have hvalue : (k : Int) = (q * w : Nat) + r := by rw [Nat.mul_comm q]; omega
    split
    case isTrue hup =>
      refine rounds_up (by omega) hhigh hbetween (by omega) fun htie => ?_
      rw [show (((q + 1) * w : Nat) : Int) - (q * w : Nat) = w by omega]
      exact two_mul_dvd_mul_of_even (by omega) w
    case isFalse hdown =>
      refine rounds_down (by omega) hlow hbetween (by omega) fun htie => ?_
      rw [show (((q + 1) * w : Nat) : Int) - (q * w : Nat) = w by omega]
      exact two_mul_dvd_mul_of_even (by omega) w

/-- The integer nearest to an integer among those that binary64 holds. -/
def rounded (i : Int) : Int :=
  if i < 0 then -(nearest i.natAbs 1 : Nat) else (nearest i.natAbs 1 : Nat)

theorem rounds_rounded (i : Int) : Rounds i (rounded i) := by
  have h := rounds_nearest i.natAbs
  unfold rounded
  split
  case isTrue hneg =>
    have hi : -(i.natAbs : Int) = i := by omega
    have := h.neg
    rwa [hi] at this
  case isFalse hpos =>
    have hi : (i.natAbs : Int) = i := by omega
    rwa [hi] at h

-- a tie is rounded down to an even coefficient, or up to one
example : rounded 9007199254740993 = 9007199254740992 ∧
    rounded (-9007199254740995) = -9007199254740996 := by decide

theorem rounded_of_holds {i : Int} (h : Holds i) : rounded i = i := (rounds_rounded i).eq_of_holds h

/-! ## How far numbers are rounded -/

/-- What is not zero is not rounded to zero. -/
theorem Rounds.ne_zero {i m : Int} (h : Rounds i m) (hi : i ≠ 0) : m ≠ 0 := by
  rintro rfl
  have hone := h.nearest 1 (holds_of_lt (by decide))
  have hnegOne := h.nearest (-1) (holds_of_lt (by decide))
  omega

/-- Near a number of at most `53 + e` bits there is a multiple of `2 ^ e` that binary64 holds. -/
theorem exists_holds_near {n e : Nat} (hn : n ≤ 2 ^ (53 + e)) :
    ∃ k : Nat, Holds k ∧ 2 * ((n : Int) - k).natAbs ≤ 2 ^ e := by
  rw [Nat.pow_add] at hn
  have hw := Nat.two_pow_pos e
  have hquotient : n / 2 ^ e ≤ 2 ^ (53 : Nat) :=
    Nat.div_le_of_le_mul (by rwa [Nat.mul_comm])
  have hk := Nat.div_add_mod n (2 ^ e)
  have hr := Nat.mod_lt n hw
  by_cases hdown : 2 * (n % 2 ^ e) ≤ 2 ^ e
  · refine ⟨n / 2 ^ e * 2 ^ e, holds_mul_two_pow hquotient e, ?_⟩
    rw [Nat.mul_comm] at hk
    omega
  · have hbelow : n / 2 ^ e < 2 ^ (53 : Nat) := by
      refine Nat.lt_of_le_of_ne hquotient fun he => ?_
      rw [he, Nat.mul_comm] at hk
      omega
    refine ⟨(n / 2 ^ e + 1) * 2 ^ e, holds_mul_two_pow hbelow e, ?_⟩
    rw [Nat.mul_comm] at hk
    rw [Nat.add_mul, Nat.one_mul]
    omega

/-- Numbers of at most `53 + e` bits are rounded by at most half of `2 ^ e`. -/
theorem Rounds.two_mul_dist_le {i m : Int} (h : Rounds i m) {e : Nat}
    (hi : i.natAbs ≤ 2 ^ (53 + e)) : 2 * (i - m).natAbs ≤ 2 ^ e := by
  obtain ⟨k, hk, hnear⟩ := exists_holds_near hi
  have hpos := h.nearest k hk
  have hneg := h.nearest (-k) hk.neg
  omega

/-- Rounding does not cross a power of two from at most half a step above it. -/
theorem Rounds.le_two_pow {i m : Int} (h : Rounds i m) {e : Nat}
    (hi : i ≤ (2 ^ (53 + e) + 2 ^ e : Nat)) : m ≤ (2 ^ (53 + e) : Nat) := by
  apply Int.not_lt.1
  intro hm
  have hpow : Holds (2 ^ (53 + e) : Nat) := by
    rw [Nat.pow_add]
    exact holds_mul_two_pow (Nat.le_refl _) e
  have hw := Nat.two_pow_pos e
  have hsteps : 2 ^ (53 + e) = 2 ^ e * 2 * 2 ^ (52 : Nat) := by
    rw [Nat.pow_add]
    omega
  obtain ⟨c, hc⟩ := h.holds.dvd (s := e + 1) (by
    rw [show 52 + (e + 1) = 53 + e by omega]
    omega)
  rw [Nat.pow_succ] at hc
  -- the next number is a whole step above the power, so there has been a tie
  have hnext : 2 ^ (53 + e) + 2 ^ e * 2 ≤ m.natAbs := by
    have hlt : 2 ^ e * 2 * 2 ^ (52 : Nat) < 2 ^ e * 2 * c := by omega
    have := Nat.mul_le_mul_left (2 ^ e * 2) (Nat.lt_of_mul_lt_mul_left hlt)
    rw [Nat.mul_succ] at this
    omega
  have hnear := h.nearest _ hpow
  have heven := h.even _ hpow (by omega) (by omega)
  rw [show 2 * ((2 ^ (53 + e) : Nat) - m) = -(2 ^ e * 2 * 2 : Nat) by omega, Int.neg_dvd] at heven
  have hpower : ((2 ^ e * 2 * 2 : Nat) : Int) ∣ (2 ^ (53 + e) : Nat) := by
    rw [hsteps]
    exact Int.natCast_dvd_natCast.2 (Nat.mul_dvd_mul_left _ ⟨2 ^ (51 : Nat), rfl⟩)
  have := Int.le_of_dvd (by omega) (Int.dvd_sub heven hpower)
  omega

/-- Below a power of two, binary64 holds nothing in the last step before it. -/
theorem Holds.add_le_two_pow {m e : Nat} (h : Holds m) (hm : m < 2 ^ (53 + e)) :
    m + 2 ^ e ≤ 2 ^ (53 + e) := by
  rw [Nat.add_comm 53, Nat.pow_add] at hm ⊢
  by_cases hlow : 2 ^ (52 + e) ≤ m
  · obtain ⟨c, hc⟩ := h.dvd hlow
    rw [Int.natAbs_natCast] at hc
    subst hc
    have := Nat.mul_le_mul_left (2 ^ e) (Nat.lt_of_mul_lt_mul_left hm)
    rwa [Nat.mul_succ] at this
  · rw [Nat.add_comm 52, Nat.pow_add] at hlow
    omega

/-- One step below a power of two there is no even multiple of that step. -/
theorem not_dvd_below_two_pow {m e : Nat} (h : m + 2 ^ e = 2 ^ (53 + e)) : ¬2 * 2 ^ e ∣ m := by
  intro hdvd
  have hpower : 2 * 2 ^ e ∣ m + 2 ^ e := by
    rw [h, Nat.add_comm, Nat.pow_add, Nat.mul_comm 2]
    exact Nat.mul_dvd_mul_left _ ⟨2 ^ (52 : Nat), rfl⟩
  have hle := Nat.le_of_dvd (Nat.two_pow_pos e) ((Nat.dvd_add_right hdvd).1 hpower)
  have := Nat.two_pow_pos e
  omega

/-- A natural number is rounded to less than a power of two if and only if it is more than half a
    step below it. -/
theorem Rounds.lt_two_pow_iff {n m : Nat} (h : Rounds n m) (e : Nat) :
    m < 2 ^ (53 + e) ↔ 2 * n + 2 ^ e < 2 * 2 ^ (53 + e) := by
  have hpow : Holds (2 ^ (53 + e) : Nat) := by
    rw [Nat.pow_add]
    exact holds_mul_two_pow (Nat.le_refl _) e
  have hbelow : Holds ((2 ^ (53 : Nat) - 1) * 2 ^ e : Nat) := holds_mul_two_pow (by decide) e
  have hstep : (2 ^ (53 : Nat) - 1) * 2 ^ e + 2 ^ e = 2 ^ (53 + e) := by
    rw [← Nat.succ_mul, Nat.pow_add]
  generalize (2 ^ (53 : Nat) - 1) * 2 ^ e = q at hbelow hstep
  constructor
  · intro hm
    have hq := h.holds.add_le_two_pow hm
    have hnear := h.nearest _ hpow
    apply Nat.lt_of_not_le
    -- half a step below the power there is a tie, and the power is the even one of the two
    intro hn
    have htie : m + 2 ^ e = 2 ^ (53 + e) := by omega
    have heven := h.even _ hpow (by omega) (by omega)
    rw [show 2 * ((2 ^ (53 + e) : Nat) - (m : Int)) = (2 * 2 ^ e : Nat) by omega] at heven
    exact not_dvd_below_two_pow htie (Int.natCast_dvd_natCast.1 heven)
  · intro hn
    have hnear := h.nearest _ hbelow
    have hw := Nat.two_pow_pos e
    omega

end Binary64

/-! ## Units -/

theorem log2_mul_two_pow {k : Nat} (hk : k ≠ 0) (j : Nat) : (k * 2 ^ j).log2 = k.log2 + j := by
  have hne : k * 2 ^ j ≠ 0 := Nat.mul_ne_zero hk (Nat.ne_of_gt (Nat.two_pow_pos j))
  rw [Nat.log2_eq_iff hne]
  constructor
  · rw [Nat.pow_add]
    exact Nat.mul_le_mul_right _ (Nat.log2_self_le hk)
  · rw [Nat.add_right_comm, Nat.pow_add]
    exact (Nat.mul_lt_mul_right (Nat.two_pow_pos j)).2 Nat.lt_log2_self

theorem nearest_of_holds {k : Nat} (h : Binary64.Holds k) : nearest k 1 = k :=
  Int.natCast_inj.1 ((Binary64.rounds_nearest k).eq_of_holds h)

/-- Rounding stays below a power of two above 53 bits if and only if the number is more than half a
    step below it. -/
theorem nearest_lt_two_pow_iff (k e : Nat) :
    nearest k 1 < 2 ^ (54 + e) ↔ k < 2 ^ (54 + e) - 2 ^ e := by
  have h := (Binary64.rounds_nearest k).lt_two_pow_iff (e + 1)
  rw [show 53 + (e + 1) = 54 + e by omega, Nat.pow_succ] at h
  omega

/-- A count of finer units is rounded like the count of the coarser ones. -/
theorem nearest_mul_two_pow (k j : Nat) : nearest (k * 2 ^ j) 1 = nearest k 1 * 2 ^ j := by
  by_cases hlog : k.log2 < 53
  · have hk : k < 2 ^ (53 : Nat) :=
      Nat.lt_of_lt_of_le Nat.lt_log2_self (Nat.pow_le_pow_right (by decide) hlog)
    rw [nearest_of_holds (Binary64.holds_mul_two_pow (Nat.le_of_lt hk) j),
      nearest_of_holds (Binary64.holds_of_lt hk)]
  · have hk : k ≠ 0 := by
      rintro rfl
      exact hlog (by decide)
    have hexcess : excessBits (k * 2 ^ j) = excessBits k + j := by
      rw [excessBits, excessBits, log2_mul_two_pow hk]
      omega
    have hj := Nat.two_pow_pos j
    unfold nearest
    dsimp only
    rw [Nat.div_one, Nat.div_one, hexcess, Nat.one_mul, Nat.one_mul, Nat.pow_add,
      Nat.mul_div_mul_right _ _ hj, Nat.mul_mod_mul_right, ← Nat.mul_assoc, ← Nat.mul_assoc]
    simp only [gt_iff_lt, Nat.mul_lt_mul_right hj, Nat.mul_left_inj (Nat.ne_of_gt hj)]

end SchemaExtraction
