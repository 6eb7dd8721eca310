/-!
# Finite binary64 numbers

A finite binary64 number is a sign and a magnitude. Every magnitude is a whole number of units
of `2⁻¹⁰⁷⁴`, the least positive one, and has at most 53 significant bits. Arithmetic is exact
arithmetic on naturals followed by one rounding, to nearest and in a tie to the even neighbour.

Results:
* `isMagnitude_nearest`: rounding gives a magnitude whenever it stays in range.
* `nearest_le_two_pow`: rounding does not cross a power of two that lies above 53 bits.
-/

namespace SchemaExtraction

-- powers are those of the core library, whatever else is imported
attribute [local instance (high)] instPowNat

/-- How many low bits `q` has beyond the 53 significant ones. -/
def excessBits (q : Nat) : Nat := q.log2 - 52

/-- One is `2 ^ unitBits` units. -/
def unitBits : Nat := 1074

/-- One in units of `2⁻¹⁰⁷⁴`. -/
def unity : Nat := 2 ^ unitBits

/-- The least magnitude out of range, `2¹⁰²⁴`, in units of `2⁻¹⁰⁷⁴`. -/
def overflow : Nat := 2 ^ (unitBits + 1024)

/-- The magnitudes of finite numbers in units of `2⁻¹⁰⁷⁴`: in range, and of at most 53
    significant bits. -/
def IsMagnitude (u : Nat) : Prop := u < overflow ∧ 2 ^ excessBits u ∣ u

instance (u : Nat) : Decidable (IsMagnitude u) := inferInstanceAs (Decidable (_ ∧ _))

/-- A finite binary64 number; zero has both signs. -/
structure Binary64 where
  /-- whether the sign is minus -/
  negative : Bool
  /-- the distance from zero in units of `2⁻¹⁰⁷⁴` -/
  magnitude : Nat
  isMagnitude : IsMagnitude magnitude
deriving DecidableEq

/-- `n / d` rounded to 53 significant bits, to nearest, and in a tie to the even neighbour. -/
def nearest (n d : Nat) : Nat :=
  let s := excessBits (n / d)
  let w := d * 2 ^ s
  let q := n / w
  let r := n % w
  (if 2 * r > w ∨ (2 * r = w ∧ q % 2 = 1) then q + 1 else q) * 2 ^ s

/-! ## Rounding gives magnitudes -/

theorem log2_le_of_lt {n k : Nat} (h : n < 2 ^ (k + 1)) : n.log2 ≤ k := by
  by_cases hn : n = 0
  · subst hn; simp
  · have := (Nat.log2_lt hn).2 h
    omega

/-- Before the last step rounding has a 53-bit quotient, so after it at most `2⁵³`. -/
theorem quotient_lt (n d : Nat) : n / (d * 2 ^ excessBits (n / d)) < 2 ^ (53 : Nat) := by
  rw [← Nat.div_div_eq_div_mul]
  refine Nat.div_lt_of_lt_mul ?_
  rw [← Nat.pow_add]
  refine Nat.lt_of_lt_of_le Nat.lt_log2_self (Nat.pow_le_pow_right (by decide) ?_)
  unfold excessBits
  omega

theorem exists_nearest_eq (n d : Nat) :
    ∃ k, k ≤ 2 ^ (53 : Nat) ∧ nearest n d = k * 2 ^ excessBits (n / d) := by
  have h := quotient_lt n d
  unfold nearest
  dsimp only
  split
  · exact ⟨_, by omega, rfl⟩
  · exact ⟨_, by omega, rfl⟩

theorem isMagnitude_nearest {n d : Nat} (h : nearest n d < overflow) :
    IsMagnitude (nearest n d) := by
  refine ⟨h, ?_⟩
  obtain ⟨k, hk, e⟩ := exists_nearest_eq n d
  rw [e]
  generalize excessBits (n / d) = s
  rcases Nat.lt_or_eq_of_le hk with hk | hk
  · refine Nat.dvd_trans (Nat.pow_dvd_pow 2 ?_) ⟨k, Nat.mul_comm _ _⟩
    have : k * 2 ^ s < 2 ^ (52 + s + 1) := by
      rw [show 52 + s + 1 = 53 + s by omega, Nat.pow_add]
      exact (Nat.mul_lt_mul_right (Nat.two_pow_pos s)).2 hk
    have := log2_le_of_lt this
    unfold excessBits
    omega
  · subst hk
    rw [← Nat.pow_add]
    refine Nat.pow_dvd_pow 2 ?_
    unfold excessBits
    rw [Nat.log2_two_pow]
    omega

theorem nearest_le_two_pow {n d k : Nat} (hk : 53 ≤ k) (h : n / d < 2 ^ k) :
    nearest n d ≤ 2 ^ k := by
  obtain ⟨m, hm, e⟩ := exists_nearest_eq n d
  have hs : excessBits (n / d) ≤ k - 53 := by
    have := log2_le_of_lt (show n / d < 2 ^ (k - 1 + 1) by rwa [show k - 1 + 1 = k by omega])
    unfold excessBits
    omega
  calc nearest n d = m * 2 ^ excessBits (n / d) := e
    _ ≤ 2 ^ 53 * 2 ^ (k - 53) := Nat.mul_le_mul hm (Nat.pow_le_pow_right (by decide) hs)
    _ = 2 ^ k := by rw [← Nat.pow_add]; congr 1; omega

namespace Binary64

/-! ## Construction -/

/-- The number nearest to `± n / d` units, or nothing when that is out of range. -/
def ofUnits? (negative : Bool) (n d : Nat) : Option Binary64 :=
  if h : nearest n d < overflow then some ⟨negative, nearest n d, isMagnitude_nearest h⟩
  else none

/-- Positive or negative zero. -/
def zero (negative : Bool) : Binary64 := ⟨negative, 0, Nat.two_pow_pos _, Nat.dvd_zero _⟩

/-- The number nearest to an integer of at most 64 bits. -/
def ofInt (i : Int) (h : i.natAbs < 0x10000000000000000) : Binary64 where
  negative := decide (i < 0)
  magnitude := nearest (i.natAbs * unity) 1
  isMagnitude := by
    have hlt : i.natAbs * unity / 1 < 2 ^ (unitBits + 64) := by
      rw [Nat.div_one, Nat.add_comm, Nat.pow_add]
      exact (Nat.mul_lt_mul_right (Nat.two_pow_pos _)).2 h
    exact isMagnitude_nearest (Nat.lt_of_le_of_lt (nearest_le_two_pow (by decide) hlt)
      (Nat.pow_lt_pow_right (by decide) (by decide)))

/-! ## Arithmetic and tests -/

/-- The number as a signed count of units. -/
def units (x : Binary64) : Int := if x.negative then -x.magnitude else x.magnitude

def neg (x : Binary64) : Binary64 := { x with negative := !x.negative }

def isZero (x : Binary64) : Bool := x.magnitude == 0

/-- Whether there is no fractional part. -/
def isIntegral (x : Binary64) : Bool := x.magnitude % unity == 0

/-- The integer part, cut toward zero. -/
def truncate (x : Binary64) : Int := x.units.tdiv unity

/-- The rounded sum; nothing when it is out of range. Opposite numbers add up to positive zero. -/
def add? (x y : Binary64) : Option Binary64 :=
  let s := x.units + y.units
  ofUnits? (if s = 0 then x.negative && y.negative else decide (s < 0)) s.natAbs 1

/-- The rounded product; nothing when it is out of range. -/
def mul? (x y : Binary64) : Option Binary64 :=
  ofUnits? (x.negative != y.negative) (x.magnitude * y.magnitude) unity

/-- The rounded quotient; nothing when it is out of range or the divisor is zero. -/
def div? (x y : Binary64) : Option Binary64 :=
  if y.isZero then none
  else ofUnits? (x.negative != y.negative) (x.magnitude * unity) y.magnitude

end Binary64
end SchemaExtraction
