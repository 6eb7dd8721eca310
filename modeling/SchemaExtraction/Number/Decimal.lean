import SchemaExtraction.Number.Binary64
import SchemaExtraction.Number.Digits

/-!
# Decimal text of binary64 numbers

Numbers are written with the fewest digits that read back to them, in plain notation while the
exponent of the first digit lies in `-5 … 15` and with a signed exponent beyond. They are read
in two ways: to the nearest number, from free text, and by rounding the digits first and the
power of ten after, from the literals of a document.

Results:
* `Decimal.reads_of_search?`: a decimal that the search finds reads back to the number.
-/

namespace SchemaExtraction

-- powers are those of the core library, whatever else is imported
attribute [local instance (high)] instPowNat

/-- The decimal number `coefficient * 10 ^ exponent`. -/
structure Decimal where
  coefficient : Nat
  exponent : Int
deriving DecidableEq, Repr

namespace Decimal

/-- The number of decimal digits of `n`; zero has none. -/
def digitCount (n : Nat) : Nat :=
  if n = 0 then 0
  else
    let d := n.log2 * 30103 / 100000
    if 10 ^ (d + 1) ≤ n then d + 2 else if 10 ^ d ≤ n then d + 1 else d

/-- A decimal in units of `2⁻¹⁰⁷⁴`, as numerator and denominator. -/
def ratio (x : Decimal) : Nat × Nat :=
  (x.coefficient * 10 ^ x.exponent.toNat * unity, 10 ^ (-x.exponent).toNat)

/-- Whether the magnitude nearest to a decimal is `u`. -/
def reads (x : Decimal) (u : Nat) : Bool := nearest x.ratio.1 x.ratio.2 == u

/-- The least `k` with `u < 10 ^ k` units of one, for a magnitude `u` other than zero. -/
def scale (u : Nat) : Int := digitCount (u * 10 ^ (400 : Nat) / unity) - 400

/-- The two neighbours of the magnitude `u` among the multiples of `10 ^ exponent`, and which is
    the nearer one; a tie goes to the even coefficient. -/
def neighbours (u : Nat) (exponent : Int) : Decimal × Decimal :=
  let n := u * 10 ^ (-exponent).toNat
  let d := unity * 10 ^ exponent.toNat
  let below : Decimal := ⟨n / d, exponent⟩
  let above : Decimal := ⟨n / d + 1, exponent⟩
  if 2 * (n % d) < d ∨ (2 * (n % d) = d ∧ n / d % 2 = 0) then (below, above) else (above, below)

/-- The magnitude `u` itself as a decimal. -/
def exact (u : Nat) : Decimal := ⟨u * 5 ^ unitBits, -unitBits⟩

/-- The first decimal that reads back to `u` among those with `places` digits, then one more, and
    so on for `tries` digit counts. -/
def search? (u : Nat) (k : Int) (places : Nat) : Nat → Option Decimal
  | 0 => none
  | tries + 1 =>
    let candidates := neighbours u (k - places)
    if candidates.1.reads u then some candidates.1
    else if candidates.2.reads u then some candidates.2
    else search? u k (places + 1) tries

/-- Moves the trailing zeros of a coefficient into the exponent. -/
def strip (coefficient : Nat) (exponent : Int) : Nat → Decimal
  | 0 => ⟨coefficient, exponent⟩
  | fuel + 1 =>
    if coefficient % 10 = 0 then strip (coefficient / 10) (exponent + 1) fuel
    else ⟨coefficient, exponent⟩

/-- The decimal of fewest digits that reads back to the magnitude `u`, the nearest one of those;
    `u` is not zero. Seventeen digits are always enough. -/
def shortest (u : Nat) : Decimal :=
  let x := (search? u (scale u) 1 17).getD (exact u)
  strip x.coefficient x.exponent (digitCount x.coefficient)

theorem reads_of_search? {u : Nat} {k : Int} {places tries : Nat} {x : Decimal}
    (h : search? u k places tries = some x) : x.reads u = true := by
  induction tries generalizing places with
  | zero => cases h
  | succ tries ih =>
    unfold search? at h
    extract_lets candidates at h
    split at h
    · rename_i hr; exact Option.some.inj h ▸ hr
    · split at h
      · rename_i hr; exact Option.some.inj h ▸ hr
      · exact ih h

/-! ## Writing -/

/-- The least and the first exponent beyond the largest of a first digit in plain notation. -/
def plainFrom : Int := -5

@[inherit_doc plainFrom]
def plainBelow : Int := 16

/-- The text of a positive decimal without trailing zeros. -/
def write (x : Decimal) : List Char :=
  let ds := decimalDigits x.coefficient
  let lead := x.exponent + ds.length - 1
  if plainFrom ≤ lead ∧ lead < plainBelow then
    if 0 ≤ x.exponent then ds ++ List.replicate x.exponent.toNat '0' ++ ['.', '0']
    else if 0 ≤ lead then ds.take (lead.toNat + 1) ++ '.' :: ds.drop (lead.toNat + 1)
    else '0' :: '.' :: List.replicate (-lead - 1).toNat '0' ++ ds
  else
    let tail := match ds.drop 1 with
      | [] => []
      | rest => '.' :: rest
    ds.take 1 ++ tail ++ 'e' :: (if lead < 0 then '-' else '+') :: decimalDigits lead.natAbs

end Decimal

namespace Binary64

/-- The text of a number: fewest digits, and at least one decimal in plain notation. -/
def write (x : Binary64) : List Char :=
  let body := if x.isZero then ['0', '.', '0'] else (Decimal.shortest x.magnitude).write
  if x.negative then '-' :: body else body

/-! ## Reading -/

/-- The number nearest to `± coefficient * 10 ^ exponent`; nothing when it is out of range. -/
def ofDecimal? (negative : Bool) (x : Decimal) : Option Binary64 :=
  let lead := x.exponent + Decimal.digitCount x.coefficient
  if x.coefficient = 0 ∨ lead < -330 then some (zero negative)
  else if 310 < lead then none
  else ofUnits? negative x.ratio.1 x.ratio.2

/-- The number nearest to a power of ten within range. -/
def tenPow? (e : Nat) : Option Binary64 := ofUnits? false (10 ^ e * unity) 1

/-- A number times a power of ten, the power rounded first and the product or quotient after; two
    quotients below `10⁻³⁰⁸`. Nothing when the result is out of range. -/
def scale? (x : Binary64) (e : Int) : Option Binary64 :=
  if x.isZero then some x
  else if 308 < e then none
  else if 0 ≤ e then do x.mul? (← tenPow? e.toNat)
  else if -308 ≤ e then do x.div? (← tenPow? (-e).toNat)
  else if -616 ≤ e then do (← x.div? (← tenPow? 308)).div? (← tenPow? (-e - 308).toNat)
  else some (zero x.negative)

end Binary64

/-! ## Number text -/

/-- What free text means as a number: a finite number, or one that is infinite or undefined. -/
inductive NumberText where
  | finite (x : Binary64)
  | notFinite
deriving DecidableEq

namespace NumberText

/-- Digits with at most one point among them: the digits before and after the point, and the
    rest of the text. -/
def takeMantissa (cs : List Char) : List Char × List Char × List Char :=
  let whole := cs.takeWhile Char.isDigit
  match cs.dropWhile Char.isDigit with
  | '.' :: rest => (whole, rest.takeWhile Char.isDigit, rest.dropWhile Char.isDigit)
  | rest => (whole, [], rest)

/-- A sign, minus being `true`, and the rest of the text. -/
def takeSign : List Char → Bool × List Char
  | '-' :: cs => (true, cs)
  | '+' :: cs => (false, cs)
  | cs => (false, cs)

/-- The exponent that ends a number: nothing at all, or `e` and a signed run of digits. -/
def readExponent : List Char → Option Int
  | [] => some 0
  | c :: cs =>
    if c = 'e' ∨ c = 'E' then
      let (negative, ds) := takeSign cs
      (readDigits ds).map fun n => if negative then -(n : Int) else n
    else none

/-- Reads an unsigned number: digits with at most one point, and an optional exponent. -/
def readMagnitude (negative : Bool) (cs : List Char) : Option NumberText :=
  let (whole, fraction, rest) := takeMantissa cs
  if whole.isEmpty && fraction.isEmpty then none
  else do
    let e ← readExponent rest
    let x : Decimal := ⟨digitsValue (whole ++ fraction), e - fraction.length⟩
    return ((Binary64.ofDecimal? negative x).map finite).getD notFinite

/-- The words for numbers that are not finite, in lower case. -/
def wordsNotFinite : List String := ["inf", "infinity", "nan"]

/-- Reads a whole text as a number. -/
def read (cs : List Char) : Option NumberText :=
  let (negative, body) := takeSign cs
  if wordsNotFinite.any (·.toList == body.map Char.toLower) then some notFinite
  else readMagnitude negative body

/-- The finite number that a text means, if any. -/
def readFinite (cs : List Char) : Option Binary64 :=
  match read cs with
  | some (finite x) => some x
  | _ => none

end NumberText
end SchemaExtraction
