import SchemaExtraction.Number.Decimal
import SchemaExtraction.Value.Entries

/-!
# Values

Documents, reference contexts and records are values: null, truth values, numbers, text, lists
and objects. An object is a list of entries, in key order for every value that the library makes.

Results:
* `Value.same_iff`: the decision procedure for equality of values.
-/

namespace SchemaExtraction

/-- An integer that fits 64 bits, with or without a sign. -/
structure WordInt where
  val : Int
  bounds : -0x8000000000000000 ≤ val ∧ val < 0x10000000000000000
deriving DecidableEq

/-- A number is an integer or a floating-point number; `1` and `1.0` differ. -/
inductive Number where
  | int (n : WordInt)
  | float (x : Binary64)
deriving DecidableEq

/-- A value: a scalar, a list or an object. -/
inductive Value where
  | null
  | bool (b : Bool)
  | num (n : Number)
  | str (s : String)
  | arr (items : List Value)
  | obj (entries : List (String × Value))
deriving Inhabited

namespace WordInt

/-- The largest signed integer of 64 bits. -/
def maxSigned : Int := 0x7fffffffffffffff

/-- The least signed integer of 64 bits. -/
def minSigned : Int := -0x8000000000000000

/-- A natural number within range. -/
def ofNat (n : Nat) (h : n < 0x10000000000000000) : WordInt := ⟨n, by omega⟩

/-- An integer, if it is in range. -/
def ofInt? (i : Int) : Option WordInt :=
  if h : -0x8000000000000000 ≤ i ∧ i < 0x10000000000000000 then some ⟨i, h⟩ else none

/-- The signed integer nearest to `i`. -/
def clamp (i : Int) : WordInt where
  val := max minSigned (min maxSigned i)
  bounds := by unfold maxSigned minSigned; omega

theorem natAbs_lt (n : WordInt) : n.val.natAbs < 0x10000000000000000 := by
  have := n.bounds
  omega

/-- The nearest floating-point number. -/
def toBinary64 (n : WordInt) : Binary64 :=
  Binary64.ofInt n.val n.natAbs_lt

/-- The decimal digits, after a minus sign if the integer is negative. -/
def write (n : WordInt) : List Char :=
  if n.val < 0 then '-' :: decimalDigits n.val.natAbs else decimalDigits n.val.natAbs

end WordInt

namespace Number

/-- The nearest floating-point number. -/
def toBinary64 : Number → Binary64
  | int n => n.toBinary64
  | float x => x

/-- The text of a number. -/
def write : Number → List Char
  | int n => n.write
  | float x => x.write

/-- A number as an integer if it has no fractional part and is at least `-2⁶³` and at most `2⁶³`;
    the upper bound itself becomes the largest signed integer. -/
def ofBinary64 (x : Binary64) : Number :=
  if x.isIntegral ∧ WordInt.minSigned ≤ x.truncate ∧ x.truncate ≤ WordInt.maxSigned + 1 then
    int (WordInt.clamp x.truncate)
  else float x

end Number

namespace Value

/-- The empty text. -/
def empty : Value := str ""

/-- A count as a value. -/
def ofNat (n : Nat) : Value := num (.int (WordInt.clamp n))

/-- The entries of an object. -/
def entries? : Value → Option (List (String × Value))
  | obj es => some es
  | _ => none

/-- The text of a text value. -/
def text? : Value → Option String
  | str s => some s
  | _ => none

/-- What an object holds under a key. -/
def get? (key : String) : Value → Option Value
  | obj es => Entries.get? key es
  | _ => none

/-! ## Equality -/

mutual

/-- Whether two values are equal. -/
def same : Value → Value → Bool
  | null, null => true
  | bool a, bool b => a == b
  | num m, num n => m == n
  | str s, str t => s == t
  | arr vs, arr ws => sameItems vs ws
  | obj es, obj fs => sameEntries es fs
  | _, _ => false

@[inherit_doc same]
def sameItems : List Value → List Value → Bool
  | [], [] => true
  | v :: vs, w :: ws => same v w && sameItems vs ws
  | _, _ => false

@[inherit_doc same]
def sameEntries : List (String × Value) → List (String × Value) → Bool
  | [], [] => true
  | (k, v) :: es, (l, w) :: fs => k == l && same v w && sameEntries es fs
  | _, _ => false

end

mutual

theorem same_iff (v w : Value) : same v w = true ↔ v = w := by
  cases v <;> cases w <;> simp [same, sameItems_iff, sameEntries_iff]

theorem sameItems_iff (vs ws : List Value) : sameItems vs ws = true ↔ vs = ws := by
  cases vs <;> cases ws <;> simp [sameItems, same_iff, sameItems_iff]

theorem sameEntries_iff (es fs : List (String × Value)) : sameEntries es fs = true ↔ es = fs := by
  cases es <;> cases fs <;> simp [sameEntries, same_iff, sameEntries_iff, Prod.ext_iff]

end

instance : DecidableEq Value := fun v w => decidable_of_iff _ (same_iff v w)

end Value
end SchemaExtraction
