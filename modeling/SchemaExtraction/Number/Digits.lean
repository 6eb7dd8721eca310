/-!
# Digits

Natural numbers written in decimal without leading zeros, and read back; hexadecimal digits are
only read.

Results:
* `readDigits_decimalDigits`: reading what was written gives the number back.
* `digitsValue_decimalDigits`: so does the value of its digits.
* `decimalDigits_ne_nil`, `length_decimalDigits_le`: every number has at least one digit, and
  no more than the power of ten above it asks for.
-/

namespace SchemaExtraction

-- powers are those of the core library, whatever else is imported
attribute [local instance (high)] instPowNat

/-- The digit character of `n`, for `n` below ten. -/
def digitChar (n : Nat) : Char := Char.ofNat ('0'.toNat + n)

/-- The value of a digit character. -/
def digitValue (c : Char) : Nat := c.toNat - '0'.toNat

/-- The decimal digits of a number, highest first. -/
def decimalDigits (n : Nat) : List Char :=
  if n < 10 then [digitChar n] else decimalDigits (n / 10) ++ [digitChar (n % 10)]
termination_by n

/-- Appends the digits `cs` to the number `acc`; nothing when one of them is no digit. -/
def readDigitsFrom (acc : Nat) : List Char → Option Nat
  | [] => some acc
  | c :: cs => if c.isDigit then readDigitsFrom (10 * acc + digitValue c) cs else none

/-- The number that a non-empty run of digits writes; leading zeros are allowed. -/
def readDigits (cs : List Char) : Option Nat :=
  if cs.isEmpty then none else readDigitsFrom 0 cs

/-- The value of a run of digits, all of which are digits. -/
def digitsValue (cs : List Char) : Nat := cs.foldl (fun acc c => 10 * acc + digitValue c) 0

/-! ## Hexadecimal digits -/

/-- The value of a hexadecimal digit. -/
def hexValue? (c : Char) : Option Nat :=
  if c.isDigit then some (c.toNat - '0'.toNat)
  else if 'a' ≤ c ∧ c ≤ 'f' then some (c.toNat - 'a'.toNat + 10)
  else if 'A' ≤ c ∧ c ≤ 'F' then some (c.toNat - 'A'.toNat + 10)
  else none

/-- The number that some hexadecimal digits write. -/
def hexNumber? (cs : List Char) : Option Nat :=
  cs.foldlM (fun acc c => (hexValue? c).map (acc * 16 + ·)) 0

/-! ## Reading back -/

theorem isDigit_digitChar {n : Nat} (h : n < 10) : (digitChar n).isDigit = true := by
  match n, h with
  | 0, _ | 1, _ | 2, _ | 3, _ | 4, _ | 5, _ | 6, _ | 7, _ | 8, _ | 9, _ => decide

theorem digitValue_digitChar {n : Nat} (h : n < 10) : digitValue (digitChar n) = n := by
  match n, h with
  | 0, _ | 1, _ | 2, _ | 3, _ | 4, _ | 5, _ | 6, _ | 7, _ | 8, _ | 9, _ => decide

theorem decimalDigits_ne_nil (n : Nat) : decimalDigits n ≠ [] := by
  rw [decimalDigits]
  split <;> simp

theorem readDigitsFrom_append (acc : Nat) (cs ds : List Char) :
    readDigitsFrom acc (cs ++ ds) = (readDigitsFrom acc cs).bind (readDigitsFrom · ds) := by
  induction cs generalizing acc with
  | nil => rfl
  | cons c cs ih =>
    simp only [List.cons_append, readDigitsFrom]
    split
    · exact ih _
    · rfl

theorem readDigitsFrom_decimalDigits (n : Nat) : readDigitsFrom 0 (decimalDigits n) = some n := by
  induction n using decimalDigits.induct with
  | case1 n h =>
    rw [decimalDigits, if_pos h]
    simp [readDigitsFrom, isDigit_digitChar h, digitValue_digitChar h]
  | case2 n h ih =>
    have hm : n % 10 < 10 := Nat.mod_lt _ (by decide)
    rw [decimalDigits, if_neg h, readDigitsFrom_append, ih]
    simp [readDigitsFrom, isDigit_digitChar hm, digitValue_digitChar hm]
    omega

theorem readDigits_decimalDigits (n : Nat) : readDigits (decimalDigits n) = some n := by
  have h := decimalDigits_ne_nil n
  simp [readDigits, h, readDigitsFrom_decimalDigits]

theorem isDigit_of_mem_decimalDigits {n : Nat} {c : Char} (h : c ∈ decimalDigits n) :
    c.isDigit = true := by
  induction n using decimalDigits.induct with
  | case1 n hn =>
    rw [decimalDigits, if_pos hn, List.mem_singleton] at h
    rw [h]
    exact isDigit_digitChar hn
  | case2 n hn ih =>
    rw [decimalDigits, if_neg hn, List.mem_append, List.mem_singleton] at h
    rcases h with h | rfl
    · exact ih h
    · exact isDigit_digitChar (Nat.mod_lt _ (by decide))

theorem digitsValue_append_singleton (ds : List Char) (c : Char) :
    digitsValue (ds ++ [c]) = 10 * digitsValue ds + digitValue c := by
  simp [digitsValue]

theorem digitsValue_decimalDigits (n : Nat) : digitsValue (decimalDigits n) = n := by
  induction n using decimalDigits.induct with
  | case1 n h =>
    rw [decimalDigits, if_pos h]
    simp [digitsValue, digitValue_digitChar h]
  | case2 n h ih =>
    have hm : n % 10 < 10 := Nat.mod_lt _ (by decide)
    rw [decimalDigits, if_neg h, digitsValue_append_singleton, ih, digitValue_digitChar hm]
    omega

theorem length_decimalDigits_le {w n : Nat} (hw : 0 < w) (h : n < 10 ^ w) :
    (decimalDigits n).length ≤ w := by
  induction n using decimalDigits.induct generalizing w with
  | case1 n hn =>
    rw [decimalDigits, if_pos hn]
    exact hw
  | case2 n hn ih =>
    obtain ⟨w, rfl⟩ := Nat.exists_eq_succ_of_ne_zero (Nat.ne_of_gt hw)
    have hdiv : n / 10 < 10 ^ w := by
      rw [Nat.pow_succ] at h
      omega
    have hpos : 0 < w := by
      apply Nat.pos_of_ne_zero
      rintro rfl
      omega
    have hlen := ih hpos hdiv
    rw [decimalDigits, if_neg hn, List.length_append, List.length_singleton]
    omega

end SchemaExtraction
