import Mathlib.Tactic.SplitIfs

/-!
# The order of bytes

Texts are ordered character by character, and the bytes of their UTF-8 form are in the same order:
a greater character has a greater first byte, or else the same first bytes up to one that is
greater.

Results:
* `utf8EncodeChar_append_lt`: the bytes of a smaller character come first, whatever follows.
* `bytes_lt_bytes`: the bytes of a smaller text come first.
-/

namespace SchemaExtraction.Text

/-- The bytes of the UTF-8 form of a text. -/
def bytes (s : String) : List UInt8 := s.toUTF8.data.toList

theorem bytes_eq_flatMap (s : String) : bytes s = s.toList.flatMap String.utf8EncodeChar := by
  rw [bytes, String.toUTF8_eq_toByteArray, ← String.utf8Encode_toList, List.utf8Encode,
    List.toList_data_toByteArray]

theorem utf8EncodeChar_append_lt {c d : Char} (h : c < d) (as bs : List UInt8) :
    String.utf8EncodeChar c ++ as < String.utf8EncodeChar d ++ bs := by
  have hlt : c.val.toNat < d.val.toNat := h
  have hd : d.val.toNat < 0x110000 := by
    have := d.valid
    simp only [UInt32.isValidChar, Nat.isValidChar] at this
    omega
  rw [String.utf8EncodeChar, String.utf8EncodeChar]
  generalize c.val.toNat = m at *
  generalize d.val.toNat = n at *
  -- six bits at a time
  have hshift (k : Nat) : k / 4096 = k / 64 / 64 ∧ k / 262144 = k / 64 / 64 / 64 := by
    simp [Nat.div_div_eq_div_mul]
  simp only [hshift]
  -- characters with as many bytes differ at a byte, and those with more bytes at the first one
  split_ifs <;>
    simp only [List.cons_append, List.nil_append, List.cons_lt_cons_iff, UInt8.lt_iff_toNat_lt,
      ← UInt8.toNat_inj, UInt8.toNat_ofNat'] <;> omega

/-- Bytes of a text that goes on come after those of its beginning. -/
theorem nil_lt_flatMap_utf8EncodeChar (c : Char) (cs : List Char) :
    [] < (c :: cs).flatMap String.utf8EncodeChar := by
  have hc := String.utf8EncodeChar_ne_nil (c := c)
  obtain ⟨b, bs, hb⟩ := List.exists_cons_of_ne_nil hc
  rw [List.flatMap_cons, hb, List.cons_append]
  exact List.nil_lt_cons b _

theorem flatMap_utf8EncodeChar_lt {cs ds : List Char} (h : cs < ds) :
    cs.flatMap String.utf8EncodeChar < ds.flatMap String.utf8EncodeChar := by
  induction h with
  | nil => exact nil_lt_flatMap_utf8EncodeChar _ _
  | rel h =>
    rw [List.flatMap_cons, List.flatMap_cons]
    exact utf8EncodeChar_append_lt h _ _
  | cons _ ih =>
    rw [List.flatMap_cons, List.flatMap_cons]
    exact List.append_left_lt ih

theorem bytes_lt_bytes {s t : String} (h : s < t) : bytes s < bytes t := by
  rw [bytes_eq_flatMap, bytes_eq_flatMap]
  exact flatMap_utf8EncodeChar_lt h

end SchemaExtraction.Text
