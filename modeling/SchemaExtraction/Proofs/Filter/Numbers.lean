import SchemaExtraction.Filter.Builtin
import SchemaExtraction.Proofs.Number.Integers

/-!
# The filter of numbers

Whether it finds an integer as a number or as its digits, the filter gives the same number: the
integer rounded to 53 significant bits.

Results:
* `WordInt.trim_write`: the text of an integer has no blanks.
* `Value.toNumber?_write`: the text of an integer means the number next to it.
* `Filter.toNumber_integer`: the output of the filter for an integer and for its digits.
-/

namespace SchemaExtraction

open Binary64 (Holds Rounds rounded rounds_rounded)

namespace WordInt

theorem isBlank_of_mem_write {n : WordInt} {c : Char} (h : c ∈ n.write) :
    Text.isBlank c = false := by
  have hdigit (hc : c ∈ decimalDigits n.val.natAbs) : Text.isBlank c = false :=
    Text.isBlank_of_isDigit (isDigit_of_mem_decimalDigits hc)
  rw [write] at h
  split at h
  · rcases List.mem_cons.1 h with rfl | hc
    · decide
    · exact hdigit hc
  · exact hdigit h

theorem trim_write (n : WordInt) : Text.trim n.write = n.write := by
  apply Text.trim_eq_self
  · exact fun c hc => isBlank_of_mem_write (List.mem_of_mem_head? hc)
  · exact fun c hc => isBlank_of_mem_write (List.mem_of_mem_getLast? hc)

theorem write_ne_nil (n : WordInt) : n.write ≠ [] := by
  rw [write]
  split
  · exact List.cons_ne_nil _ _
  · exact decimalDigits_ne_nil _

end WordInt

/-- The text of an integer means the number next to it. -/
theorem Value.toNumber?_write (n : WordInt) :
    (str (String.ofList n.write)).toNumber? = some n.toBinary64 := by
  have hne : n.write.isEmpty = false := by
    simpa using n.write_ne_nil
  rw [toNumber?, String.toList_ofList, n.trim_write, hne, NumberText.readFinite_write]
  rfl

namespace Filter

/-- The filter gives the same number for an integer and for the text of its digits. The first
    integer beyond 64 bits with a sign aside, that number is the integer rounded to 53 significant
    bits, and so it is the integer itself if and only if the integer has no more of them. -/
theorem toNumber_integer (n : WordInt) (context : FilterContext) :
    ∃ q m, toNumber (.num (.int n)) context = .ok (.num q) ∧
      toNumber (.str (String.ofList n.write)) context = .ok (.num q) ∧
      Rounds n.val m ∧
      (m ≠ WordInt.maxSigned + 1 → q.IsInteger m ∧ (q.IsInteger n.val ↔ Holds n.val)) := by
  have htext : toNumber (.str (String.ofList n.write)) context =
      .ok (Value.ofBinary64? (some n.toBinary64)) := by
    rw [← Value.toNumber?_write]
    rfl
  refine ⟨Number.ofBinary64 n.toBinary64, rounded n.val, rfl, htext, rounds_rounded n.val,
    fun hm => ?_⟩
  have hq := Number.isInteger_ofBinary64 n.isInteger_toBinary64 hm
  refine ⟨hq, fun hn => ?_, fun hn => ?_⟩
  · rw [hn.unique hq]
    exact (rounds_rounded n.val).holds
  · rwa [Binary64.rounded_of_holds hn] at hq

/-- One more than `2⁵³` comes out of the filter as `2⁵³`, and so does the text of its digits. -/
theorem toNumber_loses_unit :
    let n : WordInt := ⟨9007199254740993, by decide⟩
    let q := Number.int ⟨9007199254740992, by decide⟩
    toNumber (.num (.int n)) ⟨"filter.toNumber", none, .null⟩ = .ok (.num q) ∧
      toNumber (.str "9007199254740993") ⟨"filter.toNumber", none, .null⟩ = .ok (.num q) ∧
      ¬ q.IsInteger n.val := by
  intro n q
  have hnumber : Value.ofBinary64? (Value.num (.int n)).toNumber? = .num q := by decide +kernel
  have htext : Value.ofBinary64? (Value.str "9007199254740993").toNumber? = .num q := by
    decide +kernel
  have hvalue : (9007199254740992 : Int) ≠ 9007199254740993 := by decide
  exact ⟨congrArg Except.ok hnumber, congrArg Except.ok htext, hvalue⟩

end Filter
end SchemaExtraction
