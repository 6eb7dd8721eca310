import SchemaExtraction.Filter.Builtin
import SchemaExtraction.Proofs.Time.Written
import SchemaExtraction.Proofs.Value.Joining

/-!
# The filter of timestamps

Whatever the filter finds an instant in, it writes as text, and it reads that text as a timestamp
if the year has four digits. Such a text is left alone when the filter is used again, and wins when
it is combined with another value. The text of any other year is not a timestamp: the filter does
not read it again, and gives null.

Results:
* `wellFormed_of_timestamp?`: the instants that the filter finds.
* `toDate_toDate`: the output of the filter, for the merge and for the filter itself.
-/

namespace SchemaExtraction.Filter

open Time (Timestamp)

/-- The text of an instant as a value. -/
def written (t : Timestamp) : Value := .str (String.ofList t.write)

theorem toDate_eq (v : Value) (context : FilterContext) :
    toDate v context = .ok (((timestamp? v).map written).getD .null) := by
  unfold toDate
  cases timestamp? v <;> rfl

/-- The filter finds instants that are well formed in text, in plain dates and in numbers. -/
theorem wellFormed_of_timestamp? {v : Value} {t : Timestamp} (h : timestamp? v = some t) :
    t.WellFormed := by
  unfold timestamp? at h
  split at h
  case h_1 s =>
    simp only [Option.orElse_eq_or, Option.or_eq_some_iff, Option.map_eq_some_iff] at h
    rcases h with h | ⟨-, d, hd, rfl⟩
    · exact Time.Timestamp.wellFormed_of_readTimestamp h
    · exact Time.Timestamp.wellFormed_of_readDate hd
  case h_2 n =>
    split at h
    case isTrue => exact Time.Timestamp.wellFormed_of_ofMilliseconds? h
    case isFalse => cases h
  case h_3 => cases h

theorem timestamp?_written {t : Timestamp} (h : t.WellFormed) :
    timestamp? (written t) = if t.HasShortYear then some t else none := by
  unfold timestamp? written
  simp only [String.toList_ofList, t.trim_write, Time.Timestamp.readTimestamp_write h,
    Time.readDate_eq_none t.T_mem_write]
  split <;> rfl

theorem dateLike_written {t : Timestamp} (h : t.WellFormed) :
    (written t).dateLike = true ↔ t.HasShortYear := by
  unfold Value.dateLike written
  simp only [String.toList_ofList, Time.Timestamp.readTimestamp_write h]
  split <;> simp_all

/-- What the filter gives is a timestamp if and only if the year has four digits. Then it wins over
    whatever it is combined with, and the filter leaves it alone; else the filter gives null. -/
theorem toDate_toDate {v w : Value} {context : FilterContext} (h : toDate v context = .ok w)
    (hw : w ≠ .null) :
    ∃ t, timestamp? v = some t ∧ w = written t ∧ (w.dateLike = true ↔ t.HasShortYear) ∧
      (t.HasShortYear → ∀ other, w.merge other = w) ∧
      ∀ context', toDate w context' = .ok (if t.HasShortYear then w else .null) := by
  rw [toDate_eq] at h
  cases ht : timestamp? v with
  | none =>
    rw [ht] at h
    cases h
    exact absurd rfl hw
  | some t =>
    rw [ht] at h
    obtain rfl : written t = w := Except.ok.inj h
    have hwf := wellFormed_of_timestamp? ht
    have hdate := dateLike_written hwf
    refine ⟨t, rfl, rfl, hdate, ?_, ?_⟩
    · intro hy other
      exact Value.merge_of_dateLike (hdate.mpr hy) other
    · intro context'
      rw [toDate_eq, timestamp?_written hwf]
      split <;> rfl

/-- An instant with an offset from universal time. -/
theorem toDate_toDate_offset :
    toDate (.str "2021-03-04T07:00:00+02:00") ⟨"filter.toDate", none, .null⟩ =
        .ok (.str "2021-03-04T05:00:00Z") ∧
      (.str "2021-03-04T05:00:00Z" : Value) ≠ .null ∧
      (.str "2021-03-04T05:00:00Z" : Value).dateLike = true ∧
      toDate (.str "2021-03-04T05:00:00Z") ⟨"filter.toDate", none, .null⟩ =
        .ok (.str "2021-03-04T05:00:00Z") := by
  have h : toDate (.str "2021-03-04T07:00:00+02:00") ⟨"filter.toDate", none, .null⟩ =
      .ok (.str "2021-03-04T05:00:00Z") := by decide +kernel
  have hw : (.str "2021-03-04T05:00:00Z" : Value) ≠ .null := by decide
  obtain ⟨t, -, -, hdate, -, hagain⟩ := toDate_toDate h hw
  have hy : t.HasShortYear := by
    apply hdate.mp
    decide
  exact ⟨h, hw, hdate.mpr hy, (hagain _).trans (by rw [if_pos hy])⟩

/-- The first second of the year 10000: its text is not a timestamp, so that it is joined to the
    text after it, and the filter turns it into null. -/
theorem toDate_loses_far_year :
    toDate (.num (.int ⟨253402300800000, by decide⟩)) ⟨"filter.toDate", none, .null⟩ =
        .ok (.str "+10000-01-01T00:00:00Z") ∧
      (.str "+10000-01-01T00:00:00Z" : Value).dateLike = false ∧
      Value.merge (.str "+10000-01-01T00:00:00Z") (.str "late") =
        .str "+10000-01-01T00:00:00Z late" ∧
      toDate (.str "+10000-01-01T00:00:00Z") ⟨"filter.toDate", none, .null⟩ = .ok .null := by
  decide +kernel

end SchemaExtraction.Filter
