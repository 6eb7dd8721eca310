import SchemaExtraction.Proofs.Time.Calendar
import SchemaExtraction.Proofs.Time.Reading

/-!
# Written timestamps

An instant has a date that exists and a second of its day, and a leap second only comes after the
last second of a minute. All readers give such instants. Written, an instant of a year with four
digits is read back as itself; in any other year its text starts with a sign, and the reader of
timestamps refuses it.

Results:
* `wellFormed_of_readTimestamp`, `wellFormed_of_readDate`, `wellFormed_of_ofMilliseconds?`: what
  the readers give.
* `readTimestamp_write`: reading a written timestamp.
* `trim_write`, `T_mem_write`: it has no blanks at its ends, and a letter.
-/

namespace SchemaExtraction.Time

/-! ## Fields of digits -/

theorem length_padded {w n : Nat} (hw : 0 < w) (h : n < 10 ^ w) :
    (Timestamp.padded w n).length = w := by
  have hlen := length_decimalDigits_le hw h
  simp only [Timestamp.padded, List.length_append, List.length_replicate]
  omega

theorem isDigit_of_mem_padded {w n : Nat} {c : Char} (h : c ∈ Timestamp.padded w n) :
    c.isDigit = true := by
  simp only [Timestamp.padded, List.mem_append, List.mem_replicate] at h
  rcases h with ⟨-, rfl⟩ | h
  · decide
  · exact isDigit_of_mem_decimalDigits h

theorem digitsValue_padded (w n : Nat) : digitsValue (Timestamp.padded w n) = n := by
  have hzeros (k : Nat) (ds : List Char) :
      digitsValue (List.replicate k '0' ++ ds) = digitsValue ds := by
    induction k with
    | zero => rfl
    | succ k ih => exact ih
  rw [Timestamp.padded, hzeros, digitsValue_decimalDigits]

/-- A number is read back from a field that is wide enough for it. -/
theorem takeDigits?_padded {w n : Nat} (hw : 0 < w) (h : n < 10 ^ w) (rest : List Char) :
    takeDigits? w (Timestamp.padded w n ++ rest) = some (n, rest) := by
  have hlen := length_padded hw h
  have htake : (Timestamp.padded w n ++ rest).take w = Timestamp.padded w n := by
    rw [List.take_append_of_le_length (Nat.le_of_eq hlen.symm), List.take_of_length_le]
    exact Nat.le_of_eq hlen
  have hdrop : (Timestamp.padded w n ++ rest).drop w = rest := List.drop_left' hlen
  have hall : (Timestamp.padded w n).all Char.isDigit = true :=
    List.all_eq_true.mpr fun _ hc => isDigit_of_mem_padded hc
  simp [takeDigits?, htake, hdrop, hlen, hall, digitsValue_padded]

theorem takeChar?_cons (c : Char) (cs : List Char) : takeChar? c (c :: cs) = some cs := if_pos rfl

/-- A reader that goes on from what it has read. -/
theorem bind_of_some {α β : Type} {o : Option α} {f : α → Option β} {a : α} {r : Option β}
    (h : o = some a) (hf : f a = r) : o.bind f = r := by
  rw [h]
  exact hf

/-! ## Instants -/

namespace Timestamp

/-- Whether an instant is one: its date exists, its second is one of a day, and a leap second
    follows the last second of a minute. -/
structure WellFormed (t : Timestamp) : Prop where
  valid : t.date.valid = true
  second_lt : t.second < 86400
  leap : t.leap = true → t.second % 60 = 59

/-- Whether the year is one of RFC 3339, which has four digits. -/
def HasShortYear (t : Timestamp) : Prop := 0 ≤ t.date.year ∧ t.date.year ≤ 9999

instance (t : Timestamp) : Decidable t.HasShortYear :=
  inferInstanceAs (Decidable (0 ≤ t.date.year ∧ t.date.year ≤ 9999))

theorem wellFormed_ofSeconds {seconds : Int} {leap : Bool}
    (h : leap = true → seconds % 60 = 59) : (ofSeconds seconds leap).WellFormed where
  valid := Date.valid_ofDayNumber _
  second_lt := by
    show (seconds % 86400).toNat < 86400
    omega
  leap hl := by
    have hs := h hl
    show (seconds % 86400).toNat % 60 = 59
    omega

theorem wellFormed_of_readTimestamp {cs : List Char} {t : Timestamp}
    (h : readTimestamp cs = some t) : t.WellFormed := by
  obtain ⟨-, minute, second, rfl⟩ := exists_of_readTimestamp h
  apply wellFormed_ofSeconds
  intro hleap
  have hs : second = 60 := of_decide_eq_true hleap
  omega

theorem valid_of_inCalendar {d : Date} (h : inCalendar d = true) : d.valid = true := by
  simp only [inCalendar, Bool.and_eq_true] at h
  exact h.1.1

theorem wellFormed_ofDate {d : Date} (h : d.valid = true) : (ofDate d).WellFormed where
  valid := h
  second_lt := Nat.zero_lt_succ _
  leap := by simp [ofDate]

theorem wellFormed_of_readDate {cs : List Char} {d : Date} (h : readDate cs = some d) :
    (ofDate d).WellFormed := wellFormed_ofDate (valid_of_inCalendar (of_readDate h).1)

theorem wellFormed_of_ofMilliseconds? {millis : Int} {t : Timestamp}
    (h : ofMilliseconds? millis = some t) : t.WellFormed := by
  simp only [ofMilliseconds?] at h
  split at h
  case isFalse => cases h
  case isTrue =>
    cases h
    exact wellFormed_ofSeconds (by simp)

/-! ## Reading what was written -/

theorem writeYear_of_hasShortYear {t : Timestamp} (h : t.HasShortYear) :
    writeYear t.date.year = padded 4 t.date.year.toNat := by
  have hnat : t.date.year.natAbs = t.date.year.toNat := by
    have := h.1
    omega
  unfold writeYear
  exact (if_pos h).trans (by rw [hnat])

/-- The count of seconds that the date and the second of the day make is that of the instant. -/
theorem ofSeconds_self {t : Timestamp} (h : t.WellFormed) {seconds : Int}
    (hs : seconds = t.date.dayNumber * 86400 + t.second) : ofSeconds seconds t.leap = t := by
  have hlt := h.second_lt
  have hday : seconds / 86400 = t.date.dayNumber := by omega
  have hsecond : (seconds % 86400).toNat = t.second := by omega
  rw [ofSeconds, hday, hsecond, Date.ofDayNumber_dayNumber h.valid]

theorem writeYear_of_not_hasShortYear {t : Timestamp} (h : ¬ t.HasShortYear) :
    writeYear t.date.year =
      (if t.date.year < 0 then '-' else '+') :: padded 4 t.date.year.natAbs := by
  unfold writeYear
  exact if_neg h

/-- A year that is written with a sign is not read, for a timestamp starts with a digit. -/
theorem readTimestamp_write_of_not_hasShortYear {t : Timestamp} (h : ¬ t.HasShortYear) :
    readTimestamp t.write = none := by
  obtain ⟨c, cs, hw, hc⟩ : ∃ c cs, t.write = c :: cs ∧ c.isDigit = false := by
    rw [write, writeYear_of_not_hasShortYear h]
    refine ⟨_, _, rfl, ?_⟩
    split <;> decide
  have htake : takeDigits? 4 (c :: cs) = none := by simp [takeDigits?, hc]
  rw [hw, readTimestamp, htake]
  rfl

/-- The second as it is written is the 60th in a leap second, and tells it from all others. -/
theorem second_write {t : Timestamp} (h : t.WellFormed) {s : Nat}
    (hs : s = t.second % 60 + if t.leap then 1 else 0) :
    s ≤ 60 ∧ decide (s = 60) = t.leap ∧ min s 59 = t.second % 60 := by
  cases hl : t.leap with
  | false =>
    rw [hl, if_neg (by decide)] at hs
    refine ⟨by omega, decide_eq_false ?_, by omega⟩
    omega
  | true =>
    have hlast := h.leap hl
    rw [hl, if_pos rfl] at hs
    refine ⟨by omega, decide_eq_true ?_, by omega⟩
    omega

/-- The reader goes through the fields one by one, each of which is as wide as it asks for. -/
theorem readTimestamp_write_of_hasShortYear {t : Timestamp} (h : t.WellFormed)
    (hy : t.HasShortYear) : readTimestamp t.write = some t := by
  obtain ⟨hmonth, hday⟩ := Date.lt_of_valid h.valid
  have hlt := h.second_lt
  have hyear : t.date.year.toNat < 10 ^ 4 := by
    have := hy.2
    omega
  have hcast : (t.date.year.toNat : Int) = t.date.year := Int.toNat_of_nonneg hy.1
  obtain ⟨s, hs⟩ : ∃ s, s = t.second % 60 + if t.leap then 1 else 0 := ⟨_, rfl⟩
  obtain ⟨hs60, hleap, hmin⟩ := second_write h hs
  have hclock : t.second / 3600 < 24 ∧ t.second / 60 % 60 < 60 := by omega
  have hfield (n : Nat) (hn : n < 100) (rest : List Char) :
      takeDigits? 2 (padded 2 n ++ rest) = some (n, rest) :=
    takeDigits?_padded (by decide) hn rest
  have hdate : (⟨(t.date.year.toNat : Int), t.date.month, t.date.day⟩ : Date) = t.date := by
    rw [hcast]
  rw [write, writeYear_of_hasShortYear hy, ← hs]
  simp only [List.append_assoc, List.cons_append]
  refine bind_of_some (takeDigits?_padded (by decide) hyear _) ?_
  refine bind_of_some (takeChar?_cons '-' _) (bind_of_some (hfield t.date.month hmonth _) ?_)
  refine bind_of_some (takeChar?_cons '-' _) (bind_of_some (hfield t.date.day hday _) ?_)
  refine (if_pos (.inl rfl)).trans ?_
  refine bind_of_some (hfield (t.second / 3600) (by omega) _) ?_
  refine bind_of_some (takeChar?_cons ':' _)
    (bind_of_some (hfield (t.second / 60 % 60) (by omega) _) ?_)
  refine bind_of_some (takeChar?_cons ':' _) (bind_of_some (hfield s (by omega) _) ?_)
  refine bind_of_some (a := ['Z']) rfl (bind_of_some (a := (0, [])) rfl ?_)
  dsimp only
  rw [hdate, hleap, hmin, if_pos ⟨h.valid, hclock.1, hclock.2, hs60, rfl⟩]
  refine congrArg some (ofSeconds_self h ?_)
  omega

/-- A written instant is read back as itself if its year has four digits, and else refused. -/
theorem readTimestamp_write {t : Timestamp} (h : t.WellFormed) :
    readTimestamp t.write = if t.HasShortYear then some t else none := by
  split
  case isTrue hy => exact readTimestamp_write_of_hasShortYear h hy
  case isFalse hy => exact readTimestamp_write_of_not_hasShortYear hy

/-! ## The ends of what was written -/

theorem writeYear_eq_cons (year : Int) :
    ∃ c cs, writeYear year = c :: cs ∧ Text.isBlank c = false := by
  unfold writeYear
  split
  case isTrue h =>
    have hlen : (padded 4 year.natAbs).length = 4 := length_padded (by decide) (by omega)
    obtain ⟨c, cs, hp⟩ := List.exists_cons_of_length_pos (l := padded 4 year.natAbs) (by omega)
    refine ⟨c, cs, hp, Text.isBlank_of_isDigit ?_⟩
    apply isDigit_of_mem_padded (w := 4) (n := year.natAbs)
    rw [hp]
    exact List.mem_cons_self
  case isFalse =>
    refine ⟨_, _, rfl, ?_⟩
    split <;> decide

/-- A written timestamp starts with a digit or a sign and ends with a letter. -/
theorem trim_write (t : Timestamp) : Text.trim t.write = t.write := by
  apply Text.trim_eq_self
  · obtain ⟨c, cs, hyear, hc⟩ := writeYear_eq_cons t.date.year
    rw [write, hyear]
    simpa using hc
  · rw [write, List.getLast?_concat]
    simp
    decide

theorem T_mem_write (t : Timestamp) : 'T' ∈ t.write := by
  simp [write]

end Timestamp
end SchemaExtraction.Time
