import SchemaExtraction.Time.Timestamp

/-!
# What the readers of time take from a text

Each reader leaves an end of the text, and what it takes before that end is of few characters. So a
timestamp has no blank but the one that may stand between the date and the time of day, and a plain
date has no letter.

Results:
* `exists_of_readTimestamp`: the parts of a text that reads as a timestamp, and its instant.
* `exists_year_of_readTimestamp`: how it begins.
* `count_space_of_readTimestamp`: at most one space is in it.
* `of_readDate`: a text that reads as a plain date, and the date.
* `readDate_eq_none`: a text with the letter before a time of day is not a plain date.
-/

namespace SchemaExtraction.Time

/-! ## Leaving an end -/

/-- `rest` is what stays of a text when characters of a class are taken from its front. -/
def Leaves (p : Char → Prop) (cs rest : List Char) : Prop :=
  ∃ taken, cs = taken ++ rest ∧ ∀ c ∈ taken, p c

namespace Leaves

variable {p q : Char → Prop} {c : Char} {cs ds es : List Char}

theorem refl (cs : List Char) : Leaves p cs cs := ⟨[], rfl, by simp⟩

theorem head (h : p c) : Leaves p (c :: cs) cs := ⟨[c], rfl, by simpa using h⟩

theorem trans (h : Leaves p cs ds) (h' : Leaves p ds es) : Leaves p cs es := by
  obtain ⟨as, rfl, ha⟩ := h
  obtain ⟨bs, rfl, hb⟩ := h'
  refine ⟨as ++ bs, (List.append_assoc ..).symm, fun c hc => ?_⟩
  exact (List.mem_append.mp hc).elim (ha c) (hb c)

theorem mono (h : Leaves p cs ds) (hpq : ∀ c, p c → q c) : Leaves q cs ds := by
  obtain ⟨as, rfl, ha⟩ := h
  exact ⟨as, rfl, fun c hc => hpq c (ha c hc)⟩

/-- A text of which nothing is left is all of the class. -/
theorem forall_mem (h : Leaves p cs []) : ∀ c ∈ cs, p c := by
  obtain ⟨as, rfl, ha⟩ := h
  rwa [List.append_nil]

end Leaves

theorem leaves_dropWhile (p : Char → Bool) (cs : List Char) :
    Leaves (fun c => p c = true) cs (cs.dropWhile p) :=
  ⟨cs.takeWhile p, List.takeWhile_append_dropWhile.symm, List.all_eq_true.mp List.all_takeWhile⟩

/-! ## Digits and marks -/

theorem exists_of_takeDigits? {n k : Nat} {cs rest : List Char}
    (h : takeDigits? n cs = some (k, rest)) :
    ∃ ds, cs = ds ++ rest ∧ ds.length = n ∧ ∀ c ∈ ds, c.isDigit = true := by
  simp only [takeDigits?] at h
  split at h
  case isTrue hd =>
    simp only [Bool.and_eq_true, decide_eq_true_eq, List.all_eq_true] at hd
    obtain ⟨rfl, rfl⟩ := h
    exact ⟨cs.take n, (List.take_append_drop n cs).symm, hd⟩
  case isFalse => cases h

theorem leaves_takeDigits? {n k : Nat} {cs rest : List Char}
    (h : takeDigits? n cs = some (k, rest)) : Leaves (fun c => c.isDigit = true) cs rest := by
  obtain ⟨ds, rfl, -, hd⟩ := exists_of_takeDigits? h
  exact ⟨ds, rfl, hd⟩

theorem eq_cons_of_takeChar? {c : Char} {cs rest : List Char} (h : takeChar? c cs = some rest) :
    cs = c :: rest := by
  cases cs with
  | nil => cases h
  | cons d ds =>
    rw [takeChar?] at h
    split at h
    case isTrue hd =>
      cases h
      rw [hd]
    case isFalse => cases h

theorem leaves_takeChar? {c : Char} {cs rest : List Char} (h : takeChar? c cs = some rest) :
    Leaves (· = c) cs rest := by
  rw [eq_cons_of_takeChar? h]
  exact .head rfl

/-- Some digits of which the first ones are taken. -/
theorem leaves_drop_digits {p : Char → Bool} (k : Nat) (cs : List Char) :
    Leaves (fun c => p c = true) cs (cs.drop ((cs.takeWhile p).take k).length) := by
  refine ⟨(cs.takeWhile p).take k, ?_, ?_⟩
  · have htake : (cs.takeWhile p).take k = cs.take ((cs.takeWhile p).take k).length :=
      List.prefix_iff_eq_take.mp ((List.take_prefix k _).trans (List.takeWhile_prefix p))
    have happ := List.take_append_drop ((cs.takeWhile p).take k).length cs
    rw [← htake] at happ
    exact happ.symm
  · intro c hc
    exact List.all_eq_true.mp List.all_takeWhile c (List.mem_of_mem_take hc)

/-! ## Timestamps -/

section

variable {cs rest : List Char}

theorem noSpace_takeDigits? {n k : Nat} (h : takeDigits? n cs = some (k, rest)) :
    Leaves (· ≠ ' ') cs rest := by
  refine (leaves_takeDigits? h).mono ?_
  rintro c hc rfl
  exact absurd hc (by decide)

theorem noSpace_takeChar? {c : Char} (hc : c ≠ ' ') (h : takeChar? c cs = some rest) :
    Leaves (· ≠ ' ') cs rest := by
  refine (leaves_takeChar? h).mono ?_
  rintro _ rfl
  exact hc

theorem noSpace_skipFraction? (h : skipFraction? cs = some rest) : Leaves (· ≠ ' ') cs rest := by
  unfold skipFraction? at h
  split at h
  case h_1 cs =>
    split at h
    case isTrue => cases h
    case isFalse =>
      cases h
      refine .trans (.head (by decide)) ((leaves_dropWhile _ cs).mono ?_)
      rintro c hc rfl
      exact absurd hc (by decide)
  case h_2 =>
    cases h
    exact .refl _

theorem noSpace_takeOffset? {minutes : Int} (h : takeOffset? cs = some (minutes, rest)) :
    Leaves (· ≠ ' ') cs rest := by
  cases cs with
  | nil => cases h
  | cons c cs =>
    rw [takeOffset?] at h
    split at h
    case isTrue hc =>
      cases h
      refine .head ?_
      rcases hc with rfl | rfl <;> decide
    split at h
    case isFalse.isFalse => cases h
    case isFalse.isTrue hc =>
      have hsign : c ≠ ' ' := by rcases hc with rfl | rfl | rfl <;> decide
      simp only [Option.bind_eq_bind, Option.bind_eq_some_iff] at h
      obtain ⟨⟨hours, cs₁⟩, h₁, cs₂, h₂, ⟨m, cs₃⟩, h₃, h⟩ := h
      split at h
      case isFalse => cases h
      case isTrue =>
        cases h
        exact .trans (.head hsign) (.trans (noSpace_takeDigits? h₁)
          (.trans (noSpace_takeChar? (by decide) h₂) (noSpace_takeDigits? h₃)))

end

/-- The parts of a text that reads as a timestamp, and the instant that it means: a second of some
    minute, or the leap second that follows the last one. -/
theorem exists_of_readTimestamp {cs : List Char} {t : Timestamp} (h : readTimestamp cs = some t) :
    (∃ front sep back, cs = front ++ sep :: back ∧ (∀ c ∈ front, c ≠ ' ') ∧ ∀ c ∈ back, c ≠ ' ') ∧
      ∃ (minute : Int) (second : Nat),
        t = .ofSeconds (60 * minute + min second 59) (second = 60) := by
  unfold readTimestamp at h
  simp only [Option.bind_eq_bind, Option.bind_eq_some_iff] at h
  obtain ⟨⟨year, cs₁⟩, h₁, cs₂, h₂, ⟨month, cs₃⟩, h₃, cs₄, h₄, ⟨day, cs₅⟩, h₅, h⟩ := h
  have hfront : Leaves (· ≠ ' ') cs cs₅ :=
    .trans (noSpace_takeDigits? h₁) (.trans (noSpace_takeChar? (by decide) h₂)
      (.trans (noSpace_takeDigits? h₃) (.trans (noSpace_takeChar? (by decide) h₄)
        (noSpace_takeDigits? h₅))))
  split at h
  case h_1 => cases h
  case h_2 sep cs₆ hsep =>
    split at h
    case isFalse => cases h
    simp only [Option.bind_eq_some_iff] at h
    obtain ⟨⟨hour, cs₇⟩, h₇, cs₈, h₈, ⟨minute, cs₉⟩, h₉, cs₁₀, h₁₀, ⟨second, cs₁₁⟩, h₁₁, cs₁₂, h₁₂,
      ⟨offset, rest⟩, h₁₃, h⟩ := h
    -- after the separator nothing that is read is a space
    have hback : Leaves (· ≠ ' ') cs₆ rest :=
      .trans (noSpace_takeDigits? h₇) (.trans (noSpace_takeChar? (by decide) h₈)
        (.trans (noSpace_takeDigits? h₉) (.trans (noSpace_takeChar? (by decide) h₁₀)
          (.trans (noSpace_takeDigits? h₁₁) (.trans (noSpace_skipFraction? h₁₂)
            (noSpace_takeOffset? h₁₃))))))
    split at h
    case isFalse => cases h
    case isTrue hok =>
      cases h
      obtain ⟨-, -, -, -, hrest⟩ := hok
      obtain rfl := List.isEmpty_iff.mp hrest
      constructor
      · obtain ⟨front, rfl, hf⟩ := hfront
        exact ⟨front, sep, cs₆, congrArg (front ++ ·) hsep, hf, hback.forall_mem⟩
      · refine ⟨Date.dayNumber ⟨year, month, day⟩ * 1440 + hour * 60 + minute - offset, second, ?_⟩
        congr 1
        omega

/-- A text that reads as a timestamp begins with the digits of the year and a hyphen. -/
theorem exists_year_of_readTimestamp {cs : List Char} (h : (readTimestamp cs).isSome) :
    ∃ d ds rest, cs = d :: ds ++ '-' :: rest ∧ ∀ c ∈ d :: ds, c.isDigit = true := by
  obtain ⟨t, ht⟩ := Option.isSome_iff_exists.mp h
  unfold readTimestamp at ht
  simp only [Option.bind_eq_bind, Option.bind_eq_some_iff] at ht
  obtain ⟨⟨year, cs₁⟩, h₁, cs₂, h₂, -⟩ := ht
  obtain ⟨ds, rfl, hlength, hd⟩ := exists_of_takeDigits? h₁
  obtain ⟨d, ds, rfl⟩ := List.exists_cons_of_length_eq_add_one hlength
  exact ⟨d, ds, cs₂, congrArg (d :: ds ++ ·) (eq_cons_of_takeChar? h₂), hd⟩

/-- At most one space is in a text that reads as a timestamp. -/
theorem count_space_of_readTimestamp {cs : List Char} (h : (readTimestamp cs).isSome) :
    cs.count ' ' ≤ 1 := by
  obtain ⟨t, ht⟩ := Option.isSome_iff_exists.mp h
  obtain ⟨⟨front, sep, back, rfl, hf, hb⟩, -⟩ := exists_of_readTimestamp ht
  have hfront : front.count ' ' = 0 := List.count_eq_zero.mpr fun hc => hf _ hc rfl
  have hback : back.count ' ' = 0 := List.count_eq_zero.mpr fun hc => hb _ hc rfl
  rw [List.count_append, List.count_cons, hfront, hback]
  split <;> omega

/-! ## Plain dates -/

/-- The characters that a plain date can have. -/
def inDate (c : Char) : Prop :=
  c.isDigit = true ∨ Text.isBlank c = true ∨ c = '-' ∨ c = '+'

section

variable {cs rest : List Char}

theorem leaves_takeShort? {n : Nat} (h : takeShort? cs = some (n, rest)) :
    Leaves inDate cs rest := by
  simp only [takeShort?, Option.map_eq_some_iff, Prod.mk.injEq] at h
  obtain ⟨_, -, -, rfl⟩ := h
  exact .trans ((leaves_dropWhile _ cs).mono fun _ hc => .inr (.inl hc))
    ((leaves_drop_digits 2 _).mono fun _ hc => .inl hc)

theorem leaves_takeYear? {n : Int} (h : takeYear? cs = some (n, rest)) :
    Leaves inDate cs rest := by
  have hblank : Leaves inDate cs (cs.dropWhile Text.isBlank) :=
    (leaves_dropWhile _ cs).mono fun _ hc => .inr (.inl hc)
  refine hblank.trans ?_
  have hdigits (cs : List Char) : Leaves inDate cs (cs.dropWhile Char.isDigit) :=
    (leaves_dropWhile _ cs).mono fun _ hc => .inl hc
  unfold takeYear? at h
  split at h
  case h_1 ds hds =>
    simp only [Option.map_eq_some_iff, Prod.mk.injEq] at h
    obtain ⟨_, -, -, rfl⟩ := h
    rw [hds]
    exact .trans (.head (by simp [inDate])) (hdigits ds)
  case h_2 ds hds =>
    simp only [Option.map_eq_some_iff, Prod.mk.injEq] at h
    obtain ⟨_, -, -, rfl⟩ := h
    rw [hds]
    exact .trans (.head (by simp [inDate])) (hdigits ds)
  case h_3 =>
    simp only [Option.map_eq_some_iff, Prod.mk.injEq] at h
    obtain ⟨_, -, -, rfl⟩ := h
    exact (leaves_drop_digits 4 _).mono fun _ hc => .inl hc

/-- A plain date is one of the calendar, and all of its characters are those of a date. -/
theorem of_readDate {d : Date} (h : readDate cs = some d) :
    inCalendar d = true ∧ ∀ c ∈ cs, inDate c := by
  unfold readDate at h
  simp only [Option.bind_eq_bind, Option.bind_eq_some_iff] at h
  obtain ⟨⟨year, cs₁⟩, h₁, cs₂, h₂, ⟨month, cs₃⟩, h₃, cs₄, h₄, ⟨day, rest⟩, h₅, h⟩ := h
  have hmark {cs rest : List Char} (h : takeChar? '-' cs = some rest) : Leaves inDate cs rest :=
    (leaves_takeChar? h).mono fun _ hc => .inr (.inr (.inl hc))
  have hall : Leaves inDate cs rest :=
    .trans (leaves_takeYear? h₁) (.trans (hmark h₂) (.trans (leaves_takeShort? h₃)
      (.trans (hmark h₄) (leaves_takeShort? h₅))))
  split at h
  case isFalse => cases h
  case isTrue hok =>
    cases h
    obtain rfl := List.isEmpty_iff.mp hok.1
    exact ⟨hok.2, hall.forall_mem⟩

end

/-- The letter that stands before a time of day is in no plain date. -/
theorem readDate_eq_none {cs : List Char} (h : 'T' ∈ cs) : readDate cs = none := by
  cases hd : readDate cs with
  | none => rfl
  | some d =>
    have hT := (of_readDate hd).2 'T' h
    exact absurd hT (by simp [inDate]; decide)

end SchemaExtraction.Time
