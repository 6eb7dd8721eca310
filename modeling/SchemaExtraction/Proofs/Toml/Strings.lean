import Mathlib.Data.List.Infix
import Mathlib.Tactic.SplitIfs
import SchemaExtraction.Toml.Quoting

/-!
# Strings read back

A string is read back from whatever style it was written in. In a style with escapes this is so for
every string: a character either stands as it is, or is an escape that stands for it. In a style
without escapes it is so for the strings that the style is chosen for. In strings of several lines
no more than two quotation marks stand in a row, so that three of them close the string, with those
that stand right before them.

Results:
* `replicate_infix_le_longestRun`: how long runs of a character are.
* `escape_cons_cases`: how a character is written.
* `readBasic_escape`, `readLiteral_append`, `readLines_escape`, `readLines_append`: reading up to
  the closing marks.
* `readString_writeString`: a string in the style that suits it is read back.
-/

namespace SchemaExtraction.Toml

variable {c m : Char} {cs ds s rest : List Char} {fuel run : Nat} {lines escapes : Bool}

/-! ## Runs of a character -/

theorem le_longestRun (c : Char) (now best : Nat) (cs : List Char) :
    best ≤ longestRun c now best cs := by
  induction cs generalizing now best with
  | nil => exact Nat.le_refl best
  | cons d cs ih =>
    rw [longestRun]
    split
    · exact Nat.le_trans (Nat.le_max_left ..) (ih _ _)
    · exact ih _ _

theorem replicate_prefix_le_longestRun {k : Nat} (h : List.replicate (k + 1) c <+: cs)
    (now best : Nat) : now + k + 1 ≤ longestRun c now best cs := by
  induction k generalizing cs now best with
  | zero =>
    obtain ⟨ds, rfl⟩ := h
    rw [List.replicate_one, List.singleton_append, longestRun, if_pos rfl]
    exact Nat.le_trans (Nat.le_max_right ..) (le_longestRun ..)
  | succ k ih =>
    obtain ⟨ds, rfl⟩ := h
    rw [List.replicate_succ, List.cons_append, longestRun, if_pos rfl]
    have hrun := ih (List.prefix_append _ ds) (now + 1) (max best (now + 1))
    omega

/-- A run of a character is not longer than the longest one. -/
theorem replicate_infix_le_longestRun {k : Nat} (h : List.replicate (k + 1) c <:+: cs)
    (now best : Nat) : k + 1 ≤ longestRun c now best cs := by
  induction cs generalizing now best with
  | nil => simp at h
  | cons d cs ih =>
    rcases List.infix_cons_iff.1 h with h | h
    · have hrun := replicate_prefix_le_longestRun h now best
      omega
    · rw [longestRun]
      split <;> exact ih h _ _

/-! ## Escapes -/

theorem hexValue?_hexUpper : ∀ n < 16, hexValue? (hexUpper n) = some n := by decide

/-- Two hexadecimal digits name a character below 256. -/
theorem takeCodePoint?_hexUpper {n : Nat} (h : n < 256) (rest : List Char) :
    takeCodePoint? 4 ('0' :: '0' :: hexUpper (n / 16) :: hexUpper (n % 16) :: rest) =
      some (Char.ofNat n, rest) := by
  have hhigh := hexValue?_hexUpper (n / 16) (by omega)
  have hlow := hexValue?_hexUpper (n % 16) (by omega)
  have hzero : hexValue? '0' = some 0 := rfl
  have hn : n / 16 * 16 + n % 16 = n := by omega
  have hvalid : n.isValidChar := Or.inl (by omega)
  simp [takeCodePoint?, hexNumber?, hzero, hhigh, hlow, hn, hvalid]

theorem takeEscape?_escapeControl (h : c.toNat < 0x20 ∨ c.toNat = 0x7F) :
    ∃ es, escapeControl c = '\\' :: es ∧ ∀ rest, takeEscape? (es ++ rest) = some (c, rest) := by
  have hc : Char.ofNat c.toNat = c := Char.ofNat_toNat c
  rw [escapeControl]
  split_ifs with h8 h9 h10 h12 h13
  · exact ⟨['b'], rfl, fun rest => by rw [← hc, h8]; rfl⟩
  · exact ⟨['t'], rfl, fun rest => by rw [h9]; rfl⟩
  · exact ⟨['n'], rfl, fun rest => by rw [h10]; rfl⟩
  · exact ⟨['f'], rfl, fun rest => by rw [← hc, h12]; rfl⟩
  · exact ⟨['r'], rfl, fun rest => by rw [h13]; rfl⟩
  · refine ⟨_, rfl, fun rest => ?_⟩
    have hcode := takeCodePoint?_hexUpper (n := c.toNat) (by omega) rest
    rwa [hc] at hcode

/-- A character is written as it is, or by an escape that stands for it. Only so many quotation
    marks in a row stand as they are, and line feeds only in strings of several lines. -/
theorem escape_cons_cases (lines : Bool) (run : Nat) (c : Char) (cs : List Char) :
    (escape lines run (c :: cs) = c :: escape lines (if c = '"' then run + 1 else 0) cs ∧
      c ≠ '\\' ∧ (c = '"' → run < if lines then 2 else 0) ∧
      (c = '\n' ∧ lines = true ∨ isPlain c = true)) ∨
    ∃ es, escape lines run (c :: cs) = '\\' :: (es ++ escape lines 0 cs) ∧
      ∀ rest, takeEscape? (es ++ rest) = some (c, rest) := by
  rw [escape]
  by_cases hquote : c = '"'
  · subst hquote
    by_cases hrun : run < if lines then 2 else 0
    · exact .inl ⟨by rw [if_pos rfl, if_pos hrun, if_pos rfl], by decide, fun _ => hrun, .inr rfl⟩
    · exact .inr ⟨['"'], by rw [if_pos rfl, if_neg hrun]; rfl, fun rest => rfl⟩
  rw [if_neg hquote, if_neg hquote]
  by_cases hbackslash : c = '\\'
  · subst hbackslash
    exact .inr ⟨['\\'], by rw [if_pos rfl]; rfl, fun rest => rfl⟩
  rw [if_neg hbackslash]
  by_cases hbreak : c = '\n' ∧ lines = true
  · exact .inl ⟨by rw [if_pos hbreak], hbackslash, fun h => absurd h hquote, .inl hbreak⟩
  rw [if_neg hbreak]
  by_cases hcontrol : c.toNat < 0x20 ∨ c.toNat = 0x7F
  · obtain ⟨es, hes, htake⟩ := takeEscape?_escapeControl hcontrol
    exact .inr ⟨es, by rw [if_pos hcontrol, hes, List.cons_append], htake⟩
  · have hplain : isPlain c = true := by
      simp [isPlain]
      omega
    exact .inl ⟨by rw [if_neg hcontrol], hbackslash, fun h => absurd h hquote, .inr hplain⟩

theorem length_le_length_escape (lines : Bool) (run : Nat) (cs : List Char) :
    cs.length ≤ (escape lines run cs).length := by
  induction cs generalizing run with
  | nil => exact Nat.zero_le _
  | cons c cs ih =>
    rcases escape_cons_cases lines run c cs with ⟨he, -⟩ | ⟨es, he, -⟩
    · rw [he]
      exact Nat.succ_le_succ (ih _)
    · have := ih 0
      rw [he, List.length_cons, List.length_cons, List.length_append]
      omega

/-! ## Strings of one line -/

/-- In a string of one line no quotation mark stands as it is. -/
theorem readBasic_escape (hfuel : cs.length < fuel) (run : Nat) (rest : List Char) :
    readBasic fuel (escape false run cs ++ '"' :: rest) = some (cs, rest) := by
  induction cs generalizing fuel run with
  | nil =>
    obtain ⟨fuel, rfl⟩ := Nat.exists_eq_add_one_of_ne_zero (Nat.ne_zero_of_lt hfuel)
    rfl
  | cons c cs ih =>
    obtain ⟨fuel, rfl⟩ := Nat.exists_eq_add_one_of_ne_zero (Nat.ne_zero_of_lt hfuel)
    have hread (next : Nat) := ih (Nat.lt_of_succ_lt_succ hfuel) next
    rcases escape_cons_cases false run c cs with
      ⟨he, hbackslash, hquote, hbreak | hplain⟩ | ⟨es, he, htake⟩
    · cases hbreak.2
    · have hc : c ≠ '"' := fun h => Nat.not_lt_zero _ (hquote h)
      rw [he, List.cons_append, readBasic, if_neg hc, if_neg hbackslash, if_pos hplain, hread]
      rfl
    · rw [he, List.cons_append, readBasic, if_neg (by decide), if_pos rfl, List.append_assoc, htake]
      exact congrArg (Option.bind · _) (hread 0)

theorem readLiteral_append (h : ∀ c ∈ cs, isPlain c = true ∧ c ≠ '\'') (rest : List Char) :
    readLiteral (cs ++ '\'' :: rest) = some (cs, rest) := by
  induction cs with
  | nil => rfl
  | cons c cs ih =>
    obtain ⟨⟨hplain, hmark⟩, hcs⟩ := List.forall_mem_cons.1 h
    rw [List.cons_append, readLiteral, if_neg hmark, if_pos hplain, ih hcs]
    rfl

/-! ## Strings of several lines -/

/-- What closes a string of several lines: three marks, and before them no more than two that
    belong to the string. -/
theorem closeLines?_append (hcs : ¬ List.replicate 3 m <+: cs) (hrest : rest.head? ≠ some m) :
    closeLines? m (cs ++ m :: m :: m :: rest) =
      if cs.all (· = m) then some (cs, rest) else none := by
  match cs with
  | [] =>
    match rest with
    | [] => simp [closeLines?]
    | [d] => simp_all [closeLines?]
    | d :: e :: rest => simp_all [closeLines?]
  | [a] =>
    match rest with
    | [] => by_cases ha : a = m <;> simp [closeLines?, ha]
    | e :: rest => by_cases ha : a = m <;> simp_all [closeLines?]
  | [a, b] => by_cases ha : a = m <;> by_cases hb : b = m <;> simp [closeLines?, ha, hb]
  | a :: b :: c :: cs =>
    have hne : ¬ (a = m ∧ b = m ∧ c = m) := by
      rintro ⟨rfl, rfl, rfl⟩
      exact hcs ⟨cs, rfl⟩
    have hall : ¬ (a :: b :: c :: cs).all (· = m) = true := fun h => by
      simp only [List.all_cons, Bool.and_eq_true, decide_eq_true_eq] at h
      exact hne ⟨h.1, h.2.1, h.2.2.1⟩
    rw [if_neg hall]
    simp [closeLines?, hne]

theorem takeBreak?_of_isPlain (h : isPlain c = true) (cs : List Char) :
    takeBreak? (c :: cs) = none := by
  rw [takeBreak?]
  · rintro ds ⟨⟩
    cases h
  · rintro ds ⟨⟩
    cases h

/-- What follows a backslash that is an escape does not join lines. -/
theorem joinLines?_of_takeEscape? {p : Char × List Char} (h : takeEscape? cs = some p) :
    joinLines? cs = none := by
  unfold takeEscape? at h
  split at h <;> first | rfl | cases h

/-- Where the string is closed, nothing more is read. -/
theorem readLines_of_closeLines? {p : List Char × List Char} (h : closeLines? m cs = some p) :
    readLines m escapes (fuel + 1) cs = some p := by
  unfold readLines
  rw [h]

/-- A character that stands as it is, where the string is not closed. -/
theorem readLines_cons (hclose : closeLines? m (c :: cs) = none)
    (hbackslash : ¬ (c = '\\' ∧ escapes = true)) (hc : c = '\n' ∨ isPlain c = true)
    (hread : readLines m escapes fuel cs = some (s, rest)) :
    readLines m escapes (fuel + 1) (c :: cs) = some (c :: s, rest) := by
  unfold readLines
  rcases hc with rfl | hplain
  · simp only [hclose, takeBreak?, hread]
    rfl
  · simp only [hclose, takeBreak?_of_isPlain hplain, if_neg hbackslash, if_pos hplain, hread]
    rfl

/-- A character that an escape stands for, where the string is not closed. -/
theorem readLines_cons_of_takeEscape? (hclose : closeLines? m ('\\' :: cs) = none)
    (htake : takeEscape? cs = some (c, ds)) (hread : readLines m true fuel ds = some (s, rest)) :
    readLines m true (fuel + 1) ('\\' :: cs) = some (c :: s, rest) := by
  unfold readLines
  simp only [hclose, takeBreak?_of_isPlain (c := '\\') rfl, joinLines?_of_takeEscape? htake, htake,
    and_self, if_true]
  exact congrArg (Option.bind · _) hread

/-- Without escapes a string is read as it stands. -/
theorem readLines_append (hcs : ∀ c ∈ cs, c = '\n' ∨ isPlain c = true)
    (hmarks : ¬ List.replicate 3 m <:+: cs) (hrest : rest.head? ≠ some m)
    (hfuel : cs.length < fuel) :
    readLines m false fuel (cs ++ m :: m :: m :: rest) = some (cs, rest) := by
  induction cs generalizing fuel with
  | nil =>
    obtain ⟨fuel, rfl⟩ := Nat.exists_eq_add_one_of_ne_zero (Nat.ne_zero_of_lt hfuel)
    exact readLines_of_closeLines? (closeLines?_append (mt List.IsPrefix.isInfix hmarks) hrest)
  | cons c cs ih =>
    obtain ⟨fuel, rfl⟩ := Nat.exists_eq_add_one_of_ne_zero (Nat.ne_zero_of_lt hfuel)
    have hclose := closeLines?_append (mt List.IsPrefix.isInfix hmarks) hrest
    by_cases hall : (c :: cs).all (· = m) = true
    · rw [if_pos hall] at hclose
      exact readLines_of_closeLines? hclose
    · rw [if_neg hall] at hclose
      obtain ⟨hc, hcs⟩ := List.forall_mem_cons.1 hcs
      have htail : ¬ List.replicate 3 m <:+: cs := mt (List.infix_cons_iff.2 <| .inr ·) hmarks
      have hread := ih hcs htail (Nat.lt_of_succ_lt_succ hfuel)
      exact readLines_cons hclose (fun h => Bool.false_ne_true h.2) hc hread

/-- No more than two quotation marks in a row stand as they are. -/
theorem replicate_prefix_escape {k : Nat} (hrun : run ≤ 2)
    (h : List.replicate k '"' <+: escape true run cs) : run + k ≤ 2 := by
  induction k generalizing run cs with
  | zero => exact hrun
  | succ k ih =>
    match cs with
    | [] => simp [escape, List.replicate_succ] at h
    | c :: cs =>
      rcases escape_cons_cases true run c cs with ⟨he, -, hquote, -⟩ | ⟨es, he, -⟩
      · rw [he, List.replicate_succ, List.cons_prefix_cons] at h
        obtain ⟨rfl, h⟩ := h
        have := ih (hquote rfl) h
        omega
      · rw [he, List.replicate_succ, List.cons_prefix_cons] at h
        exact absurd h.1 (by decide)

theorem not_replicate_prefix_escape (hrun : run ≤ 2) (cs : List Char) :
    ¬ List.replicate 3 '"' <+: escape true run cs := fun h => by
  have := replicate_prefix_escape hrun h
  omega

/-- Quotation marks that all stand as they are, are those of the string. -/
theorem eq_of_escape_eq_quotes (h : (escape lines run cs).all (· = '"') = true) :
    escape lines run cs = cs := by
  induction cs generalizing run with
  | nil => rfl
  | cons c cs ih =>
    rcases escape_cons_cases lines run c cs with ⟨he, -⟩ | ⟨es, he, -⟩
    · rw [he, List.all_cons, Bool.and_eq_true] at h
      rw [he, ih h.2]
    · rw [he] at h
      cases h

/-- With escapes a string is read as it was before it was written. -/
theorem readLines_escape (hrun : run ≤ 2) (hrest : rest.head? ≠ some '"')
    (hfuel : cs.length < fuel) :
    readLines '"' true fuel (escape true run cs ++ '"' :: '"' :: '"' :: rest) =
      some (cs, rest) := by
  have hclose {run : Nat} (hrun : run ≤ 2) (cs : List Char) :=
    closeLines?_append (not_replicate_prefix_escape hrun cs) hrest
  induction cs generalizing fuel run with
  | nil =>
    obtain ⟨fuel, rfl⟩ := Nat.exists_eq_add_one_of_ne_zero (Nat.ne_zero_of_lt hfuel)
    exact readLines_of_closeLines? (hclose hrun [])
  | cons c cs ih =>
    obtain ⟨fuel, rfl⟩ := Nat.exists_eq_add_one_of_ne_zero (Nat.ne_zero_of_lt hfuel)
    have hclose := hclose hrun (c :: cs)
    -- quotation marks up to the closing ones are not read one by one but with those
    by_cases hall : (escape true run (c :: cs)).all (· = '"') = true
    · rw [if_pos hall] at hclose
      rw [readLines_of_closeLines? hclose, eq_of_escape_eq_quotes hall]
    · rw [if_neg hall] at hclose
      have hread {next : Nat} (hnext : next ≤ 2) := ih hnext (Nat.lt_of_succ_lt_succ hfuel)
      rcases escape_cons_cases true run c cs with
        ⟨he, hbackslash, hquote, hc⟩ | ⟨es, he, htake⟩
      · have hnext : (if c = '"' then run + 1 else 0) ≤ 2 := by
          split
          · exact hquote ‹_›
          · exact Nat.zero_le 2
        rw [he, List.cons_append] at hclose ⊢
        exact readLines_cons hclose (fun h => hbackslash h.1) (hc.imp_left And.left) (hread hnext)
      · rw [he, List.cons_append, List.append_assoc] at hclose ⊢
        exact readLines_cons_of_takeEscape? hclose (htake _) (hread (Nat.zero_le 2))

/-! ## Styles -/

/-- Whether a style holds a string: without escapes, its characters have to stand as they are, and
    the closing marks may not be among them. -/
def Style.Holds : Style → List Char → Prop
  | literal, cs => ∀ c ∈ cs, isPlain c = true ∧ c ≠ '\''
  | literalLines, cs =>
    (∀ c ∈ cs, c = '\n' ∨ isPlain c = true) ∧ ¬ List.replicate 3 '\'' <:+: cs
  | basic, _ | basicLines, _ => True

/-- A character that is no control stands as it is, or ends a line. -/
theorem stands_of_not_isControl (h : ¬ isControl c = true) : c = '\n' ∨ isPlain c = true := by
  by_cases hbreak : c = '\n'
  · exact .inl hbreak
  by_cases htab : c = '\t'
  · exact .inr (by rw [htab]; rfl)
  simp [isControl, isPlain, hbreak, htab] at h ⊢
  exact h

/-- The style that suits a string holds it. -/
theorem Style.holds_choose (cs : List Char) : (choose (Traits.of cs)).Holds cs := by
  have hstands (h : ¬ (Traits.of cs).control = true) : ∀ c ∈ cs, c = '\n' ∨ isPlain c = true :=
    fun c hc => stands_of_not_isControl fun hcontrol => h (List.any_eq_true.2 ⟨c, hc, hcontrol⟩)
  have hrun {k : Nat} (h : (Traits.of cs).apostrophes ≤ k) :
      ¬ List.replicate (k + 1) '\'' <:+: cs := fun hinfix =>
    Nat.not_le_of_lt (Nat.lt_succ_of_le h) (replicate_infix_le_longestRun hinfix 0 0)
  unfold choose
  split_ifs with hbasic hliteral hquotes happostrophes hbreak
  · trivial
  · simp only [Bool.and_eq_true, Bool.not_eq_true', decide_eq_true_eq] at hliteral
    obtain ⟨⟨hcontrol, hmarks⟩, hnewline⟩ := hliteral
    intro c hc
    have hbreak : c ≠ '\n' := by simpa using List.any_eq_false.1 hnewline c hc
    refine ⟨(hstands (Bool.eq_false_iff.1 hcontrol) c hc).resolve_left hbreak, ?_⟩
    rintro rfl
    exact hrun (Nat.le_of_eq hmarks) ((List.singleton_infix_iff _ _).2 hc)
  · trivial
  · simp only [Bool.and_eq_true, Bool.not_eq_true', decide_eq_true_eq] at happostrophes
    exact ⟨hstands (Bool.eq_false_iff.1 happostrophes.1), hrun happostrophes.2⟩
  · trivial
  · trivial

/-! ## Whole strings -/

/-- A line break that was put after the opening marks is dropped, and no other one. -/
theorem dropBreak_opening (h : '\n' ∉ cs → ∃ c es, ds = c :: es ∧ isPlain c = true) :
    dropBreak ((if cs.any (· = '\n') then ['\n'] else []) ++ ds) = ds := by
  by_cases hbreak : '\n' ∈ cs
  · rw [if_pos (List.any_eq_true.2 ⟨_, hbreak, rfl⟩)]
    rfl
  · obtain ⟨c, es, rfl, hc⟩ := h hbreak
    rw [if_neg (by simpa using hbreak), List.nil_append, dropBreak, takeBreak?_of_isPlain hc]
    rfl

/-- The mark that closes a string of one line is not the second of three that open a string of
    several lines. -/
theorem append_ne_marks (hcs : cs.head? ≠ some m) (hrest : rest.head? ≠ some m) (ds : List Char) :
    cs ++ m :: rest ≠ m :: m :: ds := by
  intro h
  match cs with
  | [] => exact hrest (by rw [(List.cons.inj h).2, List.head?_cons])
  | c :: cs => exact hcs (by rw [(List.cons.inj h).1, List.head?_cons])

theorem head?_escape_ne (cs : List Char) : (escape false 0 cs).head? ≠ some '"' := by
  match cs with
  | [] => exact nofun
  | c :: cs =>
    rcases escape_cons_cases false 0 c cs with ⟨he, -, hquote, -⟩ | ⟨es, he, -⟩
    · rw [he, List.head?_cons]
      exact fun h => Nat.not_lt_zero _ (hquote (Option.some.inj h))
    · rw [he, List.head?_cons]
      decide

theorem exists_escape_append (h : '\n' ∉ cs) (rest : List Char) :
    ∃ c es, escape true 0 cs ++ '"' :: rest = c :: es ∧ isPlain c = true := by
  match cs with
  | [] => exact ⟨'"', rest, rfl, rfl⟩
  | c :: cs =>
    rcases escape_cons_cases true 0 c cs with ⟨he, -, -, hbreak | hplain⟩ | ⟨es, he, -⟩
    · exact absurd (hbreak.1 ▸ List.mem_cons_self) h
    · exact ⟨c, _, by rw [he]; rfl, hplain⟩
    · exact ⟨'\\', _, by rw [he]; rfl, rfl⟩

theorem exists_literal_append (hcs : Style.literalLines.Holds cs) (h : '\n' ∉ cs)
    (rest : List Char) : ∃ c es, cs ++ '\'' :: rest = c :: es ∧ isPlain c = true := by
  match cs with
  | [] => exact ⟨'\'', rest, rfl, rfl⟩
  | c :: cs =>
    have hc : c ≠ '\n' := fun hc => h (hc ▸ List.mem_cons_self)
    exact ⟨c, _, rfl, (hcs.1 c List.mem_cons_self).resolve_left hc⟩

/-- A string is read back from a style that holds it. -/
theorem readString_writeIn {style : Style} (hcs : style.Holds cs)
    (hquote : rest.head? ≠ some '"') (happostrophe : rest.head? ≠ some '\'') :
    readString (writeIn style cs ++ rest) = some (cs, rest) := by
  have hlength (lines : Bool) := length_le_length_escape lines 0 cs
  -- what is written in one line must not begin like the marks of a style with lines; with lines a
  -- first break is dropped, which is the one that is written for it
  cases style with
  | basic =>
    have hwrite : writeIn .basic cs ++ rest = '"' :: (escape false 0 cs ++ '"' :: rest) := by
      simp [writeIn, Style.marks, Style.hasLines, Style.hasEscapes]
    have hfuel : cs.length < (escape false 0 cs ++ '"' :: rest).length + 1 := by
      have := hlength false
      rw [List.length_append]
      omega
    rw [hwrite, readString]
    · exact readBasic_escape hfuel 0 rest
    · exact append_ne_marks (head?_escape_ne cs) hquote
  | literal =>
    have hwrite : writeIn .literal cs ++ rest = '\'' :: (cs ++ '\'' :: rest) := by
      simp [writeIn, Style.marks, Style.hasLines, Style.hasEscapes]
    have hhead : cs.head? ≠ some '\'' := fun h => (hcs _ (List.mem_of_head? h)).2 rfl
    rw [hwrite, readString]
    · exact readLiteral_append hcs rest
    · exact append_ne_marks hhead happostrophe
  | basicLines =>
    have hwrite : writeIn .basicLines cs ++ rest =
        '"' :: '"' :: '"' :: ((if cs.any (· = '\n') then ['\n'] else []) ++
          (escape true 0 cs ++ '"' :: '"' :: '"' :: rest)) := by
      simp [writeIn, Style.marks, Style.hasLines, Style.hasEscapes]
    rw [hwrite, readString, dropBreak_opening (exists_escape_append · _)]
    refine readLines_escape (Nat.zero_le 2) hquote ?_
    have := hlength true
    simp only [List.length_append]
    omega
  | literalLines =>
    have hwrite : writeIn .literalLines cs ++ rest =
        '\'' :: '\'' :: '\'' :: ((if cs.any (· = '\n') then ['\n'] else []) ++
          (cs ++ '\'' :: '\'' :: '\'' :: rest)) := by
      simp [writeIn, Style.marks, Style.hasLines, Style.hasEscapes]
    rw [hwrite, readString, dropBreak_opening (exists_literal_append hcs · _)]
    refine readLines_append hcs.1 hcs.2 happostrophe ?_
    simp only [List.length_append]
    omega

/-- A string in the style that suits it is read back. -/
theorem readString_writeString (s : String) (hquote : rest.head? ≠ some '"')
    (happostrophe : rest.head? ≠ some '\'') :
    readString (writeString s ++ rest) = some (s.toList, rest) :=
  readString_writeIn (Style.holds_choose s.toList) hquote happostrophe

end SchemaExtraction.Toml
