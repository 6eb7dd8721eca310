import Mathlib.Data.List.TakeDrop
import Mathlib.Data.List.TakeWhile
import SchemaExtraction.Markup.Selector.Component

/-!
# Reading before a comma

What a reader takes off the start of a text does not depend on a comma far behind it. It does
depend on it where the text ends in the middle of something that a comma does not end: a string, an
address, a comment or a character after a backslash. There the reader takes all of the text, and
the comma with it.

Results:
* `Decided.andThen`, `Decided.ite`: readers that are put together.
* `decided_nameOf`, `decided_stringOf`: names and strings.
* `decided_skipComment`, `decided_skipAddress`: comments and addresses.
-/

namespace SchemaExtraction.Markup.Selector

/-! ## Readers and commas -/

variable {α β : Type}

/-- Whether a reader takes the same from a text when a comma comes behind it, whatever else
    follows. -/
def Settled (read : List Char → α × List Char) (cs : List Char) : Prop :=
  ∀ rest, read (cs ++ ',' :: rest) = ((read cs).1, (read cs).2 ++ ',' :: rest)

/-- Whether a reader takes all of a text, and a comma behind it as well. -/
def Swallows (read : List Char → α × List Char) (cs : List Char) : Prop :=
  (read cs).2 = [] ∧ (read (cs ++ [','])).2 = []

/-- Whether a reader takes something off the start of a text, either without regard to a comma
    behind the text or with the comma. -/
structure Decided (read : List Char → α × List Char) (cs : List Char) : Prop where
  length_le : (read cs).2.length ≤ cs.length
  settled_or : Settled read cs ∨ Swallows read cs

/-- A text itself, or with a comma behind it. -/
def Extends (cs ds : List Char) : Prop := ds = cs ∨ ∃ rest, ds = cs ++ ',' :: rest

variable {read read' : List Char → α × List Char} {cs ds : List Char}

theorem Extends.refl (cs : List Char) : Extends cs cs := Or.inl rfl

theorem Extends.comma (cs rest : List Char) : Extends cs (cs ++ ',' :: rest) := Or.inr ⟨rest, rfl⟩

theorem Decided.congr (h : Decided read cs) (heq : ∀ ds, Extends cs ds → read' ds = read ds) :
    Decided read' cs where
  length_le := by
    rw [heq cs (.refl cs)]
    exact h.length_le
  settled_or := by
    rcases h.settled_or with hs | hs
    · left
      intro rest
      rw [heq _ (.comma cs rest), heq cs (.refl cs)]
      exact hs rest
    · right
      rw [Swallows, heq cs (.refl cs), heq _ (.comma cs [])]
      exact hs

theorem Settled.decided (h : Settled read cs) (hl : (read cs).2.length ≤ cs.length) :
    Decided read cs := ⟨hl, Or.inl h⟩

/-- A reader that goes on with another one where it ends. -/
def andThen (read : List Char → α × List Char) (next : α → List Char → β × List Char)
    (cs : List Char) : β × List Char :=
  next (read cs).1 (read cs).2

theorem Settled.andThen {next : α → List Char → β × List Char} (h : Settled read cs)
    (hl : (read cs).2.length ≤ cs.length) (hn : ∀ a, Decided (next a) (read cs).2) :
    Decided (andThen read next) cs where
  length_le := Nat.le_trans (hn _).length_le hl
  settled_or := by
    rcases (hn (read cs).1).settled_or with hs | hs
    · left
      intro rest
      rw [Selector.andThen, h rest]
      exact hs rest
    · right
      refine ⟨hs.1, ?_⟩
      rw [Selector.andThen, h []]
      exact hs.2

theorem Decided.andThen {next : α → List Char → β × List Char} (h : Decided read cs)
    (hn : ∀ a, Decided (next a) (read cs).2) (hnil : ∀ a, (next a []).2 = []) :
    Decided (andThen read next) cs := by
  rcases h.settled_or with hs | hs
  · exact hs.andThen h.length_le hn
  · refine ⟨Nat.le_trans (hn _).length_le h.length_le, Or.inr ⟨?_, ?_⟩⟩
    · rw [Selector.andThen, hs.1, hnil]
    · rw [Selector.andThen, hs.2, hnil]

/-- A reader that takes nothing. -/
theorem decided_nothing (a : α) (cs : List Char) : Decided (fun ds => (a, ds)) cs :=
  Settled.decided (fun _ => rfl) (Nat.le_refl _)

/-- What was read with another result. -/
def withResult (f : α → β) (x : α × List Char) : β × List Char := (f x.1, x.2)

theorem Decided.map (h : Decided read cs) (f : α → β) :
    Decided (fun ds => withResult f (read ds)) cs := by
  exact h.andThen (fun a => decided_nothing (f a) _) fun _ => rfl

/-- A reader that takes the first character and goes on with another one. -/
theorem Decided.cons {c : Char} (h : Decided read cs)
    (heq : ∀ ds, Extends cs ds → read' (c :: ds) = read ds) : Decided read' (c :: cs) := by
  have h' : Decided (fun ds => read' (c :: ds)) cs := h.congr heq
  exact ⟨Nat.le_succ_of_le h'.length_le, h'.settled_or⟩

/-- A reader that chooses by what a comma does not change. -/
theorem Decided.ite {t : List Char → Prop} [∀ ds, Decidable (t ds)]
    (ht : ∀ ds, Extends cs ds → (t ds ↔ t cs)) (hthen : t cs → Decided read cs)
    (helse : ¬ t cs → Decided read' cs) :
    Decided (fun ds => if t ds then read ds else read' ds) cs := by
  by_cases h : t cs
  · exact (hthen h).congr fun ds hds => if_pos ((ht ds hds).2 h)
  · exact (helse h).congr fun ds hds => if_neg (mt (ht ds hds).1 h)

/-! ## Runs of characters -/

variable {p : Char → Bool}

theorem takeWhile_comma (hp : p ',' = false) (cs rest : List Char) :
    (cs ++ ',' :: rest).takeWhile p = cs.takeWhile p := by
  induction cs with
  | nil => exact List.takeWhile_cons_of_neg (by simp [hp])
  | cons c cs ih => simp only [List.cons_append, List.takeWhile_cons, ih]

theorem dropWhile_comma (hp : p ',' = false) (cs rest : List Char) :
    (cs ++ ',' :: rest).dropWhile p = cs.dropWhile p ++ ',' :: rest := by
  induction cs with
  | nil => exact List.dropWhile_cons_of_neg (by simp [hp])
  | cons c cs ih =>
    rw [List.cons_append, List.dropWhile_cons, List.dropWhile_cons, ih]
    split <;> rfl

theorem settled_span (hp : p ',' = false) (cs : List Char) : Settled (List.span p) cs := by
  intro rest
  rw [List.span_eq_takeWhile_dropWhile, List.span_eq_takeWhile_dropWhile, takeWhile_comma hp,
    dropWhile_comma hp]

theorem length_dropWhile_le (p : Char → Bool) (cs : List Char) :
    (cs.dropWhile p).length ≤ cs.length :=
  (List.dropWhile_suffix p).length_le

/-! ## Looking ahead -/

theorem newlineNext_eq (h : Extends cs ds) : newlineNext ds = newlineNext cs := by
  rcases h with rfl | ⟨rest, rfl⟩
  · rfl
  · cases cs <;> rfl

theorem identNext_eq (h : Extends cs ds) : identNext ds = identNext cs := by
  rcases h with rfl | ⟨rest, rfl⟩
  · rfl
  · rcases cs with _ | ⟨c, cs⟩
    · rfl
    · by_cases h1 : c = '-'
      · subst h1
        cases cs <;> rfl
      · by_cases h2 : c = '\\'
        · subst h2
          cases cs <;> rfl
        · cases cs <;> simp [identNext, h1]

theorem numberNext_eq (h : Extends cs ds) (c : Char) :
    numberNext (c :: ds) = numberNext (c :: cs) := by
  rcases h with rfl | ⟨rest, rfl⟩
  · rfl
  · rcases cs with _ | ⟨d, _ | ⟨e, cs⟩⟩
    · cases rest <;> simp [numberNext]
    · simp [numberNext, Bool.or_assoc, Bool.and_or_distrib_right]
    · rfl

theorem dropPrefix?_isSome_eq {w : List Char} (hw : ',' ∉ w) (h : Extends cs ds) :
    (Text.dropPrefix? w ds).isSome = (Text.dropPrefix? w cs).isSome := by
  rcases h with rfl | ⟨rest, rfl⟩
  · rfl
  · induction w generalizing cs with
    | nil => rfl
    | cons a w ih =>
      rw [List.mem_cons, not_or] at hw
      cases cs with
      | nil => simp [Text.dropPrefix?, Ne.symm hw.1]
      | cons c cs =>
        simp only [List.cons_append, Text.dropPrefix?]
        split
        · exact ih hw.2
        · rfl

/-! ## Escapes and names -/

theorem takeWhile_take_comma (hp : p ',' = false) (n : Nat) (cs rest : List Char) :
    ((cs ++ ',' :: rest).take n).takeWhile p = (cs.take n).takeWhile p := by
  induction n generalizing cs with
  | zero => rfl
  | succ n ih =>
    cases cs with
    | nil => simp [hp]
    | cons c cs => simp only [List.cons_append, List.take_succ_cons, List.takeWhile_cons, ih]

/-- The white space that ends the digits of an escape. -/
def skipOneSpace : List Char → List Char
  | '\r' :: '\n' :: rest => rest
  | c :: rest => if isSpace c then rest else c :: rest
  | [] => []

theorem skipOneSpace_of_ne {c : Char} (h : c ≠ '\r') (cs : List Char) :
    skipOneSpace (c :: cs) = if isSpace c then cs else c :: cs := by
  rw [skipOneSpace]
  exact fun _ hc _ => h hc

theorem skipOneSpace_comma (cs rest : List Char) :
    skipOneSpace (cs ++ ',' :: rest) = skipOneSpace cs ++ ',' :: rest := by
  rcases cs with _ | ⟨c, cs⟩
  · rfl
  · by_cases h1 : c = '\r'
    · subst h1
      rcases cs with _ | ⟨d, cs⟩
      · rfl
      · by_cases h2 : d = '\n'
        · subst h2
          rfl
        · simp [skipOneSpace, h2, isSpace]
    · rw [List.cons_append, skipOneSpace_of_ne h1, skipOneSpace_of_ne h1]
      split <;> rfl

theorem length_skipOneSpace_le (cs : List Char) : (skipOneSpace cs).length ≤ cs.length := by
  fun_cases skipOneSpace cs with
  | case1 rest => exact Nat.le_add_right _ 2
  | case2 c rest => exact Nat.le_succ _
  | case3 c rest => exact Nat.le_refl _
  | case4 => exact Nat.le_refl _

/-- The hexadecimal digits after a backslash. -/
def escapeDigits (cs : List Char) : List Char :=
  (cs.take 6).takeWhile fun c => (hexValue? c).isSome

theorem readEscape_digits {cs : List Char} (h : escapeDigits cs ≠ []) :
    readEscape cs =
      (let n := (hexNumber? (escapeDigits cs)).getD 0
        if n = 0 ∨ ¬ n.isValidChar then replacement else Char.ofNat n,
      skipOneSpace (cs.drop (escapeDigits cs).length)) := by
  have hempty : ¬ (escapeDigits cs).isEmpty = true := by simpa using h
  exact if_neg hempty

theorem readEscape_char {c : Char} {cs : List Char} (h : escapeDigits (c :: cs) = []) :
    readEscape (c :: cs) = (if c = '\x00' then replacement else c, cs) := by
  have hempty : (escapeDigits (c :: cs)).isEmpty = true := by simp [h]
  exact if_pos hempty

theorem length_escapeDigits_le (cs : List Char) : (escapeDigits cs).length ≤ cs.length :=
  Nat.le_trans (List.takeWhile_prefix _).length_le (List.take_sublist 6 cs).length_le

theorem settled_readEscape (h : cs ≠ []) : Settled readEscape cs := by
  intro rest
  have hd : escapeDigits (cs ++ ',' :: rest) = escapeDigits cs :=
    takeWhile_take_comma (by decide) 6 cs rest
  by_cases hn : escapeDigits cs = []
  · obtain ⟨c, cs, rfl⟩ := List.exists_cons_of_ne_nil h
    rw [readEscape_char hn]
    exact readEscape_char (hd.trans hn)
  · rw [readEscape_digits hn, readEscape_digits (hd ▸ hn), hd,
      List.drop_append_of_le_length (length_escapeDigits_le cs), skipOneSpace_comma]

theorem length_readEscape_le (cs : List Char) : (readEscape cs).2.length ≤ cs.length := by
  by_cases hn : escapeDigits cs = []
  · cases cs with
    | nil => exact Nat.le_refl 0
    | cons c cs =>
      rw [readEscape_char hn]
      exact Nat.le_succ _
  · rw [readEscape_digits hn]
    exact Nat.le_trans (length_skipOneSpace_le _) (by simp)

theorem decided_readEscape (cs : List Char) : Decided readEscape cs where
  length_le := length_readEscape_le cs
  settled_or := by
    by_cases h : cs = []
    · exact Or.inr (h ▸ ⟨rfl, rfl⟩)
    · exact Or.inl (settled_readEscape h)

theorem readName_cons (fuel : Nat) (c : Char) (cs : List Char) :
    readName (fuel + 1) (c :: cs) =
      if c = '\\' && !newlineNext cs then
        withResult ((readEscape cs).1 :: ·) (readName fuel (readEscape cs).2)
      else if isNameChar c then
        withResult ((if c = '\x00' then replacement else c) :: ·) (readName fuel cs)
      else ([], c :: cs) := by
  rw [readName]
  rfl

theorem readName_fuel {n m : Nat} {cs : List Char} (hn : cs.length < n) (hm : cs.length < m) :
    readName n cs = readName m cs := by
  induction n generalizing m cs with
  | zero => omega
  | succ n ih =>
    obtain ⟨m, rfl⟩ : ∃ k, m = k + 1 := ⟨m - 1, by omega⟩
    cases cs with
    | nil => rfl
    | cons c cs =>
      have hl := length_readEscape_le cs
      rw [List.length_cons] at hn hm
      rw [readName_cons, readName_cons, ih (by omega) (by omega : (readEscape cs).2.length < m),
        ih (by omega) (by omega : cs.length < m)]

/-- The name at the start of a text. -/
def nameOf (cs : List Char) : List Char × List Char := readName (cs.length + 1) cs

theorem nameOf_cons (c : Char) (cs : List Char) :
    nameOf (c :: cs) =
      if c = '\\' && !newlineNext cs then
        withResult ((readEscape cs).1 :: ·) (nameOf (readEscape cs).2)
      else if isNameChar c then
        withResult ((if c = '\x00' then replacement else c) :: ·) (nameOf cs)
      else ([], c :: cs) := by
  have hl := length_readEscape_le cs
  rw [nameOf, List.length_cons, readName_cons,
    readName_fuel (by omega) (Nat.lt_succ_self (readEscape cs).2.length)]
  rfl

theorem decided_nameOf (cs : List Char) : Decided nameOf cs := by
  induction h : cs.length using Nat.strong_induction_on generalizing cs with
  | h n ih =>
    subst h
    cases cs with
    | nil => exact ⟨Nat.le_refl 0, Or.inl fun rest => nameOf_cons ',' rest⟩
    | cons c cs =>
      have hl := length_readEscape_le cs
      -- an escape may be several characters long
      by_cases h1 : (c = '\\' && !newlineNext cs) = true
      · have hnext (d : Char) :
            Decided (fun es => withResult (d :: ·) (nameOf es)) (readEscape cs).2 :=
          (ih _ (Nat.lt_succ_of_le hl) _ rfl).map (d :: ·)
        refine ((decided_readEscape cs).andThen hnext fun _ => rfl).cons fun ds hds => ?_
        rw [nameOf_cons, newlineNext_eq hds, if_pos h1]
        rfl
      · by_cases h2 : isNameChar c = true
        · refine ((ih _ (Nat.lt_succ_self _) cs rfl).map
            ((if c = '\x00' then replacement else c) :: ·)).cons fun ds hds => ?_
          rw [nameOf_cons, newlineNext_eq hds, if_neg h1, if_pos h2]
        · have hname (ds : List Char) (hds : Extends cs ds) : nameOf (c :: ds) = ([], c :: ds) := by
            rw [nameOf_cons, newlineNext_eq hds, if_neg h1, if_neg h2]
          have hcs := hname cs (.refl cs)
          refine ⟨by rw [hcs], Or.inl fun rest => ?_⟩
          rw [hcs]
          exact hname _ (.comma cs rest)

/-! ## Strings and addresses -/

/-- What comes after the end of a line, if the line ends here. -/
def afterLine? : List Char → Option (List Char)
  | '\r' :: '\n' :: rest => some rest
  | d :: rest => if isNewline d then some rest else none
  | [] => none

theorem afterLine?_of_ne {d : Char} (h : d ≠ '\r') (cs : List Char) :
    afterLine? (d :: cs) = if isNewline d then some cs else none := by
  rw [afterLine?]
  exact fun _ hd _ => h hd

theorem afterLine?_comma (cs rest : List Char) :
    afterLine? (cs ++ ',' :: rest) = (afterLine? cs).map (· ++ ',' :: rest) := by
  rcases cs with _ | ⟨c, cs⟩
  · rfl
  · by_cases h1 : c = '\r'
    · subst h1
      rcases cs with _ | ⟨d, cs⟩
      · rfl
      · by_cases h2 : d = '\n'
        · subst h2
          rfl
        · simp [afterLine?, h2, isNewline]
    · rw [List.cons_append, afterLine?_of_ne h1, afterLine?_of_ne h1]
      split <;> rfl

theorem isSome_afterLine? (h : Extends cs ds) :
    (afterLine? ds).isSome = (afterLine? cs).isSome := by
  rcases h with rfl | ⟨rest, rfl⟩
  · rfl
  · rw [afterLine?_comma, Option.isSome_map]

theorem length_afterLine?_lt {cs rest : List Char} (h : afterLine? cs = some rest) :
    rest.length < cs.length := by
  revert h
  fun_cases afterLine? cs with
  | case1 cs =>
    rintro ⟨⟩
    exact Nat.lt_succ_of_lt (Nat.lt_succ_self _)
  | case2 c cs =>
    rintro ⟨⟩
    exact Nat.lt_succ_self _
  | case3 => exact nofun
  | case4 => exact nofun

/-- A choice by what comes at a backslash, made by whether a line ends there. -/
theorem choice_eq_afterLine? {α : Type} (cs : List Char) (nothing : α) (line : List Char → α)
    (other : α) :
    (match cs with
      | [] => nothing
      | '\r' :: '\n' :: rest => line rest
      | d :: rest => if isNewline d then line rest else other) =
      match afterLine? cs with
      | some rest => line rest
      | none => if cs = [] then nothing else other := by
  fun_cases afterLine? cs with
  | case1 => rfl
  | case2 c cs h1 h2 => simp [h2]
  | case3 c cs h1 h2 => simp [h2]
  | case4 => rfl

theorem readString_cons (mark : Char) (fuel : Nat) (c : Char) (cs : List Char) :
    readString mark (fuel + 1) (c :: cs) =
      if c = mark then (some [], cs)
      else if isNewline c then (none, c :: cs)
      else if c = '\\' then
        match afterLine? cs with
        | some rest => readString mark fuel rest
        | none =>
          if cs = [] then (some [], [])
          else withResult (Option.map ((readEscape cs).1 :: ·))
            (readString mark fuel (readEscape cs).2)
      else
        withResult (Option.map ((if c = '\x00' then replacement else c) :: ·))
          (readString mark fuel cs) := by
  have hline := choice_eq_afterLine? cs (some [], []) (fun rest => readString mark fuel rest)
    (withResult (Option.map ((readEscape cs).1 :: ·)) (readString mark fuel (readEscape cs).2))
  rw [← hline]
  rfl

theorem readString_fuel {mark : Char} {n m : Nat} {cs : List Char} (hn : cs.length < n)
    (hm : cs.length < m) : readString mark n cs = readString mark m cs := by
  induction n generalizing m cs with
  | zero => omega
  | succ n ih =>
    obtain ⟨m, rfl⟩ : ∃ k, m = k + 1 := ⟨m - 1, by omega⟩
    cases cs with
    | nil => rfl
    | cons c cs =>
      have hl := length_readEscape_le cs
      rw [List.length_cons] at hn hm
      rw [readString_cons, readString_cons, ih (by omega) (by omega : (readEscape cs).2.length < m),
        ih (by omega) (by omega : cs.length < m)]
      cases hline : afterLine? cs with
      | none => rfl
      | some rest =>
        have hlt := length_afterLine?_lt hline
        dsimp only
        rw [ih (by omega) (by omega : rest.length < m)]

/-- The string at the start of a text, the opening mark left out. -/
def stringOf (mark : Char) (cs : List Char) : Option (List Char) × List Char :=
  readString mark (cs.length + 1) cs

/-- The string that goes on after a backslash. -/
def escapedStringOf (mark : Char) (cs : List Char) : Option (List Char) × List Char :=
  match afterLine? cs with
  | some rest => stringOf mark rest
  | none =>
    if cs = [] then (some [], [])
    else withResult (Option.map ((readEscape cs).1 :: ·)) (stringOf mark (readEscape cs).2)

theorem stringOf_cons (mark : Char) (c : Char) (cs : List Char) :
    stringOf mark (c :: cs) =
      if c = mark then (some [], cs)
      else if isNewline c then (none, c :: cs)
      else if c = '\\' then escapedStringOf mark cs
      else
        withResult (Option.map ((if c = '\x00' then replacement else c) :: ·))
          (stringOf mark cs) := by
  have hl := length_readEscape_le cs
  rw [stringOf, List.length_cons, readString_cons, escapedStringOf,
    readString_fuel (by omega) (Nat.lt_succ_self (readEscape cs).2.length)]
  cases hline : afterLine? cs with
  | none => rfl
  | some rest =>
    have hlt := length_afterLine?_lt hline
    dsimp only
    rw [readString_fuel (by omega) (Nat.lt_succ_self rest.length)]
    rfl

theorem decided_escapedStringOf {mark : Char} {cs : List Char}
    (h : ∀ es : List Char, es.length ≤ cs.length → Decided (stringOf mark) es) :
    Decided (escapedStringOf mark) cs := by
  cases hline : afterLine? cs with
  | some rest =>
    let skip (ds : List Char) : Unit × List Char := ((), (afterLine? ds).getD [])
    have hskip : Settled skip cs := by
      intro more
      simp only [skip, afterLine?_comma, hline, Option.map_some, Option.getD_some]
    have hrest : (skip cs).2 = rest := by rw [show skip cs = ((), rest) by simp [skip, hline]]
    have hle : (skip cs).2.length ≤ cs.length := hrest ▸ (length_afterLine?_lt hline).le
    refine (hskip.andThen hle fun _ => h _ hle).congr fun ds hds => ?_
    obtain ⟨r, hr⟩ := Option.isSome_iff_exists.1
      ((isSome_afterLine? hds).trans (by rw [hline]; rfl))
    rw [escapedStringOf, andThen, hr]
    simp only [skip, hr, Option.getD_some]
  | none =>
    by_cases hcs : cs = []
    · subst hcs
      exact ⟨Nat.le_refl 0, Or.inr ⟨rfl, rfl⟩⟩
    · have hnext (d : Char) : Decided
          (fun es => withResult (Option.map (d :: ·)) (stringOf mark es)) (readEscape cs).2 :=
        (h _ (length_readEscape_le cs)).map (Option.map (d :: ·))
      refine ((decided_readEscape cs).andThen hnext fun _ => rfl).congr fun ds hds => ?_
      have hds' : ds ≠ [] := by
        rcases hds with rfl | ⟨more, rfl⟩
        · exact hcs
        · simp
      have hr : afterLine? ds = none := by
        rw [← Option.isNone_iff_eq_none, ← Option.not_isSome, isSome_afterLine? hds, hline]
        rfl
      rw [escapedStringOf, hr]
      exact if_neg hds'

theorem decided_stringOf {mark : Char} (hmark : mark ≠ ',') (cs : List Char) :
    Decided (stringOf mark) cs := by
  -- a string that is not closed takes the comma
  have hcomma : stringOf mark [','] = (some [','], []) := by
    rw [stringOf_cons, if_neg (Ne.symm hmark)]
    rfl
  induction h : cs.length using Nat.strong_induction_on generalizing cs with
  | h n ih =>
    subst h
    cases cs with
    | nil => exact ⟨Nat.le_refl 0, Or.inr ⟨rfl, congrArg Prod.snd hcomma⟩⟩
    | cons c cs =>
      by_cases h1 : c = mark
      · refine (decided_nothing (some []) cs).cons fun ds _ => ?_
        rw [stringOf_cons, if_pos h1]
      by_cases h2 : isNewline c = true
      · have hstop (ds : List Char) : stringOf mark (c :: ds) = (none, c :: ds) := by
          rw [stringOf_cons, if_neg h1, if_pos h2]
        refine ⟨by rw [hstop], Or.inl fun rest => ?_⟩
        rw [List.cons_append, hstop, hstop]
        rfl
      by_cases h3 : c = '\\'
      · refine (decided_escapedStringOf fun es he =>
          ih _ (Nat.lt_succ_of_le he) es rfl).cons fun ds _ => ?_
        rw [stringOf_cons, if_neg h1, if_neg h2, if_pos h3]
      · refine ((ih _ (Nat.lt_succ_self _) cs rfl).map
          (Option.map ((if c = '\x00' then replacement else c) :: ·))).cons fun ds _ => ?_
        rw [stringOf_cons, if_neg h1, if_neg h2, if_neg h3]

/-! ## Comments and addresses -/

/-- A reader that only skips. -/
def skipping (skip : List Char → List Char) (cs : List Char) : Unit × List Char := ((), skip cs)

theorem skipComment_of_ne {c : Char} {cs : List Char} (h : ¬ (c = '*' ∧ cs.head? = some '/')) :
    skipComment (c :: cs) = skipComment cs := by
  rw [skipComment]
  rintro rest rfl rfl
  exact h ⟨rfl, rfl⟩

theorem decided_skipComment (cs : List Char) : Decided (skipping skipComment) cs := by
  induction cs with
  | nil => exact ⟨Nat.le_refl 0, Or.inr ⟨rfl, rfl⟩⟩
  | cons c cs ih =>
    by_cases h : c = '*' ∧ cs.head? = some '/'
    · obtain ⟨rfl, h⟩ := h
      obtain ⟨rest, rfl⟩ := List.head?_eq_some_iff.1 h
      exact ⟨Nat.le_add_right _ 2, Or.inl fun _ => rfl⟩
    · refine ih.cons fun ds hds => ?_
      have hds' : ¬ (c = '*' ∧ ds.head? = some '/') := by
        rcases hds with rfl | ⟨rest, rfl⟩
        · exact h
        · cases cs with
          | nil => simp
          | cons d cs => exact h
      rw [skipping, skipping, skipComment_of_ne hds']

theorem skipAddress_cons (c : Char) (cs : List Char) :
    skipAddress (c :: cs) =
      if c = ')' then cs else if c = '\\' then skipAddress (cs.drop 1) else skipAddress cs := by
  by_cases h1 : c = ')'
  · subst h1
    rfl
  · by_cases h2 : c = '\\'
    · subst h2
      cases cs <;> rfl
    · rw [if_neg h1, if_neg h2, skipAddress]
      · exact h1
      · exact fun _ _ hc _ => h2 hc

theorem decided_skipAddress (cs : List Char) : Decided (skipping skipAddress) cs := by
  induction h : cs.length using Nat.strong_induction_on generalizing cs with
  | h n ih =>
    subst h
    cases cs with
    | nil => exact ⟨Nat.le_refl 0, Or.inr ⟨rfl, rfl⟩⟩
    | cons c cs =>
      by_cases h1 : c = ')'
      · refine (decided_nothing () cs).cons fun ds _ => ?_
        rw [skipping, skipAddress_cons, if_pos h1]
      by_cases h2 : c = '\\'
      · cases cs with
        | nil =>
          -- a backslash at the end of the text takes the comma
          have hskip (ds : List Char) : skipAddress (c :: ds) = skipAddress (ds.drop 1) := by
            rw [skipAddress_cons, if_neg h1, if_pos h2]
          refine ⟨?_, Or.inr ⟨hskip [], hskip [',']⟩⟩
          rw [skipping, hskip]
          exact Nat.zero_le _
        | cons d cs =>
          have hrest : Decided (fun ds => skipping skipAddress (ds.drop 1)) (d :: cs) :=
            (ih _ (Nat.lt_succ_of_lt (Nat.lt_succ_self _)) cs rfl).cons fun ds _ => rfl
          refine hrest.cons fun ds _ => ?_
          rw [skipping, skipAddress_cons, if_neg h1, if_pos h2, skipping]
      · refine (ih _ (Nat.lt_succ_self _) cs rfl).cons fun ds _ => ?_
        rw [skipping, skipping, skipAddress_cons, if_neg h1, if_neg h2]

end SchemaExtraction.Markup.Selector
