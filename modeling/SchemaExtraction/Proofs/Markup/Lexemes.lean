import SchemaExtraction.Proofs.Markup.Readers

/-!
# Lexemes before a comma

A lexeme at the start of a text is the same before a comma, or it takes all of the text and the
comma with it. So where a comma behind a text is read as a comma at all, the lexemes of the text are
those that it has alone, whatever comes after the comma.

Results:
* `decided_readLexeme`: a lexeme before a comma.
* `lexemes_comma`: a comma that is read as one splits the lexemes.
-/

namespace SchemaExtraction.Markup.Selector

variable {cs ds : List Char} {p : Char → Bool}

/-! ## Numbers -/

/-- The sign of a number: whether there is one, whether it is negative, and the rest. -/
def signOf : List Char → Bool × Bool × List Char
  | '-' :: cs => (true, true, cs)
  | '+' :: cs => (true, false, cs)
  | cs => (false, false, cs)

/-- The decimal places of a number: whether there are none. -/
def fractionOf (cs : List Char) : Bool × List Char :=
  match cs with
  | '.' :: c :: more => if c.isDigit then (false, more.dropWhile Char.isDigit) else (true, cs)
  | _ => (true, cs)

/-- The exponent of a number: whether the number is still an integer. -/
def exponentOf (isWhole : Bool) (cs : List Char) : Bool × List Char :=
  match cs with
  | e :: sign :: c :: more =>
    if e ≠ 'e' && e ≠ 'E' then (isWhole, cs)
    else if sign.isDigit then (false, (c :: more).dropWhile Char.isDigit)
    else if (sign = '+' || sign = '-') && c.isDigit then (false, more.dropWhile Char.isDigit)
    else (isWhole, cs)
  | [e, c] => if (e = 'e' || e = 'E') && c.isDigit then (false, []) else (isWhole, cs)
  | _ => (isWhole, cs)

/-- What is right after a number. -/
def unitOf (signed : Bool) (value : Option Int) (cs : List Char) : Lexeme × List Char :=
  match cs with
  | '%' :: rest => (.other, rest)
  | rest =>
    if identNext rest then
      withResult (fun name => .dimension signed value (String.ofList name)) (nameOf rest)
    else (.number signed value, rest)

/-- A number after its sign. -/
def unsignedOf (sign : Bool × Bool) : List Char → Lexeme × List Char :=
  andThen (List.span Char.isDigit) fun digits =>
    andThen fractionOf fun isWhole =>
      andThen (exponentOf isWhole) fun isWhole =>
        unitOf sign.1 (if isWhole then
          some (clampNumber (if sign.2 then -(digitsValue digits : Int) else digitsValue digits))
          else none)

theorem readNumber_eq (cs : List Char) :
    readNumber cs =
      andThen (fun ds => (((signOf ds).1, (signOf ds).2.1), (signOf ds).2.2)) unsignedOf cs := by
  rfl

theorem signOf_comma (cs rest : List Char) :
    signOf (cs ++ ',' :: rest) =
      ((signOf cs).1, (signOf cs).2.1, (signOf cs).2.2 ++ ',' :: rest) := by
  have hother {cs : List Char} (h1 : cs.head? ≠ some '-') (h2 : cs.head? ≠ some '+') :
      signOf cs = (false, false, cs) := by
    rw [signOf]
    · rintro cs rfl
      exact h1 rfl
    · rintro cs rfl
      exact h2 rfl
  cases cs with
  | nil => rfl
  | cons c cs =>
    by_cases h1 : c = '-'
    · subst h1
      rfl
    by_cases h2 : c = '+'
    · subst h2
      rfl
    · rw [hother (by simpa using h1) (by simpa using h2),
        hother (by simpa using h1) (by simpa using h2)]

theorem length_signOf_le (cs : List Char) : (signOf cs).2.2.length ≤ cs.length := by
  fun_cases signOf cs with
  | case1 => exact Nat.le_succ _
  | case2 => exact Nat.le_succ _
  | case3 => exact Nat.le_refl _

theorem fractionOf_of_ne {c : Char} (h : c ≠ '.') (cs : List Char) :
    fractionOf (c :: cs) = (true, c :: cs) := by
  rw [fractionOf]
  exact fun _ _ hc => h (List.cons.inj hc).1

theorem settled_fractionOf (cs : List Char) : Settled fractionOf cs := by
  intro rest
  cases cs with
  | nil => exact fractionOf_of_ne (by decide) rest
  | cons c cs =>
    by_cases h : c = '.'
    · subst h
      cases cs with
      | nil => rfl
      | cons d cs =>
        simp only [List.cons_append, fractionOf, dropWhile_comma (p := Char.isDigit) rfl]
        split <;> rfl
    · rw [List.cons_append, fractionOf_of_ne h, fractionOf_of_ne h]
      rfl

theorem length_fractionOf_le (cs : List Char) : (fractionOf cs).2.length ≤ cs.length := by
  fun_cases fractionOf cs with
  | case1 c more => exact Nat.le_trans (length_dropWhile_le _ _) (Nat.le_add_right _ 2)
  | case2 => exact Nat.le_refl _
  | case3 => exact Nat.le_refl _

theorem settled_exponentOf (isWhole : Bool) (cs : List Char) :
    Settled (exponentOf isWhole) cs := by
  intro rest
  rcases cs with _ | ⟨e, _ | ⟨sign, _ | ⟨c, more⟩⟩⟩
  · rcases rest with _ | ⟨a, _ | ⟨b, rest⟩⟩ <;> simp [exponentOf]
  · cases rest <;> simp [exponentOf]
  · have hdrop : (',' :: rest).dropWhile Char.isDigit = ',' :: rest :=
      dropWhile_comma rfl [] rest
    have hcomma : Char.isDigit ',' = false := rfl
    simp only [List.cons_append, List.nil_append, exponentOf, hdrop, hcomma, Bool.and_false]
    by_cases he : e = 'e' ∨ e = 'E'
    · rcases he with rfl | rfl <;> cases hs : sign.isDigit <;> simp
    · rw [not_or] at he
      simp [he.1, he.2]
  · have hdrop (l : List Char) := dropWhile_comma (p := Char.isDigit) rfl l rest
    have hdrop' := hdrop (c :: more)
    rw [List.cons_append] at hdrop'
    simp only [List.cons_append, exponentOf, hdrop, hdrop']
    split
    · rfl
    · split
      · rfl
      · split <;> rfl

theorem length_exponentOf_le (isWhole : Bool) (cs : List Char) :
    (exponentOf isWhole cs).2.length ≤ cs.length := by
  fun_cases exponentOf isWhole cs with
  | case1 => exact Nat.le_refl _
  | case2 => exact Nat.le_trans (length_dropWhile_le _ _) (Nat.le_add_right _ 2)
  | case3 => exact Nat.le_trans (length_dropWhile_le _ _) (Nat.le_add_right _ 3)
  | case4 => exact Nat.le_refl _
  | case5 => exact Nat.zero_le _
  | case6 => exact Nat.le_refl _
  | case7 => exact Nat.le_refl _

theorem decided_unitOf (signed : Bool) (value : Option Int) (cs : List Char) :
    Decided (unitOf signed value) cs := by
  have hrest {cs : List Char} (h : cs.head? ≠ some '%') : unitOf signed value cs =
      if identNext cs then
        withResult (fun name => .dimension signed value (String.ofList name)) (nameOf cs)
      else (.number signed value, cs) := by
    rw [unitOf]
    rintro rest rfl
    exact h rfl
  by_cases h1 : cs.head? = some '%'
  · obtain ⟨rest, rfl⟩ := List.head?_eq_some_iff.1 h1
    exact ⟨Nat.le_succ _, Or.inl fun _ => rfl⟩
  -- a comma behind the text is no unit
  · have hds {ds : List Char} (hds : Extends cs ds) : ds.head? ≠ some '%' := by
      rcases hds with rfl | ⟨rest, rfl⟩
      · exact h1
      · cases cs with
        | nil => simp
        | cons c cs => exact h1
    by_cases h2 : identNext cs = true
    · have hname := (decided_nameOf cs).map fun name =>
        Lexeme.dimension signed value (String.ofList name)
      refine hname.congr fun ds h => ?_
      rw [hrest (hds h), identNext_eq h, if_pos h2]
    · refine (decided_nothing (.number signed value) cs).congr fun ds h => ?_
      rw [hrest (hds h), identNext_eq h, if_neg h2]

theorem decided_unsignedOf (sign : Bool × Bool) (cs : List Char) :
    Decided (unsignedOf sign) cs := by
  have hspan : (cs.span Char.isDigit).2.length ≤ cs.length := by
    rw [List.span_eq_takeWhile_dropWhile]
    exact length_dropWhile_le _ _
  exact (settled_span rfl cs).andThen hspan fun _ =>
    (settled_fractionOf _).andThen (length_fractionOf_le _) fun isWhole =>
      (settled_exponentOf isWhole _).andThen (length_exponentOf_le _ _) fun _ =>
        decided_unitOf _ _ _

theorem decided_readNumber (cs : List Char) : Decided readNumber cs := by
  have hsign : Settled (fun ds => (((signOf ds).1, (signOf ds).2.1), (signOf ds).2.2)) cs := by
    intro rest
    simp only [signOf_comma]
  refine (hsign.andThen (length_signOf_le cs) fun sign => decided_unsignedOf sign _).congr
    fun ds _ => ?_
  rw [readNumber_eq]

theorem length_unsignedOf_le (sign : Bool × Bool) (cs : List Char) :
    (unsignedOf sign cs).2.length ≤ (fractionOf (cs.dropWhile Char.isDigit)).2.length := by
  rw [unsignedOf, andThen, List.span_eq_takeWhile_dropWhile]
  exact Nat.le_trans (decided_unitOf _ _ _).length_le (length_exponentOf_le _ _)

/-- A number has at least one character. -/
theorem length_readNumber_le {c : Char} {cs : List Char} (h : numberNext (c :: cs) = true) :
    (readNumber (c :: cs)).2.length ≤ cs.length := by
  have hle (sign : Bool × Bool) (ds : List Char) : (unsignedOf sign ds).2.length ≤ ds.length :=
    (decided_unsignedOf sign ds).length_le
  by_cases h1 : c = '-'
  · subst h1
    exact hle (true, true) cs
  by_cases h2 : c = '+'
  · subst h2
    exact hle (true, false) cs
  have hsign : signOf (c :: cs) = (false, false, c :: cs) := by
    rw [signOf]
    · exact fun _ hc => h1 (List.cons.inj hc).1
    · exact fun _ hc => h2 (List.cons.inj hc).1
  have hnumber : (readNumber (c :: cs)).2.length ≤
      (fractionOf ((c :: cs).dropWhile Char.isDigit)).2.length := by
    rw [readNumber_eq, andThen, hsign]
    exact length_unsignedOf_le _ _
  refine Nat.le_trans hnumber ?_
  -- without a sign there is a digit, or a point before one
  by_cases h3 : c.isDigit = true
  · rw [List.dropWhile_cons_of_pos h3]
    exact Nat.le_trans (length_fractionOf_le _) (length_dropWhile_le _ _)
  · rw [List.dropWhile_cons_of_neg h3]
    rcases cs with _ | ⟨d, cs⟩
    · simp [numberNext, h3] at h
    · have hd : c = '.' ∧ d.isDigit = true := by
        cases cs <;> simp_all [numberNext]
      rw [hd.1, fractionOf, if_pos hd.2]
      exact Nat.le_succ_of_le (length_dropWhile_le _ _)

/-! ## Words -/

/-- What a name is, which depends on what comes after it. -/
def callOf (name rest : List Char) : Lexeme × List Char :=
  match rest with
  | '(' :: rest =>
    let inner := rest.dropWhile isSpace
    if name.map Char.toLower = "url".toList && inner.head? ≠ some '"' &&
        inner.head? ≠ some '\'' then
      (.other, skipAddress inner)
    else (.call (String.ofList name), rest)
  | rest => (.ident (String.ofList name), rest)

theorem readWord_eq (cs : List Char) : readWord cs = andThen nameOf callOf cs := rfl

theorem head?_eq_of_extends {c : Char} (hc : c ≠ ',') (h : Extends cs ds) :
    ds.head? = some c ↔ cs.head? = some c := by
  rcases h with rfl | ⟨rest, rfl⟩
  · rfl
  · cases cs with
    | nil => simp [Ne.symm hc]
    | cons d cs => rfl

theorem Extends.dropWhile (hp : p ',' = false) (h : Extends cs ds) :
    Extends (cs.dropWhile p) (ds.dropWhile p) := by
  rcases h with rfl | ⟨rest, rfl⟩
  · exact .refl _
  · rw [dropWhile_comma hp]
    exact .comma _ rest

theorem decided_callOf (name cs : List Char) : Decided (callOf name) cs := by
  by_cases h1 : cs.head? = some '('
  · obtain ⟨cs, rfl⟩ := List.head?_eq_some_iff.1 h1
    -- an address is taken as a whole, unless it is quoted
    by_cases h2 : (name.map Char.toLower = "url".toList &&
        (cs.dropWhile isSpace).head? ≠ some '"' &&
        (cs.dropWhile isSpace).head? ≠ some '\'') = true
    · have hspace : Settled (fun ds => ((), ds.dropWhile isSpace)) cs := by
        intro rest
        simp only [dropWhile_comma (p := isSpace) rfl]
      have haddress := (decided_skipAddress (cs.dropWhile isSpace)).map fun _ => Lexeme.other
      refine (hspace.andThen (length_dropWhile_le _ _) fun _ => haddress).cons fun ds hds => ?_
      have hinner := hds.dropWhile (p := isSpace) rfl
      rw [callOf, if_pos]
      · rfl
      · simpa only [ne_eq, head?_eq_of_extends (by decide : '"' ≠ ',') hinner,
          head?_eq_of_extends (by decide : '\'' ≠ ',') hinner] using h2
    · refine (decided_nothing (.call (String.ofList name)) cs).cons fun ds hds => ?_
      have hinner := hds.dropWhile (p := isSpace) rfl
      rw [callOf, if_neg]
      simpa only [ne_eq, head?_eq_of_extends (by decide : '"' ≠ ',') hinner,
        head?_eq_of_extends (by decide : '\'' ≠ ',') hinner] using h2
  · refine (decided_nothing (.ident (String.ofList name)) cs).congr fun ds hds => ?_
    rw [callOf]
    rintro rest rfl
    exact h1 ((head?_eq_of_extends (by decide) hds).1 rfl)

theorem decided_readWord (cs : List Char) : Decided readWord cs :=
  ((decided_nameOf cs).andThen (fun name => decided_callOf name _) fun _ => rfl).congr
    fun ds _ => readWord_eq ds

/-- A name that starts with an identifier has at least one character. -/
theorem length_nameOf_le {c : Char} {cs : List Char} (h : identNext (c :: cs) = true) :
    (nameOf (c :: cs)).2.length ≤ cs.length := by
  have hl := length_readEscape_le cs
  rw [nameOf_cons]
  by_cases h1 : (c = '\\' && !newlineNext cs) = true
  · rw [if_pos h1]
    exact Nat.le_trans (decided_nameOf _).length_le hl
  · have h2 : isNameChar c = true := by
      by_cases hd : c = '-'
      · subst hd
        decide
      · by_cases hb : c = '\\'
        · subst hb
          exact absurd h (by simpa [identNext] using h1)
        · have hs : startsName c = true := by
            simpa [identNext, hd, hb] using h
          rw [isNameChar, hs]
          rfl
    rw [if_neg h1, if_pos h2]
    exact (decided_nameOf cs).length_le

/-! ## Lexemes -/

theorem decided_drop {n : Nat} (h : n ≤ cs.length) (l : Lexeme) :
    Decided (fun ds => (l, ds.drop n)) cs where
  length_le := by simp
  settled_or := by
    left
    intro rest
    simp only [List.drop_append_of_le_length h]

/-- What starts with a word of more than one character is at least as long. -/
theorem le_length_of_dropPrefix? {c : Char} {w : List Char}
    (h : (Text.dropPrefix? w (c :: cs)).isSome = true) : w.length ≤ cs.length + 1 := by
  obtain ⟨rest, hrest⟩ := Option.isSome_iff_exists.1 h
  have heq := congrArg List.length (Text.eq_append_of_dropPrefix? hrest)
  simp only [List.length_cons, List.length_append] at heq
  omega

theorem Extends.cons (c : Char) (h : Extends cs ds) : Extends (c :: cs) (c :: ds) := by
  rcases h with rfl | ⟨rest, rfl⟩
  · exact .refl _
  · exact .comma _ rest

/-- A lexeme that starts with a quotation mark. -/
def quotedOf (mark : Char) (cs : List Char) : Lexeme × List Char :=
  withResult (fun value => match value with
    | some value => .string (String.ofList value)
    | none => .other) (stringOf mark cs)

/-- A lexeme that starts with a number sign. -/
def hashOf (cs : List Char) : Lexeme × List Char :=
  if identNext cs || cs.head?.any isNameChar then
    withResult (fun name => .hash (String.ofList name) (identNext cs)) (nameOf cs)
  else (.delimiter '#', cs)

theorem quotedOf_eq (mark : Char) (cs : List Char) :
    quotedOf mark cs =
      match readString mark (cs.length + 1) cs with
      | (some value, rest) => (.string (String.ofList value), rest)
      | (none, rest) => (.other, rest) := by
  rw [quotedOf, withResult, stringOf]
  rcases readString mark (cs.length + 1) cs with ⟨_ | value, rest⟩ <;> rfl

theorem hashOf_eq (cs : List Char) :
    hashOf cs =
      if identNext cs || cs.head?.any isNameChar then
        let (name, rest) := readName (cs.length + 1) cs
        (.hash (String.ofList name) (identNext cs), rest)
      else (.delimiter '#', cs) := rfl

/-- A lexeme of one sign or two. -/
def signsOf (c : Char) (cs : List Char) : Lexeme × List Char :=
  match pairs.lookup (c :: cs.take 1) with
  | some lexeme => (lexeme, cs.drop 1)
  | none => (.delimiter c, cs)

theorem readLexeme_eq (c : Char) (cs : List Char) :
    readLexeme c cs =
      if isSpace c then (.space, cs.dropWhile isSpace)
      else if c = '"' || c = '\'' then quotedOf c cs
      else if c = '#' then hashOf cs
      else if numberNext (c :: cs) then readNumber (c :: cs)
      else if (Text.dropPrefix? "-->".toList (c :: cs)).isSome then (.other, cs.drop 2)
      else if (Text.dropPrefix? "<!--".toList (c :: cs)).isSome then (.other, cs.drop 3)
      else if identNext (c :: cs) then readWord (c :: cs)
      else if c = '@' && identNext cs then withResult (fun _ => .other) (nameOf cs)
      else if c = ':' then (.colon, cs)
      else if c = ',' then (.comma, cs)
      else if c = ';' then (.other, cs)
      else if c = '(' || c = '[' || c = '\x7b' then (.opens c, cs)
      else if c = ')' || c = ']' || c = '\x7d' then (.closes c, cs)
      else signsOf c cs := by
  rw [readLexeme, quotedOf_eq]
  by_cases h : c = '#'
  · rewrite [if_pos h, if_pos h, hashOf_eq, h]
    rfl
  · rw [if_neg h, if_neg h]
    rfl

theorem decided_hashOf (cs : List Char) : Decided hashOf cs := by
  have hhead {ds : List Char} (h : Extends cs ds) :
      ds.head?.any isNameChar = cs.head?.any isNameChar := by
    rcases h with rfl | ⟨rest, rfl⟩
    · rfl
    · cases cs <;> rfl
  by_cases h : (identNext cs || cs.head?.any isNameChar) = true
  · refine ((decided_nameOf cs).map fun name =>
      Lexeme.hash (String.ofList name) (identNext cs)).congr fun ds hds => ?_
    rw [hashOf, identNext_eq hds, hhead hds, if_pos h]
  · refine (decided_nothing (.delimiter '#') cs).congr fun ds hds => ?_
    rw [hashOf, identNext_eq hds, hhead hds, if_neg h]

theorem decided_signsOf (c : Char) (cs : List Char) : Decided (signsOf c) cs := by
  cases cs with
  | nil =>
    have hnone : pairs.lookup [c] = none := by
      exact List.lookup_eq_none_iff.2 (by simp [pairs])
    have hcomma : pairs.lookup [c, ','] = none := by
      exact List.lookup_eq_none_iff.2 (by simp [pairs])
    refine (decided_nothing (.delimiter c) []).congr fun ds hds => ?_
    rcases hds with rfl | ⟨rest, rfl⟩
    · rw [signsOf, List.take_nil, hnone]
    · have htake : ([] ++ ',' :: rest).take 1 = [','] := by simp
      rw [signsOf, htake, hcomma]
  | cons d cs =>
    have hlookup {ds : List Char} (h : Extends (d :: cs) ds) : ds.take 1 = [d] := by
      rcases h with rfl | ⟨rest, rfl⟩ <;> simp
    cases hl : pairs.lookup [c, d] with
    | some l =>
      refine (decided_drop (n := 1) (by simp) l).congr fun ds hds => ?_
      rw [signsOf, hlookup hds, hl]
    | none =>
      refine (decided_nothing (.delimiter c) _).congr fun ds hds => ?_
      rw [signsOf, hlookup hds, hl]

/-- A lexeme does not depend on a comma behind the text, unless it takes the comma. -/
theorem decided_readLexeme (c : Char) (cs : List Char) : Decided (readLexeme c) cs := by
  have hprefix {w : List Char} (hw : ',' ∉ w) {ds : List Char} (hds : Extends cs ds) :
      (Text.dropPrefix? w (c :: ds)).isSome = true ↔
        (Text.dropPrefix? w (c :: cs)).isSome = true := by
    rw [dropPrefix?_isSome_eq hw (hds.cons c)]
  -- one rule after the other: whether it is tried does not depend on a comma behind the text
  refine Decided.congr ?_ fun ds _ => readLexeme_eq c ds
  refine .ite (fun _ _ => .rfl) (fun _ => ?_) fun _ => ?_
  · refine Settled.decided (fun rest => ?_) (length_dropWhile_le _ _)
    simp only [dropWhile_comma (p := isSpace) rfl]
  refine .ite (fun _ _ => .rfl) (fun h => ?_) fun _ => ?_
  · have hmark : c ≠ ',' := by
      rintro rfl
      exact absurd h (by decide)
    exact (decided_stringOf hmark cs).map _
  refine .ite (fun _ _ => .rfl) (fun _ => decided_hashOf cs) fun _ => ?_
  refine .ite (fun ds hds => by rw [numberNext_eq hds]) (fun h => ?_) fun _ => ?_
  · exact ⟨length_readNumber_le h, (decided_readNumber (c :: cs)).settled_or⟩
  refine .ite (fun ds hds => hprefix (by decide) hds) (fun h => ?_) fun _ => ?_
  · exact decided_drop (Nat.le_of_succ_le_succ (le_length_of_dropPrefix? h)) _
  refine .ite (fun ds hds => hprefix (by decide) hds) (fun h => ?_) fun _ => ?_
  · exact decided_drop (Nat.le_of_succ_le_succ (le_length_of_dropPrefix? h)) _
  refine .ite (fun ds hds => by rw [identNext_eq (hds.cons c)]) (fun h => ?_) fun _ => ?_
  · refine ⟨?_, (decided_readWord (c :: cs)).settled_or⟩
    exact Nat.le_trans (decided_callOf _ _).length_le (length_nameOf_le h)
  refine .ite (fun ds hds => by rw [identNext_eq hds]) (fun _ => ?_) fun _ => ?_
  · exact (decided_nameOf cs).map _
  refine .ite (fun _ _ => .rfl) (fun _ => decided_nothing _ cs) fun _ => ?_
  refine .ite (fun _ _ => .rfl) (fun _ => decided_nothing _ cs) fun _ => ?_
  refine .ite (fun _ _ => .rfl) (fun _ => decided_nothing _ cs) fun _ => ?_
  refine .ite (fun _ _ => .rfl) (fun _ => decided_nothing _ cs) fun _ => ?_
  exact .ite (fun _ _ => .rfl) (fun _ => decided_nothing _ cs) fun _ => decided_signsOf c cs

/-- Whether a comment starts here. -/
def commentNext : List Char → Bool
  | '/' :: '*' :: _ => true
  | _ => false

theorem exists_of_commentNext {cs : List Char} (h : commentNext cs = true) :
    ∃ inside, cs = '/' :: '*' :: inside := by
  revert h
  fun_cases commentNext cs with
  | case1 inside => exact fun _ => ⟨inside, rfl⟩
  | case2 => exact nofun

theorem commentNext_comma (c : Char) (cs rest : List Char) :
    commentNext (c :: (cs ++ ',' :: rest)) = commentNext (c :: cs) := by
  by_cases hc : c = '/'
  · subst hc
    rcases cs with _ | ⟨d, cs⟩
    · rfl
    · by_cases hd : d = '*'
      · subst hd
        rfl
      · simp [commentNext, hd]
  · simp [commentNext, hc]

theorem readLexemes_cons {c : Char} {cs : List Char} (h : commentNext (c :: cs) = false)
    (fuel : Nat) :
    readLexemes (fuel + 1) (c :: cs) =
      (readLexeme c cs).1 :: readLexemes fuel (readLexeme c cs).2 := by
  rw [readLexemes]
  rintro ds rfl rfl
  cases h

theorem readLexemes_fuel {n m : Nat} {cs : List Char} (hn : cs.length ≤ n) (hm : cs.length ≤ m) :
    readLexemes n cs = readLexemes m cs := by
  induction n generalizing m cs with
  | zero =>
    obtain rfl := List.length_eq_zero_iff.1 (Nat.le_zero.1 hn)
    cases m <;> rfl
  | succ n ih =>
    cases cs with
    | nil => cases m <;> rfl
    | cons c cs =>
      rw [List.length_cons] at hn hm
      obtain ⟨m, rfl⟩ : ∃ k, m = k + 1 := ⟨m - 1, by omega⟩
      cases h : commentNext (c :: cs) with
      | true =>
        obtain ⟨inside, heq⟩ := exists_of_commentNext h
        cases heq
        have hl : (skipComment inside).length ≤ inside.length :=
          (decided_skipComment inside).length_le
        rw [List.length_cons] at hn hm
        exact ih (by omega) (by omega)
      | false =>
        have hl := (decided_readLexeme c cs).length_le
        rw [readLexemes_cons h, readLexemes_cons h,
          ih (by omega) (by omega : (readLexeme c cs).2.length ≤ m)]

/-- The lexemes of a text. -/
def lexemes (cs : List Char) : List Lexeme := readLexemes cs.length cs

theorem lexemes_cons {c : Char} {cs : List Char} (h : commentNext (c :: cs) = false) :
    lexemes (c :: cs) = (readLexeme c cs).1 :: lexemes (readLexeme c cs).2 := by
  rw [lexemes, List.length_cons, readLexemes_cons h, lexemes,
    readLexemes_fuel (decided_readLexeme c cs).length_le (Nat.le_refl _)]

theorem lexemes_comment (cs : List Char) :
    lexemes ('/' :: '*' :: cs) = lexemes (skipComment cs) := by
  have hl : (skipComment cs).length ≤ cs.length := (decided_skipComment cs).length_le
  exact readLexemes_fuel (Nat.le_succ_of_le hl) (Nat.le_refl _)

theorem lexemes_of_comma (rest : List Char) : lexemes (',' :: rest) = .comma :: lexemes rest := by
  have hnumber : numberNext (',' :: rest) = false := by
    rcases rest with _ | ⟨c, _ | ⟨d, rest⟩⟩ <;> simp [numberNext]
  have hident : identNext (',' :: rest) = false := rfl
  have hcomma : readLexeme ',' rest = (.comma, rest) := by
    rw [readLexeme_eq, hnumber, hident]
    rfl
  rw [lexemes_cons rfl, hcomma]

/-- A comma that is read as one after a text is read as one whatever comes after it, and then no
    lexeme has a part on both sides. -/
theorem lexemes_comma {cs : List Char} (h : lexemes (cs ++ [',']) = lexemes cs ++ [.comma])
    (rest : List Char) :
    lexemes (cs ++ ',' :: rest) = lexemes cs ++ .comma :: lexemes rest := by
  induction hn : cs.length using Nat.strong_induction_on generalizing cs with
  | h n ih =>
    subst hn
    cases cs with
    | nil => exact lexemes_of_comma rest
    | cons c cs =>
      cases hc : commentNext (c :: cs) with
      | true =>
        obtain ⟨inside, heq⟩ := exists_of_commentNext hc
        cases heq
        have hl : (skipComment inside).length ≤ inside.length :=
          (decided_skipComment inside).length_le
        simp only [List.cons_append, lexemes_comment] at h ⊢
        -- a comment that takes the comma leaves no lexeme for it
        rcases (decided_skipComment inside).settled_or with hs | ⟨hs, hs'⟩
        · have hsettled (rest : List Char) :
              skipComment (inside ++ ',' :: rest) = skipComment inside ++ ',' :: rest :=
            congrArg Prod.snd (hs rest)
          rw [hsettled] at h ⊢
          exact ih _ (by simp only [List.length_cons]; omega) h rfl
        · simp only [skipping] at hs hs'
          rw [hs, hs'] at h
          cases h
      | false =>
        have hc' (rest : List Char) : commentNext (c :: (cs ++ ',' :: rest)) = false :=
          (commentNext_comma c cs rest).trans hc
        have hl := (decided_readLexeme c cs).length_le
        rw [List.cons_append, lexemes_cons hc, lexemes_cons (hc' _)] at h ⊢
        -- a lexeme that takes the comma is the last one, so that the comma is missing
        rcases (decided_readLexeme c cs).settled_or with hs | ⟨hs, hs'⟩
        · rw [hs [], List.cons_append, List.cons.injEq] at h
          rw [hs rest, ih _ (Nat.lt_succ_of_le hl) h.2 rfl]
          rfl
        · rw [hs, hs'] at h
          have hlength := congrArg List.length h
          simp [lexemes, readLexemes] at hlength

end SchemaExtraction.Markup.Selector
