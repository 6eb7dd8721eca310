import Mathlib.Algebra.GroupWithZero.Nat
import Mathlib.Data.List.Basic
import SchemaExtraction.Markup.Selector.Reader
import SchemaExtraction.Proofs.Markup.Lexemes
import SchemaExtraction.Proofs.Traversal

/-!
# Selectors side by side

Two texts with a comma between them are read as the selectors of the one and those of the other,
provided that the first leaves nothing open: the comma behind it is read as a comma, outside of all
brackets. How deep the brackets in a text may be is not limited by the texts beside it.

Results:
* `components_comma`: the components of two texts with a comma between them.
* `agree_innerReaders`: readers for lists in brackets do not depend on the fuel.
* `Group.read?_comma`: the selectors of two texts with a comma between them.
-/

namespace SchemaExtraction.Markup.Selector

/-! ## Blocks -/

/-- The blocks that are open after a lexeme, innermost first. -/
def openStep (blocks : List Lexeme) (l : Lexeme) : List Lexeme :=
  if l.closing?.isSome then l :: blocks
  else
    match l, blocks with
    | .closes c, opening :: rest => if opening.closing? = some c then rest else blocks
    | _, _ => blocks

/-- Whether a text leaves nothing open: a comma behind it is read as a comma, and outside of all
    blocks. -/
def isClosed (cs : List Char) : Bool :=
  decide (lexemes (cs ++ [',']) = lexemes cs ++ [.comma]) &&
    ((lexemes cs).foldl openStep []).isEmpty

/-- One lexeme more in an open block: what the innermost open block holds then, and the open blocks
    with what is around each. -/
def nestStep (inner : List Component) (blocks : List (Lexeme × List Component)) (l : Lexeme) :
    List Component × List (Lexeme × List Component) :=
  if l.closing?.isSome then ([], (l, inner) :: blocks)
  else
    match l, blocks with
    | .closes c, (opening, outer) :: rest =>
      if opening.closing? = some c then (closeBlock inner opening outer, rest)
      else (.lexeme l :: inner, blocks)
    | _, _ => (.lexeme l :: inner, blocks)

variable {inner : List Component} {blocks : List (Lexeme × List Component)} {l : Lexeme}

theorem closing?_closes (c : Char) : (Lexeme.closes c).closing? = none := rfl

theorem nest_cons (inner : List Component) (blocks : List (Lexeme × List Component)) (l : Lexeme)
    (ls : List Lexeme) :
    nest inner blocks (l :: ls) =
      nest (nestStep inner blocks l).1 (nestStep inner blocks l).2 ls := by
  cases l with
  | closes c =>
    rcases blocks with _ | ⟨⟨opening, outer⟩, blocks⟩
    · rfl
    · by_cases h : opening.closing? = some c <;> simp [nest, nestStep, closing?_closes, h]
  | opens c =>
    by_cases h : (Lexeme.opens c).closing?.isSome = true <;> simp [nest, nestStep, h]
  | _ => rfl

theorem map_nestStep (inner : List Component) (blocks : List (Lexeme × List Component))
    (l : Lexeme) :
    (nestStep inner blocks l).2.map Prod.fst = openStep (blocks.map Prod.fst) l := by
  cases l with
  | closes c =>
    rcases blocks with _ | ⟨⟨opening, outer⟩, blocks⟩
    · rfl
    · by_cases h : opening.closing? = some c <;> simp [nestStep, openStep, closing?_closes, h]
  | opens c =>
    by_cases h : (Lexeme.opens c).closing?.isSome = true <;> simp [nestStep, openStep, h]
  | _ => rfl

/-- After lexemes that leave no block open only what they gave is kept. -/
theorem exists_nest_append (inner : List Component)
    (blocks : List (Lexeme × List Component)) {ls : List Lexeme}
    (h : ls.foldl openStep (blocks.map Prod.fst) = []) :
    ∃ outer, ∀ ms, nest inner blocks (ls ++ ms) = nest outer [] ms := by
  induction ls generalizing inner blocks with
  | nil =>
    obtain rfl := List.map_eq_nil_iff.1 h
    exact ⟨inner, fun _ => rfl⟩
  | cons l ls ih =>
    rw [List.foldl_cons, ← map_nestStep inner] at h
    obtain ⟨outer, houter⟩ := ih _ _ h
    refine ⟨outer, fun ms => ?_⟩
    rw [List.cons_append, nest_cons, houter]

theorem closeAll_base (base outer : List Component) (o : Lexeme) :
    closeAll inner (blocks ++ [(o, outer ++ base)]) =
      base.reverse ++ closeAll inner (blocks ++ [(o, outer)]) := by
  induction blocks generalizing inner with
  | nil => simp [closeAll, closeBlock]
  | cons b blocks ih => exact ih

/-- What a lexeme that closes nothing does. -/
theorem nestStep_cases (l : Lexeme) :
    (∃ c, l = .closes c) ∨
      (∀ inner blocks, nestStep inner blocks l = ([], (l, inner) :: blocks)) ∨
      ∀ inner blocks, nestStep inner blocks l = (.lexeme l :: inner, blocks) := by
  cases l with
  | closes c => exact Or.inl ⟨c, rfl⟩
  | call name => exact Or.inr (Or.inl fun _ _ => rfl)
  | opens c =>
    right
    by_cases h : (Lexeme.opens c).closing?.isSome = true
    · exact Or.inl fun _ _ => if_pos h
    · exact Or.inr fun _ _ => if_neg h
  | _ => exact Or.inr (Or.inr fun _ _ => rfl)

theorem nestStep_closes (inner outer : List Component) (blocks : List (Lexeme × List Component))
    (opening : Lexeme) (c : Char) :
    nestStep inner ((opening, outer) :: blocks) (.closes c) =
      if opening.closing? = some c then (closeBlock inner opening outer, blocks)
      else (.lexeme (.closes c) :: inner, (opening, outer) :: blocks) := rfl

/-- What is around all blocks stays in front. -/
theorem nest_base (base : List Component) (ls : List Lexeme) :
    (∀ inner, nest (inner ++ base) [] ls = base.reverse ++ nest inner [] ls) ∧
      ∀ (inner : List Component) (blocks : List (Lexeme × List Component)) (o : Lexeme)
        (outer : List Component),
        nest inner (blocks ++ [(o, outer ++ base)]) ls =
          base.reverse ++ nest inner (blocks ++ [(o, outer)]) ls := by
  induction ls with
  | nil =>
    exact ⟨fun inner => by simp [nest, closeAll], fun _ _ o outer => closeAll_base base outer o⟩
  | cons l ls ih =>
    obtain ⟨ih, ih'⟩ := ih
    simp only [nest_cons]
    rcases nestStep_cases l with ⟨c, rfl⟩ | h | h
    · constructor
      · exact fun inner => ih (.lexeme (.closes c) :: inner)
      · intro inner blocks o outer
        -- only the outermost block closes onto what is around all of them
        rcases blocks with _ | ⟨⟨opening, around⟩, blocks⟩
        · simp only [List.nil_append, nestStep_closes]
          split
          · exact ih (.block o inner.reverse :: outer)
          · exact ih' (.lexeme (.closes c) :: inner) [] o outer
        · simp only [List.cons_append, nestStep_closes]
          split
          · exact ih' _ blocks o outer
          · exact ih' _ ((opening, around) :: blocks) o outer
    · simp only [h]
      exact ⟨fun inner => ih' [] [] l inner, fun inner blocks => ih' [] ((l, inner) :: blocks)⟩
    · simp only [h]
      exact ⟨fun inner => ih (.lexeme l :: inner), fun inner => ih' (.lexeme l :: inner)⟩

theorem components_comma {cs : List Char} (h : isClosed cs = true) (rest : List Char) :
    components (cs ++ ',' :: rest) = components cs ++ .lexeme .comma :: components rest := by
  rw [isClosed, Bool.and_eq_true, decide_eq_true_eq, List.isEmpty_iff] at h
  obtain ⟨outer, houter⟩ := exists_nest_append [] [] h.2
  have hcs : components cs = outer.reverse := by
    have := houter []
    rwa [List.append_nil] at this
  have hbase := (nest_base (.lexeme .comma :: outer) (lexemes rest)).1 []
  calc components (cs ++ ',' :: rest)
      = nest [] [] (lexemes cs ++ .comma :: lexemes rest) := by
        rw [← lexemes_comma h.1 rest]
        rfl
    _ = nest (.lexeme .comma :: outer) [] (lexemes rest) := houter _
    _ = (.lexeme .comma :: outer).reverse ++ components rest := hbase
    _ = components cs ++ .lexeme .comma :: components rest := by
        rw [hcs, List.reverse_cons, List.append_assoc]
        rfl

/-! ## Parts of a list -/

theorem items_cons_cases (c : Component) :
    (∀ cs, items (c :: cs) = [] :: items cs) ∨
      ∀ cs part parts, items cs = part :: parts → items (c :: cs) = (c :: part) :: parts := by
  cases c with
  | lexeme l =>
    cases l with
    | comma => exact Or.inl fun _ => rfl
    | _ => exact Or.inr fun cs part parts h => by simp [items, h]
  | block opening content => exact Or.inr fun cs part parts h => by simp [items, h]

theorem exists_items (cs : List Component) : ∃ part parts, items cs = part :: parts := by
  induction cs with
  | nil => exact ⟨[], [], rfl⟩
  | cons c cs ih =>
    obtain ⟨part, parts, h⟩ := ih
    rcases items_cons_cases c with hc | hc
    · exact ⟨[], items cs, hc cs⟩
    · exact ⟨c :: part, parts, hc cs part parts h⟩

theorem items_comma (cs ds : List Component) :
    items (cs ++ .lexeme .comma :: ds) = items cs ++ items ds := by
  induction cs with
  | nil => rfl
  | cons c cs ih =>
    rw [List.cons_append]
    rcases items_cons_cases c with hc | hc
    · rw [hc, hc, ih]
      rfl
    · obtain ⟨part, parts, h⟩ := exists_items cs
      rw [hc cs part parts h, hc _ part (parts ++ items ds) (by rw [ih, h]; rfl)]
      rfl

/-! ## The size of brackets -/

mutual

/-- The number of lexemes that are kept in a component. -/
def Component.size : Component → Nat
  | .lexeme _ => 1
  | .block _ content => sizeAll content + 1

/-- The number of lexemes that are kept in some components. -/
def sizeAll : List Component → Nat
  | [] => 0
  | c :: cs => c.size + sizeAll cs

end

theorem sizeAll_append (cs ds : List Component) :
    sizeAll (cs ++ ds) = sizeAll cs + sizeAll ds := by
  induction cs with
  | nil => simp [sizeAll]
  | cons c cs ih => rw [List.cons_append, sizeAll, sizeAll, ih, Nat.add_assoc]

theorem sizeAll_reverse (cs : List Component) : sizeAll cs.reverse = sizeAll cs := by
  induction cs with
  | nil => rfl
  | cons c cs ih =>
    rw [List.reverse_cons, sizeAll_append, ih, sizeAll, sizeAll, sizeAll]
    omega

/-- The number of lexemes in open blocks. -/
def sizeOpen (inner : List Component) (blocks : List (Lexeme × List Component)) : Nat :=
  sizeAll inner + (blocks.map fun b => sizeAll b.2 + 1).sum

theorem sizeAll_closeAll (inner : List Component) (blocks : List (Lexeme × List Component)) :
    sizeAll (closeAll inner blocks) = sizeOpen inner blocks := by
  induction blocks generalizing inner with
  | nil => simp [closeAll, sizeOpen, sizeAll_reverse]
  | cons b blocks ih =>
    rw [closeAll, ih, sizeOpen, sizeOpen, closeBlock, sizeAll, Component.size, sizeAll_reverse,
      List.map_cons, List.sum_cons]
    omega

theorem sizeOpen_nestStep (inner : List Component) (blocks : List (Lexeme × List Component))
    (l : Lexeme) :
    sizeOpen (nestStep inner blocks l).1 (nestStep inner blocks l).2 ≤
      sizeOpen inner blocks + 1 := by
  have hkept : sizeOpen (.lexeme l :: inner) blocks ≤ sizeOpen inner blocks + 1 := by
    rw [sizeOpen, sizeOpen, sizeAll, Component.size]
    omega
  rcases nestStep_cases l with ⟨c, rfl⟩ | h | h
  · rcases blocks with _ | ⟨⟨opening, outer⟩, blocks⟩
    · exact hkept
    · rw [nestStep_closes]
      split
      · simp only [sizeOpen, closeBlock, sizeAll, Component.size, sizeAll_reverse, List.map_cons,
          List.sum_cons]
        omega
      · exact hkept
  · rw [h]
    simp only [sizeOpen, sizeAll, List.map_cons, List.sum_cons]
    omega
  · rw [h]
    exact hkept

theorem sizeAll_nest (inner : List Component) (blocks : List (Lexeme × List Component))
    (ls : List Lexeme) :
    sizeAll (nest inner blocks ls) ≤ sizeOpen inner blocks + ls.length := by
  induction ls generalizing inner blocks with
  | nil => exact (sizeAll_closeAll inner blocks).le
  | cons l ls ih =>
    have hstep := sizeOpen_nestStep inner blocks l
    have hrest := ih (nestStep inner blocks l).1 (nestStep inner blocks l).2
    rw [nest_cons, List.length_cons]
    omega

theorem length_readLexemes_le (fuel : Nat) (cs : List Char) :
    (readLexemes fuel cs).length ≤ fuel := by
  fun_induction readLexemes fuel cs with
  | case1 => exact Nat.zero_le _
  | case2 => exact Nat.zero_le _
  | case3 fuel cs ih => exact Nat.le_succ_of_le ih
  | case4 fuel c cs _ lexeme rest _ ih => exact Nat.succ_le_succ ih

/-- A text has no more components than characters, those in brackets included. -/
theorem sizeAll_components_le (cs : List Char) : sizeAll (components cs) ≤ cs.length := by
  have h := sizeAll_nest [] [] (lexemes cs)
  have hl : (lexemes cs).length ≤ cs.length := length_readLexemes_le _ _
  exact Nat.le_trans h (by simpa [sizeOpen, sizeAll] using hl)

/-! ## Fuel -/

/-- Whether two readers for lists in brackets read contents below a size alike. -/
def Inner.Agree (k : Nat) (a b : Inner) : Prop :=
  ∀ content, sizeAll content < k →
    (∀ kind, a.group kind content = b.group kind content) ∧
      a.relatives content = b.relatives content

variable {a b : Inner} {k : Nat}

theorem calledPseudo_congr (h : a.Agree k b) {content : List Component} (hc : sizeAll content < k)
    (name : String) : calledPseudo a name content = calledPseudo b name content := by
  obtain ⟨hgroup, hrelatives⟩ := h content hc
  simp only [calledPseudo, hgroup, hrelatives]

theorem sizeAll_le_of_suffix {cs ds : List Component} (h : cs <:+ ds) :
    sizeAll cs ≤ sizeAll ds := by
  obtain ⟨front, rfl⟩ := h
  rw [sizeAll_append]
  exact Nat.le_add_left _ _

theorem readTests_congr (h : a.Agree k b) (done : List Simple) {cs : List Component}
    (hs : sizeAll cs ≤ k) : readTests a done cs = readTests b done cs := by
  fun_induction readTests a done cs with
  | case1 done name rest ih =>
    simp only [sizeAll, Component.size] at hs
    rw [readTests, ih (by omega)]
  | case2 done name rest ih =>
    simp only [sizeAll, Component.size] at hs
    rw [readTests, ih (by omega)]
  | case3 done tail hne => rw [readTests.eq_3 _ _ _ hne]
  | case4 done content rest ih =>
    simp only [sizeAll, Component.size] at hs
    rw [readTests]
    exact Option.bind_congr fun test _ => ih test (by omega)
  | case5 done name rest ih =>
    simp only [sizeAll, Component.size] at hs
    rw [readTests]
    exact Option.bind_congr fun tests _ => ih tests (by omega)
  | case6 done name content rest ih =>
    simp only [sizeAll, Component.size] at hs
    rw [readTests, calledPseudo_congr h (by omega)]
    exact Option.bind_congr fun test _ => ih test (by omega)
  | case7 done tail h1 h2 => rw [readTests.eq_7 _ _ _ h1 h2]
  | case8 done cs h1 h2 h3 h4 h5 h6 h7 => rw [readTests.eq_8 _ _ _ h1 h2 h3 h4 h5 h6 h7]

theorem skipSpace_suffix (cs : List Component) : skipSpace cs <:+ cs := by
  fun_induction skipSpace cs with
  | case1 cs ih => exact ih.trans (List.suffix_cons _ _)
  | case2 cs => exact List.suffix_refl _

theorem suffix_of_readTests {done tests : List Simple} {cs rest : List Component}
    (h : readTests a done cs = some (tests, rest)) : rest <:+ cs := by
  fun_induction readTests a done cs with
  | case1 done name cs ih => exact (ih h).trans (List.suffix_cons _ _)
  | case2 done name cs ih =>
    exact (ih h).trans ((List.suffix_cons _ _).trans (List.suffix_cons _ _))
  | case3 => cases h
  | case4 done content cs ih =>
    obtain ⟨test, -, h⟩ := Option.bind_eq_some_iff.1 h
    exact (ih test h).trans (List.suffix_cons _ _)
  | case5 done name cs ih =>
    obtain ⟨more, -, h⟩ := Option.bind_eq_some_iff.1 h
    exact (ih more h).trans ((List.suffix_cons _ _).trans (List.suffix_cons _ _))
  | case6 done name content cs ih =>
    obtain ⟨test, -, h⟩ := Option.bind_eq_some_iff.1 h
    exact (ih test h).trans ((List.suffix_cons _ _).trans (List.suffix_cons _ _))
  | case7 => cases h
  | case8 =>
    cases h
    exact List.suffix_refl _

theorem suffix_of_readType {tests : List Simple} {cs rest : List Component}
    (h : readType cs = some (tests, rest)) : rest <:+ cs := by
  revert h
  fun_cases readType cs with
  | case1 => exact nofun
  | case2 name cs =>
    rintro ⟨⟩
    exact ⟨[_], rfl⟩
  | case3 cs =>
    rintro ⟨⟩
    exact ⟨[_, _, _], rfl⟩
  | case4 name cs =>
    rintro ⟨⟩
    exact ⟨[_, _, _], rfl⟩
  | case5 => exact nofun
  | case6 cs =>
    rintro ⟨⟩
    exact ⟨[_], rfl⟩
  | case7 cs =>
    rintro ⟨⟩
    exact ⟨[_, _], rfl⟩
  | case8 name cs =>
    rintro ⟨⟩
    exact ⟨[_, _], rfl⟩
  | case9 => exact nofun
  | case10 cs =>
    rintro ⟨⟩
    exact List.suffix_refl _

theorem readCompound_congr (h : a.Agree k b) {cs : List Component} (hs : sizeAll cs ≤ k) :
    readCompound a cs = readCompound b cs := by
  have hskip := sizeAll_le_of_suffix (skipSpace_suffix cs)
  rw [readCompound, readCompound]
  refine Option.bind_congr fun type htype => ?_
  obtain ⟨type, rest⟩ := type
  have hrest := sizeAll_le_of_suffix (suffix_of_readType htype)
  dsimp only
  rw [readTests_congr h type (by omega)]

theorem suffix_of_readCompound {tests : List Simple} {cs rest : List Component}
    (h : readCompound a cs = some (tests, rest)) : rest <:+ cs := by
  obtain ⟨⟨type, afterType⟩, htype, h⟩ := Option.bind_eq_some_iff.1 h
  obtain ⟨⟨all, afterAll⟩, hall, h⟩ := Option.bind_eq_some_iff.1 h
  have hrest : afterAll = rest := by
    dsimp only at h
    split at h
    · cases h
    · exact (Prod.mk.inj (Option.some.inj h)).2
  rw [← hrest]
  exact (suffix_of_readTests hall).trans
    ((suffix_of_readType htype).trans (skipSpace_suffix cs))

theorem suffix_of_readCombinator {c : Combinator} {cs rest : List Component}
    (h : readCombinator cs = some (c, rest)) : rest <:+ cs := by
  have hskip := skipSpace_suffix cs
  revert h
  rw [readCombinator]
  cases hcs : skipSpace cs with
  | nil => exact nofun
  | cons d ds =>
    rw [hcs] at hskip
    dsimp only
    split
    · rintro ⟨⟩
      exact (List.suffix_cons _ _).trans hskip
    · split
      · rintro ⟨⟩
        exact hskip
      · exact nofun

theorem readChain_congr (h : a.Agree k b) (fuel : Nat) {cs : List Component}
    (hs : sizeAll cs ≤ k) : readChain a fuel cs = readChain b fuel cs := by
  induction fuel generalizing cs with
  | zero => rfl
  | succ fuel ih =>
    rw [readChain, readChain]
    cases hc : readCombinator cs with
    | none => rfl
    | some x =>
      obtain ⟨c, rest⟩ := x
      have hrest := sizeAll_le_of_suffix (suffix_of_readCombinator hc)
      dsimp only
      rw [readCompound_congr h (by omega)]
      refine Option.bind_congr fun x hx => ?_
      obtain ⟨compound, rest'⟩ := x
      have hrest' := sizeAll_le_of_suffix (suffix_of_readCompound hx)
      dsimp only
      rw [ih (by omega)]

theorem readComplex_congr (h : a.Agree k b) {cs : List Component} (hs : sizeAll cs ≤ k) :
    readComplex a cs = readComplex b cs := by
  rw [readComplex, readComplex, readCompound_congr h hs]
  refine Option.bind_congr fun x hx => ?_
  obtain ⟨first, rest⟩ := x
  have hrest := sizeAll_le_of_suffix (suffix_of_readCompound hx)
  dsimp only
  rw [readChain_congr h _ (by omega)]

/-- The combinator that a chain from an element starts with, and the rest. -/
def leadOf (cs : List Component) : Combinator × List Component :=
  match skipSpace cs with
  | c :: rest =>
    match combinator? c with
    | some k => (k, rest)
    | none => (.descendant, c :: rest)
  | [] => (.descendant, [])

theorem suffix_of_leadOf (cs : List Component) : (leadOf cs).2 <:+ cs := by
  have hskip := skipSpace_suffix cs
  rw [leadOf]
  cases hcs : skipSpace cs with
  | nil => exact List.nil_suffix
  | cons c rest =>
    rw [hcs] at hskip
    dsimp only
    split
    · exact (List.suffix_cons _ _).trans hskip
    · exact hskip

theorem readRelative_eq (inner : Inner) (cs : List Component) :
    readRelative inner cs = do
      let (first, rest) ← readCompound inner (leadOf cs).2
      let (more, rest) ← readChain inner (rest.length + 1) rest
      return (.mk ((((leadOf cs).1, first) :: more).map fun (k, compound) => .mk k compound),
        rest) := rfl

theorem readRelative_congr (h : a.Agree k b) {cs : List Component} (hs : sizeAll cs ≤ k) :
    readRelative a cs = readRelative b cs := by
  have hlead := sizeAll_le_of_suffix (suffix_of_leadOf cs)
  rw [readRelative_eq, readRelative_eq, readCompound_congr h (by omega)]
  refine Option.bind_congr fun x hx => ?_
  obtain ⟨first, rest⟩ := x
  have hrest := sizeAll_le_of_suffix (suffix_of_readCompound hx)
  dsimp only
  rw [readChain_congr h _ (by omega)]

theorem sizeAll_le_of_mem_items {cs item : List Component} (h : item ∈ items cs) :
    sizeAll item ≤ sizeAll cs := by
  induction cs generalizing item with
  | nil =>
    rw [List.mem_singleton.1 h]
  | cons c cs ih =>
    rw [sizeAll]
    rcases items_cons_cases c with hc | hc
    · rw [hc, List.mem_cons] at h
      rcases h with rfl | h
      · exact Nat.zero_le _
      · exact Nat.le_add_left_of_le (ih h)
    · obtain ⟨part, parts, hparts⟩ := exists_items cs
      rw [hc cs part parts hparts, List.mem_cons] at h
      rw [hparts] at ih
      rcases h with rfl | h
      · rw [sizeAll]
        exact Nat.add_le_add_left (ih List.mem_cons_self) _
      · exact Nat.le_add_left_of_le (ih (List.mem_cons_of_mem _ h))

theorem relatives_innerReaders (relative : Bool) (fuel : Nat) (content : List Component) :
    (innerReaders relative (fuel + 1)).relatives content =
      if relative then none
      else (items content).mapM fun item => whole? (readRelative (innerReaders true fuel) item) :=
  rfl

/-- Readers for lists in brackets read alike whatever their fuel, as long as it is enough. -/
theorem agree_innerReaders (relative : Bool) {n m k : Nat} (hn : k ≤ n) (hm : k ≤ m) :
    (innerReaders relative n).Agree k (innerReaders relative m) := by
  induction k generalizing relative n m with
  | zero => exact fun content hc => absurd hc (Nat.not_lt_zero _)
  | succ k ih =>
    obtain ⟨n, rfl⟩ : ∃ i, n = i + 1 := ⟨n - 1, by omega⟩
    obtain ⟨m, rfl⟩ : ∃ i, m = i + 1 := ⟨m - 1, by omega⟩
    have ih (relative : Bool) := ih relative (Nat.le_of_succ_le_succ hn) (Nat.le_of_succ_le_succ hm)
    intro content hc
    have hsize {item : List Component} (hitem : item ∈ items content) : sizeAll item ≤ k :=
      Nat.le_trans (sizeAll_le_of_mem_items hitem) (Nat.le_of_lt_succ hc)
    have hcomplex : ∀ item ∈ items content,
        whole? (readComplex (innerReaders relative n) item) =
          whole? (readComplex (innerReaders relative m) item) := fun item hitem => by
      rw [readComplex_congr (ih relative) (hsize hitem)]
    have hrelative : ∀ item ∈ items content,
        whole? (readRelative (innerReaders true n) item) =
          whole? (readRelative (innerReaders true m) item) := fun item hitem => by
      rw [readRelative_congr (ih true) (hsize hitem)]
    constructor
    · intro kind
      cases kind with
      | strict => exact mapM_congr hcomplex
      | forgiving => exact congrArg some (List.filterMap_congr hcomplex)
    · rw [relatives_innerReaders, relatives_innerReaders, mapM_congr hrelative]

/-! ## Lists of selectors -/

/-- Reads a selector from a part of a list. -/
def readItem (fuel : Nat) (item : List Component) : Option Complex :=
  whole? (readComplex (innerReaders false fuel) item)

theorem mapM_readItem {cs : List Component} {n m : Nat} (hn : sizeAll cs ≤ n)
    (hm : sizeAll cs ≤ m) : (items cs).mapM (readItem n) = (items cs).mapM (readItem m) := by
  apply mapM_congr
  intro item hitem
  have hagree := agree_innerReaders false (Nat.le_refl (sizeAll cs) |>.trans hn) hm
  rw [readItem, readItem, readComplex_congr hagree (sizeAll_le_of_mem_items hitem)]

end Selector

open Selector

theorem Group.read?_eq {text : String} {fuel : Nat} (h : text.toList.length ≤ fuel) :
    Group.read? text = (items (components text.toList)).mapM (readItem fuel) := by
  have hsize := sizeAll_components_le text.toList
  exact mapM_readItem hsize (hsize.trans h)

/-- Where the first of two texts leaves nothing open, the texts with a comma between them are read
    as the selectors of both. -/
theorem Group.read?_comma {s : String} (hs : isClosed s.toList = true) (t : String) :
    Group.read? (s ++ "," ++ t) = do
      let g ← Group.read? s
      let h ← Group.read? t
      return g ++ h := by
  have htext : (s ++ "," ++ t).toList = s.toList ++ ',' :: t.toList := by simp
  have hlength : (s ++ "," ++ t).toList.length = s.toList.length + 1 + t.toList.length := by
    rw [htext, List.length_append, List.length_cons]
    omega
  rw [Group.read?_eq (Nat.le_refl _), htext, components_comma hs, items_comma, List.mapM_append,
    Group.read?_eq (by omega : s.toList.length ≤ (s ++ "," ++ t).toList.length),
    Group.read?_eq (by omega : t.toList.length ≤ (s ++ "," ++ t).toList.length), htext]

end SchemaExtraction.Markup
