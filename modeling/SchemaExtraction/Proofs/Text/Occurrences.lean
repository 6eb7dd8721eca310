import Mathlib.Data.List.Infix
import SchemaExtraction.Text.Search

/-!
# Occurrences of one text in another

Cutting finds the first occurrence, and none only if there is none. Cutting again and again, each
time in what is left, finds occurrences that do not overlap, and what stands between them is what
splitting gives and what replacing keeps.

Results:
* `cut?_eq_none_iff`, `cut?_eq_some_iff`: where a text is cut.
* `cut?_append`: a text is cut where one is put together, if no occurrence straddles the seam.
* `cutInto_iff`: the pieces into which a text is split.
* `join_split`, `join_split_self`: joining the pieces with another text, and with what was cut out.
-/

namespace SchemaExtraction.Text

variable {p r s before after : List Char} {pieces : List (List Char)}

/-! ## The first occurrence -/

theorem dropPrefix?_append (p rest : List Char) : dropPrefix? p (p ++ rest) = some rest := by
  induction p with
  | nil => rfl
  | cons c p ih => rw [List.cons_append, dropPrefix?, if_pos rfl, ih]

theorem dropPrefix?_eq_none_iff : dropPrefix? p s = none ↔ ¬ p <+: s := by
  constructor
  · rintro h ⟨rest, rfl⟩
    rw [dropPrefix?_append] at h
    cases h
  · intro h
    cases hrest : dropPrefix? p s with
    | none => rfl
    | some rest => exact absurd ⟨rest, (eq_append_of_dropPrefix? hrest).symm⟩ h

theorem cut?_cons_of_start {c : Char} {rest : List Char} (h : p ++ rest = c :: s) :
    cut? p (c :: s) = some ([], rest) := by
  rw [cut?, ← h, dropPrefix?_append]

theorem cut?_cons_of_not_start {c : Char} (h : ¬ p <+: c :: s) :
    cut? p (c :: s) = (cut? p s).map fun (before, after) => (c :: before, after) := by
  rw [cut?, dropPrefix?_eq_none_iff.2 h]

/-- A text is left whole only if there is nothing to cut. -/
theorem cut?_eq_none_iff : cut? p s = none ↔ ¬ p <:+: s := by
  induction s with
  | nil => cases p <;> simp [cut?]
  | cons c s ih =>
    rw [List.infix_cons_iff]
    by_cases h : p <+: c :: s
    · obtain ⟨rest, hrest⟩ := h
      rw [cut?_cons_of_start hrest]
      simp [← hrest]
    · rw [cut?_cons_of_not_start h, Option.map_eq_none_iff, ih]
      simp [h]

/-- Whether no occurrence of `p` in `before ++ p ++ after` starts before the one that is marked. -/
def IsFirst (p before after : List Char) : Prop :=
  ∀ b a, before ++ p ++ after = b ++ p ++ a → before.length ≤ b.length

theorem IsFirst.not_infix (h : IsFirst p before after) (hp : p ≠ []) : ¬ p <:+: before := by
  rintro ⟨b, a, rfl⟩
  have hle := h b (a ++ p ++ after) (by simp)
  have hpos := List.length_pos_iff.2 hp
  simp only [List.length_append] at hle
  omega

theorem isFirst_of_cut? (h : cut? p s = some (before, after)) : IsFirst p before after := by
  induction s generalizing before with
  | nil =>
    have hnil := cut?_eq_some h
    simp_all [IsFirst]
  | cons c s ih =>
    intro b a heq
    by_cases hp : p <+: c :: s
    · obtain ⟨rest, hrest⟩ := hp
      rw [cut?_cons_of_start hrest] at h
      cases h
      exact Nat.zero_le _
    · rw [← cut?_eq_some h] at heq
      rw [cut?_cons_of_not_start hp] at h
      obtain ⟨⟨before, after⟩, hcut, h⟩ := Option.map_eq_some_iff.1 h
      cases h
      cases b with
      | nil => exact absurd ⟨a, heq.symm⟩ hp
      | cons d b =>
        obtain ⟨-, heq⟩ := List.cons.inj heq
        rw [cut?_eq_some hcut] at heq
        exact Nat.succ_le_succ (ih hcut b a heq)

/-- A text is cut at the first occurrence. -/
theorem cut?_eq_some_iff :
    cut? p s = some (before, after) ↔ s = before ++ p ++ after ∧ IsFirst p before after := by
  refine ⟨fun h => ⟨cut?_eq_some h, isFirst_of_cut? h⟩, ?_⟩
  rintro ⟨rfl, hfirst⟩
  cases h : cut? p (before ++ p ++ after) with
  | none => exact absurd ⟨before, after, rfl⟩ (cut?_eq_none_iff.1 h)
  | some found =>
    obtain ⟨b, a⟩ := found
    have heq := cut?_eq_some h
    have hlength := Nat.le_antisymm (hfirst b a heq) (isFirst_of_cut? h before after heq.symm)
    rw [List.append_assoc, List.append_assoc] at heq
    obtain ⟨rfl, hrest⟩ := List.append_inj heq hlength
    rw [List.append_cancel_left hrest]

/-- If `c` occurs in `p` at most at its start, no `p` that starts in `t` can go on with a `c`
    behind it. -/
theorem not_prefix_append {c : Char} {t : List Char} (hc : c ∉ p.tail) (ht : t ≠ [])
    (h : ¬ p <+: t) (rest : List Char) : ¬ p <+: t ++ c :: rest := by
  intro hp
  have hlt : t.length < p.length := by
    by_contra hle
    exact h (List.prefix_of_prefix_length_le hp (List.prefix_append t _) (Nat.le_of_not_lt hle))
  have hget : p[t.length] = c := by
    have := hp.getElem hlt
    simpa using this
  cases p with
  | nil => exact absurd hlt (Nat.not_lt_zero _)
  | cons d p =>
    have hpos : 0 < t.length := List.length_pos_iff.2 ht
    rw [List.getElem_cons, dif_neg (Nat.ne_of_gt hpos)] at hget
    exact hc (hget ▸ List.getElem_mem _)

/-- A text is cut where one is put together, if `p` does not occur before and its first character
    does not occur in it again. -/
theorem cut?_append {c : Char} {p t : List Char} (hc : c ∉ p) (h : ¬ c :: p <:+: t)
    (rest : List Char) : cut? (c :: p) (t ++ c :: p ++ rest) = some (t, rest) := by
  induction t with
  | nil => exact cut?_cons_of_start rfl
  | cons d t ih =>
    rw [List.infix_cons_iff, not_or] at h
    have hnot : ¬ c :: p <+: d :: (t ++ c :: p ++ rest) := by
      simpa using not_prefix_append hc (List.cons_ne_nil d t) h.1 (p ++ rest)
    rw [List.cons_append, List.cons_append, cut?_cons_of_not_start hnot, ih h.2]
    rfl

/-! ## The pieces between occurrences -/

/-- Whether `pieces` are what stands between the occurrences of `p` in a text, found from the left
    and each behind the one before it. -/
inductive CutInto (p : List Char) : List Char → List (List Char) → Prop
  | last {s : List Char} (h : ¬ p <:+: s) : CutInto p s [s]
  | cut {before after : List Char} {pieces : List (List Char)} (first : IsFirst p before after)
      (rest : CutInto p after pieces) : CutInto p (before ++ p ++ after) (before :: pieces)

theorem CutInto.ne_nil (h : CutInto p s pieces) : pieces ≠ [] := by
  cases h <;> exact List.cons_ne_nil _ _

theorem cutInto_splitAtEach (hp : p ≠ []) (s : List Char) : CutInto p s (splitAtEach p hp s) := by
  fun_induction splitAtEach p hp s with
  | case1 s h => exact .last (cut?_eq_none_iff.1 h)
  | case2 s before after h ih =>
    obtain ⟨rfl, hfirst⟩ := cut?_eq_some_iff.1 h
    exact .cut hfirst ih

/-- A text is cut into pieces in one way. -/
theorem CutInto.unique {pieces' : List (List Char)} (h : CutInto p s pieces)
    (h' : CutInto p s pieces') : pieces = pieces' := by
  induction h generalizing pieces' with
  | last h =>
    cases h' with
    | last => rfl
    | cut => exact absurd ⟨_, _, rfl⟩ h
  | @cut before after pieces first _ ih =>
    have hcut : cut? p (before ++ p ++ after) = some (before, after) :=
      cut?_eq_some_iff.2 ⟨rfl, first⟩
    generalize hs : before ++ p ++ after = s at h'
    cases h' with
    | last h' => exact absurd ⟨before, after, hs⟩ h'
    | cut first' rest' =>
      rw [hs, cut?_eq_some_iff.2 ⟨rfl, first'⟩] at hcut
      cases hcut
      rw [ih rest']

theorem cutInto_iff (hp : p ≠ []) : CutInto p s pieces ↔ splitAtEach p hp s = pieces :=
  ⟨fun h => (cutInto_splitAtEach hp s).unique h, fun h => h ▸ cutInto_splitAtEach hp s⟩

theorem join_cons (sep piece : List Char) (h : pieces ≠ []) :
    join sep (piece :: pieces) = piece ++ sep ++ join sep pieces := by
  cases pieces with
  | nil => exact absurd rfl h
  | cons _ _ => rfl

/-- Replacing puts the replacement between the pieces. -/
theorem replaceEach_eq_join (hp : p ≠ []) (r s : List Char) :
    replaceEach p hp r s = join r (splitAtEach p hp s) := by
  fun_induction replaceEach p hp r s with
  | case1 s h =>
    have hlast : CutInto p s [s] := .last (cut?_eq_none_iff.1 h)
    rw [(cutInto_iff hp).1 hlast, join]
  | case2 s before after h ih =>
    obtain ⟨rfl, hfirst⟩ := cut?_eq_some_iff.1 h
    have hrest := cutInto_splitAtEach hp after
    rw [(cutInto_iff hp).1 (.cut hfirst hrest), join_cons r before hrest.ne_nil, ih]

/-- With what was cut out between them the pieces are the text. -/
theorem CutInto.join_eq (h : CutInto p s pieces) : join p pieces = s := by
  induction h with
  | last => rfl
  | cut _ rest ih => rw [join_cons p _ rest.ne_nil, ih]

/-- The characters one by one, with the end of the text behind them. -/
theorem join_characters (sep s : List Char) :
    join sep (s.map (fun c => [c]) ++ [[]]) = s.flatMap fun c => c :: sep := by
  induction s with
  | nil => rfl
  | cons c s ih =>
    rw [List.map_cons, List.cons_append, join_cons sep _ (by simp), ih, List.flatMap_cons]
    rfl

/-- Joining with another text what splitting at `p` gives is replacing `p` by it. -/
theorem join_split (p r s : List Char) : join r (split p s) = replace p r s := by
  rw [split, replace]
  split
  next hp =>
    rw [List.cons_append, join_cons r _ (by simp), join_characters, List.nil_append]
  next hp => exact (replaceEach_eq_join hp r s).symm

theorem join_split_self (p s : List Char) : join p (split p s) = s := by
  rw [split]
  split
  next hp =>
    rw [hp, List.cons_append, join_cons _ _ (by simp), join_characters]
    simp
  next hp => exact (cutInto_splitAtEach hp s).join_eq

end SchemaExtraction.Text
