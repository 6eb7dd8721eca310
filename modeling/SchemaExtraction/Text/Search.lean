/-!
# Finding, splitting and replacing

Occurrences of one text in another are found leftmost first and do not overlap. An empty text
occurs at both ends and between any two characters.

Results:
* `cut?_eq_some`: the cut text is what stands before the occurrence, the occurrence and the rest.
-/

namespace SchemaExtraction.Text

/-- What follows `p` in a text that starts with it. -/
def dropPrefix? : List Char → List Char → Option (List Char)
  | [], s => some s
  | _ :: _, [] => none
  | a :: p, c :: s => if a = c then dropPrefix? p s else none

/-- The texts before and after the first occurrence of `p`. -/
def cut? (p : List Char) : List Char → Option (List Char × List Char)
  | [] => if p.isEmpty then some ([], []) else none
  | c :: cs =>
    match dropPrefix? p (c :: cs) with
    | some rest => some ([], rest)
    | none => (cut? p cs).map fun (before, after) => (c :: before, after)

theorem eq_append_of_dropPrefix? {p s rest : List Char} (h : dropPrefix? p s = some rest) :
    s = p ++ rest := by
  fun_induction dropPrefix? p s with
  | case1 => simpa using h
  | case2 => cases h
  | case3 p c s ih => rw [ih h, List.cons_append]
  | case4 => cases h

theorem cut?_eq_some {p s before after : List Char} (h : cut? p s = some (before, after)) :
    s = before ++ p ++ after := by
  induction s generalizing before with
  | nil =>
    simp only [cut?] at h
    split at h <;> simp_all
  | cons c cs ih =>
    simp only [cut?] at h
    split at h
    · rename_i hr
      obtain ⟨rfl, rfl⟩ := Prod.mk.inj (Option.some.inj h)
      rw [eq_append_of_dropPrefix? hr, List.nil_append]
    · obtain ⟨⟨b, a⟩, hb, e⟩ := Option.map_eq_some_iff.1 h
      obtain ⟨rfl, rfl⟩ := Prod.mk.inj e
      simp [ih hb]

theorem length_after_lt {p s before after : List Char} (hp : p ≠ [])
    (h : cut? p s = some (before, after)) : after.length < s.length := by
  have := List.length_pos_iff.2 hp
  rw [cut?_eq_some h]
  simp
  omega

/-- The pieces between the occurrences of a text that is not empty. -/
def splitAtEach (p : List Char) (hp : p ≠ []) (s : List Char) : List (List Char) :=
  match _h : cut? p s with
  | none => [s]
  | some (before, after) => before :: splitAtEach p hp after
termination_by s.length
decreasing_by exact length_after_lt hp _h

/-- The pieces between the occurrences of `p`. -/
def split (p s : List Char) : List (List Char) :=
  if hp : p = [] then [] :: s.map (fun c => [c]) ++ [[]] else splitAtEach p hp s

/-- Puts `r` for each occurrence of a text that is not empty. -/
def replaceEach (p : List Char) (hp : p ≠ []) (r s : List Char) : List Char :=
  match _h : cut? p s with
  | none => s
  | some (before, after) => before ++ r ++ replaceEach p hp r after
termination_by s.length
decreasing_by exact length_after_lt hp _h

/-- Puts `r` for each occurrence of `p`. -/
def replace (p r s : List Char) : List Char :=
  if hp : p = [] then r ++ s.flatMap (fun c => c :: r) else replaceEach p hp r s

/-- The pieces between the characters of a class; there may be nothing between two of them. -/
def splitWhere (p : Char → Bool) (cs : List Char) : List (List Char) :=
  cs.foldr (fun c pieces =>
    match p c, pieces with
    | false, piece :: rest => (c :: piece) :: rest
    | _, pieces => [] :: pieces) [[]]

/-- The words between the characters of a class. -/
def words (p : Char → Bool) (cs : List Char) : List (List Char) :=
  (splitWhere p cs).filter fun piece => !piece.isEmpty

/-- The pieces one after the other with `sep` between any two. -/
def join (sep : List Char) : List (List Char) → List Char
  | [] => []
  | [piece] => piece
  | piece :: pieces => piece ++ sep ++ join sep pieces

end SchemaExtraction.Text
