import Mathlib.Data.List.Forall2

/-!
# Going through a list

A step that may fail is done at the items of a list one after the other, up to the first failure.

Results:
* `mapM_congr`: what the step does at other items does not matter.
* `mapM_eq_some_iff`, `mapM_eq_ok_iff`: the values, if there is no failure.
* `mapM_eq_error_iff`: the failure is the first one.
* `exists_mapM_eq_error_iff`: whether there is one.
-/

namespace SchemaExtraction

theorem mapM_congr {m : Type → Type} [Monad m] [LawfulMonad m] {α β : Type} {f g : α → m β}
    {as : List α} (h : ∀ a ∈ as, f a = g a) : as.mapM f = as.mapM g := by
  have hid (k : α → m β) : (as.map k).mapM id = as.mapM k := List.mapM_map
  rw [← hid, ← hid, List.map_congr_left h]

/-! ## Lists item by item -/

section

variable {α β : Type}

theorem mapM_eq_some_iff {f : β → Option α} {bs : List β} {as : List α} :
    bs.mapM f = some as ↔ List.Forall₂ (fun b a => f b = some a) bs as := by
  induction bs generalizing as with
  | nil => simp [eq_comm]
  | cons b bs ih =>
    rw [List.mapM_cons, List.forall₂_cons_left_iff]
    simp only [Option.bind_eq_bind, Option.bind_eq_some_iff, Option.pure_def, Option.some.injEq]
    constructor
    · rintro ⟨a, ha, as', has', rfl⟩
      exact ⟨a, as', ha, ih.1 has', rfl⟩
    · rintro ⟨a, as', ha, has', rfl⟩
      exact ⟨a, ha, as', ih.2 has', rfl⟩

theorem forall₂_congr_left {R S : β → α → Prop} {bs : List β} {as : List α}
    (h : ∀ b ∈ bs, ∀ a, R b a ↔ S b a) : List.Forall₂ R bs as ↔ List.Forall₂ S bs as := by
  induction bs generalizing as with
  | nil => simp
  | cons b bs ih =>
    rw [List.forall₂_cons_left_iff, List.forall₂_cons_left_iff]
    simp only [h b (by simp), ih fun b' hb' => h b' (by simp [hb'])]

theorem exists_of_forall₂ {R : β → α → Prop} {bs : List β} {as : List α}
    (h : List.Forall₂ R bs as) {a : α} (ha : a ∈ as) : ∃ b ∈ bs, R b a := by
  induction h with
  | nil => cases ha
  | cons hr _ ih =>
    rcases List.mem_cons.1 ha with rfl | ha
    · exact ⟨_, by simp, hr⟩
    · obtain ⟨b, hb, hr⟩ := ih ha
      exact ⟨b, by simp [hb], hr⟩

theorem exists_forall₂ {R : β → α → Prop} {bs : List β} (h : ∀ b ∈ bs, ∃ a, R b a) :
    ∃ as, List.Forall₂ R bs as := by
  induction bs with
  | nil => exact ⟨[], .nil⟩
  | cons b bs ih =>
    obtain ⟨a, ha⟩ := h b (by simp)
    obtain ⟨as, has⟩ := ih fun b' hb' => h b' (by simp [hb'])
    exact ⟨a :: as, .cons ha has⟩

end

/-! ## Up to the first failure -/

variable {ε α β : Type} {f : α → Except ε β}

theorem map_eq_ok_iff {g : α → β} {x : Except ε α} {b : β} :
    x.map g = .ok b ↔ ∃ a, x = .ok a ∧ g a = b := by
  cases x with
  | error e => exact ⟨nofun, nofun⟩
  | ok a => simp [Except.map]

theorem map_eq_error_iff {g : α → β} {x : Except ε α} {e : ε} :
    x.map g = .error e ↔ x = .error e := by
  cases x with
  | error e' => simp [Except.map]
  | ok a => exact ⟨nofun, nofun⟩

/-- Whether `e` is the failure at the first item of a list at which there is one. -/
def FailsFirst (f : α → Except ε β) (as : List α) (e : ε) : Prop :=
  ∃ before a after, as = before ++ a :: after ∧ (∀ b ∈ before, ∃ w, f b = .ok w) ∧ f a = .error e

theorem not_failsFirst_nil (e : ε) : ¬ FailsFirst f [] e := by
  rintro ⟨before, a, after, h, -⟩
  cases before <;> cases h

theorem failsFirst_cons_of_ok {a : α} {b : β} (h : f a = .ok b) {as : List α} {e : ε} :
    FailsFirst f (a :: as) e ↔ FailsFirst f as e := by
  constructor
  · rintro ⟨before, c, after, hsplit, hbefore, hc⟩
    rcases List.cons_eq_append_iff.1 hsplit with ⟨rfl, hcons⟩ | ⟨before, rfl, rfl⟩
    · obtain ⟨rfl, -⟩ := List.cons.inj hcons
      rw [h] at hc
      cases hc
    · exact ⟨before, c, after, rfl, fun b hb => hbefore b (List.mem_cons_of_mem _ hb), hc⟩
  · rintro ⟨before, c, after, rfl, hbefore, hc⟩
    exact ⟨a :: before, c, after, rfl, List.forall_mem_cons.2 ⟨⟨b, h⟩, hbefore⟩, hc⟩

theorem failsFirst_cons_of_error {a : α} {e : ε} (h : f a = .error e) {as : List α} {e' : ε} :
    FailsFirst f (a :: as) e' ↔ e = e' := by
  constructor
  · rintro ⟨before, c, after, hsplit, hbefore, hc⟩
    rcases List.cons_eq_append_iff.1 hsplit with ⟨rfl, hcons⟩ | ⟨before, rfl, rfl⟩
    · obtain ⟨rfl, -⟩ := List.cons.inj hcons
      rw [h] at hc
      exact Except.error.inj hc
    · obtain ⟨w, hw⟩ := hbefore a List.mem_cons_self
      rw [h] at hw
      cases hw
  · rintro rfl
    exact ⟨[], a, as, rfl, fun b hb => absurd hb List.not_mem_nil, h⟩

theorem mapM_eq_ok_iff {as : List α} {bs : List β} :
    as.mapM f = .ok bs ↔ List.Forall₂ (fun a b => f a = .ok b) as bs := by
  induction as generalizing bs with
  | nil =>
    rw [List.mapM_nil, List.forall₂_nil_left_iff]
    exact ⟨fun h => (Except.ok.inj h).symm, fun h => h ▸ rfl⟩
  | cons a as ih =>
    rw [List.mapM_cons, List.forall₂_cons_left_iff]
    cases ha : f a with
    | error e => exact ⟨nofun, fun ⟨_, _, h, _⟩ => nomatch h⟩
    | ok b =>
      change (as.mapM f).map (b :: ·) = .ok bs ↔ _
      rw [map_eq_ok_iff]
      constructor
      · rintro ⟨rest, hrest, rfl⟩
        exact ⟨b, rest, rfl, ih.1 hrest, rfl⟩
      · rintro ⟨b, rest, hb, hrest, rfl⟩
        cases hb
        exact ⟨rest, ih.2 hrest, rfl⟩

theorem mapM_eq_error_iff {as : List α} {e : ε} :
    as.mapM f = .error e ↔ FailsFirst f as e := by
  induction as with
  | nil => exact ⟨nofun, fun h => absurd h (not_failsFirst_nil e)⟩
  | cons a as ih =>
    rw [List.mapM_cons]
    cases ha : f a with
    | error e' =>
      rw [failsFirst_cons_of_error ha]
      exact ⟨Except.error.inj, congrArg Except.error⟩
    | ok b =>
      rw [failsFirst_cons_of_ok ha, ← ih]
      exact map_eq_error_iff

theorem exists_mapM_eq_error_iff {as : List α} :
    (∃ e, as.mapM f = .error e) ↔ ∃ a ∈ as, ∃ e, f a = .error e := by
  constructor
  · rintro ⟨e, h⟩
    obtain ⟨before, a, after, rfl, -, ha⟩ := mapM_eq_error_iff.1 h
    exact ⟨a, by simp, e, ha⟩
  · rintro ⟨a, ha, e, he⟩
    cases h : as.mapM f with
    | error e' => exact ⟨e', rfl⟩
    | ok bs =>
      have hall : List.Forall₂ (fun b a => f a = .ok b) bs as := (mapM_eq_ok_iff.1 h).flip
      obtain ⟨b, -, hok⟩ := exists_of_forall₂ hall ha
      rw [he] at hok
      cases hok

end SchemaExtraction
