import SchemaExtraction.Proofs.Markup.Rules

/-!
# Runs of the machine

A run of the machine over a text that has been written is cut where a tag, a comment or a piece of
text has been read. The parts are put together again whatever the fuel of the run.

Results:
* `Leads.trans`: one part after the other.
* `Leads.of_scan`, `Leads.of_scanMarkup`: one reading of tokens.
* `run_nil`: the end of a text.
* `leads_token`: a tag or comment in regular content.
-/

namespace SchemaExtraction.Markup

open Build

variable {outer : List Element} {b b' b₁ b₀ : Builder} {token : Token}
  {cs rest rest' : List Char}

/-- The machine before a text gets to where another one is before the rest of it. -/
def Leads (cs : List Char) (b : Builder) (rest : List Char) (b' : Builder) : Prop :=
  ∀ fuel, cs.length < fuel → ∃ fuel', rest.length < fuel' ∧ run fuel cs b = run fuel' rest b'

namespace Leads

theorem refl (cs : List Char) (b : Builder) : Leads cs b cs b := fun fuel hf => ⟨fuel, hf, rfl⟩

theorem trans (h : Leads cs b rest b₁) (h' : Leads rest b₁ rest' b') : Leads cs b rest' b' := by
  intro fuel hf
  obtain ⟨fuel₁, hf₁, h₁⟩ := h fuel hf
  obtain ⟨fuel₂, hf₂, h₂⟩ := h' fuel₁ hf₁
  exact ⟨fuel₂, hf₂, h₁.trans h₂⟩

/-- One reading of tokens. What follows a script does not begin with a byte order mark. -/
theorem of_scan {tokens : List Token}
    (hs : Token.scan b.textMode (readsForeign b) cs = (tokens, rest))
    (hl : rest.length < cs.length) (hn : Token.finish ∉ tokens)
    (he : endsScript b tokens = true → dropOrderMark rest = rest)
    (hb : feedAll tokens b = ((), b')) : Leads cs b rest b' := by
  intro fuel hf
  obtain _ | fuel := fuel
  · cases hf
  refine ⟨fuel, by omega, ?_⟩
  have hrest : (if endsScript b tokens then dropOrderMark rest else rest) = rest := by
    split
    · exact he ‹_›
    · rfl
  have hfinish : tokens.contains Token.finish = false := by
    simpa [Bool.eq_false_iff] using hn
  rw [run, hs]
  dsimp only
  rw [hrest, hfinish, hb]
  rfl

/-- One reading of tokens where tags are recognized. -/
theorem of_scanMarkup (ht : b.textMode = .markup) (hr : readsForeign b = false)
    (hm : b.mode ≠ .inText) {tokens : List Token}
    (hs : Token.scanMarkup false cs = (tokens, rest)) (hl : rest.length < cs.length)
    (hn : Token.finish ∉ tokens) (hb : feedAll tokens b = ((), b')) : Leads cs b rest b' := by
  have hscript : endsScript b tokens = false := by
    rw [endsScript, decide_eq_false hm, Bool.false_and]
  have hscan : Token.scan b.textMode (readsForeign b) cs = (tokens, rest) := by
    rw [ht, hr]
    exact hs
  exact .of_scan hscan hl hn (fun h => by rw [hscript] at h; cases h) hb

end Leads

/-- At the end of a text one more token is handled. -/
theorem run_nil (fuel : Nat) (hm : b.textMode = .markup) (hm' : b.mode ≠ .inText)
    (hb : feed .finish b = ((), b')) : run (fuel + 1) [] b = b' := by
  have hscript : endsScript b [.finish] = false := by
    rw [endsScript, decide_eq_false hm', Bool.false_and]
  have hs : Token.scan b.textMode (readsForeign b) [] = ([.finish], []) := by
    rw [hm]
    rfl
  rw [run, hs]
  dsimp only
  rw [hscript]
  exact congrArg Prod.snd ((bind_eq hb).trans rfl)

theorem Follows.reads (hf : Follows b b₀) (h : Stands outer b₀) :
    b.textMode = .markup ∧ readsForeign b = false ∧ b.mode ≠ .inText := by
  rcases hf with rfl | ⟨ht, hm, -, -, hr, -⟩
  · refine ⟨h.textMode, h.readsForeign_eq_false, fun hm => ?_⟩
    have hmem := modeOf_mem outer
    rw [← h.mode, hm] at hmem
    simp at hmem
  · exact ⟨ht, hr, by rw [hm]; decide⟩

/-- A tag or comment is read and handled. -/
theorem leads_token (hf : Follows b b₀) (h : Stands outer b₀)
    (ht : isTagOrComment token = true) (hs : Token.scanMarkup false cs = ([token], rest))
    (hl : rest.length < cs.length) (hr : rules token { b₀ with skipLine := false } = (.done, b')) :
    Leads cs b rest b' := by
  obtain ⟨htext, hforeign, hmode⟩ := hf.reads h
  refine .of_scanMarkup htext hforeign hmode hs hl ?_
    ((bind_eq (feed_of_rules hf h ht hr)).trans rfl)
  rintro hm
  rw [← List.mem_singleton.1 hm] at ht
  cases ht

end SchemaExtraction.Markup
