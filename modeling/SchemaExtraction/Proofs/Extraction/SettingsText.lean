import SchemaExtraction.Proofs.Toml.Lines

/-!
# Settings read back

Settings that can be written as a TOML document are read back from it, whatever the filter field
is. They can be written while their concurrency is an integer of TOML.

Results:
* `Settings.ofToml?_toToml?`: which settings can be written, and that they are read back.
* `FilterSettings.ofToml?_toToml`: the settings of a registry are read back.
-/

namespace SchemaExtraction

open Toml

namespace Settings

theorem isBareKey_formatKey : IsBareKey formatKey := by decide +kernel

theorem isBareKey_concurrencyKey : IsBareKey concurrencyKey := by decide +kernel

theorem isBareKey_fieldKey : IsBareKey fieldKey := by decide +kernel

/-- The lines that settings are written in. -/
def keyLines (s : Settings) (hs : s.maxConcurrency.toNat < 0x8000000000000000) : List KeyLine :=
  (s.defaultFormat.map fun f => .ofString formatKey isBareKey_formatKey f.tag).toList ++
    [.ofInteger concurrencyKey isBareKey_concurrencyKey s.maxConcurrency.toNat hs,
      .ofString fieldKey isBareKey_fieldKey s.filterField]

variable {s : Settings} {text : String}

theorem nodup_keyLines (hs : s.maxConcurrency.toNat < 0x8000000000000000) :
    ((s.keyLines hs).map KeyLine.key).Nodup := by
  cases h : s.defaultFormat <;>
    simp [keyLines, h, KeyLine.ofString, KeyLine.ofInteger, formatKey, concurrencyKey, fieldKey]

theorem toList_of_toToml? (hs : s.maxConcurrency.toNat < 0x8000000000000000)
    (h : s.toToml? = some text) : text.toList = (s.keyLines hs).flatMap KeyLine.text := by
  rw [toToml?, if_pos hs] at h
  obtain rfl := Option.some.inj h
  cases h : s.defaultFormat <;>
    simp [keyLines, h, KeyLine.text, KeyLine.ofString, KeyLine.ofInteger]

theorem lt_of_toToml? (h : s.toToml? = some text) :
    s.maxConcurrency.toNat < 0x8000000000000000 := by
  rw [toToml?] at h
  split at h
  · assumption
  · cases h

theorem natural?_integer (n : UInt64) : natural? (.integer n.toNat) = some n := by
  rw [natural?, if_pos (Int.natCast_nonneg _), Int.toNat_natCast, UInt64.ofNat_toNat]

theorem format?_string (f : Format) : format? (.string f.tag) = some f := by
  cases f <;> rfl

/-- What the lines of settings set is what is read from a document. -/
theorem ofToml?_of_read (hs : s.maxConcurrency.toNat < 0x8000000000000000)
    (h : Toml.read text = some ((s.keyLines hs).map KeyLine.entry)) : ofToml? text = some s := by
  have hkeys : ((s.keyLines hs).map KeyLine.entry).map Prod.fst =
      (s.keyLines hs).map KeyLine.key := List.map_map
  have hfind {l : KeyLine} (hl : l ∈ s.keyLines hs) :
      find? l.key ((s.keyLines hs).map KeyLine.entry) = some l.item :=
    find?_eq_of_mem (hkeys ▸ nodup_keyLines hs) (List.mem_map_of_mem hl)
  have hformat : orDefault? none (fun v => (format? v).map some)
      (find? formatKey ((s.keyLines hs).map KeyLine.entry)) = some s.defaultFormat := by
    cases hf : s.defaultFormat with
    | none =>
      have hnew : formatKey ∉ (s.keyLines hs).map KeyLine.key := by
        simp [keyLines, hf, KeyLine.ofInteger, KeyLine.ofString, formatKey, concurrencyKey,
          fieldKey]
      rw [find?_eq_none (hkeys ▸ hnew)]
      rfl
    | some f =>
      have hmem : KeyLine.ofString formatKey isBareKey_formatKey f.tag ∈ s.keyLines hs := by
        simp [keyLines, hf]
      exact (congrArg (orDefault? none _) (hfind hmem)).trans
        (congrArg (Option.map some) (format?_string f))
  have hconcurrency : orDefault? standard.maxConcurrency natural?
      (find? concurrencyKey ((s.keyLines hs).map KeyLine.entry)) = some s.maxConcurrency := by
    have hmem : KeyLine.ofInteger concurrencyKey isBareKey_concurrencyKey _ hs ∈ s.keyLines hs :=
      List.mem_append_right _ List.mem_cons_self
    exact (congrArg (orDefault? _ natural?) (hfind hmem)).trans (natural?_integer _)
  have hfield : orDefault? standard.filterField string?
      (find? fieldKey ((s.keyLines hs).map KeyLine.entry)) = some s.filterField := by
    have hmem : KeyLine.ofString fieldKey isBareKey_fieldKey s.filterField ∈ s.keyLines hs :=
      List.mem_append_right _ (List.mem_cons_of_mem _ List.mem_cons_self)
    exact congrArg (orDefault? _ string?) (hfind hmem)
  rw [ofToml?, h, Option.bind_eq_bind, Option.bind_some, hformat, hconcurrency, hfield]
  rfl

/-- Settings can be written while their concurrency has no more than 63 bits, and what is written is
    read back as the same settings. -/
theorem ofToml?_toToml? (s : Settings) :
    (s.toToml?.isSome = true ↔ s.maxConcurrency.toNat ≤ 0x7FFFFFFFFFFFFFFF) ∧
      ∀ text, s.toToml? = some text → ofToml? text = some s := by
  refine ⟨?_, fun text h => ?_⟩
  · rw [toToml?]
    split
    · exact ⟨fun _ => by omega, fun _ => rfl⟩
    · exact ⟨nofun, fun h => by omega⟩
  · have hs := lt_of_toToml? h
    exact ofToml?_of_read hs (read_lines (nodup_keyLines hs) (toList_of_toToml? hs h))

/-- A filter field of several lines, with a backslash, a control and five quotation marks in a row,
    at the largest concurrency that can be written. -/
theorem ofToml?_toToml?_quotes :
    let s : Settings := ⟨some .markup, 0x7FFFFFFFFFFFFFFF, "a\\\n\"\"\"\"\"\r"⟩
    let text := "default_engine = \"html\"\nmax_concurrency = 9223372036854775807\n" ++
      "filter_field = \"\"\"\na\\\\\n\"\"\\\"\"\"\\r\"\"\"\n"
    s.toToml? = some text ∧ ofToml? text = some s := by
  intro s text
  have hwritten : s.toToml? = some text := by decide +kernel
  exact ⟨hwritten, (ofToml?_toToml? s).2 text hwritten⟩

end Settings

namespace FilterSettings

/-- The line that the settings of a registry are written in. -/
def keyLine (s : FilterSettings) : KeyLine where
  key := strictKey
  value := if s.strict then "true".toList else "false".toList
  item := .boolean s.strict
  bare := by decide +kernel
  stands := by
    rcases s with ⟨_ | _⟩ <;> exact stands_of_scalar? (List.all_eq_true.1 rfl) rfl

/-- The settings of a registry are read back. -/
theorem ofToml?_toToml (s : FilterSettings) : ofToml? s.toToml = some s := by
  have hnodup : ([s.keyLine].map KeyLine.key).Nodup := List.pairwise_singleton _ _
  have hread : Toml.read s.toToml = some [s.keyLine.entry] :=
    read_lines hnodup (List.append_nil s.keyLine.text).symm
  have hfind : find? strictKey [s.keyLine.entry] = some (.boolean s.strict) := if_pos rfl
  rw [ofToml?, hread, Option.bind_eq_bind, Option.bind_some, hfind]
  rfl

end FilterSettings
end SchemaExtraction
