import SchemaExtraction.Filter.Builtin
import SchemaExtraction.Proofs.Text.Occurrences

/-!
# Splitting, joining and replacing

The filters that split, join and replace find the same occurrences: from the left, without overlap,
and at both ends and between any two characters when the text that is looked for is empty. An empty
text is not split, and joining leaves it as it is.

Results:
* `split_text`, `join_texts`: the two filters on a text and on a list of texts.
* `split_join`: splitting and joining with another separator is replacing, and with the same one it
  is nothing.
-/

namespace SchemaExtraction.Filter

variable {context : FilterContext} {p r s : String}

theorem separator_of_option (h : option? context "separator" = some (.str p)) :
    separator context = p.toList := by
  rw [separator, h]
  rfl

/-- The pieces of a text as values. -/
def texts (pieces : List (List Char)) : Value :=
  .arr (pieces.map fun piece => .str (String.ofList piece))

theorem split_text (hs : s ≠ "") (context : FilterContext) :
    split (.str s) context = .ok (texts (Text.split (separator context) s.toList)) := by
  rw [split, if_neg hs, texts]

theorem join_texts (pieces : List (List Char)) (context : FilterContext) :
    join (texts pieces) context =
      .ok (.str (String.ofList (Text.join (separator context) pieces))) := by
  have hpieces : (pieces.map fun piece => Value.str (String.ofList piece)).map
      (·.toText.toList) = pieces := by
    rw [List.map_map]
    exact (List.map_congr_left fun piece _ => String.toList_ofList).trans (List.map_id _)
  rw [texts, join, hpieces]

theorem replace_text (hp : option? context "pattern" = some (.str p))
    (hr : option? context "replacement" = some (.str r)) (s : String) :
    replace (.str s) context =
      .ok (.str (String.ofList (Text.replace p.toList r.toList s.toList))) := by
  rw [replace, hp, hr]
  rfl

/-- What a text that is not empty is split into, joined with another separator, is what replacing
    the one by the other gives; what stands between the occurrences of a separator that is not empty
    are the pieces. Split and joined with the same options every text is what it was. -/
theorem split_join :
    (∀ (s p r : String) (splitting joining replacing : FilterContext), s ≠ "" →
      option? splitting "separator" = some (.str p) →
      option? joining "separator" = some (.str r) →
      option? replacing "pattern" = some (.str p) →
      option? replacing "replacement" = some (.str r) →
      ∃ pieces t, split (.str s) splitting = .ok (texts pieces) ∧
        join (texts pieces) joining = .ok (.str t) ∧ replace (.str s) replacing = .ok (.str t) ∧
        (p ≠ "" → Text.CutInto p.toList s.toList pieces)) ∧
    ∀ (s : String) (splitting joining : FilterContext), joining.options = splitting.options →
      ∃ v, split (.str s) splitting = .ok v ∧ join v joining = .ok (.str s) := by
  constructor
  · intro s p r splitting joining replacing hs hsplitting hjoining hpattern hreplacement
    have hsplit := split_text hs splitting
    rw [separator_of_option hsplitting] at hsplit
    refine ⟨_, _, hsplit, join_texts _ joining, ?_, fun hp => ?_⟩
    · rw [replace_text hpattern hreplacement, separator_of_option hjoining, Text.join_split]
    · have hp : p.toList ≠ [] := by simpa using hp
      rw [Text.split, dif_neg hp]
      exact Text.cutInto_splitAtEach hp s.toList
  · intro s splitting joining hoptions
    by_cases hs : s = ""
    · exact ⟨.str s, by rw [split, if_pos hs], rfl⟩
    · have hseparator : separator joining = separator splitting := by
        rw [separator, separator, option?, option?, hoptions]
      refine ⟨_, split_text hs splitting, ?_⟩
      rw [join_texts, hseparator, Text.join_split_self, String.ofList_toList]

/-- Of two occurrences that overlap only the first one counts. -/
theorem split_join_bananas :
    let splitting : FilterContext :=
      ⟨"filter.split", some (.obj [("separator", .str "ana")]), .null⟩
    let joining : FilterContext := ⟨"filter.join", some (.obj [("separator", .str "-")]), .null⟩
    let replacing : FilterContext :=
      ⟨"filter.replace", some (.obj [("pattern", .str "ana"), ("replacement", .str "-")]), .null⟩
    let again : FilterContext := ⟨"filter.join", splitting.options, .null⟩
    "bananas" ≠ "" ∧ option? splitting "separator" = some (.str "ana") ∧
      option? joining "separator" = some (.str "-") ∧
      option? replacing "pattern" = some (.str "ana") ∧
      option? replacing "replacement" = some (.str "-") ∧ "ana" ≠ "" ∧
      (∃ pieces, split (.str "bananas") splitting = .ok (texts pieces) ∧
        join (texts pieces) joining = .ok (.str "b-nas") ∧
        replace (.str "bananas") replacing = .ok (.str "b-nas") ∧
        Text.CutInto "ana".toList "bananas".toList pieces) ∧
      again.options = splitting.options ∧
      ∃ v, split (.str "bananas") splitting = .ok v ∧ join v again = .ok (.str "bananas") := by
  intro splitting joining replacing again
  have hs : "bananas" ≠ "" := by decide
  have hp : "ana" ≠ "" := by decide
  have hsplitting : option? splitting "separator" = some (.str "ana") := by decide
  have hjoining : option? joining "separator" = some (.str "-") := by decide
  have hpattern : option? replacing "pattern" = some (.str "ana") := by decide
  have hreplacement : option? replacing "replacement" = some (.str "-") := by decide
  obtain ⟨pieces, t, hsplit, hjoin, hreplace, hcut⟩ := split_join.1 "bananas" "ana" "-" splitting
    joining replacing hs hsplitting hjoining hpattern hreplacement
  have hresult : replace (.str "bananas") replacing = .ok (.str "b-nas") := by decide +kernel
  obtain rfl : t = "b-nas" := Value.str.inj (Except.ok.inj (hreplace.symm.trans hresult))
  exact ⟨hs, hsplitting, hjoining, hpattern, hreplacement, hp,
    ⟨pieces, hsplit, hjoin, hreplace, hcut hp⟩, rfl, split_join.2 "bananas" splitting again rfl⟩

end SchemaExtraction.Filter
