import SchemaExtraction.Proofs.Markup.PageRoundTrip
import SchemaExtraction.Proofs.Markup.Properties
import SchemaExtraction.Proofs.Markup.Survivors
import SchemaExtraction.Proofs.Value.Templates

/-!
# Unselecting and cleaning

A step with an unselector takes what it matches away from the page that has been read. Cleaning
takes the same away and writes the page, and a step on what has been written reads it once more.
The values are the same if what is left of the page is read back, as all legible pages are. A page
that has lost its head, say, is read with a head again.

Results:
* `clean_of_read`: what cleaning leaves.
* `resolve_unselector`: unselecting agrees with cleaning first.
-/

namespace SchemaExtraction.Markup

variable {text selector unselector : String} {doomed : Group} {step : Step} {reference : Value}

/-- What is written always has the tag of the root element. -/
theorem Page.write_ne_nil (page : Page) : page.write ≠ [] := by
  simp [Page.write, Page.rootPlace, Place.outer, Forest.write, Element.writeStart]

/-- Cleaning a text that is a list of selectors leaves the page without what they match. -/
theorem clean_of_read (htext : text ≠ "") (hd : Group.read? unselector = some doomed) :
    clean (.str text) [unselector] =
      .ok (.str (String.ofList ((Page.parse text).remove doomed).write)) := by
  have hclean : clean (.str text) [unselector] = (cleanPage text [unselector]).map .str := by
    simp [clean, htext]
  have hone : ",".intercalate [unselector] = unselector := rfl
  rw [hclean, cleanPage, hone, readGroup, hd]
  rfl

/-- Whether or not a selector can be read, pages that differ at most in how texts are cut have the
    same value. -/
theorem Page.Alike.select_eq {p q : Page} (h : p.Alike q) (hu : step.unselector = none)
    (selector : String) :
    Markup.select p selector step reference = Markup.select q selector step reference := by
  simp only [Markup.select, hu]
  cases hw : readGroup selector with
  | error e => rfl
  | ok wanted => exact congrArg Except.ok (h.present_eq wanted step.property)

/-- A step with an unselector is the step without one on what the unselector leaves. -/
theorem select_unselector (page : Page) (hplain : Template.isPlain unselector.toList = true)
    (hblank : Text.trim unselector.toList ≠ []) (hd : Group.read? unselector = some doomed)
    (selector : String) :
    Markup.select page selector { step with unselector := some unselector } reference =
      Markup.select (page.remove doomed) selector { step with unselector := none } reference := by
  have hnonempty : (Text.trim unselector.toList).isEmpty = false := by simpa using hblank
  have hleft : page.unselect unselector reference = .ok (page.remove doomed) := by
    rw [Page.unselect, Template.interpolate_of_isPlain hplain, hnonempty, readGroup, hd]
    rfl
  simp only [Markup.select, hleft]
  rfl

/-- Unselecting agrees with cleaning first if what is left of the page is read back from its
    written form, but for texts side by side. All legible pages are. -/
theorem resolve_unselector (htext : text ≠ "")
    (hplain : Template.isPlain unselector.toList = true)
    (hblank : Text.trim unselector.toList ≠ []) (hd : Group.read? unselector = some doomed)
    (hs : step.selector = some selector) (hroot : selector ≠ Reserved.root)
    (hr : step.reference = none) (reference : Value) :
    let left := (Page.parse text).remove doomed
    let cleaned := String.ofList left.write
    clean (.str text) [unselector] = .ok (.str cleaned) ∧
      (left.isLegible = true → (Page.parse cleaned).Alike left) ∧
      ((Page.parse cleaned).Alike left →
        resolve (.str text) { step with unselector := some unselector } reference =
          resolve (.str cleaned) { step with unselector := none } reference) := by
  intro left cleaned
  have hcleaned : cleaned ≠ "" := fun h => left.write_ne_nil (String.ofList_eq_empty_iff.1 h)
  have hafter : resolve (.str cleaned) { step with unselector := none } reference =
      Markup.select (Page.parse cleaned) selector { step with unselector := none } reference :=
    resolve_selector hcleaned hs hroot hr
  refine ⟨clean_of_read htext hd, fun h => .of_join (Page.parse_write_of_isLegible h),
    fun halike => ?_⟩
  calc resolve (.str text) { step with unselector := some unselector } reference
      = Markup.select (Page.parse text) selector
          { step with unselector := some unselector } reference :=
        resolve_selector htext hs hroot hr
    _ = Markup.select left selector { step with unselector := none } reference :=
        select_unselector (Page.parse text) hplain hblank hd selector
    _ = Markup.select (Page.parse cleaned) selector { step with unselector := none } reference :=
        (halike.select_eq rfl selector).symm
    _ = resolve (.str cleaned) { step with unselector := none } reference :=
        hafter.symm

/-- A page with advertisements in preformatted text and in a table. -/
def sponsored : String :=
  "<pre>a<b class=ad>Buy</b>\n b</pre><table><tr class=ad><td>Buy<tr><td>1 < 2</table>"

/-- What is left of the page. -/
def unsponsored : Page where
  before := []
  root := ⟨.html, "html", []⟩
  content := .element ⟨.html, "head", []⟩ .nil <| .element ⟨.html, "body", []⟩
    (.element ⟨.html, "pre", []⟩ (.leaf (.text "a") (.leaf (.text "\n b") .nil)) <|
      .element ⟨.html, "table", []⟩ (.element ⟨.html, "tbody", []⟩ (.element ⟨.html, "tr", []⟩
        (.element ⟨.html, "td", []⟩ (.leaf (.text "1 < 2") .nil) .nil) .nil) .nil) .nil) .nil
  after := []

/-- The page is read back, with the texts around an advertisement as one. -/
theorem resolve_unselector_sponsored :
    let step := Step.ofSelector "pre, td"
    let doomed : Group := [.mk [.ofClass "ad"] []]
    let left := (Page.parse sponsored).remove doomed
    let cleaned := String.ofList left.write
    sponsored ≠ "" ∧ Template.isPlain ".ad".toList = true ∧ Text.trim ".ad".toList ≠ [] ∧
      Group.read? ".ad" = some doomed ∧ step.selector = some "pre, td" ∧
      "pre, td" ≠ Reserved.root ∧ step.reference = none ∧ left.isLegible = true ∧
      (Page.parse cleaned).Alike left ∧ clean (.str sponsored) [".ad"] = .ok (.str cleaned) ∧
      resolve (.str sponsored) { step with unselector := some ".ad" } .null =
        .ok (.arr [.str "<pre>a\n b</pre>", .str "<td>1 &lt; 2</td>"]) ∧
      resolve (.str sponsored) { step with unselector := some ".ad" } .null =
        resolve (.str cleaned) { step with unselector := none } .null := by
  intro step doomed left cleaned
  have htext : sponsored ≠ "" := by decide
  have hplain : Template.isPlain ".ad".toList = true := by decide
  have hblank : Text.trim ".ad".toList ≠ [] := by decide
  have hd : Group.read? ".ad" = some doomed := rfl
  have hs : step.selector = some "pre, td" := rfl
  have hroot : "pre, td" ≠ Reserved.root := by decide
  have hleft : left = unsponsored := by decide +kernel
  have hlegible : left.isLegible = true := by
    rw [hleft]
    decide +kernel
  obtain ⟨hclean, halike, hsame⟩ :=
    resolve_unselector htext hplain hblank hd hs hroot rfl .null
  exact ⟨htext, hplain, hblank, hd, hs, hroot, rfl, hlegible, halike hlegible, hclean,
    by decide +kernel, hsame (halike hlegible)⟩

/-- A page without its head has a head again when it is read from its written form. -/
theorem resolve_regains_head :
    let text := "<p>x</p>"
    let step := { Step.ofSelector "head" with property := some Reserved.length }
    let cleaned := "<html><body><p>x</p></body></html>"
    text ≠ "" ∧ Template.isPlain "head".toList = true ∧ Text.trim "head".toList ≠ [] ∧
      (Group.read? "head").isSome = true ∧ step.selector ≠ some Reserved.root ∧
      step.reference = none ∧ clean (.str text) ["head"] = .ok (.str cleaned) ∧
      resolve (.str text) { step with unselector := some "head" } .null = .ok (.ofNat 0) ∧
      resolve (.str cleaned) { step with unselector := none } .null = .ok (.ofNat 1) ∧
      resolve (.str text) { step with unselector := some "head" } .null ≠
        resolve (.str cleaned) { step with unselector := none } .null := by
  intro text step cleaned
  have hwith : resolve (.str text) { step with unselector := some "head" } .null =
      .ok (.ofNat 0) := by decide +kernel
  have hafter : resolve (.str cleaned) { step with unselector := none } .null =
      .ok (.ofNat 1) := by decide +kernel
  refine ⟨by decide, by decide, by decide, by decide +kernel, by decide, rfl, by decide +kernel,
    hwith, hafter, ?_⟩
  rw [hwith, hafter]
  decide

end SchemaExtraction.Markup
