import SchemaExtraction.Markup.Removal

/-!
# Detaching one by one

Elements that are detached one after the other may hold each other, and an element that is gone is
still held by nothing and still holds what it held. What a node holds in the end depends only on
which nodes are detached at all, so the page that is left is the page pruned in one pass.

Results:
* `Draft.detach_without`: what detaching one more node changes.
* `Draft.forestOf_without`: the forest that is left of a laid out one.
* `Page.detach_eq_prune`: detaching leaves the pruned page.
-/

namespace SchemaExtraction.Markup

/-! ## Drafts without some nodes -/

/-- The cell at a number when some nodes are held by nothing. -/
def Cell.without (gone : NodeId → Bool) (id : NodeId) (cell : Cell) : Cell :=
  ⟨cell.kind, cell.children.filter (!gone ·), if gone id then none else cell.parent⟩

namespace Draft

/-- A draft in which some nodes are held by nothing. -/
def without (gone : NodeId → Bool) (d : Draft) : Draft :=
  ⟨d.cells.mapIdx fun id cell => cell.without gone id⟩

/-- Whether each node that is held knows what holds it. -/
def Linked (d : Draft) : Prop :=
  ∀ (holder : NodeId) (cell : Cell), d.cells[holder]? = some cell →
    ∀ id ∈ cell.children, d.parent? id = some holder

variable {d : Draft} {gone : NodeId → Bool}

theorem eq_of_getElem?_eq {e : Draft} (h : ∀ id : NodeId, d.cells[id]? = e.cells[id]?) : d = e := by
  cases d
  cases e
  exact congrArg Draft.mk (Array.ext_getElem? h)

theorem getElem?_without (gone : NodeId → Bool) (d : Draft) (id : NodeId) :
    (d.without gone).cells[id]? = d.cells[id]?.map (Cell.without gone id) := by
  simp [without]

theorem parent?_without (gone : NodeId → Bool) (d : Draft) (id : NodeId) :
    (d.without gone).parent? id = if gone id then none else d.parent? id := by
  rw [parent?, getElem?_without]
  cases h : d.cells[id]? with
  | none => simp [parent?, h]
  | some cell => by_cases hg : gone id <;> simp [parent?, h, hg, Cell.without]

theorem without_nothing (d : Draft) : d.without (fun _ => false) = d := by
  apply eq_of_getElem?_eq
  intro id
  have hall (cell : Cell) : cell.without (fun _ => false) id = cell := by
    have hkept : cell.children.filter (fun _ => !false) = cell.children :=
      Array.filter_eq_self.2 fun _ _ => rfl
    rw [Cell.without, hkept, if_neg Bool.false_ne_true]
  rw [getElem?_without, funext hall, Option.map_id_fun', id_eq]

/-- What a node is and holds when another has been detached. -/
theorem getElem?_detach (id : NodeId) (d : Draft) (i : NodeId) :
    (d.detach id).cells[i]? = d.cells[i]?.map fun cell =>
      ⟨cell.kind, if d.parent? id = some i then cell.children.filter (· ≠ id) else cell.children,
        if id = i then none else cell.parent⟩ := by
  rw [detach]
  cases hc : d.cells[i]? with
  | none => cases d.parent? id <;> simp [changeChildren, setParent, Array.getElem?_modify, hc]
  | some cell =>
    obtain ⟨kind, children, parent⟩ := cell
    cases hp : d.parent? id with
    | none =>
      by_cases hi : id = i
      · have hparent : parent = none := by simpa [parent?, hi, hc] using hp
        simp [hc, hi, hparent]
      · simp [hc, hi]
    | some holder =>
      by_cases hi : id = i <;> by_cases hh : holder = i <;>
        simp [changeChildren, setParent, Array.getElem?_modify, hc, hi, hh]

/-- What does not hold a node does not miss it. -/
theorem filter_not_held (hd : d.Linked) {id i : NodeId} {cell : Cell}
    (hc : d.cells[i]? = some cell) (h : d.parent? id ≠ some i) :
    cell.children.filter (fun j => !(gone j || j == id)) = cell.children.filter (!gone ·) := by
  apply Array.toList_inj.1
  rw [Array.toList_filter, Array.toList_filter]
  apply List.filter_congr
  intro j hj
  have hne : j ≠ id := by
    rintro rfl
    exact h (hd i cell hc j (Array.mem_toList_iff.1 hj))
  simp [hne]

theorem filter_held (gone : NodeId → Bool) (id : NodeId) (ids : Array NodeId) :
    (ids.filter (!gone ·)).filter (· ≠ id) = ids.filter fun j => !(gone j || j == id) := by
  rw [Array.filter_filter]
  congr 1
  funext j
  by_cases hj : j = id <;> simp [hj]

/-- Detaching one node more. -/
theorem detach_without (hd : d.Linked) (gone : NodeId → Bool) (id : NodeId) :
    (d.without gone).detach id = d.without fun i => gone i || i == id := by
  apply eq_of_getElem?_eq
  intro i
  rw [getElem?_detach, getElem?_without, getElem?_without, parent?_without]
  cases hc : d.cells[i]? with
  | none => rfl
  | some cell =>
    have hchildren : (if (if gone id then none else d.parent? id) = some i
        then (cell.children.filter (!gone ·)).filter (· ≠ id)
        else cell.children.filter (!gone ·)) =
        cell.children.filter fun j => !(gone j || j == id) := by
      by_cases hg : gone id = true
      -- a node that is gone is held by nothing any more
      · have hsame : (fun j => !(gone j || j == id)) = (!gone ·) := by
          funext j
          by_cases hj : j = id <;> simp [hj, hg]
        rw [if_pos hg, if_neg nofun, hsame]
      · rw [if_neg hg]
        by_cases hi : d.parent? id = some i
        · rw [if_pos hi, filter_held]
        · rw [if_neg hi, filter_not_held hd hc hi]
    have hparent : (if id = i then none else if gone i then none else cell.parent) =
        if gone i || i == id then none else cell.parent := by
      by_cases hi : id = i
      · simp [hi]
      · simp [hi, Ne.symm hi]
    simp only [Option.map_some, Cell.without, hchildren, hparent]

/-- In which order nodes are detached does not matter, nor whether they hold each other. -/
theorem detachAll_without (hd : d.Linked) (gone : NodeId → Bool) (ids : List NodeId) :
    (d.without gone).detachAll ids = d.without fun i => gone i || ids.contains i := by
  induction ids generalizing gone with
  | nil => simp [detachAll]
  | cons id ids ih =>
    have h := ih fun i => gone i || i == id
    rw [← detach_without hd] at h
    rw [detachAll, List.foldl_cons, ← detachAll, h]
    congr 1
    funext i
    rw [List.contains_cons, Bool.or_assoc]

theorem detachAll_eq_without (hd : d.Linked) (ids : List NodeId) :
    d.detachAll ids = d.without ids.contains := by
  have h := detachAll_without hd (fun _ => false) ids
  simpa only [without_nothing, Bool.false_or] using h

/-! ## Laid out forests -/

/-- Whether a forest is laid out in a draft from a number on, the nodes side by side being held by
    `holder`. -/
def Lays (d : Draft) (holder n : NodeId) : Forest → Prop
  | .nil => True
  | .leaf l next => d.cells[n]? = some ⟨.leaf l, #[], some holder⟩ ∧ d.Lays holder (n + 1) next
  | .element e content next =>
    d.cells[n]? = some ⟨.element e, (content.roots (n + 1)).toArray, some holder⟩ ∧
      d.Lays n (n + 1) content ∧ d.Lays holder (n + 1 + content.size) next
  | .fragment content next =>
    d.cells[n]? = some ⟨.fragment, (content.roots (n + 1)).toArray, some holder⟩ ∧
      d.Lays n (n + 1) content ∧ d.Lays holder (n + 1 + content.size) next

variable {f : Forest} {holder n : NodeId}

theorem getElem?_of_drop {cell : Cell} {cells : List Cell}
    (h : d.cells.toList.drop n = cell :: cells) :
    d.cells[n]? = some cell ∧ d.cells.toList.drop (n + 1) = cells := by
  constructor
  · have h0 := congrArg (·[0]?) h
    simpa using h0
  · rw [← List.tail_drop, h, List.tail_cons]

theorem drop_of_append {cells : List Cell} {k : Nat}
    (h : d.cells.toList.drop n = f.cells holder k ++ cells) :
    d.cells.toList.drop (n + f.size) = cells := by
  rw [← List.drop_drop, h, List.drop_left' (f.length_cells holder k)]

theorem lays_of_drop {cells : List Cell} (h : d.cells.toList.drop n = f.cells holder n ++ cells) :
    d.Lays holder n f := by
  induction f generalizing holder n cells with
  | nil => trivial
  | leaf l next ih =>
    obtain ⟨hn, hrest⟩ := getElem?_of_drop h
    exact ⟨hn, ih hrest⟩
  | element e content next ihc ih =>
    rw [Forest.cells, List.cons_append, List.append_assoc] at h
    obtain ⟨hn, hrest⟩ := getElem?_of_drop h
    exact ⟨hn, ihc hrest, ih (drop_of_append hrest)⟩
  | fragment content next ihc ih =>
    rw [Forest.cells, List.cons_append, List.append_assoc] at h
    obtain ⟨hn, hrest⟩ := getElem?_of_drop h
    exact ⟨hn, ihc hrest, ih (drop_of_append hrest)⟩

theorem parent?_of_mem_roots (h : d.Lays holder n f) {id : NodeId} (hid : id ∈ f.roots n) :
    d.parent? id = some holder := by
  induction f generalizing n with
  | nil => cases hid
  | leaf l next ih =>
    rcases List.mem_cons.1 hid with rfl | hid
    · simp [parent?, h.1]
    · exact ih h.2 hid
  | element e content next _ ih =>
    rcases List.mem_cons.1 hid with rfl | hid
    · simp [parent?, h.1]
    · exact ih h.2.2 hid
  | fragment content next _ ih =>
    rcases List.mem_cons.1 hid with rfl | hid
    · simp [parent?, h.1]
    · exact ih h.2.2 hid

theorem parent?_of_mem_children {k n : Nat} (h : d.Lays holder n f) (hn : n ≤ k)
    (hk : k < n + f.size) {cell : Cell} (hc : d.cells[k]? = some cell) {id : NodeId}
    (hid : id ∈ cell.children) : d.parent? id = some k := by
  induction f generalizing holder n with
  | nil => exact absurd hk (by simpa [Forest.size] using hn)
  | leaf l next ih =>
    rcases Nat.eq_or_lt_of_le hn with rfl | hlt
    · obtain rfl := Option.some.inj (h.1.symm.trans hc)
      simp at hid
    · exact ih h.2 hlt (by rw [Forest.size] at hk; omega)
  | element e content next ihc ih =>
    rcases Nat.eq_or_lt_of_le hn with rfl | hlt
    · obtain rfl := Option.some.inj (h.1.symm.trans hc)
      exact parent?_of_mem_roots h.2.1 (by simpa using hid)
    · by_cases hin : k < n + 1 + content.size
      · exact ihc h.2.1 hlt hin
      · exact ih h.2.2 (Nat.le_of_not_lt hin) (by rw [Forest.size] at hk; omega)
  | fragment content next ihc ih =>
    rcases Nat.eq_or_lt_of_le hn with rfl | hlt
    · obtain rfl := Option.some.inj (h.1.symm.trans hc)
      exact parent?_of_mem_roots h.2.1 (by simpa using hid)
    · by_cases hin : k < n + 1 + content.size
      · exact ihc h.2.1 hlt hin
      · exact ih h.2.2 (Nat.le_of_not_lt hin) (by rw [Forest.size] at hk; omega)

end Draft

/-! ## Reading off what is left -/

/-- A node with what it holds and the nodes after it. -/
def Kind.build (content next : Forest) : Kind → Forest
  | .leaf l => .leaf l next
  | .element e => .element e content next
  | .fragment => .fragment content next

/-- Takes away the nodes with some numbers, where all nodes are numbered in document order from a
    number on. -/
def Forest.without (gone : NodeId → Bool) (n : NodeId) : Forest → Forest
  | nil => nil
  | leaf l next =>
    let rest := next.without gone (n + 1)
    if gone n then rest else leaf l rest
  | element e content next =>
    let rest := next.without gone (n + 1 + content.size)
    if gone n then rest else element e (content.without gone (n + 1)) rest
  | fragment content next =>
    let rest := next.without gone (n + 1 + content.size)
    if gone n then rest else fragment (content.without gone (n + 1)) rest

namespace Draft

variable {d : Draft} {gone : NodeId → Bool} {f : Forest} {holder n : NodeId}

theorem forestOf_nil (d : Draft) (fuel : Nat) : d.forestOf fuel [] = .nil := by
  cases fuel <;> rfl

theorem forestOf_cons {id : NodeId} {cell : Cell} (hc : d.cells[id]? = some cell) (fuel : Nat)
    (ids : List NodeId) :
    d.forestOf (fuel + 1) (id :: ids) =
      cell.kind.build (d.forestOf fuel cell.children.toList) (d.forestOf fuel ids) := by
  rw [forestOf, hc]
  rfl

theorem forestOf_without_cons {kind : Kind} {inside : List NodeId}
    (hc : d.cells[n]? = some ⟨kind, inside.toArray, some holder⟩) (ids : List NodeId)
    (fuel : Nat) :
    (d.without gone).forestOf (fuel + 1) ((n :: ids).filter (!gone ·)) =
      if gone n then (d.without gone).forestOf (fuel + 1) (ids.filter (!gone ·))
      else kind.build ((d.without gone).forestOf fuel (inside.filter (!gone ·)))
        ((d.without gone).forestOf fuel (ids.filter (!gone ·))) := by
  by_cases hg : gone n = true
  · simp [hg]
  · have hcell := getElem?_without gone d n
    rw [hc] at hcell
    rw [List.filter_cons_of_pos (by simpa using hg), if_neg hg, forestOf_cons hcell]
    simp [Cell.without]

/-- The nodes that are left of a laid out forest. -/
theorem forestOf_without (h : d.Lays holder n f) {fuel : Nat} (hfuel : f.size ≤ fuel) :
    (d.without gone).forestOf fuel ((f.roots n).filter (!gone ·)) = f.without gone n := by
  induction f generalizing holder n fuel with
  | nil => exact forestOf_nil _ fuel
  | leaf l next ih =>
    rw [Forest.size] at hfuel
    obtain ⟨fuel, rfl⟩ : ∃ k, fuel = k + 1 := ⟨fuel - 1, by omega⟩
    have hleaf : d.cells[n]? = some ⟨.leaf l, [].toArray, some holder⟩ := h.1
    rw [Forest.roots, forestOf_without_cons hleaf, ih h.2 (by omega), ih h.2 (by omega)]
    rfl
  | element e content next ihc ih =>
    rw [Forest.size] at hfuel
    obtain ⟨fuel, rfl⟩ : ∃ k, fuel = k + 1 := ⟨fuel - 1, by omega⟩
    rw [Forest.roots, forestOf_without_cons h.1, ih h.2.2 (by omega), ih h.2.2 (by omega),
      ihc h.2.1 (by omega)]
    rfl
  | fragment content next ihc ih =>
    rw [Forest.size] at hfuel
    obtain ⟨fuel, rfl⟩ : ∃ k, fuel = k + 1 := ⟨fuel - 1, by omega⟩
    rw [Forest.roots, forestOf_without_cons h.1, ih h.2.2 (by omega), ih h.2.2 (by omega),
      ihc h.2.1 (by omega)]
    rfl

end Draft

/-! ## Pruning in one pass -/

namespace Forest

theorem numbered_bounds {f : Forest} {parent previous p : Place} {n i : Nat}
    (h : (i, p) ∈ f.numbered parent previous n) : n ≤ i ∧ i < n + f.size := by
  induction f generalizing parent previous n with
  | nil => cases h
  | leaf l next ih =>
    have := ih h
    rw [size]
    omega
  | element e content next ihc ih =>
    rw [size]
    simp only [numbered, List.mem_cons, List.mem_append, Prod.mk.injEq] at h
    rcases h with ⟨rfl, -⟩ | h | h
    · omega
    · have := ihc h
      omega
    · have := ih h
      omega
  | fragment content next ihc ih =>
    rw [size]
    rcases List.mem_append.1 h with h | h
    · have := ihc h
      omega
    · have := ih h
      omega

/-- The numbers inside a node and those after it are different ranges. -/
theorem mem_numbered_iff {content next : Forest} {inner around here previous p : Place}
    {n i : Nat} :
    (i, p) ∈ content.numbered inner here (n + 1) ++
        next.numbered around previous (n + 1 + content.size) ↔
      (i < n + 1 + content.size ∧ (i, p) ∈ content.numbered inner here (n + 1)) ∨
        (n + 1 + content.size ≤ i ∧
          (i, p) ∈ next.numbered around previous (n + 1 + content.size)) := by
  rw [List.mem_append]
  constructor
  · rintro (h | h)
    · exact Or.inl ⟨(numbered_bounds h).2, h⟩
    · exact Or.inr ⟨(numbered_bounds h).1, h⟩
  · rintro (⟨-, h⟩ | ⟨-, h⟩)
    · exact Or.inl h
    · exact Or.inr h

/-- Whether some nodes are the elements at some places, as far as the nodes from a number on are
    concerned. -/
def Marks (gone : NodeId → Bool) (doomed : Place → Bool) (n : Nat) (size : Nat)
    (numbered : List (NodeId × Place)) : Prop :=
  ∀ i, n ≤ i → i < n + size → (gone i = true ↔ ∃ p, (i, p) ∈ numbered ∧ doomed p = true)

variable {gone : NodeId → Bool} {doomed : Place → Bool}

/-- The first node is none of the elements, and the others are as they are. -/
theorem Marks.skip {n size : Nat} {numbered : List (NodeId × Place)}
    (h : Marks gone doomed n (size + 1) numbered) (hlarger : ∀ x ∈ numbered, n < x.1) :
    gone n = false ∧ Marks gone doomed (n + 1) size numbered := by
  constructor
  · rw [Bool.eq_false_iff]
    intro hn
    obtain ⟨p, hp, -⟩ := (h n (Nat.le_refl n) (by omega)).1 hn
    exact Nat.lt_irrefl n (hlarger _ hp)
  · intro i hi hlt
    exact h i (by omega) (by omega)

/-- The first node is an element, and the others are as they are. -/
theorem Marks.take {n size : Nat} {here : Place} {numbered : List (NodeId × Place)}
    (h : Marks gone doomed n (size + 1) ((n, here) :: numbered))
    (hlarger : ∀ x ∈ numbered, n < x.1) :
    gone n = doomed here ∧ Marks gone doomed (n + 1) size numbered := by
  constructor
  · rw [Bool.eq_iff_iff, h n (Nat.le_refl n) (by omega)]
    constructor
    · rintro ⟨p, hp, hd⟩
      rcases List.mem_cons.1 hp with hp | hp
      · rwa [← (Prod.mk.inj hp).2]
      · exact absurd (hlarger _ hp) (Nat.lt_irrefl n)
    · intro hd
      exact ⟨here, List.mem_cons_self, hd⟩
  · intro i hi hlt
    rw [h i (by omega) (by omega)]
    have hne : i ≠ n := by omega
    simp only [List.mem_cons, Prod.mk.injEq, hne, false_and, false_or]

/-- The nodes inside a node and those after it. -/
theorem Marks.split {content next : Forest} {inner around here previous : Place} {n : Nat}
    (h : Marks gone doomed (n + 1) (content.size + next.size)
      (content.numbered inner here (n + 1) ++
        next.numbered around previous (n + 1 + content.size))) :
    Marks gone doomed (n + 1) content.size (content.numbered inner here (n + 1)) ∧
      Marks gone doomed (n + 1 + content.size) next.size
        (next.numbered around previous (n + 1 + content.size)) := by
  constructor
  · intro i hi hlt
    simp only [h i hi (by omega), mem_numbered_iff, hlt, true_and, Nat.not_le.2 hlt, false_and,
      or_false]
  · intro i hi hlt
    simp only [h i (by omega) (by omega), mem_numbered_iff, hi, true_and, Nat.not_lt.2 hi,
      false_and, false_or]

theorem lt_of_mem_numbered {content next : Forest} {inner around here previous : Place} {n : Nat}
    {x : NodeId × Place} (h : x ∈ content.numbered inner here (n + 1) ++
      next.numbered around previous (n + 1 + content.size)) : n < x.1 := by
  rcases List.mem_append.1 h with h | h
  · exact (numbered_bounds h).1
  · exact Nat.lt_of_lt_of_le (by omega) (numbered_bounds h).1

/-- Nodes whose numbers are those of the elements at some places are the nodes that pruning takes
    away. -/
theorem without_eq_prune {f : Forest} {parent previous : Place} {n : Nat}
    (h : Marks gone doomed n f.size (f.numbered parent previous n)) :
    f.without gone n = f.prune doomed parent previous := by
  induction f generalizing parent previous n with
  | nil => rfl
  | leaf l next ih =>
    obtain ⟨hn, hnext⟩ := h.skip fun x hx => (numbered_bounds (f := next) hx).1
    rw [without, prune, hn, ih hnext]
    rfl
  | element e content next ihc ih =>
    obtain ⟨hn, hrest⟩ := h.take fun x => lt_of_mem_numbered
    obtain ⟨hcontent, hnext⟩ := hrest.split
    rw [without, prune, hn, ihc hcontent, ih hnext]
  | fragment content next ihc ih =>
    obtain ⟨hn, hrest⟩ := h.skip fun x => lt_of_mem_numbered
    obtain ⟨hcontent, hnext⟩ := hrest.split
    rw [without, prune, hn, ihc hcontent, ih hnext]
    rfl

end Forest

namespace Page

theorem lays_draft (page : Page) : page.draft.Lays 0 1 page.content := by
  have hcells : page.draft.cells.toList.drop 1 = page.content.cells 0 1 ++ [] := by
    simp [draft]
  exact Draft.lays_of_drop hcells

theorem linked_draft (page : Page) : page.draft.Linked := by
  intro holder cell hc id hid
  rcases Nat.eq_zero_or_pos holder with rfl | hpos
  · rw [draft, List.getElem?_toArray] at hc
    obtain rfl := Option.some.inj hc
    exact Draft.parent?_of_mem_roots page.lays_draft (by simpa using hid)
  · refine Draft.parent?_of_mem_children page.lays_draft hpos ?_ hc hid
    rw [Nat.add_comm, ← page.draft_size]
    exact (Array.getElem?_eq_some_iff.1 hc).1

theorem marks_numbers (doomed : Place → Bool) (page : Page) :
    Forest.Marks (page.numbers doomed).contains doomed 1 page.content.size
      (page.content.numbered page.rootPlace .nowhere 1) := by
  intro i _ _
  rw [List.contains_iff_mem, numbers, List.mem_map]
  constructor
  · rintro ⟨⟨_, p⟩, h, rfl⟩
    exact ⟨p, List.mem_filter.1 h⟩
  · rintro ⟨p, hp, hd⟩
    exact ⟨(i, p), List.mem_filter.2 ⟨hp, hd⟩, rfl⟩

/-- Elements that are found first and detached one after the other are those that one pass over the
    page takes away. -/
theorem detach_eq_prune (doomed : Place → Bool) (page : Page) :
    page.detach doomed = page.prune doomed := by
  have hchildren : (((page.draft.without (page.numbers doomed).contains).children 0).toList) =
      (page.content.roots 1).filter (!(page.numbers doomed).contains ·) := by
    have h := Draft.getElem?_without (page.numbers doomed).contains page.draft 0
    rw [Draft.children, h]
    simp [draft, Cell.without]
  have hleft : page.content.without (page.numbers doomed).contains 1 =
      page.content.prune doomed page.rootPlace .nowhere :=
    Forest.without_eq_prune (marks_numbers doomed page)
  rw [detach, prune, Draft.detachAll_eq_without page.linked_draft, Draft.content, hchildren,
    Draft.forestOf_without page.lays_draft, hleft]
  simp [Draft.without, draft_size]

end Page
end SchemaExtraction.Markup
