import Mathlib.Algebra.BigOperators.Fin
import SchemaExtraction.Markup.Draft

/-!
# Drafts that only grow

A draft that nodes are only added to, each behind the children of an element, is a tree whose nodes
are numbered before what they hold. All of it is read off, and every element once.

Results:
* `Draft.grown_grow`, `Draft.grown_appendText`: what keeps a draft grown.
* `Draft.Grown.countP_content`: the elements that are read off.
-/

namespace SchemaExtraction.Markup

/-- The elements of a forest in document order. -/
def Forest.elements : Forest → List Element
  | nil => []
  | leaf _ next => next.elements
  | element e content next => e :: (content.elements ++ next.elements)
  | fragment content next => content.elements ++ next.elements

/-- The element that a node is. -/
def Kind.element? : Kind → Option Element
  | .element e => some e
  | _ => none

theorem Kind.eq_element {k : Kind} {e : Element} (h : k.element? = some e) : k = .element e := by
  cases k <;> simp_all [element?]

namespace Draft

/-- The elements of a draft by their numbers. -/
def elements (d : Draft) : List Element := d.cells.toList.filterMap fun c => c.kind.element?

/-- What a node is. -/
def kind? (d : Draft) (id : NodeId) : Option Kind := d.cells[id]?.map Cell.kind

/-- Adds a node behind the children of another. -/
def grow (parent : NodeId) (kind : Kind) (d : Draft) : Draft :=
  (d.add kind).append parent d.cells.size

/-- A draft whose root is held by nothing, and all other nodes by elements before them, which hold
    them in the order of their numbers. -/
structure Grown (d : Draft) : Prop where
  pos : 0 < d.cells.size
  parent : ∀ id, 0 < id → id < d.cells.size → ∃ p < id, d.parent? id = some p
  root : d.parent? 0 = none
  holder : ∀ id p, d.parent? id = some p → ∃ e, d.kind? p = some (.element e)
  children : ∀ p, (d.children p).toList =
    (List.range d.cells.size).filter fun id => d.parent? id = some p

/-! ## Growing -/

variable {d : Draft} {parent : NodeId} {kind : Kind}

/-- Nothing has held a new node before. -/
theorem grow_eq : d.grow parent kind =
    ((d.add kind).changeChildren parent (·.push d.cells.size)).setParent d.cells.size
      (some parent) := by
  have hn : (d.add kind).parent? d.cells.size = none := by simp [add, parent?]
  rw [grow, append, detach, hn]

theorem getElem?_grow (hp : parent < d.cells.size) (id : NodeId) :
    (d.grow parent kind).cells[id]? =
      if id = d.cells.size then some ⟨kind, #[], some parent⟩
      else if id = parent then d.cells[id]?.map fun c =>
        { c with children := c.children.push d.cells.size }
      else d.cells[id]? := by
  rw [grow_eq]
  simp only [setParent, changeChildren, add, Array.getElem?_modify, Array.getElem?_push]
  by_cases h : id = d.cells.size
  · subst h
    simp [Nat.ne_of_lt hp]
  · by_cases h' : id = parent
    · subst h'
      simp [h, Ne.symm h]
    · simp [h, Ne.symm h, h', Ne.symm h']

theorem size_grow : (d.grow parent kind).cells.size = d.cells.size + 1 := by
  rw [grow_eq]
  simp [setParent, changeChildren, add]

theorem parent?_grow (hp : parent < d.cells.size) (id : NodeId) :
    (d.grow parent kind).parent? id = if id = d.cells.size then some parent else d.parent? id := by
  rw [parent?, getElem?_grow hp, parent?]
  split_ifs <;> simp [Option.bind_map]

theorem kind?_grow (hp : parent < d.cells.size) (id : NodeId) :
    (d.grow parent kind).kind? id = if id = d.cells.size then some kind else d.kind? id := by
  rw [kind?, getElem?_grow hp, kind?]
  split_ifs <;> simp [Function.comp_def]

theorem children_grow (hp : parent < d.cells.size) (id : NodeId) :
    ((d.grow parent kind).children id).toList =
      (d.children id).toList ++ if id = parent then [d.cells.size] else [] := by
  rw [children, getElem?_grow hp, children]
  by_cases hs : id = d.cells.size
  · subst hs
    simp [Ne.symm (Nat.ne_of_lt hp)]
  · by_cases hi : id = parent
    · subst hi
      simp [hs, hp]
    · simp [hs, hi]

theorem parent?_modify {id : NodeId} {f : Cell → Cell} (hf : ∀ c, (f c).parent = c.parent)
    (n : NodeId) : parent? ⟨d.cells.modify id f⟩ n = d.parent? n := by
  rw [parent?, parent?, Array.getElem?_modify]
  split_ifs
  · cases d.cells[n]? <;> simp [hf]
  · rfl

theorem children_modify {id : NodeId} {f : Cell → Cell} (hf : ∀ c, (f c).children = c.children)
    (n : NodeId) : children ⟨d.cells.modify id f⟩ n = d.children n := by
  rw [children, children, Array.getElem?_modify]
  split_ifs
  · cases d.cells[n]? <;> simp [hf]
  · rfl

theorem kind?_modify {id : NodeId} {f : Cell → Cell}
    (hf : ∀ c, (f c).kind.element? = c.kind.element?) {n : NodeId} {e : Element}
    (he : d.kind? n = some (.element e)) :
    kind? ⟨d.cells.modify id f⟩ n = some (.element e) := by
  rw [kind?, Option.map_eq_some_iff] at he
  obtain ⟨c, hcell, hkind⟩ := he
  rw [kind?, Array.getElem?_modify, hcell]
  split_ifs
  · have hfc := hf c
    rw [hkind] at hfc
    exact congrArg some (Kind.eq_element hfc)
  · exact congrArg some hkind

theorem elements_modify {id : NodeId} {f : Cell → Cell}
    (hf : ∀ c, (f c).kind.element? = c.kind.element?) :
    elements ⟨d.cells.modify id f⟩ = d.elements := by
  have hm : (d.cells.modify id f).toList.map (fun c => c.kind.element?) =
      d.cells.toList.map fun c => c.kind.element? := by
    refine List.ext_getElem? fun n => ?_
    simp only [List.getElem?_map, Array.getElem?_toList, Array.getElem?_modify]
    split_ifs with h
    · cases d.cells[n]? <;> simp [hf]
    · rfl
  have he (cells : List Cell) : cells.filterMap (fun c => c.kind.element?) =
      (cells.map fun c => c.kind.element?).filterMap fun e => e := by
    rw [List.filterMap_map]
    rfl
  rw [elements, elements, he, he, hm]

theorem elements_grow : (d.grow parent kind).elements = d.elements ++ kind.element?.toList := by
  rw [grow_eq, setParent, elements_modify (by simp), changeChildren,
    elements_modify (by simp), elements, add, Array.toList_push, List.filterMap_append]
  cases kind <;> rfl

theorem lt_size_of_kind? {id : NodeId} (h : d.kind? id = some kind) : id < d.cells.size := by
  rw [kind?, Option.map_eq_some_iff] at h
  obtain ⟨c, hc, -⟩ := h
  exact (Array.getElem?_eq_some_iff.1 hc).1

/-- A draft stays grown when a node is added behind the children of an element. -/
theorem grown_grow (h : d.Grown) {e : Element} (he : d.kind? parent = some (.element e)) :
    (d.grow parent kind).Grown := by
  have hp := lt_size_of_kind? he
  refine ⟨by rw [size_grow]; exact Nat.succ_pos _, fun id h0 hid => ?_, ?_, fun id p hid => ?_,
    fun p => ?_⟩
  · rw [parent?_grow hp]
    split_ifs with hs
    · exact ⟨parent, hs ▸ hp, rfl⟩
    · rw [size_grow] at hid
      exact h.parent id h0 (Nat.lt_of_le_of_ne (Nat.le_of_lt_succ hid) hs)
  · rw [parent?_grow hp, if_neg (Nat.ne_of_lt h.pos), h.root]
  · rw [parent?_grow hp] at hid
    split_ifs at hid with hs
    · cases hid
      exact ⟨e, by rw [kind?_grow hp, if_neg (Nat.ne_of_lt hp), he]⟩
    · obtain ⟨e', he'⟩ := h.holder id p hid
      exact ⟨e', by rw [kind?_grow hp, if_neg (Nat.ne_of_lt (lt_size_of_kind? he')), he']⟩
  · have hold : (List.range d.cells.size).filter
          (fun id => (d.grow parent kind).parent? id = some p) =
        (List.range d.cells.size).filter fun id => d.parent? id = some p := by
      refine List.filter_congr fun id hid => ?_
      rw [parent?_grow hp, if_neg (Nat.ne_of_lt (List.mem_range.1 hid))]
    rw [children_grow hp, h.children, size_grow, List.range_succ, List.filter_append, hold]
    by_cases hi : p = parent
    · simp [parent?_grow hp, hi]
    · simp [parent?_grow hp, hi, Ne.symm hi]

theorem element_of_kind? {id : NodeId} {e : Element} (h : d.kind? id = some (.element e)) :
    d.element id = e := by
  rw [kind?, Option.map_eq_some_iff] at h
  obtain ⟨⟨k, cs, p⟩, hc, rfl⟩ := h
  rw [element, hc]

/-- The elements of a draft are those of another with the same numbers, and there are no others. -/
structure SameElements (d d' : Draft) : Prop where
  kind : ∀ id e, d.kind? id = some (.element e) → d'.kind? id = some (.element e)
  elements : d'.elements = d.elements

theorem extendText?_eq {id : NodeId} {s : String} {d' : Draft} (h : d.extendText? id s = some d') :
    ∃ f : Cell → Cell, d' = ⟨d.cells.modify id f⟩ ∧ ∀ c, (f c).kind.element? = c.kind.element? ∧
      (f c).children = c.children ∧ (f c).parent = c.parent := by
  rw [extendText?] at h
  split at h
  next =>
    refine ⟨_, (Option.some.inj h).symm, fun c => ?_⟩
    obtain ⟨kind, children, parent⟩ := c
    cases kind with
    | leaf l => cases l <;> exact ⟨rfl, rfl, rfl⟩
    | _ => exact ⟨rfl, rfl, rfl⟩
  next => cases h

/-- A draft stays grown when text is added to a text in it. -/
theorem grown_extendText (h : d.Grown) {id : NodeId} {s : String} {d' : Draft}
    (hd : d.extendText? id s = some d') : d'.Grown ∧ d.SameElements d' := by
  obtain ⟨f, rfl, hf⟩ := extendText?_eq hd
  have hp (n : NodeId) : parent? ⟨d.cells.modify id f⟩ n = d.parent? n :=
    parent?_modify (fun c => (hf c).2.2) n
  have hc (n : NodeId) : children ⟨d.cells.modify id f⟩ n = d.children n :=
    children_modify (fun c => (hf c).2.1) n
  have hk (n : NodeId) (e : Element) (he : d.kind? n = some (.element e)) :
      kind? ⟨d.cells.modify id f⟩ n = some (.element e) := kind?_modify (fun c => (hf c).1) he
  have hs : (Draft.mk (d.cells.modify id f)).cells.size = d.cells.size := Array.size_modify
  refine ⟨⟨hs ▸ h.pos, fun n h0 hn => ?_, (hp 0).trans h.root, fun n p hn => ?_, fun p => ?_⟩,
    hk, elements_modify fun c => (hf c).1⟩
  · rw [hp]
    exact h.parent n h0 (hs ▸ hn)
  · obtain ⟨e, he⟩ := h.holder n p ((hp n).symm.trans hn)
    exact ⟨e, hk p e he⟩
  · rw [hc, h.children, hs]
    exact List.filter_congr fun n _ => by rw [hp]

/-- A draft stays grown when text is added to an element. -/
theorem grown_appendText (h : d.Grown) {e : Element} (he : d.kind? parent = some (.element e))
    (s : String) : (d.appendText parent s).Grown ∧ d.SameElements (d.appendText parent s) := by
  rw [appendText]
  split
  next d' hd =>
    obtain ⟨last, -, hd⟩ := Option.bind_eq_some_iff.1 hd
    exact grown_extendText h hd
  next =>
    have hp := lt_size_of_kind? he
    refine ⟨grown_grow h he, fun id e' he' => ?_, elements_grow.trans (List.append_nil _)⟩
    rw [← grow, kind?_grow hp, if_neg (Nat.ne_of_lt (lt_size_of_kind? he')), he']

/-! ## Reading off -/

section ReadOff

variable (d) (t : Element → Bool)

/-- One if a node is an element that passes a test, else zero. -/
def weight (id : NodeId) : Nat := ((d.kind? id).bind Kind.element?).toList.countP t

/-- The number of elements that pass a test in what is read off for some nodes. -/
def reach (fuel : Nat) (ids : List NodeId) : Nat := (d.forestOf fuel ids).elements.countP t

/-- The number of elements that pass a test at a node and in what it holds. -/
def total (id : NodeId) : Nat := d.weight t id + d.reach t d.cells.size (d.children id).toList

variable {d} {t}

theorem reach_nil (fuel : Nat) : d.reach t fuel [] = 0 := by
  cases fuel <;> rfl

theorem sum_weight : ∑ id ∈ Finset.range d.cells.size, d.weight t id = d.elements.countP t := by
  have hw (i : Fin d.cells.toList.length) :
      d.weight t i = (d.cells.toList[i.1].kind.element?.toList).countP t := by
    rw [weight, kind?, Array.getElem?_eq_getElem i.2]
    rfl
  have he (cells : List Cell) : (cells.map fun c => (c.kind.element?.toList).countP t).sum =
      (cells.filterMap fun c => c.kind.element?).countP t := by
    induction cells with
    | nil => rfl
    | cons c cells ih =>
      rw [List.map_cons, List.sum_cons, ih, List.filterMap_cons]
      cases c.kind.element? with
      | none => simp
      | some e => simp [List.countP_cons, Nat.add_comm]
  rw [← Array.length_toList, Finset.sum_range, Finset.sum_congr rfl fun i _ => hw i,
    Fin.sum_univ_fun_getElem d.cells.toList fun c => (c.kind.element?.toList).countP t, he]
  rfl

variable (h : d.Grown)
include h

theorem Grown.mem_children {id p : Nat} (hm : id ∈ (d.children p).toList) :
    p < id ∧ id < d.cells.size ∧ d.parent? id = some p := by
  rw [h.children, List.mem_filter, List.mem_range, decide_eq_true_eq] at hm
  obtain ⟨hid, hp⟩ := hm
  have h0 : 0 < id := Nat.pos_of_ne_zero fun h0 => by simp [h0, h.root] at hp
  obtain ⟨q, hq, hq'⟩ := h.parent id h0 hid
  rw [hq'] at hp
  cases hp
  exact ⟨hq, hid, hq'⟩

theorem Grown.children_pairwise (p : NodeId) : (d.children p).toList.Pairwise (· < ·) := by
  rw [h.children]
  exact List.pairwise_lt_range.filter _

theorem Grown.reach_cons (fuel : Nat) {id : NodeId} (hid : id < d.cells.size)
    (ids : List NodeId) :
    d.reach t (fuel + 1) (id :: ids) =
      d.weight t id + d.reach t fuel (d.children id).toList + d.reach t fuel ids := by
  obtain ⟨⟨kind, children, parent⟩, hc⟩ : ∃ c, d.cells[id]? = some c :=
    ⟨d.cells[id], Array.getElem?_eq_getElem hid⟩
  have hchildren : d.children id = children := by rw [Draft.children, hc]
  have hkind : d.kind? id = some kind := by rw [kind?, hc]; rfl
  rw [hchildren, weight, hkind]
  cases kind with
  | leaf l =>
    -- a leaf holds nothing
    have hnil : children.toList = [] := by
      refine List.eq_nil_iff_forall_not_mem.2 fun n hn => ?_
      rw [← hchildren] at hn
      obtain ⟨e, he⟩ := h.holder n id (h.mem_children hn).2.2
      rw [hkind] at he
      cases he
    rw [hnil, reach_nil]
    simp [reach, forestOf, hc, Forest.elements, Kind.element?]
  | element e =>
    simp [reach, forestOf, hc, Forest.elements, Kind.element?, List.countP_cons]
    omega
  | fragment => simp [reach, forestOf, hc, Forest.elements, Kind.element?]

/-- With enough fuel every node is read off with all that it holds. The induction is on the number
    of nodes from `k` on, where what a node of them holds comes after it. -/
theorem Grown.reach_eq_sum {n fuel k : Nat} (hn : d.cells.size = k + n) (hf : n ≤ fuel)
    {ids : List Nat} (hs : ids.Pairwise (· < ·))
    (hids : ∀ id ∈ ids, k ≤ id ∧ id < d.cells.size) :
    d.reach t fuel ids = (ids.map (d.total t)).sum := by
  induction n generalizing fuel k ids with
  | zero =>
    cases ids with
    | nil => exact reach_nil fuel
    | cons id ids =>
      have := hids id (by simp)
      omega
  | succ n ih =>
    cases ids with
    | nil => exact reach_nil fuel
    | cons id ids =>
      obtain ⟨fuel, rfl⟩ : ∃ f, fuel = f + 1 := ⟨fuel - 1, by omega⟩
      obtain ⟨hid, hsize⟩ := hids id (by simp)
      rw [List.pairwise_cons] at hs
      have held (c : Nat) (hc : c ∈ (d.children id).toList) : k + 1 ≤ c ∧ c < d.cells.size := by
        have := h.mem_children hc
        omega
      have beside (c : Nat) (hc : c ∈ ids) : k + 1 ≤ c ∧ c < d.cells.size := by
        have := hs.1 c hc
        have := hids c (by simp [hc])
        omega
      have hn : d.cells.size = k + 1 + n := by omega
      have hchildren {f : Nat} (hf : n ≤ f) := ih hn hf (h.children_pairwise id) held
      rw [h.reach_cons fuel hsize, List.map_cons, List.sum_cons, total, hchildren (by omega),
        hchildren (by omega), ih hn (by omega) hs.2 beside]

theorem Grown.total_eq (id : NodeId) :
    d.total t id = d.weight t id + ((d.children id).toList.map (d.total t)).sum := by
  rw [total, h.reach_eq_sum (Nat.zero_add _).symm le_rfl (h.children_pairwise id) fun c hc =>
    ⟨Nat.zero_le _, (h.mem_children hc).2.1⟩]

open Finset in
/-- Each node but the root is counted with the one that holds it. -/
theorem Grown.sum_children (f : NodeId → Nat) :
    f 0 + ∑ p ∈ range d.cells.size, ((d.children p).toList.map f).sum =
      ∑ id ∈ range d.cells.size, f id := by
  have hp (p : NodeId) : ((d.children p).toList.map f).sum =
      ∑ id ∈ range d.cells.size, if d.parent? id = some p then f id else 0 := by
    rw [h.children, ← sum_filter]
    rfl
  have hid (id : NodeId) (hid : id ∈ range d.cells.size) :
      (∑ p ∈ range d.cells.size, if d.parent? id = some p then f id else 0) =
        if id = 0 then 0 else f id := by
    split_ifs with h0
    · simp [h0, h.root]
    · have hsize := mem_range.1 hid
      obtain ⟨p, hp, hp'⟩ := h.parent id (Nat.pos_of_ne_zero h0) hsize
      simp only [hp', Option.some.injEq]
      rw [sum_ite_eq, if_pos (mem_range.2 (hp.trans hsize))]
  obtain ⟨n, hn⟩ : ∃ n, d.cells.size = n + 1 := ⟨d.cells.size - 1, by have := h.pos; omega⟩
  simp only [hp]
  rw [sum_comm, sum_congr rfl hid, hn, sum_range_succ', sum_range_succ' f]
  simp [Nat.add_comm]

/-- All elements are read off, each once. -/
theorem Grown.countP_content :
    d.weight t 0 + (d.content 0).elements.countP t = d.elements.countP t := by
  have hsum := h.sum_children (d.total t)
  -- the total of a node is its own weight and the totals of what it holds
  have htotal : ∑ id ∈ Finset.range d.cells.size, d.total t id =
      ∑ id ∈ Finset.range d.cells.size, d.weight t id +
        ∑ id ∈ Finset.range d.cells.size, ((d.children id).toList.map (d.total t)).sum := by
    rw [← Finset.sum_add_distrib]
    exact Finset.sum_congr rfl fun id _ => h.total_eq id
  have hweight : ∑ id ∈ Finset.range d.cells.size, d.weight t id = d.elements.countP t :=
    sum_weight
  have : d.total t 0 = d.weight t 0 + (d.content 0).elements.countP t := rfl
  omega

/-- The first element of a grown draft is its root: if there is an element behind the first node,
    then this node holds one, and what holds something is an element. -/
theorem Grown.exists_root {e : Element} {es : List Element} (he : d.elements = e :: es) :
    ∃ c, d.cells[0]? = some c ∧ c.kind.element? = some e := by
  obtain ⟨c, hc⟩ : ∃ c, d.cells[0]? = some c := ⟨_, Array.getElem?_eq_getElem h.pos⟩
  refine ⟨c, hc, ?_⟩
  have hcells : d.cells.toList = c :: d.cells.toList.tail := by
    rw [List.cons_head?_tail]
    simpa [List.head?_eq_getElem?] using hc
  rw [elements, hcells, List.filterMap_cons] at he
  cases hk : c.kind.element? with
  | some e' =>
    rw [hk] at he
    rw [(List.cons.inj he).1]
  | none =>
    rw [hk] at he
    have hsize : 1 < d.cells.size := by
      rcases hl : d.cells.toList.tail with _ | ⟨c', cs⟩
      · rw [hl] at he
        cases he
      · have := congrArg List.length hcells
        rw [hl] at this
        simp at this
        omega
    obtain ⟨p, hp, hp'⟩ := h.parent 1 Nat.one_pos hsize
    obtain rfl : p = 0 := Nat.lt_one_iff.1 hp
    obtain ⟨e', he'⟩ := h.holder 1 0 hp'
    rw [kind?, hc, Option.map_some, Option.some.injEq] at he'
    rw [he'] at hk
    cases hk

/-- The elements of a grown draft but its root are read off. -/
theorem Grown.perm_content {e : Element} {es : List Element} (he : d.elements = e :: es) :
    (d.content 0).elements.Perm es := by
  obtain ⟨c, hc, hroot⟩ := h.exists_root he
  refine List.perm_iff_count.2 fun a => ?_
  have hcount := h.countP_content (t := (· == a))
  rw [weight, kind?, hc, he, List.countP_cons] at hcount
  simp only [Option.map_some, Option.bind_some, hroot, Option.toList_some,
    List.countP_singleton] at hcount
  exact Nat.add_left_cancel (hcount.trans (Nat.add_comm _ _))

end ReadOff

end Draft
end SchemaExtraction.Markup
