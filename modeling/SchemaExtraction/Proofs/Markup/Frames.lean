import SchemaExtraction.Proofs.Markup.Joining
import SchemaExtraction.Proofs.Markup.Standing

/-!
# Drafts with open elements

While a page is read, every open element holds some nodes for good and, behind them, the next open
element inside of it. What is held for good is followed here through the few ways in which a draft
grows, so that the page is known when the last element has been closed. It is followed no more
exactly than up to the joining of texts, since a text is read in pieces.

Results:
* `Draft.ReadsOff.forestOf_eq`: what is read off for nodes that are not open.
* `Draft.Shows.grows`, `Draft.Shows.opens`, `Draft.Shows.closes`, `Draft.Shows.appendText`: how what
  is held for good changes.
* `Draft.Shows.content`: the page in the end.
-/

namespace SchemaExtraction.Markup

open Build (root)

/-- An open element with what it holds for good. -/
abbrev Frame := Element × Forest

/-- A node that holds nothing as a forest. -/
def Kind.alone : Kind → Forest
  | .leaf l => .leaf l .nil
  | .element e => .element e .nil .nil
  | .fragment => .fragment .nil .nil

namespace Forest

theorem elements_append (f g : Forest) : (f ++ g).elements = f.elements ++ g.elements := by
  induction f with
  | nil => rfl
  | leaf l next ih => exact ih
  | element e content next _ ih => simp [elements, ih]
  | fragment content next _ ih => simp [elements, ih]

theorem elements_join (f : Forest) : f.join.elements = f.elements := by
  induction f with
  | nil => rfl
  | leaf l next ih => exact (joinLeaf_eq elements (fun _ _ _ => rfl) l next.join).trans ih
  | element e content next ihc ih => rw [join, elements, ihc, ih, elements]
  | fragment content next ihc ih => rw [join, elements, ihc, ih, elements]

theorem elements_ofText (cs : List Char) : (ofText cs).elements = [] := by
  cases cs <;> rfl

end Forest

namespace Draft

variable {d d' : Draft} {top id : NodeId} {kind : Kind} {opened opened' ids : List NodeId}
  {e : Element} {f g : Forest} {frames : List Frame}

/-! ## What is read off -/

/-- Nodes side by side, none of them open and none with an open one inside, are read off as a
    forest. -/
inductive ReadsOff (d : Draft) (opened : List NodeId) : List NodeId → Forest → Prop
  | nil : ReadsOff d opened [] .nil
  | leaf {id : NodeId} {ids : List NodeId} {l : Leaf} {next : Forest} :
      d.kind? id = some (.leaf l) → ReadsOff d opened ids next →
      ReadsOff d opened (id :: ids) (.leaf l next)
  | element {id : NodeId} {ids : List NodeId} {e : Element} {content next : Forest} :
      id ∉ opened → d.kind? id = some (.element e) →
      ReadsOff d opened (d.children id).toList content → ReadsOff d opened ids next →
      ReadsOff d opened (id :: ids) (.element e content next)

theorem exists_cell (h : d.kind? id = some kind) :
    ∃ c, d.cells[id]? = some c ∧ c.kind = kind ∧ c.children = d.children id := by
  rw [kind?, Option.map_eq_some_iff] at h
  obtain ⟨c, hc, hk⟩ := h
  exact ⟨c, hc, hk, by rw [children, hc]⟩

namespace ReadsOff

/-- Fuel that is enough for a node is, less one, enough for all nodes after it. -/
theorem exists_fuel {k size fuel : Nat} (hk : k < size) (hf : size ≤ k + fuel) :
    ∃ m, fuel = m + 1 ∧ ∀ n : Nat, k < n → size ≤ n + m :=
  ⟨fuel - 1, by omega, by omega⟩

/-- With enough fuel nodes of a grown draft are read off: each comes before what it holds and before
    the nodes beside it. -/
theorem forestOf_eq (h : d.ReadsOff opened ids f) (hg : d.Grown) {fuel : Nat}
    (hs : ids.Pairwise (· < ·)) (hf : ∀ n : Nat, n ∈ ids → d.cells.size ≤ n + fuel) :
    d.forestOf fuel ids = f := by
  induction h generalizing fuel with
  | nil => cases fuel <;> rfl
  | @leaf id ids l next hk _ ih =>
    obtain ⟨c, hc, hkind, -⟩ := exists_cell hk
    obtain ⟨fuel, rfl, hafter⟩ := exists_fuel (lt_size_of_kind? hk) (hf id List.mem_cons_self)
    rw [List.pairwise_cons] at hs
    have hnext : d.forestOf fuel ids = next := ih hs.2 fun n hn => hafter n (hs.1 n hn)
    rw [forestOf, hc, ← hnext]
    simp only [hkind]
  | @element id ids e content next _ hk _ _ ihc ih =>
    obtain ⟨c, hc, hkind, hchildren⟩ := exists_cell hk
    obtain ⟨fuel, rfl, hafter⟩ := exists_fuel (lt_size_of_kind? hk) (hf id List.mem_cons_self)
    rw [List.pairwise_cons] at hs
    have hcontent : d.forestOf fuel (d.children id).toList = content :=
      ihc (hg.children_pairwise id) fun n hn => hafter n (hg.mem_children hn).1
    have hnext : d.forestOf fuel ids = next := ih hs.2 fun n hn => hafter n (hs.1 n hn)
    rw [forestOf, hc, ← hnext, ← hcontent]
    simp only [hkind, hchildren]

theorem append {ids' : List NodeId} (h : d.ReadsOff opened ids f) (h' : d.ReadsOff opened ids' g) :
    d.ReadsOff opened (ids ++ ids') (f ++ g) := by
  induction h with
  | nil => exact h'
  | leaf hk _ ih => exact .leaf hk ih
  | element ho hk hc _ _ ih => exact .element ho hk hc ih

theorem exists_split {ids' : List NodeId} (h : d.ReadsOff opened (ids ++ ids') f) :
    ∃ g g', d.ReadsOff opened ids g ∧ d.ReadsOff opened ids' g' ∧ f = g ++ g' := by
  induction ids generalizing f with
  | nil => exact ⟨.nil, f, .nil, h, rfl⟩
  | cons id ids ih =>
    cases h with
    | leaf hk hnext =>
      obtain ⟨g, g', hg, hg', rfl⟩ := ih hnext
      exact ⟨_, g', .leaf hk hg, hg', rfl⟩
    | element ho hk hc hnext =>
      obtain ⟨g, g', hg, hg', rfl⟩ := ih hnext
      exact ⟨_, g', .element ho hk hc hg, hg', rfl⟩

end ReadsOff

/-! ## Changes at an open element -/

/-- A draft is another one with some changes at a node: what the node holds is not the same nodes,
    and leaves right inside of it are not the same leaves. -/
structure ChangedAt (top : NodeId) (d d' : Draft) : Prop where
  element : ∀ id e, d.kind? id = some (.element e) → d'.kind? id = some (.element e)
  kind : ∀ id k, d.parent? id ≠ some top → d.kind? id = some k → d'.kind? id = some k
  children : ∀ id, id ≠ top → id < d.cells.size → (d'.children id).toList = (d.children id).toList

theorem ChangedAt.refl (top : NodeId) (d : Draft) : ChangedAt top d d :=
  ⟨fun _ _ h => h, fun _ _ _ h => h, fun _ _ _ => rfl⟩

theorem changedAt_grow (h : d.kind? top = some (.element e)) (kind : Kind) :
    ChangedAt top d (d.grow top kind) :=
  ⟨fun _ _ => kind?_grow_of_some h, fun _ _ _ => kind?_grow_of_some h, fun id hid _ => by
    rw [children_grow (lt_size_of_kind? h), if_neg hid, List.append_nil]⟩

/-- A change at an open element is none to nodes that are not open, unless they are leaves right
    inside of it. -/
theorem ReadsOff.changed (h : d.ReadsOff opened ids f) (hg : d.Grown) (hd : ChangedAt top d d')
    (ht : top ∈ opened) (hids : ∀ id ∈ ids, ∀ k, d.kind? id = some k → d'.kind? id = some k)
    (ho : ∀ id < d.cells.size, id ∉ opened → id ∉ opened') : d'.ReadsOff opened' ids f := by
  induction h with
  | nil => exact .nil
  | leaf hk _ ih =>
    exact .leaf (hids _ List.mem_cons_self _ hk) (ih fun id hid => hids id (by simp [hid]))
  | @element id ids e content next hid hk _ _ ihc ih =>
    have hsize := lt_size_of_kind? hk
    have hne : id ≠ top := fun h => hid (h ▸ ht)
    refine .element (ho id hsize hid) (hd.element id e hk) ?_ (ih fun n hn => hids n (by simp [hn]))
    rw [hd.children id hne hsize]
    refine ihc fun n hn k => hd.kind n k ?_
    rw [(hg.mem_children hn).2.2]
    exact fun h => hne (Option.some.inj h)

/-! ## Frames -/

/-- Some open elements, innermost first, hold what their frames say and then the open element
    inside of them, if there is one. The outermost is the root element. -/
inductive Holding (d : Draft) (opened : List NodeId) :
    List NodeId → List NodeId → List Frame → Prop
  | nil : Holding d opened [root] [] []
  | cons {inner held ids : List NodeId} {id : NodeId} {e : Element} {f g : Forest}
      {frames : List Frame} : id ∉ ids → d.kind? id = some (.element e) →
      (d.children id).toList = held ++ inner → d.ReadsOff opened held g → g.Alike f →
      Holding d opened [id] ids frames → Holding d opened inner (id :: ids) ((e, f) :: frames)

/-- All open elements of a draft hold what their frames say. -/
def Shows (d : Draft) (stack : List NodeId) (frames : List Frame) : Prop :=
  Holding d stack [] stack frames

/-- Elements around the one that is changed hold what they held. -/
theorem Holding.changed {inner : List NodeId} (h : Holding d opened inner ids frames) (hg : d.Grown)
    (hd : ChangedAt top d d') (ht : top ∈ opened) (hids : top ∉ ids)
    (ho : ∀ id < d.cells.size, id ∉ opened → id ∉ opened') :
    Holding d' opened' inner ids frames := by
  induction h with
  | nil => exact .nil
  | @cons inner held ids id e f g frames hid hk hc hr ha _ ih =>
    rw [List.mem_cons, not_or] at hids
    have hheld : ∀ n ∈ held, ∀ k, d.kind? n = some k → d'.kind? n = some k := by
      refine fun n hn k => hd.kind n k ?_
      rw [(hg.mem_children (hc ▸ List.mem_append_left inner hn)).2.2]
      exact fun h => hids.1 (Option.some.inj h).symm
    exact .cons hid (hd.element id e hk)
      ((hd.children id (Ne.symm hids.1) (lt_size_of_kind? hk)).trans hc)
      (hr.changed hg hd ht hheld ho) ha (ih hids.2)

theorem Holding.lt_size {inner : List NodeId} (h : Holding d opened inner ids frames)
    (hid : id ∈ ids) : id < d.cells.size := by
  induction h with
  | nil => cases hid
  | cons _ hk _ _ _ _ ih =>
    rcases List.mem_cons.1 hid with rfl | hid
    · exact lt_size_of_kind? hk
    · exact ih hid

/-- A new node that holds nothing. -/
theorem readsOff_grow (h : d.kind? top = some (.element e)) (hk : kind ≠ .fragment)
    (ho : d.cells.size ∉ opened) :
    (d.grow top kind).ReadsOff opened [d.cells.size] kind.alone := by
  have hp := lt_size_of_kind? h
  have hkind : (d.grow top kind).kind? d.cells.size = some kind := by
    rw [kind?_grow hp, if_pos rfl]
  have hchildren : ((d.grow top kind).children d.cells.size).toList = [] := by
    rw [children_grow hp, if_neg (Nat.ne_of_gt hp), children]
    simp
  cases kind with
  | leaf l => exact .leaf hkind .nil
  | element e' => exact .element ho hkind (hchildren ▸ .nil) .nil
  | fragment => exact absurd rfl hk

theorem extendText?_eq_some {s : String} (h : d.extendText? id s = some d') :
    ∃ t, d.kind? id = some (.leaf (.text t)) ∧ d'.kind? id = some (.leaf (.text (t ++ s))) ∧
      (∀ n, n ≠ id → d'.kind? n = d.kind? n) ∧ ∀ n, d'.children n = d.children n := by
  rw [extendText?] at h
  split at h
  next t cs p hc =>
    obtain rfl := Option.some.inj h
    refine ⟨t, by rw [kind?, hc]; rfl, ?_, fun n hn => ?_, fun n => ?_⟩
    · rw [kind?, Array.getElem?_modify, if_pos rfl, hc]
      rfl
    · rw [kind?, Array.getElem?_modify, if_neg (Ne.symm hn), kind?]
    · rw [children, children, Array.getElem?_modify]
      split_ifs with hn
      · subst hn
        rw [hc]
        rfl
      · rfl
  next => cases h

namespace Shows

theorem fresh (h : d.Shows ids frames) : d.cells.size ∉ ids := fun hid =>
  Nat.lt_irrefl _ (h.lt_size hid)

/-- A node is added to the innermost open element. -/
theorem grows (h : d.Shows (top :: ids) ((e, f) :: frames)) (hg : d.Grown)
    (hk : kind ≠ .fragment) :
    (d.grow top kind).Shows (top :: ids) ((e, f ++ kind.alone) :: frames) := by
  have hfresh := h.fresh
  cases h with
  | cons hid htop hc hr ha hrest =>
    have hd := changedAt_grow htop kind
    have hnew := readsOff_grow htop hk hfresh
    refine .cons hid (hd.element _ _ htop) ?_
      ((hr.changed hg hd List.mem_cons_self (fun _ _ _ => kind?_grow_of_some htop)
        fun _ _ ho => ho).append hnew) (ha.append rfl)
      (hrest.changed hg hd List.mem_cons_self hid fun _ _ ho => ho)
    rw [children_grow (lt_size_of_kind? htop), if_pos rfl, hc, List.append_nil, List.append_nil]

/-- An element is opened inside of the innermost one. -/
theorem opens (h : d.Shows (top :: ids) ((e, f) :: frames)) (hg : d.Grown) (e' : Element) :
    (d.grow top (.element e')).Shows (d.cells.size :: top :: ids)
      ((e', .nil) :: (e, f) :: frames) := by
  have hfresh := h.fresh
  cases h with
  | cons hid htop hc hr ha hrest =>
    have hp := lt_size_of_kind? htop
    have hd := changedAt_grow htop (.element e')
    have ho : ∀ id < d.cells.size, id ∉ top :: ids → id ∉ d.cells.size :: top :: ids :=
      fun id hlt hn hm => (List.mem_cons.1 hm).elim (Nat.ne_of_lt hlt) hn
    have hinside : ((d.grow top (.element e')).children d.cells.size).toList = [] ++ [] := by
      rw [children_grow hp, if_neg (Nat.ne_of_gt hp), children]
      simp
    refine .cons hfresh ((kind?_grow hp _).trans (if_pos rfl)) hinside .nil rfl
      (.cons hid (hd.element _ _ htop) ?_
        (hr.changed hg hd List.mem_cons_self (fun _ _ _ => kind?_grow_of_some htop) ho) ha
        (hrest.changed hg hd List.mem_cons_self hid ho))
    rw [children_grow hp, if_pos rfl, hc, List.append_nil]

/-- Text is added to the innermost open element. -/
theorem appendText (h : d.Shows (top :: ids) ((e, f) :: frames)) (hg : d.Grown) (s : String) :
    (d.appendText top s).Shows (top :: ids) ((e, f ++ .leaf (.text s) .nil) :: frames) := by
  rw [Draft.appendText]
  split
  next d' hd' =>
    obtain ⟨last, hlast, hd'⟩ := Option.bind_eq_some_iff.1 hd'
    obtain ⟨t, hold, hnew, hkind, hchildren⟩ := extendText?_eq_some hd'
    cases h with
    | cons hid htop hc hr ha hrest =>
      have hmem : last ∈ (d.children top).toList :=
        Array.mem_toList_iff.2 (Array.mem_of_back? hlast)
      have hparent := (hg.mem_children hmem).2.2
      have hd : ChangedAt top d d' := by
        refine ⟨fun id e' he => ?_, fun id k hp hk => ?_, fun id _ _ => by rw [hchildren]⟩
        · rwa [hkind id]
          rintro rfl
          cases hold.symm.trans he
        · rwa [hkind id]
          rintro rfl
          exact hp hparent
      -- the text is the last node that is held for good
      obtain ⟨held, hheld⟩ : ∃ held, (d.children top).toList = held ++ [last] := by
        rw [← Array.getLast?_toList, List.getLast?_eq_some_iff] at hlast
        exact hlast
      rw [List.append_nil] at hc
      obtain rfl := hc.symm.trans hheld
      obtain ⟨g₁, g₂, hr₁, hr₂, rfl⟩ := hr.exists_split
      have hbefore : ∀ n ∈ held, n ≠ last := fun n hn =>
        Nat.ne_of_lt ((List.pairwise_append.1 (hc ▸ hg.children_pairwise top)).2.2 n (by simp [hn])
          last (by simp))
      cases hr₂ with
      | element _ hk => cases hold.symm.trans hk
      | leaf hk hnil =>
        cases hnil
        obtain rfl := Kind.leaf.inj (Option.some.inj (hold.symm.trans hk))
        have hr₁' := hr₁.changed hg hd List.mem_cons_self
          (fun n hn k hk => by rwa [hkind n (hbefore n hn)]) fun _ _ ho => ho
        refine .cons hid (hd.element _ _ htop)
          ((congrArg _ (hchildren top)).trans (hc.trans (List.append_nil _).symm))
          (hr₁'.append (.leaf hnew .nil))
          ?_ (hrest.changed hg hd List.mem_cons_self hid fun _ _ ho => ho)
        -- text behind text is one text when it is read off
        have hjoined : (Forest.leaf (.text (t ++ s)) .nil).Alike
            (.leaf (.text t) .nil ++ .leaf (.text s) .nil) := rfl
        have hparts := ha.append (show (Forest.leaf (.text s) .nil).Alike _ from rfl)
        rw [Forest.append_assoc] at hparts
        exact (Forest.Alike.append rfl hjoined).trans hparts
  next => exact h.grows hg (by simp)

/-- The innermost open element is closed: the one around it holds it for good. -/
theorem closes {inner : NodeId} {e' : Element}
    (h : d.Shows (inner :: top :: ids) ((e', g) :: (e, f) :: frames)) (hg : d.Grown) :
    d.Shows (top :: ids) ((e, f ++ .element e' g .nil) :: frames) := by
  have ho : ∀ id < d.cells.size, id ∉ inner :: top :: ids → id ∉ top :: ids :=
    fun id _ hn hm => hn (List.mem_cons_of_mem _ hm)
  have ht : top ∈ inner :: top :: ids := by simp
  have hd := ChangedAt.refl top d
  cases h with
  | cons hinner hkind hc' hr' ha' hrest =>
    cases hrest with
    | cons hid htop hc hr ha hrest =>
      rw [List.append_nil] at hc'
      have hclosed : d.ReadsOff (top :: ids) [inner] _ :=
        .element hinner hkind (hc' ▸ hr'.changed hg hd ht (fun _ _ _ h => h) ho) .nil
      exact .cons hid htop (hc.trans (List.append_nil _).symm)
        ((hr.changed hg hd ht (fun _ _ _ h => h) ho).append hclosed) (ha.append (ha'.element e'))
        (hrest.changed hg hd ht hid ho)

/-- What is shown counts only up to the joining of texts. -/
theorem alike {stack : List NodeId} (h : d.Shows stack ((e, f) :: frames)) (hg : f.Alike g) :
    d.Shows stack ((e, g) :: frames) := by
  unfold Draft.Shows at h ⊢
  generalize stack = opened, ([] : List NodeId) = inner, stack = ids at h ⊢
  cases h with
  | cons hid hk hc hr ha hrest => exact .cons hid hk hc hr (ha.trans hg) hrest

/-- All that the root element holds for good is read off when nothing else is open. -/
theorem content {stack : List NodeId} (h : d.Shows stack [(e, f)]) (hg : d.Grown) :
    stack = [root] ∧ d.element root = e ∧ (d.content root).Alike f := by
  cases h with
  | cons _ hk hc hr ha hrest =>
    cases hrest with
    | nil =>
      rw [List.append_nil] at hc
      have hread : d.content root = _ := (hc ▸ hr).forestOf_eq hg (hg.children_pairwise root)
        fun n _ => Nat.le_add_left _ n
      exact ⟨rfl, element_of_kind? hk, hread ▸ ha⟩

end Shows

/-! ## What an open element receives -/

variable {stack : List NodeId} {added added' : Forest} {d₁ : Draft}

/-- A draft after the innermost open element has got some nodes for good. -/
structure Receives (stack : List NodeId) (added : Forest) (d d' : Draft) : Prop where
  grown : d'.Grown
  kind : ∀ id e, d.kind? id = some (.element e) → d'.kind? id = some (.element e)
  elements : d'.elements = d.elements ++ added.elements
  shows : ∀ {e f frames}, d.Shows stack ((e, f) :: frames) →
    d'.Shows stack ((e, f ++ added) :: frames)

namespace Receives

theorem refl (hg : d.Grown) : d.Receives stack .nil d :=
  ⟨hg, fun _ _ h => h, (List.append_nil _).symm, fun h => by rwa [Forest.append_nil]⟩

theorem trans (h : d.Receives stack added d₁) (h' : d₁.Receives stack added' d') :
    d.Receives stack (added ++ added') d' where
  grown := h'.grown
  kind id e hk := h'.kind id e (h.kind id e hk)
  elements := by rw [h'.elements, h.elements, Forest.elements_append, List.append_assoc]
  shows hs := by
    have hshows := h'.shows (h.shows hs)
    rwa [Forest.append_assoc] at hshows

/-- What is received counts only up to the joining of texts. -/
theorem alike (h : d.Receives stack added d') (ha : added.Alike added') :
    d.Receives stack added' d' where
  grown := h.grown
  kind := h.kind
  elements := by
    rw [h.elements, ← Forest.elements_join added, show added.join = added'.join from ha,
      Forest.elements_join]
  shows hs := (h.shows hs).alike (Forest.Alike.append rfl ha)

end Receives

theorem Shows.exists_current (h : d.Shows stack ((e, f) :: frames)) :
    ∃ id ids, stack = id :: ids ∧ d.kind? id = some (.element e) := by
  unfold Shows at h
  cases h with
  | cons _ hk => exact ⟨_, _, rfl, hk⟩

theorem Shows.exists_pair {e' : Element} (h : d.Shows stack [(e, f), (e', g)]) :
    ∃ id, stack = [id, root] ∧ id ≠ root ∧ d.kind? id = some (.element e) ∧
      d.kind? root = some (.element e') := by
  unfold Shows at h
  cases h with
  | cons hid hk _ _ _ hrest =>
    cases hrest with
    | cons _ hk' _ _ _ hrest =>
      cases hrest with
      | nil => exact ⟨_, rfl, fun h => hid (by simp [h]), hk, hk'⟩

variable {e₀ : Element} (hg : d.Grown) (hk : d.kind? (stack.headD root) = some (.element e₀))
include hg hk

theorem receives_grow (hkind : kind ≠ .fragment) :
    d.Receives stack kind.alone (d.grow (stack.headD root) kind) where
  grown := grown_grow hg hk
  kind _ _ := kind?_grow_of_some hk
  elements := by
    rw [elements_grow]
    cases kind <;> rfl
  shows h := by
    obtain ⟨id, ids, rfl, -⟩ := h.exists_current
    exact h.grows hg hkind

theorem receives_text (s : String) :
    d.Receives stack (.leaf (.text s) .nil) (d.appendText (stack.headD root) s) where
  grown := (grown_appendText hg hk s).1
  kind := (grown_appendText hg hk s).2.kind
  elements := (grown_appendText hg hk s).2.elements.trans (List.append_nil _).symm
  shows h := by
    obtain ⟨id, ids, rfl, -⟩ := h.exists_current
    exact h.appendText hg s

/-- An element has been opened, has got its content and has been closed. -/
theorem receives_element {content : Forest}
    (h : (d.grow (stack.headD root) (.element e)).Receives (d.cells.size :: stack) content d') :
    d.Receives stack (.element e content .nil) d' where
  grown := h.grown
  kind id e hid := h.kind id e (kind?_grow_of_some hk hid)
  elements := by
    rw [h.elements, elements_grow, List.append_assoc, Forest.elements, Forest.elements,
      List.append_nil]
    rfl
  shows hs := by
    obtain ⟨id, ids, rfl, -⟩ := hs.exists_current
    exact (h.shows (hs.opens hg e)).closes h.grown

end Draft

/-! ## The machine -/

/-- All open elements of the machine hold what their frames say. -/
def Builder.Shows (b : Builder) (frames : List Frame) : Prop := b.draft.Shows b.stack frames

/-- What is known of a page besides its tree: whether it is a legacy page, and what stands beside
    the root element. -/
def Builder.setting (b : Builder) : Bool × List Leaf × List Leaf := (b.legacy, b.before, b.after)

/-- The machine after nodes have been added for good to the innermost open element. -/
structure Gains (added : Forest) (outer : List Element) (b b' : Builder) : Prop where
  stands : Stands outer b'
  elements : b'.draft.elements = b.draft.elements ++ added.elements
  setting : b'.setting = b.setting
  shows : ∀ {e f frames}, b.Shows ((e, f) :: frames) → b'.Shows ((e, f ++ added) :: frames)

/-- The machine after a text or a comment, which leaves a line feed alone that is to be dropped. -/
structure Adds (added : Forest) (outer : List Element) (b b' : Builder) : Prop
    extends Gains added outer b b' where
  skipLine : b'.skipLine = b.skipLine

/-- The machine after the innermost open element has been closed. -/
structure Ends (outer : List Element) (b b' : Builder) : Prop where
  stands : Stands outer b'
  elements : b'.draft.elements = b.draft.elements
  setting : b'.setting = b.setting
  skipLine : b'.skipLine = b.skipLine
  shows : ∀ {e f e' f' frames}, b.Shows ((e', f') :: (e, f) :: frames) →
    b'.Shows ((e, f ++ .element e' f' .nil) :: frames)

namespace Builder

variable {b : Builder} {e : Element} {f : Forest} {frames : List Frame}

theorem Shows.exists_current (h : b.Shows ((e, f) :: frames)) :
    ∃ id ids, b.stack = id :: ids ∧ b.draft.kind? id = some (.element e) :=
  Draft.Shows.exists_current h

theorem Shows.holds (h : b.Shows ((e, f) :: frames)) (hg : b.draft.Grown) {kind : Kind}
    (hk : kind ≠ .fragment) : (b.holds kind).Shows ((e, f ++ kind.alone) :: frames) := by
  obtain ⟨id, ids, hs, -⟩ := h.exists_current
  rw [Builder.Shows, hs] at h
  rw [Builder.Shows, Builder.holds, hs]
  exact h.grows hg hk

theorem Shows.opens (h : b.Shows ((e, f) :: frames)) (hg : b.draft.Grown) (e' : Element) :
    (b.opens e').Shows ((e', .nil) :: (e, f) :: frames) := by
  obtain ⟨id, ids, hs, -⟩ := h.exists_current
  rw [Builder.Shows, hs] at h
  rw [Builder.Shows, Builder.opens, Builder.holds, hs]
  exact Draft.Shows.opens h hg e'

theorem Shows.appendText (h : b.Shows ((e, f) :: frames)) (hg : b.draft.Grown) (s : String) :
    (b.draft.appendText (b.stack.headD root) s).Shows b.stack
      ((e, f ++ .leaf (.text s) .nil) :: frames) := by
  obtain ⟨id, ids, hs, -⟩ := h.exists_current
  rw [Builder.Shows, hs] at h
  rw [hs]
  exact Draft.Shows.appendText h hg s

/-- The innermost element of two has been taken off the stack. -/
theorem Shows.closes {e' : Element} {f' : Forest} {id : NodeId} {ids : List NodeId}
    (h : b.Shows ((e', f') :: (e, f) :: frames)) (hg : b.draft.Grown) (hs : b.stack = id :: ids) :
    b.draft.Shows ids ((e, f ++ .element e' f' .nil) :: frames) := by
  rw [Builder.Shows, hs] at h
  cases ids with
  | nil =>
    unfold Draft.Shows at h
    cases h with
    | cons _ _ _ _ _ h => cases h
  | cons top ids => exact Draft.Shows.closes h hg

end Builder

/-- More or less exactly the same forest is shown. -/
theorem Builder.Shows.alike {b : Builder} {e : Element} {f g : Forest} {frames : List Frame}
    (h : b.Shows ((e, f) :: frames)) (hg : f.Alike g) : b.Shows ((e, g) :: frames) :=
  Draft.Shows.alike h hg

namespace Gains

variable {added added' : Forest} {outer : List Element} {b b' b₁ : Builder}

theorem legacy (h : Gains added outer b b') : b'.legacy = b.legacy := congrArg Prod.fst h.setting

theorem trans (h : Gains added outer b b₁) (h' : Gains added' outer b₁ b') :
    Gains (added ++ added') outer b b' where
  stands := h'.stands
  elements := by rw [h'.elements, h.elements, Forest.elements_append, List.append_assoc]
  setting := h'.setting.trans h.setting
  shows hs := by
    have hshows := h'.shows (h.shows hs)
    rwa [Forest.append_assoc] at hshows

/-- What is gained counts only up to the joining of texts. -/
theorem alike (h : Gains added outer b b') (ha : added.Alike added') :
    Gains added' outer b b' where
  stands := h.stands
  elements := by
    rw [h.elements, ← Forest.elements_join added, show added.join = added'.join from ha,
      Forest.elements_join]
  setting := h.setting
  shows hs := (h.shows hs).alike (Forest.Alike.append rfl ha)

/-- The draft, the stack and the setting are all that counts of the machine before. -/
theorem of_same (h : Gains added outer b₁ b') (hd : b₁.draft = b.draft) (hs : b₁.stack = b.stack)
    (hl : b₁.setting = b.setting) : Gains added outer b b' where
  stands := h.stands
  elements := hd ▸ h.elements
  setting := h.setting.trans hl
  shows hshows := h.shows (by rwa [Builder.Shows, hd, hs])

end Gains

theorem Adds.refl {outer : List Element} {b : Builder} (h : Stands outer b) :
    Adds .nil outer b b :=
  ⟨⟨h, (List.append_nil _).symm, rfl, fun hs => by rwa [Forest.append_nil]⟩, rfl⟩

/-- What takes the innermost element off the stack and leaves the draft alone closes it. -/
theorem Ends.of_stack {outer : List Element} {b b' : Builder} {id : NodeId} {ids : List NodeId}
    (hg : b.draft.Grown) (hs : b.stack = id :: ids) (h : Stands outer b')
    (hd : b'.draft = b.draft) (ht : b'.stack = ids) (hl : b'.setting = b.setting)
    (hk : b'.skipLine = b.skipLine) : Ends outer b b' where
  stands := h
  elements := congrArg Draft.elements hd
  setting := hl
  skipLine := hk
  shows hshows := by
    rw [Builder.Shows, hd, ht]
    exact hshows.closes hg hs

end SchemaExtraction.Markup
