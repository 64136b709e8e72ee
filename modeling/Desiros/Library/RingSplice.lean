import Desiros.Library.CircularList

/-!
# Splicing items into circular lists

The links of a ring do not know where the list begins: they close a `Cycle` (`ring_iff`), which may be read from any of
its items on. So an item is inserted and unlinked at any place as it is at the head, and the head follows a rule of its
own: `Ring.insertBefore`, `Ring.insertAfter` and `Ring.delete`.
-/

namespace Desiros.Library.CircularList

variable {α : Type*}

section Operations

variable [DecidableEq α]

/-- Inserting behind an item. -/
def insertAtRight (m : CircularList α) (afterThis item : α) : CircularList α where
  head := m.head
  next := Function.update (Function.update m.next item (m.next afterThis)) afterThis (some item)
  prev := Function.update
    (match m.next afterThis with
      | some first => Function.update m.prev first (some item)
      | none => m.prev) item (some afterThis)

def withHead (m : CircularList α) (p : Option α) : CircularList α := { m with head := p }

/-- Inserting before an item; before the head, the item becomes the head. -/
def insertBefore (m : CircularList α) (beforeThis item : α) : CircularList α :=
  (m.insertAtLeft beforeThis item).withHead (if m.head = some beforeThis then some item else m.head)

end Operations

variable {m m' : CircularList α} {a b x : α} {l l' : List α} {p : Option α}

/-- A ring may be read from any of its items on. -/
theorem Ring.chain (h : m.Ring (l ++ a :: l')) : (↑(a :: (l' ++ l)) : Cycle α).Chain m.Linked := by
  rw [← List.cons_append, Cycle.coe_eq_coe.mpr List.isRotated_append]
  exact (ring_iff.mp h).2

theorem mem_rotate : b ∈ a :: (l' ++ l) ↔ b ∈ l ++ a :: l' := by
  rw [← List.cons_append, List.mem_append, or_comm, ← List.mem_append]

theorem nodup_rotate : (a :: (l' ++ l)).Nodup ↔ (l ++ a :: l').Nodup := by
  rw [← List.cons_append, List.nodup_append_comm]

/-- Backwards, the cycle goes against the links. -/
theorem chain_reverse {r : α → α → Prop} (h : (l : Cycle α).Chain r) : (l.reverse : Cycle α).Chain fun x y => r y x := by
  induction l using List.reverseRecOn with
  | nil => trivial
  | append_singleton l z _ =>
    rw [← Cycle.coe_cons_eq_coe_append, Cycle.chain_coe_cons] at h
    rw [List.reverse_append, List.reverse_singleton, List.singleton_append, Cycle.chain_coe_cons]
    have hback := List.isChain_reverse.mpr h
    rwa [List.reverse_cons, List.reverse_append, List.reverse_singleton, List.singleton_append, List.cons_append] at hback

/-- Each item has a neighbour on both sides, which is the item itself if it is alone. -/
theorem neighbours (h : (↑(a :: l) : Cycle α).Chain m.Linked) (hnodup : (a :: l).Nodup) :
    ∃ before ∈ a :: l, ∃ behind ∈ a :: l, m.Linked before a ∧ m.Linked a behind ∧ (before = a → behind = a) := by
  obtain ⟨hchain, hclose⟩ := chain_cycle.mp h
  cases l with
  | nil => exact ⟨a, List.mem_cons_self, a, List.mem_cons_self, hclose, hclose, id⟩
  | cons b l =>
    have hlast := List.getLast_mem (List.cons_ne_nil b l)
    rw [List.getLast_cons (List.cons_ne_nil b l)] at hclose
    exact ⟨_, List.mem_cons_of_mem a hlast, b, List.mem_cons_of_mem a List.mem_cons_self, hclose,
      (List.isChain_cons_cons.mp hchain).1, fun he => absurd (he ▸ hlast) (List.nodup_cons.mp hnodup).1⟩

theorem head?_append_cons (l l' : List α) (a : α) : (l ++ a :: l').head? = some (l.headD a) := by
  cases l <;> rfl

/-- Only in front of everything is an item the head. -/
theorem headD_eq (hnodup : (l ++ a :: l').Nodup) : l.headD a = a ↔ l = [] := by
  cases l with
  | nil => exact iff_of_true rfl rfl
  | cons b l =>
    refine iff_of_false (fun he => ?_) (List.cons_ne_nil b l)
    rw [List.headD_cons] at he
    exact (List.nodup_cons.mp hnodup).1 (he ▸ List.mem_append_cons_self)

section

variable [DecidableEq α]

/-! ## Inserting -/

theorem insertAtLeft_chain (h : (↑(a :: l) : Cycle α).Chain m.Linked) (hnodup : (a :: l).Nodup) (hx : x ∉ a :: l) :
    (↑(x :: a :: l) : Cycle α).Chain (m.insertAtLeft a x).Linked := by
  have hring : (m.withHead (some a)).Ring (a :: l) := ring_iff.mpr ⟨rfl, h⟩
  have hadded := ring_iff.mp (hring.addTail hnodup hx)
  rw [Cycle.coe_cons_eq_coe_append]
  exact hadded.2

/-- Behind an item is in front of the next one. -/
theorem insertAtRight_eq (h : m.Linked a b) (hxa : x ≠ a) (hxb : x ≠ b) : m.insertAtRight a x = m.insertAtLeft b x := by
  unfold insertAtRight insertAtLeft
  simp only [h.1, h.2]
  rw [Function.update_comm hxa, Function.update_comm hxb]

theorem insertAtRight_chain (h : (↑(a :: l) : Cycle α).Chain m.Linked) (hnodup : (a :: l).Nodup) (hx : x ∉ a :: l) :
    (↑(a :: x :: l) : Cycle α).Chain (m.insertAtRight a x).Linked := by
  have hxa : x ≠ a := List.ne_of_not_mem_cons hx
  cases l with
  | nil =>
    have haa : m.Linked a a := (chain_cycle.mp h).2
    rw [insertAtRight_eq haa hxa hxa, Cycle.coe_cons_eq_coe_append]
    exact insertAtLeft_chain h hnodup hx
  | cons b l =>
    have hab := (List.isChain_cons_cons.mp (chain_cycle.mp h).1).1
    have hxb : x ≠ b := fun he => hx (he ▸ List.mem_cons_of_mem _ List.mem_cons_self)
    have hrotated : (↑(a :: b :: l) : Cycle α) = ↑(b :: (l ++ [a])) := Cycle.coe_cons_eq_coe_append (b :: l) a
    rw [hrotated] at h
    rw [insertAtRight_eq hab hxa hxb, Cycle.coe_cons_eq_coe_append]
    refine insertAtLeft_chain h ?_ ?_
    · exact (List.perm_append_singleton a (b :: l)).nodup_iff.mpr hnodup
    · exact fun hmem => hx ((List.perm_append_singleton a (b :: l)).mem_iff.mp hmem)

/-- **Inserting before an item.** -/
theorem Ring.insertBefore (h : m.Ring (l ++ a :: l')) (hnodup : (l ++ a :: l').Nodup) (hx : x ∉ l ++ a :: l') :
    (m.insertBefore a x).Ring (l ++ x :: a :: l') := by
  have hchain := insertAtLeft_chain h.chain (nodup_rotate.mpr hnodup) (fun hmem => hx (mem_rotate.mp hmem))
  have hhead := (ring_iff.mp h).1
  rw [head?_append_cons] at hhead
  refine ring_iff.mpr ⟨?_, ?_⟩
  · show (if m.head = some a then some x else m.head) = _
    rw [head?_append_cons, hhead]
    cases l with
    | nil => exact if_pos rfl
    | cons b l => exact if_neg fun he => List.cons_ne_nil b l ((headD_eq hnodup).mp (Option.some.inj he))
  · rw [Cycle.coe_eq_coe.mpr List.isRotated_append]
    exact hchain

/-- **Inserting behind an item.** -/
theorem Ring.insertAfter (h : m.Ring (l ++ a :: l')) (hnodup : (l ++ a :: l').Nodup) (hx : x ∉ l ++ a :: l') :
    (m.insertAtRight a x).Ring (l ++ a :: x :: l') := by
  have hchain := insertAtRight_chain h.chain (nodup_rotate.mpr hnodup) (fun hmem => hx (mem_rotate.mp hmem))
  refine ring_iff.mpr ⟨?_, ?_⟩
  · show m.head = _
    rw [(ring_iff.mp h).1, head?_append_cons, head?_append_cons]
  · rw [Cycle.coe_eq_coe.mpr List.isRotated_append]
    exact hchain

/-! ## Unlinking -/

/-- **Unlinking an item.** -/
theorem Ring.delete (h : m.Ring (l ++ a :: l')) (hnodup : (l ++ a :: l').Nodup) :
    ∃ m', m.delete a = some m' ∧ m'.Ring (l ++ l') ∧ m'.next a = none ∧ m'.prev a = none := by
  have hhead := (ring_iff.mp h).1
  rw [head?_append_cons] at hhead
  have halone : l' ++ l = [] → m.head = some a := by
    intro hnil
    rw [hhead, (List.append_eq_nil_iff.mp hnil).2]
    rfl
  obtain ⟨m', hm', hchain, hhead', hnull⟩ := delete_chain h.chain (nodup_rotate.mpr hnodup) halone
  refine ⟨m', hm', ring_iff.mpr ⟨?_, ?_⟩, hnull⟩
  · rw [hhead', hhead]
    cases l with
    | nil =>
      rw [List.append_nil]
      exact if_pos rfl
    | cons b l => exact if_neg fun he => List.cons_ne_nil b l ((headD_eq hnodup).mp (Option.some.inj he))
  · rw [Cycle.coe_eq_coe.mpr List.isRotated_append]
    exact hchain

end

end Desiros.Library.CircularList
