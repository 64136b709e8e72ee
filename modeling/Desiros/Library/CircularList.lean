import Desiros.Library.Loop
import Mathlib.Data.List.Chain
import Mathlib.Data.List.Cycle
import Mathlib.Data.List.Nodup
import Mathlib.Logic.Function.Basic

/-!
# Circular doubly-linked lists

The links are part of the items: `next` and `prev` give the links of the item at an address, `none` for a null pointer,
and the list is a pointer to its head. `Ring m l` says that the links of the items of `l`, in this order, close to a
circle that begins at the head. Walking the links is the only way to read the list, so no two lists of items fit the
same links (`Ring.subset`). `delete` and `popHead` have no result where they follow a null pointer.
-/

namespace Desiros.Library

variable {α : Type*}

structure CircularList (α : Type*) where
  head : Option α
  next : α → Option α
  prev : α → Option α

namespace CircularList

section Operations

variable [DecidableEq α]

/-- A list of a single item. -/
def singleton (m : CircularList α) (item : α) : CircularList α where
  head := some item
  next := Function.update m.next item (some item)
  prev := Function.update m.prev item (some item)

/-- Inserting before an item. -/
def insertAtLeft (m : CircularList α) (beforeThis item : α) : CircularList α where
  head := m.head
  next := Function.update
    (match m.prev beforeThis with
      | some last => Function.update m.next last (some item)
      | none => m.next) item (some beforeThis)
  prev := Function.update (Function.update m.prev item (m.prev beforeThis)) beforeThis (some item)

/-- Adding at the tail: before the head, which stays. -/
def addTail (m : CircularList α) (item : α) : CircularList α :=
  match m.head with
  | some head => m.insertAtLeft head item
  | none => m.singleton item

/-- The links of an item are null. -/
def clear (m : CircularList α) (item : α) : CircularList α where
  head := m.head
  next := Function.update m.next item none
  prev := Function.update m.prev item none

/-- Unlinking an item; it is not checked whether it is in the list. -/
def delete (m : CircularList α) (item : α) : Option (CircularList α) :=
  if m.next item = some item ∧ m.prev item = some item then some { m.clear item with head := none }
  else do
    let before ← m.prev item
    let m := { m with next := Function.update m.next before (m.next item) }
    let behind ← m.next item
    let m := { m with prev := Function.update m.prev behind (m.prev item) }
    let m := if m.head = some item then { m with head := m.next item } else m
    some (m.clear item)

/-- The item that was the head, and the list without it. -/
def popHead (m : CircularList α) : Option (α × CircularList α) := do
  let item ← m.head
  let m ← m.delete item
  some (item, m)

/-- The loop over the items, in front of its test. -/
structure ForEach (α : Type*) where
  iterator : Option α
  nbElements : Nat
  visited : List α

def forEachTurn (m : CircularList α) (x : ForEach α) : Option (ForEach α) :=
  match x.iterator with
  | none => none
  | some item =>
    if x.nbElements = 0 ∨ m.head ≠ some item then some ⟨m.next item, x.nbElements + 1, x.visited ++ [item]⟩ else none

/-- The items that the loop visits, if it ends in time. -/
def forEach (m : CircularList α) (fuel : Nat) : Option (List α) :=
  (loop m.forEachTurn fuel ⟨m.head, 0, []⟩).map ForEach.visited

end Operations

/-- The items follow each other. -/
def Linked (m : CircularList α) (x y : α) : Prop := m.next x = some y ∧ m.prev y = some x

/-- The items of the list, from the head on. -/
def Ring (m : CircularList α) : List α → Prop
  | [] => m.head = none
  | a :: l => m.head = some a ∧ (a :: l).IsChain m.Linked ∧ m.Linked ((a :: l).getLast (List.cons_ne_nil a l)) a

variable {m m' : CircularList α} {a x y : α} {l l' : List α}

theorem chain_cycle {r : α → α → Prop} : (↑(a :: l) : Cycle α).Chain r ↔
    (a :: l).IsChain r ∧ r ((a :: l).getLast (List.cons_ne_nil a l)) a := by
  rw [Cycle.chain_coe_cons, ← List.cons_append, List.isChain_append]
  have hlast : (a :: l).getLast? = some ((a :: l).getLast (List.cons_ne_nil a l)) :=
    List.getLast?_eq_getLast_of_ne_nil _
  constructor
  · rintro ⟨hchain, -, hclose⟩
    exact ⟨hchain, hclose _ hlast a rfl⟩
  · rintro ⟨hchain, hclose⟩
    refine ⟨hchain, .singleton a, fun y hy z hz => ?_⟩
    rw [hlast, Option.mem_some_iff] at hy
    rw [List.head?_cons, Option.mem_some_iff] at hz
    exact hy ▸ hz ▸ hclose

/-- The links of a ring close a cycle. -/
theorem ring_iff : m.Ring l ↔ m.head = l.head? ∧ (l : Cycle α).Chain m.Linked := by
  cases l with
  | nil => exact (and_iff_left trivial).symm
  | cons a l =>
    rw [chain_cycle]
    exact Iff.rfl

/-- Only the links of the items matter. -/
theorem chain_congr (hnext : ∀ x ∈ l, m'.next x = m.next x) (hprev : ∀ x ∈ l, m'.prev x = m.prev x)
    (h : l.IsChain m.Linked) : l.IsChain m'.Linked := by
  induction l with
  | nil => exact .nil
  | cons b l ih =>
    cases l with
    | nil => exact .singleton b
    | cons c l =>
      obtain ⟨hbc, hcl⟩ := List.isChain_cons_cons.mp h
      refine List.isChain_cons_cons.mpr ⟨⟨?_, ?_⟩, ih (fun x hx => hnext x (List.mem_cons_of_mem _ hx))
        (fun x hx => hprev x (List.mem_cons_of_mem _ hx)) hcl⟩
      · exact (hnext b List.mem_cons_self).trans hbc.1
      · exact (hprev c (List.mem_cons_of_mem _ List.mem_cons_self)).trans hbc.2

theorem Ring.congr (h : m.Ring l) (hhead : m'.head = m.head) (hnext : ∀ x ∈ l, m'.next x = m.next x)
    (hprev : ∀ x ∈ l, m'.prev x = m.prev x) : m'.Ring l := by
  cases l with
  | nil => exact hhead.trans h
  | cons a l =>
    obtain ⟨ha, hchain, hlast⟩ := h
    refine ⟨hhead.trans ha, chain_congr hnext hprev hchain, ?_, ?_⟩
    · exact (hnext _ (List.getLast_mem _)).trans hlast.1
    · exact (hprev a List.mem_cons_self).trans hlast.2

theorem Ring.clear [DecidableEq α] (h : m.Ring l) (hx : x ∉ l) : (m.clear x).Ring l := by
  have hne : ∀ y ∈ l, y ≠ x := fun y hy he => hx (he ▸ hy)
  exact h.congr rfl (fun y hy => Function.update_of_ne (hne y hy) ..) fun y hy => Function.update_of_ne (hne y hy) ..

/-! ## Adding at the tail -/

/-- A chain stays one where the link behind its last item and the one before its first item change. -/
theorem chain_relink (hnodup : (a :: l).Nodup) (hnext : ∀ x ∈ a :: l, x ≠ (a :: l).getLast (List.cons_ne_nil a l) →
    m'.next x = m.next x) (hprev : ∀ x ∈ l, m'.prev x = m.prev x) (h : (a :: l).IsChain m.Linked) :
    (a :: l).IsChain m'.Linked := by
  induction l generalizing a with
  | nil => exact .singleton a
  | cons b l ih =>
    obtain ⟨hab, hbl⟩ := List.isChain_cons_cons.mp h
    obtain ⟨hnot, hnodup'⟩ := List.nodup_cons.mp hnodup
    have hlast : (a :: b :: l).getLast (List.cons_ne_nil _ _) = (b :: l).getLast (List.cons_ne_nil _ _) :=
      List.getLast_cons (List.cons_ne_nil b l)
    have hne : a ≠ (b :: l).getLast (List.cons_ne_nil _ _) := fun he => hnot (he ▸ List.getLast_mem _)
    refine List.isChain_cons_cons.mpr ⟨⟨?_, ?_⟩, ih hnodup' (fun x hx hxl => ?_)
      (fun x hx => hprev x (List.mem_cons_of_mem _ hx)) hbl⟩
    · exact (hnext a List.mem_cons_self (hlast ▸ hne)).trans hab.1
    · exact (hprev b List.mem_cons_self).trans hab.2
    · exact hnext x (List.mem_cons_of_mem _ hx) (hlast ▸ hxl)

/-- **Adding at the tail** of a list the item is not in. -/
theorem Ring.addTail [DecidableEq α] (h : m.Ring l) (hnodup : l.Nodup) (hx : x ∉ l) : (m.addTail x).Ring (l ++ [x]) := by
  cases l with
  | nil =>
    change m.head = none at h
    rw [CircularList.addTail, h]
    exact ⟨rfl, .singleton x, Function.update_self .., Function.update_self ..⟩
  | cons a l =>
    obtain ⟨hhead, hchain, hnext, hprev⟩ := h
    have hxa : x ≠ a := fun he => hx (he ▸ List.mem_cons_self)
    have hmem := List.getLast_mem (List.cons_ne_nil a l)
    have hxlast : (a :: l).getLast (List.cons_ne_nil a l) ≠ x := fun he => hx (he ▸ hmem)
    have hlast : (a :: l ++ [x]).getLast (List.cons_ne_nil _ _) = x := List.getLast_append_singleton (a :: l)
    have hgetLast : (a :: l).getLast? = some ((a :: l).getLast (List.cons_ne_nil a l)) :=
      List.getLast?_eq_getLast_of_ne_nil _
    rw [CircularList.addTail, hhead]
    generalize (a :: l).getLast (List.cons_ne_nil a l) = last at hnext hprev hmem hxlast hgetLast
    have hnew : (m.insertAtLeft a x).Linked last x := by
      refine ⟨?_, ?_⟩
      · simp only [insertAtLeft, hprev]
        rw [Function.update_of_ne hxlast, Function.update_self]
      · simp only [insertAtLeft, hprev]
        rw [Function.update_of_ne hxa, Function.update_self]
    refine ⟨hhead, ?_, ?_⟩
    · refine List.isChain_append.mpr ⟨chain_relink hnodup (fun y hy hyl => ?_) (fun y hy => ?_) hchain,
        .singleton x, fun y hy z hz => ?_⟩
      · have hyx : y ≠ x := fun he => hx (he ▸ hy)
        have hyl' : y ≠ last := by
          intro he
          rw [List.getLast?_eq_getLast_of_ne_nil (List.cons_ne_nil a l), Option.some_inj] at hgetLast
          exact hyl (he.trans hgetLast.symm)
        simp only [insertAtLeft, hprev]
        rw [Function.update_of_ne hyx, Function.update_of_ne hyl']
      · have hya : y ≠ a := fun he => (List.nodup_cons.mp hnodup).1 (he ▸ hy)
        have hyx : y ≠ x := fun he => hx (he ▸ List.mem_cons_of_mem _ hy)
        simp only [insertAtLeft]
        rw [Function.update_of_ne hya, Function.update_of_ne hyx]
      · rw [hgetLast, Option.mem_some_iff] at hy
        rw [List.head?_cons, Option.mem_some_iff] at hz
        subst hy hz
        exact hnew
    · change (m.insertAtLeft a x).Linked ((a :: l ++ [x]).getLast _) a
      rw [hlast]
      exact ⟨Function.update_self .., Function.update_self ..⟩

/-! ## Walking the links -/

/-- The link behind an item leads to an item. -/
theorem Ring.next_mem (h : m.Ring l) (hx : x ∈ l) (hy : m.next x = some y) : y ∈ l := by
  have hwalk : ∀ {b : α} {l : List α}, (b :: l).IsChain m.Linked → ∀ x ∈ b :: l,
      x = (b :: l).getLast (List.cons_ne_nil b l) ∨ ∃ z ∈ l, m.next x = some z := by
    intro b l
    induction l generalizing b with
    | nil => exact fun _ x hx => .inl (List.mem_singleton.mp hx)
    | cons c l ih =>
      intro hchain x hx
      obtain ⟨hbc, hcl⟩ := List.isChain_cons_cons.mp hchain
      cases List.mem_cons.mp hx with
      | inl he => exact .inr ⟨c, List.mem_cons_self, he ▸ hbc.1⟩
      | inr hin =>
        rw [List.getLast_cons (List.cons_ne_nil c l)]
        exact (ih hcl x hin).imp id fun ⟨z, hz, hnext⟩ => ⟨z, List.mem_cons_of_mem _ hz, hnext⟩
  cases l with
  | nil => cases hx
  | cons a l =>
    obtain ⟨-, hchain, hnext, -⟩ := h
    rcases hwalk hchain x hx with he | ⟨z, hz, hz'⟩
    · rw [he, hnext] at hy
      rw [← Option.some.inj hy]
      exact List.mem_cons_self
    · rw [hz'] at hy
      rw [← Option.some.inj hy]
      exact List.mem_cons_of_mem _ hz

/-- Two lists of items that fit the same links have the same items. -/
theorem Ring.subset (h : m.Ring l) (h' : m.Ring l') : ∀ x ∈ l, x ∈ l' := by
  have hwalk : ∀ {b : α} {l : List α}, (b :: l).IsChain m.Linked → b ∈ l' → ∀ x ∈ b :: l, x ∈ l' := by
    intro b l
    induction l generalizing b with
    | nil => exact fun _ hb x hx => (List.mem_singleton.mp hx) ▸ hb
    | cons c l ih =>
      intro hchain hb x hx
      obtain ⟨hbc, hcl⟩ := List.isChain_cons_cons.mp hchain
      cases List.mem_cons.mp hx with
      | inl he => exact he ▸ hb
      | inr hin => exact ih hcl (h'.next_mem hb hbc.1) x hin
  cases l with
  | nil => exact fun x hx => absurd hx List.not_mem_nil
  | cons a l =>
    apply hwalk h.2.1
    cases l' with
    | nil =>
      have hnone : m.head = none := h'
      rw [h.1] at hnone
      cases hnone
    | cons b l' =>
      have hab := h.1.symm.trans h'.1
      rw [Option.some.inj hab]
      exact List.mem_cons_self

/-! ## The loop over the items -/

/-- A loop that goes from item to item stops when it is back at the first one. Its state is that of the items it has
visited and of the pointer. -/
theorem loop_along {σ : Type*} {turn : σ → Option σ} {step : α → Option α} (state : List α → Option α → σ) {n : Nat}
    (hturn : ∀ vs b, vs.length < n → vs = [] ∨ b ≠ a → turn (state vs (some b)) = some (state (vs ++ [b]) (step b)))
    (hstop : ∀ vs, vs ≠ [] → vs.length ≤ n → turn (state vs (some a)) = none) :
    ∀ {rest : List α} {b : α} (vs : List α) {fuel : Nat}, (b :: (rest ++ [a])).IsChain (fun y z => step y = some z) →
      vs = [] ∨ b ≠ a → a ∉ rest → vs.length + (rest.length + 1) ≤ n → rest.length + 1 < fuel →
      loop turn fuel (state vs (some b)) = some (state (vs ++ b :: rest) (some a)) := by
  intro rest
  induction rest with
  | nil =>
    intro b vs fuel hchain hfirst _ hn hfuel
    obtain ⟨k, rfl⟩ := Nat.exists_eq_add_of_lt hfuel
    have hstep : step b = some a := (List.isChain_cons_cons.mp hchain).1
    have hvisited : (vs ++ [b]).length ≤ n := by
      rw [List.length_append]
      exact hn
    rw [show [].length + 1 + k + 1 = (k + 1) + 1 by rw [List.length_nil]; omega,
      loop_turn (hturn vs b (Nat.lt_of_succ_le hn) hfirst), hstep,
      loop_stop (hstop _ (List.append_ne_nil_of_right_ne_nil _ (List.cons_ne_nil b [])) hvisited)]
  | cons c rest ih =>
    intro b vs fuel hchain hfirst hnot hn hfuel
    obtain ⟨k, rfl⟩ := Nat.exists_eq_add_of_lt hfuel
    obtain ⟨hbc, hrest⟩ := List.isChain_cons_cons.mp hchain
    obtain ⟨hca, hnot'⟩ := not_or.mp fun h => hnot (List.mem_cons.mpr h)
    rw [List.length_cons] at hn ⊢
    have hvisited : (vs ++ [b]).length + (rest.length + 1) ≤ n := by
      rw [List.length_append, List.length_singleton]
      omega
    rw [loop_turn (hturn vs b (by omega) hfirst), hbc, ih _ hrest (.inr (Ne.symm hca)) hnot' hvisited (by omega),
      List.append_assoc]
    rfl

/-- **The loop visits the items** in their order, each once. -/
theorem Ring.forEach [DecidableEq α] (h : m.Ring l) (hnodup : l.Nodup) {fuel : Nat} (hfuel : l.length < fuel) :
    m.forEach fuel = some l := by
  unfold CircularList.forEach
  cases l with
  | nil =>
    change m.head = none at h
    obtain ⟨n, rfl⟩ := Nat.exists_eq_add_of_lt hfuel
    rw [h, loop_stop rfl]
    rfl
  | cons a l =>
    have hhead : m.head = some a := h.1
    have hturn : ∀ vs b, vs.length < l.length + 1 → vs = [] ∨ b ≠ a →
        m.forEachTurn ⟨some b, vs.length, vs⟩ = some ⟨m.next b, (vs ++ [b]).length, vs ++ [b]⟩ := by
      intro vs b _ hfirst
      show (if vs.length = 0 ∨ m.head ≠ some b then _ else _) = _
      rw [if_pos (hfirst.imp List.length_eq_zero_iff.mpr fun hne he => hne (Option.some.inj (he.symm.trans hhead))),
        List.length_append]
      rfl
    have hstop : ∀ vs, vs ≠ [] → vs.length ≤ l.length + 1 → m.forEachTurn ⟨some a, vs.length, vs⟩ = none := by
      intro vs hvs _
      show (if vs.length = 0 ∨ m.head ≠ some a then _ else _) = _
      rw [if_neg (not_or.mpr ⟨fun he => hvs (List.length_eq_zero_iff.mp he), fun hne => hne hhead⟩)]
    have hsteps := Cycle.chain_coe_cons _ a l |>.mp ((ring_iff.mp h).2.imp fun _ _ hlinked => hlinked.1)
    rw [hhead]
    have hloop := loop_along (fun vs p => ForEach.mk p vs.length vs) hturn hstop [] hsteps (.inl rfl)
      (List.nodup_cons.mp hnodup).1 (Nat.zero_add _).le hfuel
    exact (congrArg (Option.map ForEach.visited) hloop)

/-! ## Unlinking -/

section

variable [DecidableEq α]

/-- The list without an item between two others. -/
def without (m : CircularList α) (a before behind : α) : CircularList α where
  head := if m.head = some a then some behind else m.head
  next := Function.update (Function.update m.next before (some behind)) a none
  prev := Function.update (Function.update m.prev behind (some before)) a none

theorem delete_eq {c : α} (hleft : m.Linked c a) (hright : m.Linked a b) (hca : c ≠ a) (hba : b ≠ a) :
    m.delete a = some (m.without a c b) := by
  unfold delete
  rw [if_neg fun h => hba (Option.some.inj (hright.1.symm.trans h.1)), hleft.2]
  simp only [Option.bind_eq_bind, Option.bind_some, Function.update_of_ne hca.symm, hleft.2, hright.1]
  unfold without clear
  split_ifs <;> rfl

/-- What unlinking does to the links of a cycle, and to the head. -/
theorem delete_chain (h : (↑(a :: l) : Cycle α).Chain m.Linked) (hnodup : (a :: l).Nodup)
    (hhead : l = [] → m.head = some a) :
    ∃ m', m.delete a = some m' ∧ (l : Cycle α).Chain m'.Linked ∧
      m'.head = (if m.head = some a then l.head? else m.head) ∧ m'.next a = none ∧ m'.prev a = none := by
  obtain ⟨hchain, hclose⟩ := chain_cycle.mp h
  cases l with
  | nil =>
    have hself : m.next a = some a ∧ m.prev a = some a := hclose
    unfold delete
    rw [if_pos hself]
    exact ⟨_, rfl, trivial, (if_pos (hhead rfl)).symm, Function.update_self .., Function.update_self ..⟩
  | cons b l =>
    obtain ⟨hab, hbl⟩ := List.isChain_cons_cons.mp hchain
    obtain ⟨hnot, hnodup'⟩ := List.nodup_cons.mp hnodup
    have hne : ∀ y ∈ b :: l, y ≠ a := fun y hy he => hnot (he ▸ hy)
    have hlast := List.getLast_mem (List.cons_ne_nil b l)
    rw [List.getLast_cons (List.cons_ne_nil b l)] at hclose
    refine ⟨_, delete_eq hclose hab (hne _ hlast) (hne b List.mem_cons_self), chain_cycle.mpr ⟨?_, ?_, ?_⟩, rfl,
      Function.update_self .., Function.update_self ..⟩
    · refine chain_relink hnodup' (fun y hy hyl => ?_) (fun y hy => ?_) hbl
      · exact (Function.update_of_ne (hne y hy) ..).trans (Function.update_of_ne hyl ..)
      · have hyb : y ≠ b := fun he => (List.nodup_cons.mp hnodup').1 (he ▸ hy)
        exact (Function.update_of_ne (hne y (List.mem_cons_of_mem _ hy)) ..).trans (Function.update_of_ne hyb ..)
    · exact (Function.update_of_ne (hne _ hlast) ..).trans (Function.update_self ..)
    · exact (Function.update_of_ne (hne b List.mem_cons_self) ..).trans (Function.update_self ..)

/-- The head comes off, with its links cleared. -/
theorem Ring.popHead (h : m.Ring (a :: l)) (hnodup : (a :: l).Nodup) :
    ∃ m', m.popHead = some (a, m') ∧ m'.next a = none ∧ m'.prev a = none := by
  obtain ⟨hhead, hchain⟩ := ring_iff.mp h
  obtain ⟨m', hm', -, -, hlinks⟩ := delete_chain hchain hnodup fun _ => hhead
  refine ⟨m', ?_, hlinks⟩
  unfold CircularList.popHead
  rw [hhead, List.head?_cons, Option.bind_eq_bind, Option.bind_some, hm']
  rfl

/-- An item with cleared links cannot be unlinked. -/
theorem delete_cleared (hprev : m.prev x = none) : m.delete x = none := by
  unfold delete
  rw [hprev, if_neg fun h => by cases h.2]
  rfl

end

end CircularList

end Desiros.Library
