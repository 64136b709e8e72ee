import Desiros.Lists.Links
import Mathlib.Data.UInt
import Mathlib.Order.Interval.Finset.Nat

/-!
# Lists as sequences (`include/list.h`)

On a well-formed list the macros do to the sequence of its items what their names say, and only to the links of these
items (`Becomes`). The loops walk along one of the links: `list_foreach` stops when it is back where it began, which its
counter tells from the beginning; the counter has 32 bits, and so have the addresses of the items.
`list_macros_sequences` is the whole of it.
-/

namespace Desiros.Lists

open Desiros.Library CircularList

variable {F α σ : Type} {prev next : F} {xs l l' : List α} {a b x : α}

/-! ## Loops over the items -/

/-- The variables of a loop, and the state of its body. -/
structure Foreach (σ α : Type) where
  iterator : Option α
  nbElements : UInt32
  state : σ

/-- A turn of a loop that begins and ends at `first`. -/
def foreachTurn [DecidableEq α] (first : Option α) (step : α → Option α) (body : σ → α → σ) (t : Foreach σ α) :
    Option (Foreach σ α) :=
  match t.iterator with
  | none => none
  | some item =>
    if t.nbElements = 0 ∨ some item ≠ first then
      some {
        iterator := step item
        nbElements := t.nbElements + 1
        state := body t.state item }
    else none

def listForeachForwardNamed [DecidableEq α] (next : F) (body : σ → α → σ) (fuel : Nat) (init : σ) (s : Links F α) :
    Option (Foreach σ α) :=
  loop (foreachTurn s.list (s.link next) body) fuel ⟨s.list, 0, init⟩

def listForeachBackwardNamed [DecidableEq α] (prev : F) (body : σ → α → σ) (fuel : Nat) (init : σ) (s : Links F α) :
    Option (Foreach σ α) :=
  loop (foreachTurn (listGetTailNamed prev s) (s.link prev) body) fuel ⟨listGetTailNamed prev s, 0, init⟩

/-- `list_foreach_named` is `list_foreach_forward_named`. -/
def listForeachNamed [DecidableEq α] (next : F) (body : σ → α → σ) (fuel : Nat) (init : σ) (s : Links F α) :
    Option (Foreach σ α) :=
  listForeachForwardNamed next body fuel init s

def listForeachEarlyBreak [DecidableEq α] (s : Links F α) (t : Foreach σ α) : Bool :=
  s.list ≠ none ∧ (s.list ≠ t.iterator ∨ s.list = t.iterator ∧ t.nbElements = 0)

/-- What the loop leaves of the list, and the state of its body. -/
def listCollapseNamed [DecidableEq F] [DecidableEq α] (prev next : F) (body : σ → α → σ) :
    Nat → σ → Links F α → Option (Links F α × σ)
  | 0, _, _ => none
  | fuel + 1, state, s =>
    match s.list with
    | none => some (s, state)
    | some iterator => do
      let s ← listDeleteNamed prev next iterator s
      listCollapseNamed prev next body fuel (body state iterator) s

section

variable [DecidableEq α] {first : Option α} {step : α → Option α} (body : σ → α → σ) {fuel : Nat} (init : σ)

theorem foreachTurn_item {nb : UInt32} (hfirst : first = some a) (hnb : nb = 0 ∨ b ≠ a) :
    foreachTurn first step body ⟨some b, nb, init⟩ = some ⟨step b, nb + 1, body init b⟩ := by
  unfold foreachTurn
  exact if_pos (hnb.imp_right fun hne he => hne (Option.some.inj (he.trans hfirst)))

/-- **A loop along the links** visits the items of their cycle in order, each once. -/
theorem foreach_visits (hfirst : first = xs.head?) (hchain : (xs : Cycle α).Chain fun y z => step y = some z)
    (hnodup : xs.Nodup) (hlength : xs.length < 4294967296) (hfuel : xs.length < fuel) :
    ∃ t, loop (foreachTurn first step body) fuel ⟨first, 0, init⟩ = some t ∧ t.iterator = first ∧
      t.nbElements.toNat = xs.length ∧ t.state = xs.foldl body init := by
  subst hfirst
  cases xs with
  | nil =>
    obtain ⟨n, rfl⟩ := Nat.exists_eq_add_of_lt hfuel
    exact ⟨_, loop_stop rfl, rfl, rfl, rfl⟩
  | cons a l =>
    have hcount : ∀ vs : List α, vs.length ≤ (a :: l).length → (UInt32.ofNat vs.length).toNat = vs.length := by
      intro vs hvs
      rw [UInt32.toNat_ofNat']
      omega
    have hturn : ∀ vs b, vs.length < (a :: l).length → vs = [] ∨ b ≠ a →
        foreachTurn (some a) step body ⟨some b, UInt32.ofNat vs.length, vs.foldl body init⟩ =
          some ⟨step b, UInt32.ofNat (vs ++ [b]).length, (vs ++ [b]).foldl body init⟩ := by
      intro vs b _ hfirst
      rw [foreachTurn_item body _ rfl (hfirst.imp_left fun hnil => by rw [hnil]; rfl), List.foldl_concat, List.length_append,
        UInt32.ofNat_add]
      rfl
    have hstop : ∀ vs, vs ≠ [] → vs.length ≤ (a :: l).length →
        foreachTurn (some a) step body ⟨some a, UInt32.ofNat vs.length, vs.foldl body init⟩ = none := by
      intro vs hvs hlength'
      have hnonzero : UInt32.ofNat vs.length ≠ 0 := by
        intro hzero
        have hcount' := hcount vs hlength'
        rw [hzero, show (0 : UInt32).toNat = 0 from rfl] at hcount'
        exact hvs (List.length_eq_zero_iff.mp hcount'.symm)
      unfold foreachTurn
      exact if_neg (not_or.mpr ⟨hnonzero, fun hne => hne rfl⟩)
    have hloop := loop_along (fun vs p => Foreach.mk p (UInt32.ofNat vs.length) (vs.foldl body init)) hturn hstop
      [] (Cycle.chain_coe_cons _ a l |>.mp hchain) (.inl rfl) (List.nodup_cons.mp hnodup).1
      (Nat.zero_add _).le hfuel
    exact ⟨_, hloop, rfl, hcount _ le_rfl, rfl⟩

theorem foreachForward_visits {s : Links F α} (h : WellFormed prev next s xs) (hlength : xs.length < 4294967296)
    (hfuel : xs.length < fuel) :
    ∃ t, listForeachForwardNamed next body fuel init s = some t ∧ t.iterator = s.list ∧
      t.nbElements.toNat = xs.length ∧ t.state = xs.foldl body init := by
  obtain ⟨hhead, hchain⟩ := ring_iff.mp h.ring
  exact foreach_visits body init hhead (hchain.imp fun _ _ hlinked => hlinked.1) h.nodup hlength hfuel

/-- Backwards, from the tail on. -/
theorem foreachBackward_visits {s : Links F α} (h : WellFormed prev next s xs) (hlength : xs.length < 4294967296)
    (hfuel : xs.length < fuel) :
    ∃ t, listForeachBackwardNamed prev body fuel init s = some t ∧ t.iterator = listGetTailNamed prev s ∧
      t.nbElements.toNat = xs.length ∧ t.state = xs.reverse.foldl body init := by
  have htail : listGetTailNamed prev s = xs.reverse.head? := h.getTail_eq.trans (List.head?_reverse).symm
  have hchain := chain_reverse (ring_iff.mp h.ring).2
  rw [← List.length_reverse] at hlength hfuel ⊢
  exact foreach_visits body init htail (hchain.imp fun _ _ hlinked => hlinked.2) (List.nodup_reverse.mpr h.nodup) hlength hfuel

/-- A loop that was not left early does not look as if it were. -/
theorem foreach_not_early {s : Links F α} (h : WellFormed prev next s xs) {t : Foreach σ α}
    (hiterator : t.iterator = s.list) (hnb : t.nbElements.toNat = xs.length) : listForeachEarlyBreak s t = false := by
  unfold listForeachEarlyBreak
  rw [decide_eq_false_iff_not, hiterator]
  rintro ⟨hlist, hne | ⟨-, hzero⟩⟩
  · exact hne rfl
  · rw [hzero, show (0 : UInt32).toNat = 0 from rfl] at hnb
    have hnone := (ring_iff.mp h.ring).1
    rw [List.length_eq_zero_iff.mp hnb.symm] at hnone
    exact hlist hnone

end

/-! ## The macros on sequences -/

/-- The macro ends with the list of these items; at most the links of `items` have changed. -/
def Becomes (prev next : F) (items : List α) (s : Links F α) (r : Option (Links F α)) (ys : List α) : Prop :=
  ∃ s', r = some s' ∧ WellFormed prev next s' ys ∧ Frame prev next items s s'

theorem nodup_insert (h : (l ++ l').Nodup) (hx : x ∉ l ++ l') : (l ++ x :: l').Nodup :=
  List.nodup_middle.mpr (List.nodup_cons.mpr ⟨hx, h⟩)

theorem mem_touched (ha : a ∈ xs) (hb : b ∈ xs) : ∀ y ∈ [b, a, x], y ∈ x :: xs := by
  intro y hy
  simp only [List.mem_cons, List.not_mem_nil, or_false] at hy
  rcases hy with rfl | rfl | rfl
  · exact List.mem_cons_of_mem _ hb
  · exact List.mem_cons_of_mem _ ha
  · exact List.mem_cons_self

theorem WellFormed.setList {s : Links F α} {p : Option α} (h : WellFormed prev next s xs) (hp : p = s.list) :
    WellFormed prev next (s.setList p) xs := by
  subst hp
  exact h

section

variable [DecidableEq F] [DecidableEq α] {s : Links F α} (hne : prev ≠ next)

include hne

theorem WellFormed.insertBefore (h : WellFormed prev next s (l ++ a :: l')) (hx : x ∉ l ++ a :: l') :
    Becomes prev next (x :: (l ++ a :: l')) s (listInsertBeforeNamed prev next a x s) (l ++ x :: a :: l') := by
  obtain ⟨before, hbefore, -, -, hleft, -⟩ := neighbours h.ring.chain (nodup_rotate.mpr h.nodup)
  obtain ⟨s', hs', hview, hframe⟩ := insertAtleft_eq (x := x) hne hleft.2
  have hlist : s'.list = s.list := congrArg head hview
  have hring := h.ring.insertBefore h.nodup hx
  unfold CircularList.insertBefore at hring
  rw [← hview] at hring
  have hframe' := hframe.mono (mem_touched (x := x) List.mem_append_cons_self (mem_rotate.mp hbefore))
  unfold listInsertBeforeNamed
  rw [hs']
  refine ⟨_, rfl, ⟨nodup_insert h.nodup hx, ?_⟩, ?_⟩
  · split_ifs with hhead
    · rwa [if_pos (show (view prev next s).head = some a from hlist.symm.trans hhead)] at hring
    · rwa [if_neg (show ¬ (view prev next s).head = some a from fun he => hhead (hlist.trans he)),
        show (view prev next s).head = (view prev next s').head from hlist.symm] at hring
  · split_ifs
    · exact hframe'.setList
    · exact hframe'

theorem WellFormed.insertAfter (h : WellFormed prev next s (l ++ a :: l')) (hx : x ∉ l ++ a :: l') :
    Becomes prev next (x :: (l ++ a :: l')) s (listInsertAfterNamed prev next a x s) (l ++ a :: x :: l') := by
  obtain ⟨-, -, behind, hbehind, -, hright, -⟩ := neighbours h.ring.chain (nodup_rotate.mpr h.nodup)
  obtain ⟨s', hs', hview, hframe⟩ := insertAfter_eq (x := x) hne hright.1
  refine ⟨s', hs', ⟨?_, ?_⟩, hframe.mono (mem_touched List.mem_append_cons_self (mem_rotate.mp hbehind))⟩
  · rw [List.append_cons] at h hx ⊢
    exact nodup_insert h.nodup hx
  · rw [hview]
    exact h.ring.insertAfter h.nodup hx

theorem becomes_singleton (h : WellFormed prev next s []) (x : α) :
    Becomes prev next [x] s (some (listSingletonNamed prev next x s)) [x] := by
  refine ⟨_, rfl, ⟨List.nodup_singleton x, ?_⟩, frame_singleton s x⟩
  rw [view_singleton hne]
  have hadded := h.ring.addTail h.nodup (List.not_mem_nil (a := x))
  have hnone : (view prev next s).head = none := h.ring
  rwa [CircularList.addTail, hnone] at hadded

theorem WellFormed.addHead (h : WellFormed prev next s xs) (hx : x ∉ xs) :
    Becomes prev next (x :: xs) s (listAddHeadNamed prev next x s) (x :: xs) := by
  unfold listAddHeadNamed
  rw [h.list_eq]
  cases xs with
  | nil =>
    obtain ⟨s', hs', hlist, hframe⟩ := becomes_singleton hne h x
    cases hs'
    exact ⟨_, rfl, hlist.setList rfl, hframe.setList⟩
  | cons a l =>
    obtain ⟨s', hs', hlist, hframe⟩ := WellFormed.insertBefore (l := []) hne h hx
    dsimp only [List.head?_cons]
    rw [hs']
    exact ⟨_, rfl, hlist.setList hlist.list_eq.symm, hframe.setList⟩

theorem WellFormed.addTail (h : WellFormed prev next s xs) (hx : x ∉ xs) :
    Becomes prev next (x :: xs) s (listAddTailNamed prev next x s) (xs ++ [x]) := by
  unfold listAddTailNamed
  rw [h.list_eq]
  cases xs with
  | nil => exact becomes_singleton hne h x
  | cons a l =>
    obtain ⟨before, hbefore, -, -, hleft, -⟩ := neighbours (ring_iff.mp h.ring).2 h.nodup
    obtain ⟨s', hs', hview, hframe⟩ := insertAtleft_eq (x := x) hne hleft.2
    have hadded := h.ring.addTail h.nodup hx
    rw [CircularList.addTail, h.ring.1] at hadded
    refine ⟨s', hs', ⟨?_, ?_⟩, hframe.mono (mem_touched List.mem_cons_self hbefore)⟩
    · exact nodup_insert (by rw [List.append_nil]; exact h.nodup) (by rw [List.append_nil]; exact hx)
    · rw [hview]
      exact hadded

theorem WellFormed.delete (h : WellFormed prev next s (l ++ a :: l')) :
    ∃ s', listDeleteNamed prev next a s = some s' ∧ WellFormed prev next s' (l ++ l') ∧
      (s'.link prev a = none ∧ s'.link next a = none) ∧ Frame prev next (l ++ a :: l') s s' := by
  obtain ⟨before, hbefore, behind, hbehind, hleft, hright, halone⟩ :=
    neighbours h.ring.chain (nodup_rotate.mpr h.nodup)
  obtain ⟨s', hs', hview, hframe⟩ := delete_eq hne hleft.2 hright.1 halone
  obtain ⟨m', hm', hring, hnext, hprev⟩ := h.ring.delete h.nodup
  obtain rfl : view prev next s' = m' := Option.some.inj (hview.symm.trans hm')
  refine ⟨s', hs', ⟨?_, hring⟩, ⟨hprev, hnext⟩, hframe.mono fun y hy => ?_⟩
  · exact (List.nodup_middle.mp h.nodup).of_cons
  · simp only [List.mem_cons, List.not_mem_nil, or_false] at hy
    rcases hy with rfl | rfl | rfl
    · exact mem_rotate.mp hbefore
    · exact List.mem_append_cons_self
    · exact mem_rotate.mp hbehind

/-- **The loop that unlinks** visits the items in order and leaves none of them linked. -/
theorem WellFormed.collapse (body : σ → α → σ) (init : σ) (h : WellFormed prev next s xs) :
    ∃ s', (∀ fuel > xs.length, listCollapseNamed prev next body fuel init s = some (s', xs.foldl body init)) ∧
      s'.list = none ∧ (∀ a ∈ xs, s'.link prev a = none ∧ s'.link next a = none) ∧ Frame prev next xs s s' := by
  induction xs generalizing s init with
  | nil =>
    have hnone : s.list = none := h.list_eq
    refine ⟨s, fun fuel hfuel => ?_, hnone, fun a ha => absurd ha List.not_mem_nil, Frame.refl⟩
    obtain ⟨n, rfl⟩ := Nat.exists_eq_add_of_lt hfuel
    unfold listCollapseNamed
    rw [hnone]
    rfl
  | cons a l ih =>
    obtain ⟨s₁, hs₁, hrest, hnull, hframe₁⟩ := WellFormed.delete (l := []) hne h
    obtain ⟨s', hrun, hlist, hnulls, hframe⟩ := ih (body init a) hrest
    have ha : a ∉ l := (List.nodup_cons.mp h.nodup).1
    refine ⟨s', fun fuel hfuel => ?_, hlist, fun b hb => ?_, hframe₁.trans (hframe.mono fun b => List.mem_cons_of_mem a)⟩
    · obtain ⟨n, rfl⟩ := Nat.exists_eq_add_of_lt hfuel
      have hhead : s.list = some a := h.list_eq
      unfold listCollapseNamed
      rw [hhead]
      dsimp only
      rw [hs₁]
      exact hrun _ (by rw [List.length_cons]; omega)
    · cases List.mem_cons.mp hb with
      | inr hin => exact hnulls b hin
      | inl he =>
        subst he
        rw [hframe prev b (.inr ha), hframe next b (.inr ha)]
        exact hnull

end

/-! ## Items at addresses -/

/-- An address that is not null. -/
abbrev Item := { a : UInt32 // a ≠ 0 }

/-- A list of distinct items is shorter than the counter of a loop can count. -/
theorem items_length {xs : List Item} (h : xs.Nodup) : xs.length < 4294967296 := by
  have hinj : Function.Injective fun a : Item => a.val.toNat := fun a b hab => Subtype.ext (UInt32.toNat_inj.mp hab)
  have hsub : (xs.map fun a : Item => a.val.toNat).toFinset ⊆ Finset.Ico 1 4294967296 := by
    intro v hv
    obtain ⟨a, -, rfl⟩ := List.mem_map.mp (List.mem_toFinset.mp hv)
    have hpos : a.val.toNat ≠ 0 := fun hzero => a.property (UInt32.toNat_inj.mp hzero)
    exact Finset.mem_Ico.mpr ⟨Nat.pos_of_ne_zero hpos, a.val.toNat_lt⟩
  have hcard := Finset.card_le_card hsub
  rw [List.toFinset_card_of_nodup (h.map hinj), List.length_map, Nat.card_Ico] at hcard
  omega

/-- What the macros do to a list of these items. -/
structure SequenceLaws [DecidableEq F] (prev next : F) (s : Links F Item) (xs : List Item) : Prop where
  addHead : ∀ x ∉ xs, Becomes prev next (x :: xs) s (listAddHeadNamed prev next x s) (x :: xs)
  addTail : ∀ x ∉ xs, Becomes prev next (x :: xs) s (listAddTailNamed prev next x s) (xs ++ [x])
  insertBefore : ∀ l a l', xs = l ++ a :: l' → ∀ x ∉ xs,
    Becomes prev next (x :: xs) s (listInsertBeforeNamed prev next a x s) (l ++ x :: a :: l')
  insertAfter : ∀ l a l', xs = l ++ a :: l' → ∀ x ∉ xs,
    Becomes prev next (x :: xs) s (listInsertAfterNamed prev next a x s) (l ++ a :: x :: l')
  delete : ∀ l a l', xs = l ++ a :: l' → ∃ s', listDeleteNamed prev next a s = some s' ∧
    WellFormed prev next s' (l ++ l') ∧ (s'.link prev a = none ∧ s'.link next a = none) ∧ Frame prev next xs s s'
  popHead : ∀ a l, xs = a :: l → ∃ s', listPopHeadNamed prev next s = some (a, s') ∧
    WellFormed prev next s' l ∧ (s'.link prev a = none ∧ s'.link next a = none) ∧ Frame prev next xs s s'
  foreach : ∀ {σ : Type} (body : σ → Item → σ) (init : σ), ∀ fuel > xs.length,
    ∃ t, listForeachNamed next body fuel init s = some t ∧ t.state = xs.foldl body init
  collapse : ∀ {σ : Type} (body : σ → Item → σ) (init : σ),
    ∃ s', (∀ fuel > xs.length, listCollapseNamed prev next body fuel init s = some (s', xs.foldl body init)) ∧
      s'.list = none ∧ (∀ a ∈ xs, s'.link prev a = none ∧ s'.link next a = none) ∧ Frame prev next xs s s'

/-- **The macros implement sequences.** -/
theorem list_macros_sequences [DecidableEq F] {s : Links F Item} {xs : List Item} (hne : prev ≠ next)
    (h : WellFormed prev next s xs) : SequenceLaws prev next s xs where
  addHead _ hx := h.addHead hne hx
  addTail _ hx := h.addTail hne hx
  insertBefore := by
    rintro l a l' rfl x hx
    exact h.insertBefore hne hx
  insertAfter := by
    rintro l a l' rfl x hx
    exact h.insertAfter hne hx
  delete := by
    rintro l a l' rfl
    exact h.delete hne
  popHead := by
    rintro a l rfl
    obtain ⟨s', hs', hrest⟩ := WellFormed.delete (l := []) hne h
    refine ⟨s', ?_, hrest⟩
    unfold listPopHeadNamed
    rw [h.list_eq]
    dsimp only [List.head?_cons]
    rw [Option.bind_eq_bind, Option.bind_some, hs']
    rfl
  foreach body init fuel hfuel := by
    obtain ⟨t, ht, -, -, hstate⟩ := foreachForward_visits body init h (items_length h.nodup) hfuel
    exact ⟨t, ht, hstate⟩
  collapse body init := h.collapse hne body init

theorem item_four : (4 : UInt32) ≠ 0 := by
  decide

theorem item_eight : (8 : UInt32) ≠ 0 := by
  decide

/-- Two items that are each other's neighbours. -/
def twoItems : Links Bool Item where
  link _ a := if a = ⟨4, item_four⟩ then some ⟨8, item_eight⟩ else some ⟨4, item_four⟩
  list := some ⟨4, item_four⟩

/-- The head of two is unlinked. -/
theorem list_delete_first : ∃ s', listDeleteNamed false true ⟨4, item_four⟩ twoItems = some s' ∧
    s'.list = some ⟨8, item_eight⟩ ∧ s'.link true ⟨4, item_four⟩ = none := by
  have h : WellFormed false true twoItems [⟨4, item_four⟩, ⟨8, item_eight⟩] := by
    refine ⟨by decide, rfl, ?_, ?_⟩
    · exact List.isChain_pair.mpr ⟨by decide, by decide⟩
    · exact ⟨by decide, by decide⟩
  obtain ⟨s', hs', hrest, hnull, -⟩ := (list_macros_sequences Bool.false_ne_true h).delete [] _ _ rfl
  exact ⟨s', hs', hrest.list_eq, hnull.2⟩

end Desiros.Lists
