import Desiros.Library.RingSplice

/-!
# Circular lists in memory (`include/list.h`)

The macros follow and write the links `prev` and `next` of the items, whose names are parameters: an item may be in
several lists by several pairs of links. The macros without `_named` are those for links called `prev` and `next`. A
null pointer that is followed has no result. `view` is the list of one pair of links; on it the macros do what the
operations of `CircularList` do, and `Frame` says what they leave alone.
-/

namespace Desiros.Lists

open Desiros.Library

/-- The links of the items, by their names, and the list variable. -/
structure Links (F α : Type) where
  link : F → α → Option α
  list : Option α

variable {F α : Type}

namespace Links

variable [DecidableEq F] [DecidableEq α]

/-- `(a)->f = p` -/
def set (s : Links F α) (f : F) (a : α) (p : Option α) : Links F α :=
  { s with link := Function.update s.link f (Function.update (s.link f) a p) }

/-- `(list) = p` -/
def setList (s : Links F α) (p : Option α) : Links F α := { s with list := p }

end Links

/-! ## The macros -/

section Macros

variable [DecidableEq F] [DecidableEq α] (prev next : F)

def listInitNamed (s : Links F α) : Links F α := s.setList none

def listSingletonNamed (item : α) (s : Links F α) : Links F α :=
  let s := s.set prev item (some item)
  let s := s.set next item (some item)
  s.setList (some item)

def listIsEmptyNamed (s : Links F α) : Bool := s.list = none

def listGetHeadNamed (s : Links F α) : Option α := s.list

def listGetTailNamed (s : Links F α) : Option α :=
  match s.list with
  | some head => s.link prev head
  | none => none

/-- `__list_insert_atleft_named` -/
def listInsertAtleftNamed (beforeThis item : α) (s : Links F α) : Option (Links F α) := do
  let left ← s.link prev beforeThis
  let s := s.set next left (some item)
  let s := s.set prev item (s.link prev beforeThis)
  let s := s.set prev beforeThis (some item)
  some (s.set next item (some beforeThis))

def listInsertBeforeNamed (beforeThis item : α) (s : Links F α) : Option (Links F α) := do
  let s ← listInsertAtleftNamed prev next beforeThis item s
  some (if s.list = some beforeThis then s.setList (some item) else s)

def listInsertAfterNamed (afterThis item : α) (s : Links F α) : Option (Links F α) := do
  let right ← s.link next afterThis
  let s := s.set prev right (some item)
  let s := s.set next item (s.link next afterThis)
  let s := s.set next afterThis (some item)
  some (s.set prev item (some afterThis))

def listAddHeadNamed (item : α) (s : Links F α) : Option (Links F α) :=
  match s.list with
  | some head => do
    let s ← listInsertBeforeNamed prev next head item s
    some (s.setList (some item))
  | none => some ((listSingletonNamed prev next item s).setList (some item))

def listAddTailNamed (item : α) (s : Links F α) : Option (Links F α) :=
  match s.list with
  | some head => listInsertAtleftNamed prev next head item s
  | none => some (listSingletonNamed prev next item s)

def listDeleteNamed (item : α) (s : Links F α) : Option (Links F α) :=
  if s.link next item = some item ∧ s.link prev item = some item then
    let s := s.setList none
    let s := s.set prev item none
    some (s.set next item none)
  else do
    let before ← s.link prev item
    let s := s.set next before (s.link next item)
    let behind ← s.link next item
    let s := s.set prev behind (s.link prev item)
    let s := if some item = s.list then s.setList (s.link next item) else s
    let s := s.set next item none
    some (s.set prev item none)

/-- The item that was the head. -/
def listPopHeadNamed (s : Links F α) : Option (α × Links F α) := do
  let retElt ← s.list
  let s ← listDeleteNamed prev next retElt s
  some (retElt, s)

end Macros

/-! ## What they leave alone -/

variable {prev next : F} {s s' s'' : Links F α} {items xs : List α} {a b x : α} {p : Option α}

/-- Only these links of these items may have changed. -/
def Frame (prev next : F) (items : List α) (s s' : Links F α) : Prop :=
  ∀ f a, (f ≠ prev ∧ f ≠ next) ∨ a ∉ items → s'.link f a = s.link f a

theorem Frame.refl : Frame prev next items s s := fun _ _ _ => rfl

theorem Frame.trans (h : Frame prev next items s s') (h' : Frame prev next items s' s'') : Frame prev next items s s'' :=
  fun f a ha => (h' f a ha).trans (h f a ha)

theorem Frame.mono {items' : List α} (h : Frame prev next items s s') (hsub : ∀ a ∈ items, a ∈ items') :
    Frame prev next items' s s' :=
  fun f a ha => h f a (ha.imp_right fun hnot hin => hnot (hsub a hin))

theorem Frame.setList (h : Frame prev next items s s') : Frame prev next items s (s'.setList p) := h

section

variable [DecidableEq F] [DecidableEq α]

theorem Frame.set {f : F} (h : Frame prev next items s s') (hf : f = prev ∨ f = next) (ha : a ∈ items) :
    Frame prev next items s (s'.set f a p) := by
  intro g b hb
  refine Eq.trans ?_ (h g b hb)
  unfold Links.set
  dsimp only
  by_cases hg : g = f
  · have hba : b ≠ a := by
      rintro rfl
      exact hb.elim (fun hne => hf.elim (fun he => hne.1 (hg.trans he)) fun he => hne.2 (hg.trans he)) (· ha)
    rw [hg, Function.update_self, Function.update_of_ne hba]
  · rw [Function.update_of_ne hg]

end

/-! ## The list of a pair of links -/

/-- The links seen as a list of its own. -/
def view (prev next : F) (s : Links F α) : CircularList α := ⟨s.list, s.link next, s.link prev⟩

/-- The list variable heads the list of these items. -/
structure WellFormed (prev next : F) (s : Links F α) (xs : List α) : Prop where
  nodup : xs.Nodup
  ring : (view prev next s).Ring xs

theorem listInit_wellFormed (s : Links F α) : WellFormed prev next (listInitNamed s) [] := ⟨List.nodup_nil, rfl⟩

theorem WellFormed.list_eq (h : WellFormed prev next s xs) : s.list = xs.head? :=
  (CircularList.ring_iff.mp h.ring).1

theorem WellFormed.isEmpty_iff [DecidableEq α] (h : WellFormed prev next s xs) : listIsEmptyNamed s = true ↔ xs = [] := by
  unfold listIsEmptyNamed
  rw [decide_eq_true_iff, h.list_eq, List.head?_eq_none_iff]

theorem WellFormed.getTail_eq (h : WellFormed prev next s xs) : listGetTailNamed prev s = xs.getLast? := by
  unfold listGetTailNamed
  cases xs with
  | nil =>
    rw [h.list_eq]
    rfl
  | cons a l =>
    rw [h.list_eq, List.getLast?_eq_getLast_of_ne_nil (List.cons_ne_nil a l)]
    exact h.ring.2.2.2

/-- A list by other links, or of other items, is still there. -/
theorem Frame.wellFormed {p n : F} {ys : List α} {head : Option α} (h : Frame prev next items s s')
    (hys : WellFormed p n (s.setList head) ys)
    (hother : ∀ a ∈ ys, (p ≠ prev ∧ p ≠ next ∧ n ≠ prev ∧ n ≠ next) ∨ a ∉ items) :
    WellFormed p n (s'.setList head) ys where
  nodup := hys.nodup
  ring := hys.ring.congr rfl
    (fun a ha => h n a ((hother a ha).imp_left fun ⟨_, _, hn⟩ => hn))
    fun a ha => h p a ((hother a ha).imp_left fun ⟨hp, hp', _⟩ => ⟨hp, hp'⟩)

section

variable [DecidableEq F] [DecidableEq α]

theorem set_self (s : Links F α) (f : F) (a : α) (p : Option α) :
    (s.set f a p).link f = Function.update (s.link f) a p :=
  Function.update_self ..

theorem set_of_ne (s : Links F α) {f g : F} (h : g ≠ f) (a : α) (p : Option α) : (s.set f a p).link g = s.link g :=
  Function.update_of_ne h ..

variable (hne : prev ≠ next)

include hne

theorem view_setNext (s : Links F α) (a : α) (p : Option α) :
    view prev next (s.set next a p) = ⟨s.list, Function.update (s.link next) a p, s.link prev⟩ := by
  unfold view
  rw [set_self, set_of_ne _ hne]
  rfl

theorem view_setPrev (s : Links F α) (a : α) (p : Option α) :
    view prev next (s.set prev a p) = ⟨s.list, s.link next, Function.update (s.link prev) a p⟩ := by
  unfold view
  rw [set_self, set_of_ne _ hne.symm]
  rfl

theorem view_singleton (s : Links F α) (x : α) :
    view prev next (listSingletonNamed prev next x s) = (view prev next s).singleton x := by
  simp only [view, listSingletonNamed, Links.setList, set_self, set_of_ne _ hne, set_of_ne _ hne.symm]
  rfl

omit hne in
theorem frame_singleton (s : Links F α) (x : α) : Frame prev next [x] s (listSingletonNamed prev next x s) :=
  ((Frame.refl.set (.inl rfl) List.mem_cons_self).set (.inr rfl) List.mem_cons_self).setList

/-- What `__list_insert_atleft_named` does. -/
theorem insertAtleft_eq (hprev : s.link prev a = some b) :
    ∃ s', listInsertAtleftNamed prev next a x s = some s' ∧ view prev next s' = (view prev next s).insertAtLeft a x ∧
      Frame prev next [b, a, x] s s' := by
  unfold listInsertAtleftNamed
  rw [hprev]
  refine ⟨_, rfl, ?_, ?_⟩
  · simp only [view, CircularList.insertAtLeft, set_self, set_of_ne _ hne, set_of_ne _ hne.symm, hprev]
    rfl
  · exact (((Frame.refl.set (.inr rfl) (by simp)).set (.inl rfl) (by simp)).set (.inl rfl) (by simp)).set (.inr rfl)
      (by simp)

/-- What `list_insert_after_named` does. -/
theorem insertAfter_eq (hnext : s.link next a = some b) :
    ∃ s', listInsertAfterNamed prev next a x s = some s' ∧ view prev next s' = (view prev next s).insertAtRight a x ∧
      Frame prev next [b, a, x] s s' := by
  unfold listInsertAfterNamed
  rw [hnext]
  refine ⟨_, rfl, ?_, ?_⟩
  · simp only [view, CircularList.insertAtRight, set_self, set_of_ne _ hne, set_of_ne _ hne.symm, hnext]
    rfl
  · exact (((Frame.refl.set (.inl rfl) (by simp)).set (.inr rfl) (by simp)).set (.inr rfl) (by simp)).set (.inl rfl)
      (by simp)

/-- What `list_delete_named` does. -/
theorem delete_eq (hprev : s.link prev a = some b) {c : α} (hnext : s.link next a = some c) (halone : b = a → c = a) :
    ∃ s', listDeleteNamed prev next a s = some s' ∧ (view prev next s).delete a = some (view prev next s') ∧
      Frame prev next [b, a, c] s s' := by
  have hprev' : (view prev next s).prev a = some b := hprev
  have hnext' : (view prev next s).next a = some c := hnext
  unfold listDeleteNamed CircularList.delete
  by_cases hb : b = a
  · rw [hb] at hprev hprev'
    rw [halone hb] at hnext hnext'
    rw [if_pos ⟨hnext, hprev⟩, if_pos ⟨hnext', hprev'⟩]
    refine ⟨_, rfl, ?_, ?_⟩
    · rw [view_setNext hne, set_self, set_of_ne _ hne.symm]
      rfl
    · exact (Frame.refl.setList.set (.inl rfl) (by simp)).set (.inr rfl) (by simp)
  · have hsetNext : (s.set next b (some c)).link next a = some c := by
      rw [set_self, Function.update_of_ne (Ne.symm hb), hnext]
    have hsetPrev : (s.set next b (some c)).link prev a = some b := by
      rw [set_of_ne _ hne, hprev]
    have hsetBoth : ((s.set next b (some c)).set prev c (some b)).link next a = some c := by
      rw [set_of_ne _ hne.symm, hsetNext]
    rw [if_neg fun h => hb (Option.some.inj (hprev.symm.trans h.2)),
      if_neg fun h => hb (Option.some.inj (hprev'.symm.trans h.2)), hprev, hprev', hnext, hnext']
    simp only [Option.bind_eq_bind, Option.bind_some, hsetNext, hsetPrev, hsetBoth, Function.update_of_ne (Ne.symm hb),
      hnext', hprev']
    refine ⟨_, rfl, ?_, ?_⟩
    · rw [view_setPrev hne, set_self, set_of_ne _ hne]
      by_cases hhead : some a = s.list
      · rw [if_pos (show (view prev next s).head = some a from hhead.symm),
          if_pos (show some a = ((s.set next b (some c)).set prev c (some b)).list from hhead)]
        simp only [CircularList.clear, Links.setList, set_self, set_of_ne _ hne, set_of_ne _ hne.symm]
        rfl
      · rw [if_neg (show ¬ (view prev next s).head = some a from fun he => hhead he.symm),
          if_neg (show ¬ some a = ((s.set next b (some c)).set prev c (some b)).list from hhead)]
        simp only [CircularList.clear, set_self, set_of_ne _ hne, set_of_ne _ hne.symm]
        rfl
    · split_ifs
      · exact (((Frame.refl.set (.inr rfl) (by simp)).set (.inl rfl) (by simp)).setList.set (.inr rfl) (by simp)).set
          (.inl rfl) (by simp)
      · exact (((Frame.refl.set (.inr rfl) (by simp)).set (.inl rfl) (by simp)).set (.inr rfl) (by simp)).set
          (.inl rfl) (by simp)

end

end Desiros.Lists
