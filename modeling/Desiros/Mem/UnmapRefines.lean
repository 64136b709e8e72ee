import Desiros.Mem.MapAtHint
import Desiros.Mem.ResourceRuns

/-!
# `uvmm_unmap` restricts the page map

`unmapWalk` walks the arenas from the first one that intersects the region to the tail. The source walks the circular
list itself, by `next_in_as` (`unmapLoop`). `unmapLoop_eq` shows that both do the same and that the loop stops behind
the tail at the latest: the head it meets there ends at or below `uaddr`.

With that, `uvmm_unmap` restricts the page map of an address space to the pages outside the region, and the resources
list the arenas that refer to them.
-/

namespace Desiros.Mem

open Desiros.Library

variable {V W : Type}

/-! ## The circular list -/

/-- `arena->next_in_as`: the element behind, the head for the tail. -/
def nextInAs (l : List UvmmArena) (id : Nat) : Option UvmmArena := (l.dropWhile (·.id ≠ id)).tail.head?.or l.head?

/-- The `while` loop of `uvmm_unmap` at an arena of the circular list, `fuel` turns at most; `none` when it has not
stopped by then. -/
def unmapLoop (E : UvmmEnv W) (uaddr size : UInt32) (preId : Nat) :
    Nat → Option UvmmArena → UnmapWalk W → Option (UnmapWalk W)
  | _, none, k => some k
  | 0, some _, _ => none
  | fuel + 1, some arena, k =>
    let l := k.state.addressSpace.listArena
    if arena.start + arena.size ≤ uaddr then some k
    else if uaddr + size ≤ arena.start then some k
    else if uaddr ≤ arena.start ∧ arena.start + arena.size ≤ uaddr + size then
      let nextArena := (nextInAs l arena.id).filter (·.id ≠ arena.id)
      unmapLoop E uaddr size preId fuel nextArena
        { k with state := (k.state.setList (listDelete arena.id l)).removeArena E arena }
    else if arena.start < uaddr ∧ uaddr + size < arena.start + arena.size then
      let left := splitLeft uaddr arena
      let right := splitRight uaddr size preId arena
      let w := E.resourceAddTail right k.state.world
      let w := callOps left.ops (fun o => E.unmap o left uaddr size) w
      let w := callOps right.ops (fun o => E.ref o right) w
      let l := listInsertAfter arena.id right (modifyArena arena.id (splitLeft uaddr) l)
      some
        { state := ({ k.state.setList l with world := w } : UvmmState W).accountUnmapped left size
          usedPreallocatedArena := true }
    else if uaddr ≤ arena.start then
      let translation := uaddr + size - arena.start
      let shifted := shiftStart uaddr size arena
      let w := callOps shifted.ops (fun o => E.unmap o shifted (uaddr + size) translation) k.state.world
      let l := modifyArena arena.id (shiftStart uaddr size) l
      some { k with state := ({ k.state.setList l with world := w } : UvmmState W).accountUnmapped shifted translation }
    else if arena.start + arena.size ≤ uaddr + size then
      let unmappedSize := arena.start + arena.size - uaddr
      let left := splitLeft uaddr arena
      let w := callOps left.ops (fun o => E.unmap o left uaddr unmappedSize) k.state.world
      let l := modifyArena arena.id (splitLeft uaddr) l
      unmapLoop E uaddr size preId fuel (nextInAs l arena.id)
        { k with state := ({ k.state.setList l with world := w } : UvmmState W).accountUnmapped left unmappedSize }
    else
      -- the source would try the same arena again
      unmapLoop E uaddr size preId fuel (some arena) k

/-- `uvmm_unmap` behind its loop. -/
def unmapEnd (E : UvmmEnv W) (k : UnmapWalk W) (uaddr size : UInt32) (preId : Nat) : UvmmState W :=
  let (szUnmapped, w) := E.pagingUnmapInterval uaddr size k.state.world
  let s := { k.state with
    addressSpace := { k.state.addressSpace with physTotal := k.state.addressSpace.physTotal - szUnmapped }
    world := w }
  if k.usedPreallocatedArena then s else s.freePreallocated E preId

/-! ## The loop and the walk -/

section

variable {l₁ l₂ : List UvmmArena} {a : UvmmArena}

theorem nextInAs_splice (h : ((l₁ ++ a :: l₂).map (·.id)).Nodup) :
    nextInAs (l₁ ++ a :: l₂) a.id = l₂.head?.or (l₁ ++ a :: l₂).head? := by
  have hne := (id_ne_of_nodup h).1
  have hdrop : (l₁ ++ a :: l₂).dropWhile (·.id ≠ a.id) = a :: l₂ := by
    rw [List.dropWhile_append_of_pos fun b hb => decide_eq_true (hne b hb), List.dropWhile_cons_of_neg (by simp)]
  rw [nextInAs, hdrop, List.tail_cons]

/-- The arena behind one that is removed, `NULL` when it is the only one. -/
theorem nextInAs_filter (h : ((l₁ ++ a :: l₂).map (·.id)).Nodup) :
    (nextInAs (l₁ ++ a :: l₂) a.id).filter (·.id ≠ a.id) = l₂.head?.or l₁.head? := by
  obtain ⟨hne₁, hne₂⟩ := id_ne_of_nodup h
  rw [nextInAs_splice h]
  cases l₂ with
  | cons b l₂ => exact Option.filter_eq_some_iff.mpr ⟨rfl, decide_eq_true (hne₂ b List.mem_cons_self)⟩
  | nil =>
    cases l₁ with
    | nil => simp
    | cons b l₁ => exact Option.filter_eq_some_iff.mpr ⟨rfl, decide_eq_true (hne₁ b List.mem_cons_self)⟩

theorem asAccountChangeOfArenaProt_withList (as : UvmmAs) (l : List UvmmArena) (isShared : Bool)
    (size prev new : UInt32) :
    asAccountChangeOfArenaProt { as with listArena := l } isShared size prev new =
      { asAccountChangeOfArenaProt as isShared size prev new with listArena := l } := by
  unfold asAccountChangeOfArenaProt
  split_ifs <;> rfl

theorem accountUnmapped_setList (s : UvmmState W) (l : List UvmmArena) (w : W) (arena : UvmmArena) (size : UInt32) :
    ({ s.setList l with world := w } : UvmmState W).accountUnmapped arena size =
      (({ s with world := w } : UvmmState W).accountUnmapped arena size).setList l := by
  simp only [UvmmState.accountUnmapped, UvmmState.setList, asAccountChangeOfArenaProt_withList]

theorem removeArena_setList (E : UvmmEnv W) (s : UvmmState W) (l : List UvmmArena) (arena : UvmmArena) :
    (s.setList l).removeArena E arena = (s.removeArena E arena).setList l := by
  simp only [UvmmState.removeArena, UvmmState.accountUnmapped, UvmmState.setList, asAccountChangeOfArenaProt_withList]

end

theorem splitLeft_id {uaddr : UInt32} (a : UvmmArena) : (splitLeft uaddr a).id = a.id := rfl

theorem modifyArena_ids {f : UvmmArena → UvmmArena} {id : Nat} (hf : ∀ a, (f a).id = a.id) (l : List UvmmArena) :
    (modifyArena id f l).map (·.id) = l.map (·.id) := by
  rw [modifyArena, List.map_map]
  apply List.map_congr_left
  intro a _
  show (if a.id = id then f a else a).id = a.id
  split_ifs
  · exact hf a
  · rfl

/-- The loop stops at an arena that ends at or below `uaddr`. -/
theorem unmapLoop_stops (E : UvmmEnv W) {uaddr size : UInt32} {preId fuel : Nat} {a : UvmmArena}
    (ha : a.hi ≤ uaddr.toNat) (k : UnmapWalk W) : unmapLoop E uaddr size preId (fuel + 1) (some a) k = some k := by
  have hend : a.start + a.size ≤ uaddr := by
    have hu := word_lt uaddr
    rw [word_le_iff, word_add]
    simp only [UvmmArena.hi] at ha
    omega
  rw [unmapLoop]
  exact if_pos hend

/-- **The circular loop does what the walk does**, in one turn for each arena left and one at the head. -/
theorem unmapLoop_eq (E : UvmmEnv W) {uaddr size : UInt32} (preId : Nat) (l : List UvmmArena) :
    ∀ (before : List UvmmArena) (k : UnmapWalk W) (fuel : Nat), l.length < fuel →
      (∀ a ∈ before, a.hi ≤ uaddr.toNat) → ((before ++ l).map (·.id)).Nodup →
      unmapLoop E uaddr size preId fuel (l.head?.or before.head?) { k with state := k.state.setList (before ++ l) } =
        some { (unmapWalk E uaddr size preId l k).2 with
          state := (unmapWalk E uaddr size preId l k).2.state.setList (before ++ (unmapWalk E uaddr size preId l k).1) } := by
  induction l with
  | nil =>
    intro before k fuel hfuel hbefore _
    obtain ⟨n, rfl⟩ : ∃ n, fuel = n + 1 := ⟨fuel - 1, by simp at hfuel; omega⟩
    cases before with
    | nil => rfl
    | cons b before => exact unmapLoop_stops E (hbefore b List.mem_cons_self) _
  | cons a l ih =>
    intro before k fuel hfuel hbefore hnodup
    obtain ⟨n, rfl⟩ : ∃ n, fuel = n + 1 := ⟨fuel - 1, by simp at hfuel; omega⟩
    have hfuel' : l.length < n := by simpa using hfuel
    rw [List.head?_cons, Option.some_or, unmapLoop, unmapWalk]
    by_cases h1 : a.start + a.size ≤ uaddr
    · rw [if_pos h1, if_pos h1]
    rw [if_neg h1, if_neg h1]
    by_cases h2 : uaddr + size ≤ a.start
    · rw [if_pos h2, if_pos h2]
    rw [if_neg h2, if_neg h2]
    by_cases h3 : uaddr ≤ a.start ∧ a.start + a.size ≤ uaddr + size
    · -- the arena goes, the ones before and behind it stay
      rw [if_pos h3, if_pos h3]
      have hrest : ((before ++ l).map (·.id)).Nodup :=
        hnodup.sublist (((List.sublist_cons_self a l).append_left before).map _)
      have hih := ih before { k with state := k.state.removeArena E a } n hfuel' hbefore hrest
      rw [← hih]
      show unmapLoop E uaddr size preId n ((nextInAs (before ++ a :: l) a.id).filter (·.id ≠ a.id))
        { k with state := (k.state.setList (listDelete a.id (before ++ a :: l))).removeArena E a } = _
      rw [nextInAs_filter hnodup, listDelete_splice hnodup, removeArena_setList]
    rw [if_neg h3, if_neg h3]
    by_cases h4 : a.start < uaddr ∧ uaddr + size < a.start + a.size
    · rw [if_pos h4, if_pos h4]
      have hleft : modifyArena a.id (splitLeft uaddr) (before ++ a :: l) = before ++ splitLeft uaddr a :: l :=
        modifyArena_splice hnodup _
      have hnodup' : ((before ++ splitLeft uaddr a :: l).map (·.id)).Nodup := by
        rw [← hleft, modifyArena_ids splitLeft_id]
        exact hnodup
      have hright : listInsertAfter a.id (splitRight uaddr size preId a) (before ++ splitLeft uaddr a :: l) =
          before ++ splitLeft uaddr a :: splitRight uaddr size preId a :: l :=
        listInsertAfter_splice hnodup' _
      dsimp only [UvmmState.setList]
      rw [hleft, hright]
      refine congrArg (fun t => some (UnmapWalk.mk t true)) ?_
      exact accountUnmapped_setList k.state _ _ _ _
    rw [if_neg h4, if_neg h4]
    by_cases h5 : uaddr ≤ a.start
    · rw [if_pos h5, if_pos h5]
      have hshift : modifyArena a.id (shiftStart uaddr size) (before ++ a :: l) = before ++ shiftStart uaddr size a :: l :=
        modifyArena_splice hnodup _
      dsimp only [UvmmState.setList]
      rw [hshift]
      refine congrArg (fun t => some (UnmapWalk.mk t k.usedPreallocatedArena)) ?_
      exact accountUnmapped_setList k.state _ _ _ _
    have hstart : a.start < uaddr := by
      rw [word_le_iff] at h5
      rw [word_lt_iff]
      omega
    have hlast : a.start + a.size ≤ uaddr + size := by
      have hend : ¬ uaddr + size < a.start + a.size := fun hlt => h4 ⟨hstart, hlt⟩
      rw [word_lt_iff] at hend
      rw [word_le_iff]
      omega
    rw [if_neg h5, if_neg h5, if_pos hlast]
    -- what is left of the arena is one of the arenas before
    have hleft : modifyArena a.id (splitLeft uaddr) (before ++ a :: l) = before ++ splitLeft uaddr a :: l :=
      modifyArena_splice hnodup _
    have hnodup' : ((before ++ splitLeft uaddr a :: l).map (·.id)).Nodup := by
      rw [← hleft, modifyArena_ids splitLeft_id]
      exact hnodup
    have hnext : nextInAs (before ++ splitLeft uaddr a :: l) a.id = l.head?.or (before ++ [splitLeft uaddr a]).head? := by
      have hsplice : nextInAs (before ++ splitLeft uaddr a :: l) a.id = _ := nextInAs_splice hnodup'
      rw [hsplice]
      cases before <;> rfl
    have hbefore' : ∀ b ∈ before ++ [splitLeft uaddr a], b.hi ≤ uaddr.toNat := by
      intro b hb
      rcases List.mem_append.mp hb with hold | hnew
      · exact hbefore b hold
      · rw [List.mem_singleton.mp hnew]
        exact (splitLeft_hi (word_lt_iff.mp hstart)).le
    have hsplit : (((before ++ [splitLeft uaddr a]) ++ l).map (·.id)).Nodup := by
      rw [List.append_assoc]
      exact hnodup'
    have hih := ih (before ++ [splitLeft uaddr a])
      { k with
        state := ({ k.state with
          world := callOps (splitLeft uaddr a).ops (fun o => E.unmap o (splitLeft uaddr a) uaddr
            (a.start + a.size - uaddr)) k.state.world } : UvmmState W).accountUnmapped (splitLeft uaddr a)
              (a.start + a.size - uaddr) } n hfuel' hbefore' hsplit
    dsimp only [UvmmState.setList] at hih ⊢
    rw [hleft, hnext]
    simp only [List.append_assoc, List.singleton_append] at hih
    rw [← hih]
    refine congrArg (fun t => unmapLoop E uaddr size preId n _ (UnmapWalk.mk t k.usedPreallocatedArena)) ?_
    exact accountUnmapped_setList k.state _ _ _ _

/-! ## The whole of `uvmm_unmap` -/

theorem unmapRegion_eq (E : UvmmEnv W) (s : UvmmState W) (uaddr size : UInt32) (preId : Nat) :
    unmapRegion E s uaddr size preId = unmapEnd E
      { (unmapWalk E uaddr size preId (arenasFrom s.addressSpace.listArena uaddr) ⟨s, false⟩).2 with
        state := (unmapWalk E uaddr size preId (arenasFrom s.addressSpace.listArena uaddr) ⟨s, false⟩).2.state.setList
          (arenasBefore s.addressSpace.listArena uaddr ++
            (unmapWalk E uaddr size preId (arenasFrom s.addressSpace.listArena uaddr) ⟨s, false⟩).1) }
      uaddr size preId := rfl

/-- From the first arena that intersects the region the loop stops within one turn round the list. -/
theorem unmapLoop_first (E : UvmmEnv W) {s : UvmmState W} (hwf : WellFormed s.addressSpace.listArena)
    (hnodup : (s.addressSpace.listArena.map (·.id)).Nodup) (uaddr size : UInt32) (preId : Nat) :
    ∃ k, unmapLoop E uaddr size preId (s.addressSpace.listArena.length + 1)
        (findFirstIntersectingArena s.addressSpace.listArena uaddr size) ⟨s, false⟩ = some k ∧
      unmapEnd E k uaddr size preId = unmapRegion E s uaddr size preId := by
  have happ := arenasBefore_append_arenasFrom s.addressSpace.listArena uaddr
  have hlen : (arenasFrom s.addressSpace.listArena uaddr).length < s.addressSpace.listArena.length + 1 := by
    rw [← congrArg List.length happ, List.length_append]
    omega
  have hfirst : findFirstIntersectingArena s.addressSpace.listArena uaddr size =
      (arenasFrom s.addressSpace.listArena uaddr).head? := findEnclosingOrNextArena_eq _ _
  refine ⟨_, ?_, (unmapRegion_eq E s uaddr size preId).symm⟩
  rw [hfirst]
  cases hfrom : arenasFrom s.addressSpace.listArena uaddr with
  | nil =>
    rw [hfrom, List.append_nil] at happ
    simp only [happ, unmapWalk, List.append_nil]
    rfl
  | cons a rest =>
    have hids : ((arenasBefore s.addressSpace.listArena uaddr ++ arenasFrom s.addressSpace.listArena uaddr).map
        (·.id)).Nodup := by
      rw [happ]
      exact hnodup
    have hloop := @unmapLoop_eq W E uaddr size preId (arenasFrom s.addressSpace.listArena uaddr)
      (arenasBefore s.addressSpace.listArena uaddr) ⟨s, false⟩ _ hlen (arenasFrom_hi hwf uaddr).1 hids
    rw [happ, hfrom] at hloop
    exact hloop

/-! ## The lists of the resources -/

section

variable {B : UvmmEnv V} {C : ResourceCalls V} {k : Nat} {uaddr size : UInt32} {preId : Nat}

theorem updateCounter_holders {c : Nat → Counter ArenaPtr} (f : Counter ArenaPtr → Counter ArenaPtr)
    (hf : ∀ x, (f x).holders = x.holders) (r r' : Nat) : (updateCounter c r f r').holders = (c r').holders := by
  unfold updateCounter
  by_cases hr : r' = r
  · rw [hr, Function.update_self]
    exact hf _
  · rw [Function.update_of_ne hr]

theorem ref_holders (a : UvmmArena) (w : ResourceWorld V) (r : Nat) :
    ((ResourceWorld.ref a w).resource r).holders = (w.resource r).holders :=
  updateCounter_holders Counter.ref (fun _ => rfl) _ _

theorem unref_holders (a : UvmmArena) (w : ResourceWorld V) (r : Nat) :
    ((ResourceWorld.unref a w).resource r).holders = (w.resource r).holders :=
  updateCounter_holders Counter.unref (fun _ => rfl) _ _

theorem callOps_ref_holders (ops : Option Nat) (a : UvmmArena) (w : ResourceWorld V) (r : Nat) :
    ((callOps ops (fun o => (resourceEnv B C k).ref o a) w).resource r).holders = (w.resource r).holders := by
  cases ops with
  | none => rfl
  | some o =>
    show ((if o = C.zeroOps then zeroRef a w else elf32progRef a w).resource r).holders = _
    split_ifs <;> exact ref_holders a w r

theorem callOps_unref_holders (ops : Option Nat) (a : UvmmArena) (w : ResourceWorld V) (r : Nat) :
    ((callOps ops (fun o => (resourceEnv B C k).unref o a) w).resource r).holders = (w.resource r).holders := by
  cases ops with
  | none => rfl
  | some o =>
    show ((if o = C.zeroOps then zeroUnref C a w else elf32progUnref a w).resource r).holders = _
    split_ifs
    · rw [zeroUnref_resource]
      exact unref_holders a w r
    · exact unref_holders a w r

theorem unmapWalk_lists (l : List UvmmArena) : ∀ (T : List (Nat × ArenaPtr)) (u : UnmapWalk (ResourceWorld V)),
    Lists (arenaRefs k l ++ T) u.state.world.resource →
    Lists (arenaRefs k (unmapWalk (resourceEnv B C k) uaddr size preId l u).1 ++ T)
      (unmapWalk (resourceEnv B C k) uaddr size preId l u).2.state.world.resource := by
  induction l with
  | nil => exact fun T u h => h
  | cons a l ih =>
    intro T u h
    rw [unmapWalk]
    split_ifs
    · exact h
    · exact h
    · -- the arena goes
      apply ih T
      simp only [UvmmState.removeArena, callOps_unmap]
      exact Lists.congr h.remove fun r => callOps_unref_holders a.ops a _ r
    · -- the preallocated structure refers to the resource as well
      simp only [callOps_unmap]
      have hadd := Lists.congr (h.add (splitRight uaddr size preId a).mappedResource.addr ⟨k, preId⟩) fun r =>
        callOps_ref_holders (B := B) (C := C) (k := k) (splitRight uaddr size preId a).ops
          (splitRight uaddr size preId a) (resourceAddTail k (splitRight uaddr size preId a) u.state.world) r
      exact hadd.perm (List.Perm.swap _ _ _)
    · simp only [callOps_unmap]
      exact h
    · simp only [callOps_unmap]
      have hrest : Lists (arenaRefs k l ++ (a.ref k :: T)) u.state.world.resource := h.perm List.perm_middle.symm
      refine Lists.perm (ih (a.ref k :: T) _ ?_) List.perm_middle
      exact hrest

theorem unmapRegion_lists {T : List (Nat × ArenaPtr)} {s : UvmmState (ResourceWorld V)}
    (h : Lists (arenaRefs k s.addressSpace.listArena ++ T) s.world.resource) :
    Lists (arenaRefs k (unmapRegion (resourceEnv B C k) s uaddr size preId).addressSpace.listArena ++ T)
      (unmapRegion (resourceEnv B C k) s uaddr size preId).world.resource := by
  have happ := arenasBefore_append_arenasFrom s.addressSpace.listArena uaddr
  rw [← happ, arenaRefs_append, List.append_assoc] at h
  have hwalk := @unmapWalk_lists V B C k uaddr size preId
    (arenasFrom s.addressSpace.listArena uaddr) _ ⟨s, false⟩ (h.perm (List.perm_append_comm_assoc _ _ _))
  rw [unmapRegion_listArena, unmapRegion_resource, arenaRefs_append, List.append_assoc]
  exact hwalk.perm (List.perm_append_comm_assoc _ _ _)

end

/-! ## Restriction -/

/-- The map on the pages outside `[uaddr, uaddr + size)`. -/
def restrict (m : Nat → Option PageEntry) (uaddr size p : Nat) : Option PageEntry :=
  if uaddr ≤ p ∧ p < uaddr + size then none else m p

/-- Nothing that user space sees has changed, and no resource. -/
structure Unchanged (s s' : UvmmState (ResourceWorld V)) : Prop where
  addressSpace : s'.addressSpace = s.addressSpace
  freed : s'.freed = s.freed
  resource : s'.world.resource = s.world.resource
  listMappedPages : s'.world.listMappedPages = s.world.listMappedPages

/-- **`uvmm_unmap` refines restriction**: on an address space below the last page, for a size that is not rounded up
beyond `2 ^ 32`, the circular loop stops, a return value of 0 leaves exactly the pages outside the region, and an error
leaves everything as it was. -/
theorem uvmmUnmap_restricts (B : UvmmEnv V) (C : ResourceCalls V) (k : Nat) {T : List (Nat × ArenaPtr)}
    {s : UvmmState (ResourceWorld V)} (hinv : Inv s)
    (hlists : Lists (arenaRefs k s.addressSpace.listArena ++ T) s.world.resource)
    (htop : ∀ a ∈ s.addressSpace.listArena, a.hi ≤ 4294963200) (uaddr : UInt32) {size : UInt32}
    (hpos : 0 < size.toNat) (hround : size.toNat ≤ 4294963200) :
    (∃ walk, unmapLoop (resourceEnv B C k) uaddr (pageAlignSup size) s.nextId (s.addressSpace.listArena.length + 1)
        (findFirstIntersectingArena s.addressSpace.listArena uaddr (pageAlignSup size))
        ⟨(s.allocArena (resourceEnv B C k)).2, false⟩ = some walk ∧
      ((uvmmUnmap (resourceEnv B C k) s uaddr size).1 = 0 →
        (uvmmUnmap (resourceEnv B C k) s uaddr size).2 =
          unmapEnd (resourceEnv B C k) walk uaddr (pageAlignSup size) s.nextId)) ∧
    ((uvmmUnmap (resourceEnv B C k) s uaddr size).1 = 0 →
      Denotes (uvmmUnmap (resourceEnv B C k) s uaddr size).2.addressSpace.listArena
        (restrict (meaning s.addressSpace.listArena) uaddr.toNat size.toNat) ∧
      Inv (uvmmUnmap (resourceEnv B C k) s uaddr size).2 ∧
      Lists (arenaRefs k (uvmmUnmap (resourceEnv B C k) s uaddr size).2.addressSpace.listArena ++ T)
        (uvmmUnmap (resourceEnv B C k) s uaddr size).2.world.resource) ∧
    ((uvmmUnmap (resourceEnv B C k) s uaddr size).1 ≠ 0 →
      Unchanged s (uvmmUnmap (resourceEnv B C k) s uaddr size).2) := by
  have halloc := hinv.allocArena (resourceEnv B C k)
  obtain ⟨walk, hloop, hend⟩ := unmapLoop_first (resourceEnv B C k) (s := (s.allocArena (resourceEnv B C k)).2)
    halloc.wellFormed halloc.distinct.nodup uaddr (pageAlignSup size) s.nextId
  have hinv' := hinv.uvmmUnmap (resourceEnv B C k) uaddr size
  rcases uvmmUnmap_cases (resourceEnv B C k) s uaddr size with heq | heq | ⟨hr, -, heq⟩
  · rw [heq]
    have hret : ¬ (-1 : Int) = 0 := by decide
    exact ⟨⟨walk, hloop, fun h => absurd h hret⟩, fun h => absurd h hret, fun _ => ⟨rfl, rfl, rfl, rfl⟩⟩
  · rw [heq]
    have hret : ¬ (-3 : Int) = 0 := by decide
    exact ⟨⟨walk, hloop, fun h => absurd h hret⟩, fun h => absurd h hret, fun _ => ⟨rfl, rfl, rfl, rfl⟩⟩
  · rw [heq] at hinv' ⊢
    refine ⟨⟨walk, hloop, fun _ => hend.symm⟩, fun _ => ⟨?_, hinv', unmapRegion_lists hlists⟩, fun h => absurd rfl h⟩
    have hlist := unmapRegion_list (resourceEnv B C k) hr halloc.wellFormed s.nextId
    rw [allocArena_listArena] at hlist
    rw [hlist]
    intro p hp
    have hsize := toNat_pageAlignSup size
    have haligned := hr.aligned
    rw [entriesAt_flatMap_cut hr hinv.wellFormed.arenas (fun a ha he => by have := htop a ha; omega), restrict]
    -- a page starts in the region as asked for or in none of it
    have hpage : (uaddr.toNat ≤ p ∧ p < uaddr.toNat + (pageAlignSup size).toNat) ↔
        uaddr.toNat ≤ p ∧ p < uaddr.toNat + size.toNat := by
      rw [hsize]
      omega
    by_cases hin : uaddr.toNat ≤ p ∧ p < uaddr.toNat + size.toNat
    · rw [if_pos hin, if_pos (hpage.mpr hin)]
      rfl
    · rw [if_neg hin, if_neg fun h => hin (hpage.mp h)]
      exact hinv.wellFormed.denotes p hp

/-- Three pages of a program at the start of user space. -/
def threePages : UvmmState (ResourceWorld Unit) where
  addressSpace := { listArena := [⟨0, 0x40000000, 0x3000, 7, 0, some 2, progResource, 0⟩] }
  freed := []
  nextId := 1
  world :=
    { resource := Function.update (fun _ => {}) 2 { refCnt := 1, holders := [⟨0, 0⟩], used := true }
      listMappedPages := fun _ => []
      rest := () }

/-- The page in the middle goes. -/
theorem uvmmUnmap_middle :
    (uvmmUnmap (resourceEnv quietEnv quietCalls 0) threePages 0x40001000 0x1000).1 = 0 ∧
      Denotes (uvmmUnmap (resourceEnv quietEnv quietCalls 0) threePages 0x40001000 0x1000).2.addressSpace.listArena
        (restrict (meaning threePages.addressSpace.listArena) 0x40001000 0x1000) := by
  have hret : (uvmmUnmap (resourceEnv quietEnv quietCalls 0) threePages 0x40001000 0x1000).1 = 0 := by decide
  have hinv : Inv threePages := by
    refine ⟨wellFormed_cons.mpr ⟨⟨?_, ?_, ?_, ?_, ?_⟩, ?_, wellFormed_nil⟩, ⟨?_, ?_⟩⟩ <;> decide
  have hlists : Lists (arenaRefs 0 threePages.addressSpace.listArena ++ []) threePages.world.resource := by
    intro r
    by_cases hr : r = 2
    · subst hr
      exact List.Perm.refl _
    · have hother : threePages.world.resource r = {} := by
        simp [threePages, Function.update_of_ne hr]
      rw [hother]
      show List.Perm [] (refsTo [((2 : Nat), (⟨0, 0⟩ : ArenaPtr))] r)
      rw [refsTo_cons_of_ne hr]
      exact List.Perm.refl _
  have htop : ∀ a ∈ threePages.addressSpace.listArena, a.hi ≤ 4294963200 := by decide
  exact ⟨hret, ((uvmmUnmap_restricts quietEnv quietCalls 0 hinv hlists htop 0x40001000 (by decide)
    (by decide)).2.1 hret).1⟩

end Desiros.Mem
