import Desiros.Mem.ResourceRefs

/-!
# Owners of arena structures

`ArenaRules E I`: an arena structure that `kvmm_cache_alloc` returns is owned, `kvmm_free` takes one that is owned, and
nothing else `uvmm.c` calls depends on them. `Owned I T s` then says that the structures on the list of an address
space are owned, and those in `T` besides, and every operation keeps it: a structure is linked once, or given back.
-/

namespace Desiros.Mem

open Desiros.Library

variable {W : Type} {E : UvmmEnv W} {I : Nat → List Nat → W → Prop} {T T' : List Nat} {n preId : Nat}

/-- `I n T w`: of the first `n` structures those in `T` are owned. -/
structure ArenaRules (E : UvmmEnv W) (I : Nat → List Nat → W → Prop) : Prop where
  perm : ∀ {n T T' w}, I n T w → T.Perm T' → I n T' w
  nodup : ∀ {n T w}, I n T w → T.Nodup
  alloc : ∀ {n T w}, I n T w → I (n + 1) (if (E.allocArena w).1 then n :: T else T) (E.allocArena w).2
  free : ∀ {n T w} (arena : UvmmArena), I n (arena.id :: T) w → I n T (E.freeArena arena w)
  mmap : ∀ {n T w} m arena, I n T w → I n T (E.mmap m arena w).2.2
  ref : ∀ {n T w} o arena, I n T w → I n T (E.ref o arena w)
  unref : ∀ {n T w} o arena, I n T w → I n T (E.unref o arena w)
  unmap : ∀ {n T w} o arena uaddr size, I n T w → I n T (E.unmap o arena uaddr size w)
  addTail : ∀ {n T w} arena, I n T w → I n T (E.resourceAddTail arena w)
  delete : ∀ {n T w} arena, I n T w → I n T (E.resourceDelete arena w)
  pagingUnmap : ∀ {n T w} uaddr size, I n T w → I n T (E.pagingUnmapInterval uaddr size w).2
  pagingMap : ∀ {n T w} virt physical user, I n T w → I n T (E.pagingMap virt physical user w).2

/-- The structures of a list. -/
def arenaIds (l : List UvmmArena) : List Nat := l.map (·.id)

@[simp] theorem arenaIds_cons (a : UvmmArena) (l : List UvmmArena) : arenaIds (a :: l) = a.id :: arenaIds l := rfl

@[simp] theorem arenaIds_append (l l' : List UvmmArena) : arenaIds (l ++ l') = arenaIds l ++ arenaIds l' :=
  List.map_append

def Owned (I : Nat → List Nat → W → Prop) (T : List Nat) (s : UvmmState W) : Prop :=
  I s.nextId (arenaIds s.addressSpace.listArena ++ T) s.world

theorem arenaIds_modify (id : Nat) {f : UvmmArena → UvmmArena} (hf : ∀ a, (f a).id = a.id) (l : List UvmmArena) :
    arenaIds (modifyArena id f l) = arenaIds l := by
  unfold arenaIds modifyArena
  rw [List.map_map]
  apply List.map_congr_left
  intro a _
  show (if a.id = id then f a else a).id = a.id
  split_ifs
  · exact hf a
  · rfl

/-- The fields of a structure on the list change. -/
theorem Owned.modify {s : UvmmState W} (hs : Owned I T s) (id : Nat) {f : UvmmArena → UvmmArena} (hf : ∀ a, (f a).id = a.id) :
    Owned I T (s.setList (modifyArena id f s.addressSpace.listArena)) := by
  show I s.nextId (arenaIds (modifyArena id f s.addressSpace.listArena) ++ T) s.world
  rw [arenaIds_modify id hf]
  exact hs

theorem Owned.modifyAt {s : UvmmState W} (hs : Owned I T s) (id : Nat) {f : UvmmArena → UvmmArena}
    (hf : ∀ a, (f a).id = a.id) : Owned I T (s.modifyAt id f) := hs.modify id hf

theorem Owned.account {s : UvmmState W} (hs : Owned I T s) (shared : Bool) (size prev new : UInt32) :
    Owned I T { s with addressSpace := asAccountChangeOfArenaProt s.addressSpace shared size prev new } := by
  unfold Owned
  rw [asAccountChangeOfArenaProt_listArena]
  exact hs

/-- A structure of the list is taken off it. -/
theorem perm_listDelete {l : List UvmmArena} {id : Nat} (hnodup : (arenaIds l).Nodup) (hid : id ∈ arenaIds l) :
    (arenaIds l).Perm (id :: arenaIds (listDelete id l)) := by
  obtain ⟨a, ha, rfl⟩ := List.mem_map.mp hid
  obtain ⟨l₁, l₂, rfl⟩ := List.append_of_mem ha
  rw [listDelete_splice hnodup, arenaIds_append, arenaIds_append]
  exact List.perm_middle

/-- The preallocated structure while it is not used. -/
def UnmapWalk.spare (k : UnmapWalk W) (preId : Nat) : List Nat := if k.usedPreallocatedArena then [] else [preId]

theorem callOps_rule {w : W} {P : W → Prop} {f : Nat → W → W} (hf : ∀ o, P w → P (f o w)) (ops : Option Nat)
    (hw : P w) : P (callOps ops f w) := by
  cases ops with
  | none => exact hw
  | some o => exact hf o hw

namespace ArenaRules

variable (h : ArenaRules E I)

include h

/-! ## `uvmm_unmap` -/

/-- The structures of the list are owned, and the preallocated one while it is not used. -/
theorem unmapWalk (uaddr size : UInt32) (l : List UvmmArena) : ∀ (T : List Nat) (k : UnmapWalk W),
    k.usedPreallocatedArena = false → I n (arenaIds l ++ (k.spare preId ++ T)) k.state.world →
    I n (arenaIds (unmapWalk E uaddr size preId l k).1 ++ ((unmapWalk E uaddr size preId l k).2.spare preId ++ T))
      (unmapWalk E uaddr size preId l k).2.state.world := by
  induction l with
  | nil => exact fun T k _ hi => hi
  | cons a l ih =>
    intro T k hunused hi
    rw [Mem.unmapWalk]
    have hspare : k.spare preId = [preId] := by
      unfold UnmapWalk.spare
      rw [hunused, if_neg Bool.false_ne_true]
    split_ifs
    · exact hi
    · exact hi
    · -- the arena goes
      refine ih T _ hunused ?_
      apply h.free
      refine callOps_rule (fun o => h.unref o a) _ ?_
      refine h.delete a ?_
      exact callOps_rule (fun o => h.unmap o a _ _) _ hi
    · -- the preallocated structure is linked behind it
      refine callOps_rule (fun o => h.ref o _) _ ?_
      refine callOps_rule (fun o => h.unmap o _ _ _) _ ?_
      rw [hspare] at hi
      exact h.addTail _ (h.perm hi (List.perm_middle.cons a.id))
    · exact callOps_rule (fun o => h.unmap o _ _ _) _ hi
    · refine h.perm (ih (a.id :: T) _ hunused (h.perm (callOps_rule (fun o => h.unmap o _ _ _) _ hi) ?_)) ?_
      · rw [← List.append_assoc, ← List.append_assoc]
        exact List.perm_middle.symm
      · rw [← List.append_assoc, ← List.append_assoc]
        exact List.perm_middle

theorem unmapRegion {s : UvmmState W} (hs : Owned I (preId :: T) s) (uaddr size : UInt32) :
    Owned I T (unmapRegion E s uaddr size preId) := by
  have happ := arenasBefore_append_arenasFrom s.addressSpace.listArena uaddr
  have hids : (arenaIds s.addressSpace.listArena ++ preId :: T).Perm
      (arenaIds (arenasFrom s.addressSpace.listArena uaddr) ++
        ([preId] ++ (arenaIds (arenasBefore s.addressSpace.listArena uaddr) ++ T))) := by
    conv_lhs => rw [← happ, arenaIds_append, List.append_assoc]
    refine (List.perm_append_comm_assoc _ _ _).trans (List.Perm.append_left _ ?_)
    exact List.perm_middle
  have hwalk := h.unmapWalk uaddr size (arenasFrom s.addressSpace.listArena uaddr) _ ⟨s, false⟩ rfl
    (h.perm hs hids)
  have hnext := unmapWalk_nextId E preId uaddr size (arenasFrom s.addressSpace.listArena uaddr) ⟨s, false⟩
  unfold Owned
  rw [unmapRegion_listArena, unmapRegion_nextId, arenaIds_append, List.append_assoc]
  unfold Mem.unmapRegion
  generalize Mem.unmapWalk E uaddr size preId (arenasFrom s.addressSpace.listArena uaddr) ⟨s, false⟩ = r at hwalk hnext ⊢
  obtain ⟨rest, k⟩ := r
  have hunmap := h.pagingUnmap uaddr size hwalk
  unfold UnmapWalk.spare at hunmap
  dsimp only at hunmap ⊢
  split_ifs at hunmap ⊢
  · rw [List.nil_append] at hunmap
    exact h.perm hunmap (List.perm_append_comm_assoc _ _ _)
  · rw [List.singleton_append] at hunmap
    exact h.free _ (h.perm hunmap (List.perm_middle.trans ((List.perm_append_comm_assoc _ _ _).cons _)))

theorem allocArena {s : UvmmState W} (hs : Owned I T s) :
    Owned I (if (s.allocArena E).1 then s.nextId :: T else T) (s.allocArena E).2 := by
  have halloc := h.alloc hs
  unfold Owned
  show I (s.nextId + 1) (arenaIds s.addressSpace.listArena ++ if (E.allocArena s.world).1 then _ else _) _
  split_ifs at halloc ⊢
  · exact h.perm halloc List.perm_middle.symm
  · exact halloc

/-- **`uvmm_unmap`** -/
theorem uvmmUnmap {s : UvmmState W} (hs : Owned I T s) (uaddr size : UInt32) :
    Owned I T (uvmmUnmap E s uaddr size).2 := by
  have halloc := h.allocArena hs
  unfold Mem.uvmmUnmap
  split_ifs with h1 h2 h3 h4 h5
  · exact hs
  · exact hs
  · exact hs
  · exact hs
  · rwa [if_neg (by simpa using h5)] at halloc
  · rw [if_pos (by simpa using h5)] at halloc
    exact h.unmapRegion halloc uaddr (pageAlignSup size)

/-! ## `uvmm_map` -/

theorem mapDone {s : UvmmState W} {m : NewMapping} (used : Bool)
    (hs : Owned I ((if used then [] else [m.preId]) ++ T) s) (arena : UvmmArena) :
    Owned I T (s.mapDone E m arena used).2.2 := by
  unfold Owned
  rw [mapDone_listArena, mapDone_nextId]
  cases used with
  | true => exact hs
  | false => exact h.free _ (h.perm hs List.perm_middle)

theorem ids_nodup {s : UvmmState W} (hs : Owned I T s) : (arenaIds s.addressSpace.listArena).Nodup :=
  (List.nodup_append.mp (h.nodup hs)).1

theorem uvmmMapNew {s : UvmmState W} {m : NewMapping} (hs : Owned I (m.preId :: T) s) {prev : Option UvmmArena}
    (hprev : ∀ p ∈ prev, p ∈ s.addressSpace.listArena) : Owned I T (uvmmMapNew E s m prev).2.2 := by
  obtain ⟨l₁, l₂, hl, hlink⟩ := linkArena_splice (h.ids_nodup hs) hprev m.arena
  have hids : (arenaIds s.addressSpace.listArena ++ m.preId :: T).Perm
      (arenaIds (linkArena prev m.arena s.addressSpace.listArena) ++ T) := by
    rw [hlink, hl, arenaIds_append, arenaIds_append, arenaIds_cons]
    refine List.perm_middle.trans ?_
    exact (List.perm_middle.symm : List.Perm (m.preId :: (arenaIds l₁ ++ arenaIds l₂)) _).append_right T
  have hmmap := h.mmap (m.resource.mmap.getD 0) m.arena (h.addTail m.arena (h.perm hs hids))
  have hops : ∀ ops, arenaIds (modifyArena m.preId (fun a => { a with ops := ops })
      (linkArena prev m.arena s.addressSpace.listArena)) = arenaIds (linkArena prev m.arena s.addressSpace.listArena) := by
    intro ops
    apply arenaIds_modify
    exact fun a => rfl
  have hlinked : ∀ ops, Owned I T { s.setList (modifyArena m.preId (fun a => { a with ops := ops })
      (linkArena prev m.arena s.addressSpace.listArena)) with
      world := (E.mmap (m.resource.mmap.getD 0) m.arena (E.resourceAddTail m.arena s.world)).2.2 } := by
    intro ops
    show I s.nextId (arenaIds (modifyArena _ _ _) ++ T) _
    rw [hops]
    exact hmmap
  unfold Mem.uvmmMapNew
  dsimp only
  split_ifs
  · exact h.uvmmUnmap (hlinked _) _ _
  · apply h.mapDone true
    exact callOps_rule (P := I s.nextId _) (fun o => h.ref o _) _ (hlinked _)

theorem uvmmMapInsert {s : UvmmState W} {m : NewMapping} (hs : Owned I (m.preId :: T) s) :
    Owned I T (uvmmMapInsert E s m).2.2 := by
  obtain ⟨hprevs, hnexts⟩ := mapNeighbours_mem s.addressSpace.listArena m.uaddr
  unfold Mem.uvmmMapInsert
  dsimp only
  generalize mapNeighbours s.addressSpace.listArena m.uaddr = nb at hprevs hnexts
  cases hp : nb.1.filter (mergeWithPreceding m) with
  | none =>
    cases hn : nb.2.filter (mergeWithNext m) with
    | none => exact h.uvmmMapNew hs hprevs
    | some next =>
      apply h.mapDone false
      apply hs.modify
      exact fun a => rfl
  | some prev =>
    cases hn : nb.2.filter (mergeWithNext m) with
    | none =>
      apply h.mapDone false
      apply hs.modify
      exact fun a => rfl
    | some next =>
      have hnext : next ∈ s.addressSpace.listArena := hnexts next (Option.mem_filter_iff.mp hn).1
      have hwide : Owned I (m.preId :: T) (s.setList (modifyArena prev.id
          (fun a => { a with size := a.size + (m.size + next.size) }) s.addressSpace.listArena)) := by
        apply hs.modify
        exact fun a => rfl
      have hin : next.id ∈ arenaIds (modifyArena prev.id (fun a => { a with size := a.size + (m.size + next.size) })
          s.addressSpace.listArena) := by
        rw [arenaIds_modify]
        · exact List.mem_map_of_mem hnext
        · exact fun a => rfl
      -- the absorbed arena goes, and the preallocated structure stays unused
      apply h.mapDone false
      refine h.free next (callOps_rule (fun o => h.unref o next) _ (h.delete next (h.perm hwide ?_)))
      exact (perm_listDelete (h.ids_nodup hwide) hin).append_right _

theorem freePreallocated {s : UvmmState W} (hs : Owned I (preId :: T) s) : Owned I T (s.freePreallocated E preId) :=
  h.free _ (h.perm hs List.perm_middle)

theorem uvmmMapPlace {s : UvmmState W} (hs : Owned I (preId :: T) s) (hintUaddr : UInt32)
    {mapping : UInt32 → NewMapping} (hpre : ∀ u, (mapping u).preId = preId) :
    Owned I T (uvmmMapPlace E s hintUaddr mapping).2.2 := by
  unfold Mem.uvmmMapPlace
  simp only [hpre]
  split_ifs
  · exact h.freePreallocated hs
  · exact h.freePreallocated hs
  · exact h.freePreallocated (h.uvmmUnmap hs _ _)
  · apply h.uvmmMapInsert
    rw [hpre]
    exact h.uvmmUnmap hs _ _
  · exact h.freePreallocated hs
  · apply h.uvmmMapInsert
    rwa [hpre]

/-- **`uvmm_map`** -/
theorem uvmmMap {s : UvmmState W} (hs : Owned I T s) (hintUaddr size accessRights flags : UInt32)
    (resource : Option UvmmMappedResource) (offsetInResource : UInt64) :
    Owned I T (uvmmMap E s hintUaddr size accessRights flags resource offsetInResource).2.2 := by
  have halloc := h.allocArena hs
  unfold Mem.uvmmMap
  cases uvmmMapCheck hintUaddr size accessRights flags resource offsetInResource with
  | error err => exact hs
  | ok resource =>
    dsimp only
    split_ifs with hfail
    · rwa [if_neg (by simpa using hfail)] at halloc
    · rw [if_pos (by simpa using hfail)] at halloc
      exact h.uvmmMapPlace halloc hintUaddr fun u => rfl

/-! ## `uvmm_resize` -/

theorem remapPages (arena : UvmmArena) (newUaddr newSize resultUaddr : UInt32) (fuel : Nat) : ∀ uaddr {w : W},
    I n T w → I n T (remapPages E arena newUaddr newSize resultUaddr fuel uaddr w).2 := by
  induction fuel with
  | zero => exact fun _ _ hi => hi
  | succ fuel ih =>
    intro uaddr w hi
    unfold Mem.remapPages
    dsimp only
    generalize (if arena.start ≥ newUaddr then _ else _) = vaddr
    split_ifs
    · exact ih _ hi
    · exact ih _ hi
    · exact h.pagingMap _ _ _ hi
    · exact ih _ (h.pagingMap _ _ _ hi)
    · exact hi

theorem uvmmResizeMove {s : UvmmState W} (hs : Owned I T s) (newUaddr : UInt32) (p : ResizePlan) :
    Owned I T (uvmmResizeMove E s newUaddr p).2.2 := by
  have hmap := h.uvmmMap hs newUaddr p.newSize p.arena.accessRights (p.arena.flags ||| internalMapCalledFromMremap)
    (some p.arena.mappedResource) p.newOffsetInResource
  unfold Mem.uvmmResizeMove
  generalize Mem.uvmmMap E s newUaddr p.newSize p.arena.accessRights
    (p.arena.flags ||| internalMapCalledFromMremap) (some p.arena.mappedResource) p.newOffsetInResource = r at hmap ⊢
  obtain ⟨retval, resultUaddr, s₁⟩ := r
  dsimp only at hmap ⊢
  have hremap : ∀ arena fuel uaddr, Owned I T { s₁ with
      world := (Mem.remapPages E arena newUaddr p.newSize resultUaddr fuel uaddr s₁.world).2 } :=
    fun arena fuel uaddr => h.remapPages arena newUaddr p.newSize resultUaddr fuel uaddr hmap
  split_ifs
  · exact hmap
  · exact h.uvmmUnmap (hremap _ _ _) _ _
  · exact h.uvmmUnmap (h.uvmmUnmap (hremap _ _ _) _ _) _ _
  · exact h.uvmmUnmap (hremap _ _ _) _ _

theorem uvmmResizeEnd {s : UvmmState W} (hs : Owned I T s) (newUaddr : UInt32) (p : ResizePlan) :
    Owned I T (uvmmResizeEnd E s newUaddr p) := by
  unfold Mem.uvmmResizeEnd
  dsimp only
  split_ifs
  · exact h.uvmmUnmap hs _ _
  · apply Owned.modifyAt
    · exact hs.account _ _ _ _
    · exact fun a => rfl

theorem uvmmResizeStart {s : UvmmState W} (hs : Owned I T s) (newUaddr : UInt32) (p : ResizePlan) :
    Owned I T (uvmmResizeStart E s newUaddr p) := by
  unfold Mem.uvmmResizeStart
  dsimp only
  split_ifs
  · exact h.uvmmUnmap hs _ _
  · apply Owned.modifyAt
    · exact hs.account _ _ _ _
    · exact fun a => rfl

/-- **`uvmm_resize`** -/
theorem uvmmResize {s : UvmmState W} (hs : Owned I T s) (oldUaddr oldSize newUaddr newSize flags : UInt32) :
    Owned I T (uvmmResize E s oldUaddr oldSize newUaddr newSize flags).2.2 := by
  unfold Mem.uvmmResize
  cases uvmmResizePlan s.addressSpace.listArena oldUaddr oldSize newUaddr newSize flags with
  | error err => exact hs
  | ok p =>
    dsimp only
    split_ifs
    · exact h.uvmmResizeMove hs newUaddr p
    · exact h.uvmmResizeStart (h.uvmmResizeEnd hs newUaddr p) newUaddr p

/-! ## `uvmm_delete_as` -/

/-- Here the structures are given back by a function of their own. -/
theorem uvmmDeleteAs {s : UvmmState W} (cacheFreeArena : UvmmArena → W → W) (cacheFreeAs : W → W)
    (hfree : ∀ {n T w} (arena : UvmmArena), I n (arena.id :: T) w → I n T (cacheFreeArena arena w))
    (hfreeAs : ∀ {n T w}, I n T w → I n T (cacheFreeAs w)) (hs : Owned I T s) :
    I s.nextId T (uvmmDeleteAs E cacheFreeArena cacheFreeAs s) := by
  have hall : ∀ (l : List UvmmArena) (w : W), I s.nextId (arenaIds l ++ T) w →
      I s.nextId T (l.foldl (deleteArena E cacheFreeArena) w) := by
    intro l
    induction l with
    | nil => exact fun w hi => hi
    | cons a l ih =>
      intro w hi
      apply ih
      apply hfree a
      refine callOps_rule (fun o => h.unref o a) _ ?_
      exact callOps_rule (fun o => h.unmap o a _ _) _ (h.delete a hi)
  exact hfreeAs (hall _ _ hs)

end ArenaRules

end Desiros.Mem
