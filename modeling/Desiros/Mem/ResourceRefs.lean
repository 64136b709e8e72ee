import Desiros.Mem.Map
import Desiros.Mem.Resources

/-!
# References of arenas to resources

`Tracked k T s`: in address space `k`, besides the references `T` from elsewhere, every resource counts and lists the
arenas that refer to it. `uvmm_unmap` keeps that whatever its arguments, and `uvmm_map` where the resource it maps is
not freed before the new arena refers to it.
-/

namespace Desiros.Mem

open Desiros.Library

variable {V W : Type} {B : UvmmEnv V} {C : ResourceCalls V} {k : Nat} {T : List (Nat × ArenaPtr)}

def UvmmArena.ref (k : Nat) (a : UvmmArena) : Nat × ArenaPtr := (a.mappedResource.addr, ⟨k, a.id⟩)

/-- The references of the arenas of a list. -/
def arenaRefs (k : Nat) (l : List UvmmArena) : List (Nat × ArenaPtr) := l.map (·.ref k)

@[simp] theorem arenaRefs_cons (k : Nat) (a : UvmmArena) (l : List UvmmArena) :
    arenaRefs k (a :: l) = a.ref k :: arenaRefs k l := rfl

@[simp] theorem arenaRefs_append (k : Nat) (l l' : List UvmmArena) :
    arenaRefs k (l ++ l') = arenaRefs k l ++ arenaRefs k l' := List.map_append

theorem mem_arenaRefs {l : List UvmmArena} {a : UvmmArena} (ha : a ∈ l) : a.ref k ∈ arenaRefs k l :=
  List.mem_map_of_mem ha

/-! ## One reference -/

section

variable {w : ResourceWorld V} {a : UvmmArena}

theorem zeroUnref_resource (C : ResourceCalls V) (a : UvmmArena) (w : ResourceWorld V) :
    (zeroUnref C a w).resource = (w.unref a).resource := by
  unfold zeroUnref
  dsimp only
  split_ifs <;> rfl

theorem callOps_ref_resource (hops : a.ops ≠ none) (w : ResourceWorld V) :
    (callOps a.ops (fun o => (resourceEnv B C k).ref o a) w).resource = (w.ref a).resource := by
  obtain ⟨o, ho⟩ := Option.ne_none_iff_exists'.mp hops
  rw [ho]
  show (if o = C.zeroOps then zeroRef a w else elf32progRef a w).resource = _
  split_ifs <;> rfl

theorem callOps_unref_resource (hops : a.ops ≠ none) (w : ResourceWorld V) :
    (callOps a.ops (fun o => (resourceEnv B C k).unref o a) w).resource = (w.unref a).resource := by
  obtain ⟨o, ho⟩ := Option.ne_none_iff_exists'.mp hops
  rw [ho]
  show (if o = C.zeroOps then zeroUnref C a w else elf32progUnref a w).resource = _
  split_ifs
  · exact zeroUnref_resource C a w
  · rfl

@[simp] theorem callOps_unmap (ops : Option Nat) (a : UvmmArena) (uaddr size : UInt32) (w : ResourceWorld V) :
    callOps ops (fun o => (resourceEnv B C k).unmap o a uaddr size) w = w := by
  cases ops <;> rfl

/-- An arena takes its reference with it. -/
theorem balanced_unref (h : Balanced (a.ref k :: T) w.resource) (hops : a.ops ≠ none) :
    Balanced T (callOps a.ops (fun o => (resourceEnv B C k).unref o a) (resourceDelete k a w)).resource := by
  rw [callOps_unref_resource hops]
  exact h.remove

theorem balanced_ref (h : Balanced T w.resource) (hlive : (w.resource a.mappedResource.addr).frees = 0)
    (hops : a.ops ≠ none) :
    Balanced (a.ref k :: T) (callOps a.ops (fun o => (resourceEnv B C k).ref o a) (resourceAddTail k a w)).resource := by
  rw [callOps_ref_resource hops]
  exact h.add hlive ⟨k, a.id⟩

/-- A resource that an arena refers to has not been freed. -/
theorem balanced_live (h : Balanced (a.ref k :: T) w.resource) : (w.resource a.mappedResource.addr).frees = 0 :=
  (h _).not_freed (refsTo_ne_nil List.mem_cons_self)

theorem update_other {r r' : Nat} (hne : r' ≠ r) (f : Counter ArenaPtr → Counter ArenaPtr) (w : ResourceWorld V) :
    (w.update r' f).resource r = w.resource r := Function.update_of_ne hne.symm ..

theorem callOps_ref_other {r : Nat} (hne : a.mappedResource.addr ≠ r) (ops : Option Nat) (w : ResourceWorld V) :
    (callOps ops (fun o => (resourceEnv B C k).ref o a) w).resource r = w.resource r := by
  cases ops with
  | none => rfl
  | some o =>
    show (if o = C.zeroOps then zeroRef a w else elf32progRef a w).resource r = _
    split_ifs <;> exact update_other hne _ w

theorem callOps_unref_other {r : Nat} (hne : a.mappedResource.addr ≠ r) (ops : Option Nat) (w : ResourceWorld V) :
    (callOps ops (fun o => (resourceEnv B C k).unref o a) w).resource r = w.resource r := by
  cases ops with
  | none => rfl
  | some o =>
    show (if o = C.zeroOps then zeroUnref C a w else elf32progUnref a w).resource r = _
    split_ifs
    · rw [zeroUnref_resource]
      exact update_other hne _ w
    · exact update_other hne _ w

end

/-! ## `uvmm_unmap` -/

section

variable {uaddr size : UInt32} {preId : Nat}

theorem unmapWalk_balanced (l : List UvmmArena) : ∀ (T : List (Nat × ArenaPtr)) (u : UnmapWalk (ResourceWorld V)),
    Balanced (arenaRefs k l ++ T) u.state.world.resource → (∀ a ∈ l, a.ops ≠ none) →
    Balanced (arenaRefs k (unmapWalk (resourceEnv B C k) uaddr size preId l u).1 ++ T)
      (unmapWalk (resourceEnv B C k) uaddr size preId l u).2.state.world.resource := by
  induction l with
  | nil => exact fun T u h _ => h
  | cons a l ih =>
    intro T u h hops
    obtain ⟨ha, hl⟩ := List.forall_mem_cons.mp hops
    rw [unmapWalk]
    split_ifs
    · exact h
    · exact h
    · -- the arena goes
      apply ih T _ _ hl
      simp only [UvmmState.removeArena, callOps_unmap]
      exact balanced_unref h ha
    · -- the preallocated structure refers to the resource as well
      have hlive := balanced_live h
      have hadd := @balanced_ref V B C k _ u.state.world (splitRight uaddr size preId a) h hlive ha
      simp only [callOps_unmap]
      refine hadd.perm ?_
      exact List.Perm.swap _ _ _
    · simp only [callOps_unmap]
      exact h
    · simp only [callOps_unmap]
      have hrest : Balanced (arenaRefs k l ++ (a.ref k :: T)) u.state.world.resource :=
        h.perm List.perm_middle.symm
      refine Balanced.perm (ih (a.ref k :: T) _ ?_ hl) List.perm_middle
      exact hrest

/-- Only the preallocated structure is new. -/
theorem unmapWalk_ids (E : UvmmEnv V) (l : List UvmmArena) : ∀ u : UnmapWalk V,
    ((unmapWalk E uaddr size preId l u).1.map (·.id)).Subperm (preId :: l.map (·.id)) := by
  induction l with
  | nil => exact fun u => List.nil_subperm
  | cons a l ih =>
    intro u
    rw [unmapWalk]
    have hrest : (preId :: l.map (·.id)).Subperm (preId :: (a :: l).map (·.id)) :=
      (List.subperm_cons _).mpr List.Subperm.cons_self
    have hswap : (a.id :: preId :: l.map (·.id)).Subperm (preId :: (a :: l).map (·.id)) :=
      (List.Perm.swap _ _ _).subperm
    split_ifs
    · exact List.Subperm.cons_self
    · exact List.Subperm.cons_self
    · exact (ih _).trans hrest
    · exact hswap
    · exact List.Subperm.cons_self
    · exact ((List.subperm_cons a.id).mpr (ih _)).trans hswap

theorem unmapWalk_ops (E : UvmmEnv V) (l : List UvmmArena) : ∀ u : UnmapWalk V, (∀ a ∈ l, a.ops ≠ none) →
    ∀ a ∈ (unmapWalk E uaddr size preId l u).1, a.ops ≠ none := by
  induction l with
  | nil => exact fun u h => h
  | cons a l ih =>
    intro u hops
    obtain ⟨ha, hl⟩ := List.forall_mem_cons.mp hops
    rw [unmapWalk]
    split_ifs
    · exact hops
    · exact hops
    · exact ih _ hl
    · exact List.forall_mem_cons.mpr ⟨ha, List.forall_mem_cons.mpr ⟨ha, hl⟩⟩
    · exact List.forall_mem_cons.mpr ⟨ha, hl⟩
    · exact List.forall_mem_cons.mpr ⟨ha, ih _ hl⟩

/-- An arena that does not lie in the region stays, whole or in part. -/
theorem unmapWalk_keeps (E : UvmmEnv V) {b : UvmmArena} (hb : ¬ (uaddr ≤ b.start ∧ b.start + b.size ≤ uaddr + size))
    (l : List UvmmArena) : ∀ u : UnmapWalk V, b ∈ l →
      ∃ b' ∈ (unmapWalk E uaddr size preId l u).1, b'.id = b.id ∧ b'.mappedResource = b.mappedResource := by
  induction l with
  | nil => exact fun u h => absurd h List.not_mem_nil
  | cons a l ih =>
    intro u hmem
    rw [unmapWalk]
    rcases List.mem_cons.mp hmem with rfl | hl
    · split_ifs
      · exact ⟨b, List.mem_cons_self, rfl, rfl⟩
      · exact ⟨b, List.mem_cons_self, rfl, rfl⟩
      · exact ⟨splitLeft uaddr b, List.mem_cons_self, rfl, rfl⟩
      · exact ⟨shiftStart uaddr size b, List.mem_cons_self, rfl, rfl⟩
      · exact ⟨splitLeft uaddr b, List.mem_cons_self, rfl, rfl⟩
    · split_ifs
      · exact ⟨b, List.mem_cons_of_mem _ hl, rfl, rfl⟩
      · exact ⟨b, List.mem_cons_of_mem _ hl, rfl, rfl⟩
      · exact ih _ hl
      · exact ⟨b, List.mem_cons_of_mem _ (List.mem_cons_of_mem _ hl), rfl, rfl⟩
      · exact ⟨b, List.mem_cons_of_mem _ hl, rfl, rfl⟩
      · obtain ⟨b', hb', hsame⟩ := ih _ hl
        exact ⟨b', List.mem_cons_of_mem _ hb', hsame⟩

/-- A resource without arenas in the list is left alone. -/
theorem unmapWalk_other {r : Nat} (l : List UvmmArena) : ∀ u : UnmapWalk (ResourceWorld V),
    (∀ a ∈ l, a.mappedResource.addr ≠ r) →
    (unmapWalk (resourceEnv B C k) uaddr size preId l u).2.state.world.resource r = u.state.world.resource r := by
  induction l with
  | nil => exact fun u _ => rfl
  | cons a l ih =>
    intro u hne
    obtain ⟨ha, hl⟩ := List.forall_mem_cons.mp hne
    rw [unmapWalk]
    split_ifs
    · rfl
    · rfl
    · rw [ih _ hl]
      simp only [UvmmState.removeArena, callOps_unmap]
      exact (callOps_unref_other ha _ _).trans (update_other ha _ _)
    · simp only [callOps_unmap]
      exact (@callOps_ref_other V B C k (splitRight uaddr size preId a) r ha _ _).trans (update_other ha _ _)
    · simp only [callOps_unmap]
      rfl
    · rw [ih _ hl]
      simp only [callOps_unmap]
      rfl

end

/-! ## An address space -/

/-- Besides the references `T` from elsewhere, the resources count and list the arenas of address space `k`. -/
structure Tracked (k : Nat) (T : List (Nat × ArenaPtr)) (s : UvmmState (ResourceWorld V)) : Prop where
  balanced : Balanced (arenaRefs k s.addressSpace.listArena ++ T) s.world.resource
  distinct : DistinctIds s.addressSpace.listArena s.nextId
  ops : ∀ a ∈ s.addressSpace.listArena, a.ops ≠ none

section

variable {s : UvmmState (ResourceWorld V)} {preId : Nat}

/-- Only the list, its structures and the counters matter. -/
theorem Tracked.congr (h : Tracked k T s) {s' : UvmmState (ResourceWorld V)}
    (hlist : s'.addressSpace.listArena = s.addressSpace.listArena) (hnext : s.nextId ≤ s'.nextId)
    (hworld : s'.world.resource = s.world.resource) : Tracked k T s' := by
  refine ⟨?_, ?_, ?_⟩
  · rw [hlist, hworld]
    exact h.balanced
  · rw [hlist]
    exact h.distinct.mono hnext
  · rw [hlist]
    exact h.ops

theorem Tracked.allocArena (h : Tracked k T s) : Tracked k T (s.allocArena (resourceEnv B C k)).2 :=
  h.congr rfl (Nat.le_succ _) rfl

theorem Tracked.freePreallocated (h : Tracked k T s) (preId : Nat) :
    Tracked k T (s.freePreallocated (resourceEnv B C k) preId) := h.congr rfl (Nat.le_refl _) rfl

/-- The structures of a list into which one was inserted. -/
theorem DistinctIds.of_subperm {l l' : List UvmmArena} {n m : Nat} (h : DistinctIds l n)
    (hsub : (l'.map (·.id)).Subperm (n :: l.map (·.id))) (hlt : n < m) : DistinctIds l' m := by
  have hnotin : n ∉ l.map (·.id) := by
    intro hmem
    obtain ⟨a, ha, heq⟩ := List.mem_map.mp hmem
    exact Nat.lt_irrefl n (heq ▸ h.lt a ha)
  have hnodup : (n :: l.map (·.id)).Nodup := List.nodup_cons.mpr ⟨hnotin, h.nodup⟩
  obtain ⟨ids, hperm, hids⟩ := hsub
  refine ⟨hperm.nodup_iff.mp (hnodup.sublist hids), fun a ha => ?_⟩
  have hmem : a.id ∈ n :: l.map (·.id) := hids.subset (hperm.mem_iff.mpr (List.mem_map_of_mem ha))
  rcases List.mem_cons.mp hmem with heq | hold
  · rw [heq]
    exact hlt
  · obtain ⟨b, hb, heq⟩ := List.mem_map.mp hold
    rw [← heq]
    exact (h.lt b hb).trans hlt

theorem unmapRegion_listArena (E : UvmmEnv W) (s : UvmmState W) (uaddr size : UInt32) (preId : Nat) :
    (unmapRegion E s uaddr size preId).addressSpace.listArena = arenasBefore s.addressSpace.listArena uaddr ++
      (unmapWalk E uaddr size preId (arenasFrom s.addressSpace.listArena uaddr) ⟨s, false⟩).1 := by
  simp only [unmapRegion]
  split_ifs <;> rfl

theorem unmapRegion_resource (s : UvmmState (ResourceWorld V)) (uaddr size : UInt32) (preId : Nat) :
    (unmapRegion (resourceEnv B C k) s uaddr size preId).world.resource =
      (unmapWalk (resourceEnv B C k) uaddr size preId (arenasFrom s.addressSpace.listArena uaddr)
        ⟨s, false⟩).2.state.world.resource := by
  simp only [unmapRegion]
  split_ifs <;> rfl

/-- The structures after `uvmm_unmap`. -/
theorem unmapRegion_distinct (E : UvmmEnv W) {s : UvmmState W} {preId : Nat}
    (hfresh : DistinctIds s.addressSpace.listArena preId) (hlt : preId < s.nextId)
    (uaddr size : UInt32) :
    DistinctIds (unmapRegion E s uaddr size preId).addressSpace.listArena
      (unmapRegion E s uaddr size preId).nextId := by
  have happ := arenasBefore_append_arenasFrom s.addressSpace.listArena uaddr
  have hids := @unmapWalk_ids _ uaddr size preId E (arenasFrom s.addressSpace.listArena uaddr) ⟨s, false⟩
  rw [unmapRegion_listArena, unmapRegion_nextId]
  refine hfresh.of_subperm ?_ hlt
  rw [List.map_append]
  refine ((List.subperm_append_left _).mpr hids).trans ?_
  conv_rhs => rw [← happ, List.map_append]
  exact List.perm_middle.subperm

/-- The structure `preId` is not on the list yet. -/
theorem Tracked.unmapRegion (h : Tracked k T s) (hfresh : DistinctIds s.addressSpace.listArena preId)
    (hlt : preId < s.nextId) (uaddr size : UInt32) :
    Tracked k T (unmapRegion (resourceEnv B C k) s uaddr size preId) := by
  have happ := arenasBefore_append_arenasFrom s.addressSpace.listArena uaddr
  obtain ⟨hbefore, hfrom⟩ := List.forall_mem_append.mp (happ.symm ▸ h.ops)
  refine ⟨?_, ?_, ?_⟩
  · have hbal := h.balanced
    rw [← happ, arenaRefs_append, List.append_assoc] at hbal
    have hwalk := @unmapWalk_balanced V B C k uaddr size preId
      (arenasFrom s.addressSpace.listArena uaddr) _ ⟨s, false⟩ (hbal.perm (List.perm_append_comm_assoc _ _ _)) hfrom
    rw [unmapRegion_listArena, unmapRegion_resource, arenaRefs_append, List.append_assoc]
    exact hwalk.perm (List.perm_append_comm_assoc _ _ _)
  · exact unmapRegion_distinct (resourceEnv B C k) hfresh hlt uaddr size
  · rw [unmapRegion_listArena]
    exact List.forall_mem_append.mpr ⟨hbefore, unmapWalk_ops _ _ _ hfrom⟩

theorem Tracked.uvmmUnmap (h : Tracked k T s) (uaddr size : UInt32) :
    Tracked k T (uvmmUnmap (resourceEnv B C k) s uaddr size).2 := by
  rcases uvmmUnmap_cases (resourceEnv B C k) s uaddr size with heq | heq | ⟨-, -, heq⟩
  · rw [heq]
    exact h
  · rw [heq]
    exact h.allocArena (C := C)
  · rw [heq]
    exact (h.allocArena (C := C)).unmapRegion h.distinct (Nat.lt_succ_self _) _ _

/-- Where an arena of the resource does not lie in the region, or is not of this address space, or there is none. -/
def KeepsResource (k : Nat) (T : List (Nat × ArenaPtr)) (l : List UvmmArena) (r : Nat) (uaddr size : UInt32) : Prop :=
  (refsTo (arenaRefs k l ++ T) r = []) ∨ refsTo T r ≠ [] ∨
    ∃ a ∈ l, a.mappedResource.addr = r ∧ ¬ (uaddr ≤ a.start ∧ a.start + a.size ≤ uaddr + size)

theorem Tracked.live_of_mem (h : Tracked k T s) {a : UvmmArena} (ha : a ∈ s.addressSpace.listArena) :
    (s.world.resource a.mappedResource.addr).frees = 0 :=
  (h.balanced _).not_freed (refsTo_ne_nil (List.mem_append_left _ (mem_arenaRefs ha)))

theorem uvmmUnmap_other {r : Nat} (hnone : ∀ a ∈ s.addressSpace.listArena, a.mappedResource.addr ≠ r)
    (uaddr size : UInt32) :
    (uvmmUnmap (resourceEnv B C k) s uaddr size).2.world.resource r = s.world.resource r := by
  rcases uvmmUnmap_cases (resourceEnv B C k) s uaddr size with heq | heq | ⟨-, -, heq⟩
  · rw [heq]
  · rw [heq]
    rfl
  · rw [heq, unmapRegion_resource, unmapWalk_other]
    · rfl
    · intro a ha
      exact hnone a (List.dropWhile_subset _ ha)

/-- An arena that does not lie in the region stays. -/
theorem uvmmUnmap_keeps (E : UvmmEnv W) (t : UvmmState W) {uaddr size : UInt32} {a : UvmmArena}
    (ha : a ∈ t.addressSpace.listArena)
    (hout : ¬ (uaddr ≤ a.start ∧ a.start + a.size ≤ uaddr + pageAlignSup size)) :
    ∃ b ∈ (uvmmUnmap E t uaddr size).2.addressSpace.listArena, b.id = a.id ∧ b.mappedResource = a.mappedResource := by
  rcases uvmmUnmap_cases E t uaddr size with heq | heq | ⟨-, -, heq⟩
  · rw [heq]
    exact ⟨a, ha, rfl, rfl⟩
  · rw [heq]
    exact ⟨a, ha, rfl, rfl⟩
  · rw [heq, unmapRegion_listArena]
    rw [← arenasBefore_append_arenasFrom t.addressSpace.listArena uaddr] at ha
    rcases List.mem_append.mp ha with hbefore | hfrom
    · exact ⟨a, List.mem_append_left _ hbefore, rfl, rfl⟩
    · obtain ⟨b, hb, hsame⟩ := @unmapWalk_keeps _ _ _ t.nextId E _ hout _ ⟨(t.allocArena E).2, false⟩ hfrom
      exact ⟨b, List.mem_append_right _ hb, hsame⟩

/-- `uvmm_unmap` does not free the resource then. -/
theorem Tracked.uvmmUnmap_live (h : Tracked k T s) {r : Nat} {uaddr size : UInt32}
    (hlive : (s.world.resource r).frees = 0)
    (hkeeps : KeepsResource k T s.addressSpace.listArena r uaddr (pageAlignSup size)) :
    ((Mem.uvmmUnmap (resourceEnv B C k) s uaddr size).2.world.resource r).frees = 0 := by
  have hafter := h.uvmmUnmap (B := B) (C := C) uaddr size
  rcases hkeeps with hnone | hothers | ⟨a, ha, hres, hout⟩
  · rw [uvmmUnmap_other]
    · exact hlive
    · intro a ha hres
      have href := mem_arenaRefs (k := k) ha
      unfold UvmmArena.ref at href
      rw [hres] at href
      exact refsTo_ne_nil (List.mem_append_left T href) hnone
  · apply (hafter.balanced r).not_freed
    rw [refsTo_append]
    exact fun hnil => hothers (List.append_eq_nil_iff.mp hnil).2
  · obtain ⟨b, hb, -, heq⟩ := uvmmUnmap_keeps (resourceEnv B C k) s ha hout
    have hb' := hafter.live_of_mem hb
    rwa [heq, hres] at hb'

end

/-! ## `uvmm_map` -/

section

variable {s : UvmmState (ResourceWorld V)} {m : NewMapping}

theorem Tracked.mapDone (h : Tracked k T s) (m : NewMapping) (arena : UvmmArena) (used : Bool) :
    Tracked k T (s.mapDone (resourceEnv B C k) m arena used).2.2 := by
  have hlist := mapDone_listArena (resourceEnv B C k) s m arena used
  have hnext := mapDone_nextId (resourceEnv B C k) s m arena used
  apply h.congr hlist (Nat.le_of_eq hnext.symm)
  cases used <;> rfl

/-- Start, size and offset of an arena are no part of its reference. -/
theorem Tracked.modify (h : Tracked k T s) (id : Nat) {f : UvmmArena → UvmmArena}
    (hf : ∀ a, (f a).id = a.id ∧ (f a).mappedResource = a.mappedResource ∧ (f a).ops = a.ops) :
    Tracked k T (s.setList (modifyArena id f s.addressSpace.listArena)) := by
  have hsame : ∀ a, ((if a.id = id then f a else a).id = a.id ∧
      (if a.id = id then f a else a).mappedResource = a.mappedResource) ∧ (if a.id = id then f a else a).ops = a.ops := by
    intro a
    split_ifs
    · exact ⟨⟨(hf a).1, (hf a).2.1⟩, (hf a).2.2⟩
    · exact ⟨⟨rfl, rfl⟩, rfl⟩
  have hrefs : arenaRefs k (modifyArena id f s.addressSpace.listArena) = arenaRefs k s.addressSpace.listArena := by
    unfold arenaRefs modifyArena
    rw [List.map_map]
    apply List.map_congr_left
    intro a _
    simp only [Function.comp_apply, UvmmArena.ref, (hsame a).1.1, (hsame a).1.2]
  have hids : (modifyArena id f s.addressSpace.listArena).map (·.id) = s.addressSpace.listArena.map (·.id) := by
    unfold modifyArena
    rw [List.map_map]
    apply List.map_congr_left
    intro a _
    exact (hsame a).1.1
  have hmem : ∀ a ∈ modifyArena id f s.addressSpace.listArena,
      ∃ b ∈ s.addressSpace.listArena, a.id = b.id ∧ a.ops = b.ops := by
    intro a ha
    obtain ⟨b, hb, rfl⟩ := List.mem_map.mp ha
    exact ⟨b, hb, (hsame b).1.1, (hsame b).2⟩
  refine ⟨?_, ⟨?_, ?_⟩, ?_⟩
  · show Balanced (arenaRefs k (modifyArena id f s.addressSpace.listArena) ++ T) s.world.resource
    rw [hrefs]
    exact h.balanced
  · exact hids ▸ h.distinct.nodup
  · intro a ha
    obtain ⟨b, hb, hid, -⟩ := hmem a ha
    rw [hid]
    exact h.distinct.lt b hb
  · intro a ha
    obtain ⟨b, hb, -, hops⟩ := hmem a ha
    rw [hops]
    exact h.ops b hb

/-- An arena merged into the one before it. -/
theorem Tracked.delete (h : Tracked k T s) {a a' : UvmmArena} (ha' : a' ∈ s.addressSpace.listArena)
    (href : a'.ref k = a.ref k) (hops : a.ops ≠ none) (freed : List UvmmArena) :
    Tracked k T { s.setList (listDelete a.id s.addressSpace.listArena) with
      world := (resourceEnv B C k).freeArena a (callOps a.ops (fun o => (resourceEnv B C k).unref o a)
        ((resourceEnv B C k).resourceDelete a s.world))
      freed := freed } := by
  obtain ⟨l₁, l₂, hsplit⟩ := List.append_of_mem ha'
  have hid : a'.id = a.id := congrArg (fun x => x.2.id) href
  have hnodup := h.distinct.nodup
  have hbal := h.balanced
  have hlist : listDelete a.id s.addressSpace.listArena = l₁ ++ l₂ := by
    rw [hsplit, ← hid]
    rw [hsplit] at hnodup
    exact listDelete_splice hnodup
  have hsub : (l₁ ++ l₂).Sublist s.addressSpace.listArena := by
    rw [hsplit]
    exact (List.Sublist.refl _).append (List.sublist_cons_self _ _)
  refine ⟨?_, ?_, ?_⟩
  · show Balanced (arenaRefs k (listDelete a.id s.addressSpace.listArena) ++ T) _
    rw [hlist, arenaRefs_append]
    rw [hsplit, arenaRefs_append, arenaRefs_cons, href, List.append_assoc, List.cons_append] at hbal
    rw [List.append_assoc]
    exact balanced_unref (B := B) (C := C) (hbal.perm List.perm_middle) hops
  · show DistinctIds (listDelete a.id s.addressSpace.listArena) s.nextId
    rw [hlist]
    exact h.distinct.sublist hsub
  · show ∀ b ∈ listDelete a.id s.addressSpace.listArena, b.ops ≠ none
    rw [hlist]
    exact fun b hb => h.ops b (hsub.subset hb)

theorem linkArena_splice {l : List UvmmArena} {prev : Option UvmmArena} (hnodup : (l.map (·.id)).Nodup)
    (hprev : ∀ p ∈ prev, p ∈ l) (a : UvmmArena) : ∃ l₁ l₂, l = l₁ ++ l₂ ∧ linkArena prev a l = l₁ ++ a :: l₂ := by
  cases prev with
  | none => exact ⟨[], l, rfl, rfl⟩
  | some p =>
    obtain ⟨l₁, l₂, rfl⟩ := List.append_of_mem (hprev p rfl)
    refine ⟨l₁ ++ [p], l₂, by simp, ?_⟩
    show listInsertAfter p.id a (l₁ ++ p :: l₂) = _
    rw [listInsertAfter_splice hnodup]
    simp

/-- A new arena refers to a resource that has not been freed. -/
theorem Tracked.uvmmMapNew (h : Tracked k T s) (hfresh : ∀ a ∈ s.addressSpace.listArena, a.id ≠ m.preId)
    (hlt : m.preId < s.nextId) {prev : Option UvmmArena} (hprev : ∀ p ∈ prev, p ∈ s.addressSpace.listArena)
    (hlive : (s.world.resource m.resource.addr).frees = 0) :
    Tracked k T (uvmmMapNew (resourceEnv B C k) s m prev).2.2 := by
  obtain ⟨l₁, l₂, hsplit, hlink⟩ := linkArena_splice h.distinct.nodup hprev m.arena
  have hbal := h.balanced
  have hnodup := h.distinct.nodup
  have hltall := h.distinct.lt
  have hopsall := h.ops
  rw [hsplit] at hfresh hbal hnodup hltall hopsall
  have hnodup' : ((l₁ ++ m.arena :: l₂).map (·.id)).Nodup := nodup_insert hnodup hfresh
  obtain ⟨o, hmmap⟩ : ∃ o, (resourceEnv B C k).mmap (m.resource.mmap.getD 0) m.arena
      ((resourceEnv B C k).resourceAddTail m.arena s.world) =
        (0, some o, (resourceEnv B C k).resourceAddTail m.arena s.world) := ⟨_, rfl⟩
  obtain ⟨arena, harena⟩ : ∃ arena : UvmmArena, arena = { m.arena with ops := some o } := ⟨_, rfl⟩
  have hmodify : modifyArena m.preId (fun a => { a with ops := some o }) (l₁ ++ m.arena :: l₂) = l₁ ++ arena :: l₂ := by
    rw [harena]
    exact modifyArena_splice (a := m.arena) hnodup' _
  have hid : arena.id = m.preId := by rw [harena]; rfl
  have hres : arena.mappedResource = m.resource := by rw [harena]; rfl
  have hops : arena.ops = some o := by rw [harena]
  unfold Mem.uvmmMapNew
  simp only [hlink, hmmap, hmodify, ne_eq, not_true_eq_false, if_false, ← harena]
  apply Tracked.mapDone
  refine ⟨?_, ⟨?_, ?_⟩, ?_⟩
  · show Balanced (arenaRefs k (l₁ ++ arena :: l₂) ++ T) _
    rw [arenaRefs_append, arenaRefs_cons, List.append_assoc, List.cons_append]
    rw [arenaRefs_append, List.append_assoc] at hbal
    refine Balanced.perm ?_ List.perm_middle.symm
    have hmap : (resourceEnv B C k).resourceAddTail m.arena s.world = resourceAddTail k arena s.world := by
      rw [harena]
      rfl
    rw [hmap]
    have hadd := balanced_ref (B := B) (C := C) (k := k) (a := arena) hbal (hres ▸ hlive) (hops ▸ Option.some_ne_none o)
    rw [hops] at hadd
    exact hadd
  · show ((l₁ ++ arena :: l₂).map (·.id)).Nodup
    exact nodup_insert hnodup fun a ha => hid ▸ hfresh a ha
  · show ∀ a ∈ l₁ ++ arena :: l₂, a.id < s.nextId
    intro a ha
    rcases List.mem_append.mp ha with ha | ha
    · exact hltall a (List.mem_append_left _ ha)
    rcases List.mem_cons.mp ha with rfl | ha
    · exact hid ▸ hlt
    · exact hltall a (List.mem_append_right _ ha)
  · show ∀ a ∈ l₁ ++ arena :: l₂, a.ops ≠ none
    intro a ha
    rcases List.mem_append.mp ha with ha | ha
    · exact hopsall a (List.mem_append_left _ ha)
    rcases List.mem_cons.mp ha with rfl | ha
    · exact hops ▸ Option.some_ne_none o
    · exact hopsall a (List.mem_append_right _ ha)

theorem mapNeighbours_mem (l : List UvmmArena) (uaddr : UInt32) :
    (∀ p ∈ (mapNeighbours l uaddr).1, p ∈ l) ∧ ∀ n ∈ (mapNeighbours l uaddr).2, n ∈ l := by
  have hlast : ∀ p ∈ l.getLast?, p ∈ l := fun p hp => List.mem_of_getLast? hp
  have hbefore : ∀ p ∈ (arenasBefore l uaddr).getLast?, p ∈ l := fun p hp =>
    List.takeWhile_subset _ (List.mem_of_getLast? hp)
  unfold mapNeighbours
  rw [findEnclosingOrNextArena_eq]
  cases hnext : (arenasFrom l uaddr).head? with
  | none => exact ⟨hlast, fun n hn => absurd hn (by simp)⟩
  | some next =>
    refine ⟨?_, ?_⟩
    · intro p hp
      have hor := (Option.mem_filter_iff.mp hp).1
      cases hb : (arenasBefore l uaddr).getLast? with
      | none =>
        rw [hb, Option.none_or] at hor
        exact hlast p hor
      | some q =>
        rw [hb, Option.some_or] at hor
        exact hbefore p (hb.trans hor)
    · intro n hn
      rw [← Option.mem_some_iff.mp hn]
      exact List.dropWhile_subset _ (List.mem_of_head? hnext)

/-- Where a mapping merges with a neighbour, no new reference is needed. -/
theorem Tracked.uvmmMapInsert (h : Tracked k T s) (hfresh : ∀ a ∈ s.addressSpace.listArena, a.id ≠ m.preId)
    (hlt : m.preId < s.nextId) (hlive : (s.world.resource m.resource.addr).frees = 0) :
    Tracked k T (uvmmMapInsert (resourceEnv B C k) s m).2.2 := by
  obtain ⟨hprevs, hnexts⟩ := mapNeighbours_mem s.addressSpace.listArena m.uaddr
  unfold Mem.uvmmMapInsert
  dsimp only
  generalize mapNeighbours s.addressSpace.listArena m.uaddr = nb at hprevs hnexts
  have hprevs' : ∀ p ∈ nb.1.filter (mergeWithPreceding m), p ∈ s.addressSpace.listArena :=
    fun p hp => hprevs p (Option.mem_filter_iff.mp hp).1
  have hnexts' : ∀ n ∈ nb.2.filter (mergeWithNext m), n ∈ s.addressSpace.listArena :=
    fun n hn => hnexts n (Option.mem_filter_iff.mp hn).1
  cases hp : nb.1.filter (mergeWithPreceding m) with
  | none =>
    cases hn : nb.2.filter (mergeWithNext m) with
    | none => exact h.uvmmMapNew hfresh hlt hprevs hlive
    | some next =>
      apply Tracked.mapDone
      exact h.modify next.id fun a => ⟨rfl, rfl, rfl⟩
  | some prev =>
    cases hn : nb.2.filter (mergeWithNext m) with
    | none =>
      apply Tracked.mapDone
      exact h.modify prev.id fun a => ⟨rfl, rfl, rfl⟩
    | some next =>
      have hnext := hnexts' next hn
      have hwide := h.modify prev.id
        (f := fun a => { a with size := a.size + (m.size + next.size) }) fun a => ⟨rfl, rfl, rfl⟩
      apply Tracked.mapDone
      have hmem : (if next.id = prev.id then { next with size := next.size + (m.size + next.size) } else next) ∈
          modifyArena prev.id (fun a => { a with size := a.size + (m.size + next.size) }) s.addressSpace.listArena :=
        List.mem_map_of_mem hnext
      refine hwide.delete hmem ?_ (h.ops next hnext) (next :: s.freed)
      split_ifs <;> rfl

theorem pageAlignSup_pageAlignSup (size : UInt32) : pageAlignSup (pageAlignSup size) = pageAlignSup size := by
  have h : ∀ v, (pageAlignSup v).toNat = _ := toNat_alignSup
  rw [word_eq_iff, h, h]
  omega

theorem uvmmUnmap_ids (E : UvmmEnv W) (t : UvmmState W) (uaddr size : UInt32) :
    ∀ a ∈ (uvmmUnmap E t uaddr size).2.addressSpace.listArena,
      a.id = t.nextId ∨ ∃ b ∈ t.addressSpace.listArena, b.id = a.id := by
  intro a ha
  rcases uvmmUnmap_cases E t uaddr size with heq | heq | ⟨-, -, heq⟩
  · rw [heq] at ha
    exact Or.inr ⟨a, ha, rfl⟩
  · rw [heq] at ha
    exact Or.inr ⟨a, ha, rfl⟩
  · rw [heq, unmapRegion_listArena] at ha
    rcases List.mem_append.mp ha with hbefore | hfrom
    · exact Or.inr ⟨a, List.takeWhile_subset _ hbefore, rfl⟩
    · have hids := (@unmapWalk_ids _ _ _ t.nextId E _ _).subset (List.mem_map_of_mem hfrom)
      rcases List.mem_cons.mp hids with hnew | hold
      · exact Or.inl hnew
      · obtain ⟨b, hb, hid⟩ := List.mem_map.mp hold
        exact Or.inr ⟨b, List.dropWhile_subset _ hb, hid⟩

theorem uvmmUnmap_nextId_le (E : UvmmEnv W) (t : UvmmState W) (uaddr size : UInt32) :
    t.nextId ≤ (uvmmUnmap E t uaddr size).2.nextId := by
  rcases uvmmUnmap_cases E t uaddr size with heq | heq | ⟨-, -, heq⟩
  · rw [heq]
  · rw [heq]
    exact Nat.le_succ _
  · rw [heq, unmapRegion_nextId]
    exact Nat.le_succ _

/-- A call of `uvmm_map` with `ARENA_MAP_FIXED` that gets as far as unmapping what it overlaps does not unmap the last
arena of the resource it maps; `v` answers for the cache of arenas. -/
def MapKeeps (B : UvmmEnv V) (v : V) (k : Nat) (T : List (Nat × ArenaPtr)) (l : List UvmmArena) (r : Nat)
    (hintUaddr size flags : UInt32) : Prop :=
  hasFlag (flags &&& (arenaMapShared ||| arenaMapFixed)) arenaMapFixed = true → ¬ hintUaddr < userOffset →
    ¬ hintUaddr > pagingTopUserAddress - pageAlignSup size → (B.allocArena v).1 = true →
    (B.allocArena (B.allocArena v).2).1 = true → KeepsResource k T l r hintUaddr (pageAlignSup size)

/-- The mapping is of a resource that has not been freed; the structure `preId` is not on the list yet. -/
theorem Tracked.uvmmMapPlace (h : Tracked k T s) {mapping : UInt32 → NewMapping} (preId : Nat)
    (res : UvmmMappedResource) (hpre : ∀ u, (mapping u).preId = preId) (hres : ∀ u, (mapping u).resource = res)
    (hids : DistinctIds s.addressSpace.listArena preId) (hlt : preId < s.nextId)
    (hlive : (s.world.resource res.addr).frees = 0) (hintUaddr : UInt32)
    (hkeeps : hasFlag (mapping hintUaddr).flags arenaMapFixed = true → ¬ hintUaddr < userOffset →
      ¬ hintUaddr > pagingTopUserAddress - (mapping hintUaddr).size → (B.allocArena s.world.rest).1 = true →
      KeepsResource k T s.addressSpace.listArena res.addr hintUaddr (pageAlignSup (mapping hintUaddr).size)) :
    Tracked k T (uvmmMapPlace (resourceEnv B C k) s hintUaddr mapping).2.2 := by
  unfold Mem.uvmmMapPlace
  dsimp only
  split_ifs with hfixed h1 h2 h3 hfound
  · exact h.freePreallocated _
  · exact h.freePreallocated _
  · exact (h.uvmmUnmap _ _).freePreallocated _
  · refine (h.uvmmUnmap _ _).uvmmMapInsert ?_ ?_ ?_
    · intro a ha
      rw [hpre]
      rcases uvmmUnmap_ids _ _ _ _ a ha with hnew | ⟨b, hb, hid⟩
      · rw [hnew]
        exact Nat.ne_of_gt hlt
      · rw [← hid]
        exact Nat.ne_of_lt (hids.lt b hb)
    · rw [hpre]
      exact Nat.lt_of_lt_of_le hlt (uvmmUnmap_nextId_le _ _ _ _)
    · rw [hres]
      rcases uvmmUnmap_cases (resourceEnv B C k) s hintUaddr (mapping hintUaddr).size with heq | heq | ⟨-, halloc, -⟩
      · rw [heq] at h3
        exact absurd (show (-1 : Int) ≠ 0 by decide) h3
      · rw [heq] at h3
        exact absurd (show (-3 : Int) ≠ 0 by decide) h3
      · exact h.uvmmUnmap_live hlive (hkeeps hfixed h1 h2 halloc)
  · exact h.freePreallocated _
  · refine h.uvmmMapInsert ?_ ?_ ?_
    · rw [hpre]
      exact fun a ha => Nat.ne_of_lt (hids.lt a ha)
    · rw [hpre]
      exact hlt
    · rw [hres]
      exact hlive

theorem Tracked.uvmmMap (h : Tracked k T s) (hintUaddr size accessRights flags : UInt32)
    (resource : Option UvmmMappedResource) (offsetInResource : UInt64)
    (hlive : ∀ res ∈ resource, (s.world.resource res.addr).frees = 0)
    (hkeeps : ∀ res, uvmmMapCheck hintUaddr size accessRights flags resource offsetInResource = .ok res →
      MapKeeps B s.world.rest k T s.addressSpace.listArena res.addr hintUaddr size flags) :
    Tracked k T
      (uvmmMap (resourceEnv B C k) s hintUaddr size accessRights flags resource offsetInResource).2.2 := by
  unfold Mem.uvmmMap
  cases hcheck : uvmmMapCheck hintUaddr size accessRights flags resource offsetInResource with
  | error err => exact h
  | ok res =>
    have hres := (uvmmMapCheck_ok hcheck).1
    have halloc := h.allocArena (B := B) (C := C)
    dsimp only
    by_cases hok : (!(s.allocArena (resourceEnv B C k)).1) = true
    · rw [if_pos hok]
      exact halloc
    · rw [if_neg hok]
      refine halloc.uvmmMapPlace s.nextId res (fun u => rfl) (fun u => rfl) h.distinct (Nat.lt_succ_self _) (hlive res hres) _ ?_
      intro hfixed h1 h2 hpre
      show KeepsResource k T s.addressSpace.listArena res.addr hintUaddr (pageAlignSup (pageAlignSup size))
      rw [pageAlignSup_pageAlignSup]
      have hfirst : (s.allocArena (resourceEnv B C k)).1 = true := by simpa using hok
      exact hkeeps res hcheck hfixed h1 h2 hfirst hpre

end

/-! ## `uvmm_resize` -/

section

variable {s : UvmmState (ResourceWorld V)}

theorem remapPages_resource (arena : UvmmArena) (newUaddr newSize resultUaddr : UInt32) (fuel : Nat) :
    ∀ uaddr (w : ResourceWorld V),
      (remapPages (resourceEnv B C k) arena newUaddr newSize resultUaddr fuel uaddr w).2.resource = w.resource := by
  induction fuel with
  | zero => exact fun _ _ => rfl
  | succ fuel ih =>
    intro uaddr w
    unfold remapPages
    dsimp only
    split_ifs
    all_goals first | rfl | exact ih _ _

theorem Tracked.modifyAt (h : Tracked k T s) (id : Nat) {f : UvmmArena → UvmmArena}
    (hf : ∀ a, (f a).id = a.id ∧ (f a).mappedResource = a.mappedResource ∧ (f a).ops = a.ops) :
    Tracked k T (s.modifyAt id f) := (h.modify id hf).congr rfl (Nat.le_refl _) rfl

theorem mem_of_resizePlan {l : List UvmmArena} {oldUaddr oldSize newUaddr newSize flags : UInt32} {p : ResizePlan}
    (hp : uvmmResizePlan l oldUaddr oldSize newUaddr newSize flags = .ok p) : p.arena ∈ l := by
  unfold uvmmResizePlan at hp
  split_ifs at hp
  cases hfind : findFirstIntersectingArena l (pageAlignInf oldUaddr) (pageAlignSup oldSize) with
  | none =>
    rw [hfind] at hp
    cases hp
  | some arena =>
    rw [hfind] at hp
    dsimp only at hp
    split_ifs at hp
    rw [← Except.ok.inj hp]
    unfold findFirstIntersectingArena at hfind
    rw [findEnclosingOrNextArena_eq] at hfind
    exact List.dropWhile_subset _ (List.mem_of_head? hfind)

/-- What `uvmm_resize` asks of the `uvmm_map` it calls. -/
def ResizeKeeps (B : UvmmEnv V) (v : V) (k : Nat) (T : List (Nat × ArenaPtr)) (l : List UvmmArena)
    (oldUaddr oldSize newUaddr newSize flags : UInt32) : Prop :=
  ∀ p, uvmmResizePlan l oldUaddr oldSize newUaddr newSize flags = .ok p → p.mustMoveArena = true →
    MapKeeps B v k T l p.arena.mappedResource.addr newUaddr p.newSize
      (p.arena.flags ||| internalMapCalledFromMremap)

theorem Tracked.uvmmResizeMove (h : Tracked k T s) (newUaddr : UInt32) (p : ResizePlan)
    (hp : p.arena ∈ s.addressSpace.listArena)
    (hkeeps : MapKeeps B s.world.rest k T s.addressSpace.listArena p.arena.mappedResource.addr newUaddr p.newSize
      (p.arena.flags ||| internalMapCalledFromMremap)) :
    Tracked k T (uvmmResizeMove (resourceEnv B C k) s newUaddr p).2.2 := by
  have hmap := h.uvmmMap (B := B) (C := C) newUaddr p.newSize p.arena.accessRights
    (p.arena.flags ||| internalMapCalledFromMremap) (some p.arena.mappedResource) p.newOffsetInResource
    (fun res hres => Option.some.inj hres ▸ h.live_of_mem hp)
    fun res hres => Option.some.inj (uvmmMapCheck_ok hres).1 ▸ hkeeps
  unfold Mem.uvmmResizeMove
  generalize Mem.uvmmMap (resourceEnv B C k) s newUaddr p.newSize p.arena.accessRights
    (p.arena.flags ||| internalMapCalledFromMremap) (some p.arena.mappedResource) p.newOffsetInResource = r at hmap ⊢
  obtain ⟨retval, resultUaddr, s₁⟩ := r
  dsimp only at hmap ⊢
  have hremap : ∀ w, w.resource = s₁.world.resource → Tracked k T { s₁ with world := w } :=
    fun w hw => hmap.congr rfl (Nat.le_refl _) hw
  split_ifs
  · exact hmap
  · exact (hremap _ (remapPages_resource _ _ _ _ _ _ _)).uvmmUnmap _ _
  · exact ((hremap _ (remapPages_resource _ _ _ _ _ _ _)).uvmmUnmap _ _).uvmmUnmap _ _
  · exact (hremap _ (remapPages_resource _ _ _ _ _ _ _)).uvmmUnmap _ _

theorem Tracked.uvmmResizeEnd (h : Tracked k T s) (newUaddr : UInt32) (p : ResizePlan) :
    Tracked k T (uvmmResizeEnd (resourceEnv B C k) s newUaddr p) := by
  unfold Mem.uvmmResizeEnd
  dsimp only
  split_ifs
  · exact h.uvmmUnmap _ _
  · apply Tracked.modifyAt
    · exact h.congr (asAccountChangeOfArenaProt_listArena _ _ _ _ _) (Nat.le_refl _) rfl
    · exact fun a => ⟨rfl, rfl, rfl⟩

theorem Tracked.uvmmResizeStart (h : Tracked k T s) (newUaddr : UInt32) (p : ResizePlan) :
    Tracked k T (uvmmResizeStart (resourceEnv B C k) s newUaddr p) := by
  unfold Mem.uvmmResizeStart
  dsimp only
  split_ifs
  · exact h.uvmmUnmap _ _
  · apply Tracked.modifyAt
    · exact h.congr (asAccountChangeOfArenaProt_listArena _ _ _ _ _) (Nat.le_refl _) rfl
    · exact fun a => ⟨rfl, rfl, rfl⟩

theorem Tracked.uvmmResize (h : Tracked k T s) (oldUaddr oldSize newUaddr newSize flags : UInt32)
    (hkeeps : ResizeKeeps B s.world.rest k T s.addressSpace.listArena oldUaddr oldSize newUaddr newSize flags) :
    Tracked k T (uvmmResize (resourceEnv B C k) s oldUaddr oldSize newUaddr newSize flags).2.2 := by
  unfold Mem.uvmmResize
  cases hplan : uvmmResizePlan s.addressSpace.listArena oldUaddr oldSize newUaddr newSize flags with
  | error err => exact h
  | ok p =>
    dsimp only
    split_ifs with hmove
    · exact h.uvmmResizeMove newUaddr p (mem_of_resizePlan hplan) (hkeeps p hplan hmove)
    · exact (h.uvmmResizeEnd newUaddr p).uvmmResizeStart newUaddr p

end

/-! ## `uvmm_delete_as` -/

theorem deleteArenas_balanced (l : List UvmmArena) : ∀ w : ResourceWorld V, Balanced (arenaRefs k l ++ T) w.resource →
    (∀ a ∈ l, a.ops ≠ none) →
    Balanced T (l.foldl (deleteArena (resourceEnv B C k) fun a w => w.setRest (C.kvmmCacheFreeArena a w.rest)) w).resource := by
  induction l with
  | nil => exact fun w h _ => h
  | cons a l ih =>
    intro w h hops
    obtain ⟨ha, hl⟩ := List.forall_mem_cons.mp hops
    rw [List.foldl_cons]
    refine ih _ ?_ hl
    unfold deleteArena
    dsimp only
    rw [callOps_unmap]
    exact balanced_unref (B := B) (C := C) h ha

end Desiros.Mem
