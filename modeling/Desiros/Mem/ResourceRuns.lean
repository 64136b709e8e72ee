import Desiros.Library.Runs
import Desiros.Mem.ResourceRefs

/-!
# The life of mapped resources

Any number of address spaces, and the resources mapped in them. `ResourceLaw` is what the counters promise,
`resource_runs_law` that every run keeps it in which no fixed mapping unmaps the last arena of the resource it maps.
-/

namespace Desiros.Mem

open Desiros.Library

variable {V W : Type} {B : UvmmEnv V} {C : ResourceCalls V}

def UvmmState.withWorld (s : UvmmState V) (w : W) : UvmmState W := ⟨s.addressSpace, s.freed, s.nextId, w⟩

/-- The address spaces there are, and the world they share. -/
structure ResourceSystem (V : Type) where
  spaces : List Nat
  space : Nat → UvmmState Unit
  world : ResourceWorld V

inductive ResourceOp
  | createAs (k : Nat)
  /-- A resource at a new address, filled with zeros. -/
  | createResource (r : Nat)
  | map (k : Nat) (hintUaddr size accessRights flags : UInt32) (resource : Option UvmmMappedResource)
      (offsetInResource : UInt64)
  | unmap (k : Nat) (uaddr size : UInt32)
  | resize (k : Nat) (oldUaddr oldSize newUaddr newSize flags : UInt32)
  | deleteAs (k : Nat)

namespace ResourceSystem

/-- Address space `k` in the world. -/
def spaceAt (s : ResourceSystem V) (k : Nat) : UvmmState (ResourceWorld V) := (s.space k).withWorld s.world

def set (s : ResourceSystem V) (k : Nat) (t : UvmmState (ResourceWorld V)) : ResourceSystem V :=
  { s with
    space := Function.update s.space k (t.withWorld ())
    world := t.world }

/-- The references of the arenas of some address spaces. -/
def refsOf (s : ResourceSystem V) (ks : List Nat) : List (Nat × ArenaPtr) :=
  ks.flatMap fun k => arenaRefs k (s.space k).addressSpace.listArena

def refs (s : ResourceSystem V) : List (Nat × ArenaPtr) := s.refsOf s.spaces

/-- The references of the other address spaces. -/
def others (s : ResourceSystem V) (k : Nat) : List (Nat × ArenaPtr) := s.refsOf (s.spaces.erase k)

end ResourceSystem

def resourceStep (B : UvmmEnv V) (C : ResourceCalls V) (s : ResourceSystem V) : ResourceOp → ResourceSystem V
  | .createAs k =>
    { s with
      spaces := k :: s.spaces
      space := Function.update s.space k (uvmmCreateEmptyAs ()) }
  | .createResource r =>
    { s with world := { s.world.update r fun _ => {} with
        listMappedPages := Function.update s.world.listMappedPages r [] } }
  | .map k hintUaddr size accessRights flags resource offsetInResource =>
    s.set k (uvmmMap (resourceEnv B C k) (s.spaceAt k) hintUaddr size accessRights flags resource offsetInResource).2.2
  | .unmap k uaddr size => s.set k (uvmmUnmap (resourceEnv B C k) (s.spaceAt k) uaddr size).2
  | .resize k oldUaddr oldSize newUaddr newSize flags =>
    s.set k (uvmmResize (resourceEnv B C k) (s.spaceAt k) oldUaddr oldSize newUaddr newSize flags).2.2
  | .deleteAs k =>
    { s with
      spaces := s.spaces.erase k
      world := uvmmDeleteAs (resourceEnv B C k) (fun a w => w.setRest (C.kvmmCacheFreeArena a w.rest))
        (fun w => w.setRest (C.kvmmCacheFreeAs w.rest)) (s.spaceAt k) }

/-- Callers name address spaces that exist, memory no arena refers to for a new resource, and resources that have
not been freed. -/
def ResourceAllowed (s : ResourceSystem V) : ResourceOp → Prop
  | .createAs k => k ∉ s.spaces
  | .createResource r => refsTo s.refs r = []
  | .map k _ _ _ _ resource _ => k ∈ s.spaces ∧ ∀ res ∈ resource, (s.world.resource res.addr).frees = 0
  | .unmap k _ _ => k ∈ s.spaces
  | .resize k _ _ _ _ _ => k ∈ s.spaces
  | .deleteAs k => k ∈ s.spaces

/-- No fixed mapping unmaps the last arena of the resource it maps. -/
def ResourceGood (B : UvmmEnv V) (s : ResourceSystem V) : ResourceOp → Prop
  | .map k hintUaddr size accessRights flags resource offsetInResource =>
    ∀ res, uvmmMapCheck hintUaddr size accessRights flags resource offsetInResource = .ok res →
      MapKeeps B s.world.rest k (s.others k) (s.space k).addressSpace.listArena res.addr hintUaddr size flags
  | .resize k oldUaddr oldSize newUaddr newSize flags =>
    ResizeKeeps B s.world.rest k (s.others k) (s.space k).addressSpace.listArena oldUaddr oldSize newUaddr newSize flags
  | _ => True

/-- What the counters of the resources promise. -/
structure ResourceLaw (s : ResourceSystem V) : Prop where
  /-- `ref_cnt` is the number of arenas that refer to the resource. -/
  refCnt : ∀ r, (s.world.resource r).refCnt = (refsTo s.refs r).length
  /-- These are the arenas on its `list_arena`. -/
  listArena : ∀ r, (s.world.resource r).holders.Perm (refsTo s.refs r)
  /-- It is freed once when the last of them goes, and not before. -/
  frees : ∀ r, (s.world.resource r).frees = if (s.world.resource r).used = true ∧ refsTo s.refs r = [] then 1 else 0
  /-- No arena refers to a freed resource. -/
  live : ∀ k ∈ s.spaces, ∀ a ∈ (s.space k).addressSpace.listArena, (s.world.resource a.mappedResource.addr).frees = 0

/-! ## The invariant -/

structure ResourceInv (s : ResourceSystem V) : Prop where
  nodup : s.spaces.Nodup
  balanced : Balanced s.refs s.world.resource
  distinct : ∀ k ∈ s.spaces, DistinctIds (s.space k).addressSpace.listArena (s.space k).nextId
  ops : ∀ k ∈ s.spaces, ∀ a ∈ (s.space k).addressSpace.listArena, a.ops ≠ none

section

variable {s : ResourceSystem V} {k : Nat}

theorem ResourceInv.law (h : ResourceInv s) : ResourceLaw s := by
  refine ⟨fun r => (h.balanced r).refCnt, fun r => (h.balanced r).holders, fun r => (h.balanced r).frees, ?_⟩
  intro k hk a ha
  apply (h.balanced _).not_freed
  exact refsTo_ne_nil (List.mem_flatMap.mpr ⟨k, hk, mem_arenaRefs ha⟩)

theorem refs_perm (hk : k ∈ s.spaces) :
    s.refs.Perm (arenaRefs k (s.space k).addressSpace.listArena ++ s.others k) :=
  (List.perm_cons_erase hk).flatMap_right _

theorem ResourceInv.tracked (h : ResourceInv s) (hk : k ∈ s.spaces) : Tracked k (s.others k) (s.spaceAt k) :=
  ⟨h.balanced.perm (refs_perm hk), h.distinct k hk, h.ops k hk⟩

/-- Only address space `k` changes. -/
theorem refsOf_update {ks : List Nat} (hk : k ∉ ks) (t : UvmmState Unit) (spaces : List Nat) (w : ResourceWorld V) :
    ResourceSystem.refsOf ⟨spaces, Function.update s.space k t, w⟩ ks = s.refsOf ks := by
  unfold ResourceSystem.refsOf
  apply List.flatMap_congr
  intro j hj
  have hne : j ≠ k := fun he => hk (he ▸ hj)
  simp only [Function.update_of_ne hne]

theorem ResourceInv.set (h : ResourceInv s) (hk : k ∈ s.spaces) {t : UvmmState (ResourceWorld V)}
    (ht : Tracked k (s.others k) t) : ResourceInv (s.set k t) := by
  have hk' : k ∈ (s.set k t).spaces := hk
  have hself : (s.set k t).space k = t.withWorld () := Function.update_self ..
  have hothers : (s.set k t).others k = s.others k := refsOf_update h.nodup.not_mem_erase _ _ _
  refine ⟨h.nodup, ?_, ?_, ?_⟩
  · have hperm := refs_perm hk'
    rw [hself, hothers] at hperm
    exact ht.balanced.perm hperm.symm
  · intro j hj
    by_cases hne : j = k
    · rw [hne, hself]
      exact ht.distinct
    · have hsame : (s.set k t).space j = s.space j := Function.update_of_ne hne ..
      rw [hsame]
      exact h.distinct j hj
  · intro j hj
    by_cases hne : j = k
    · rw [hne, hself]
      exact ht.ops
    · have hsame : (s.set k t).space j = s.space j := Function.update_of_ne hne ..
      rw [hsame]
      exact h.ops j hj

theorem ResourceInv.createAs (h : ResourceInv s) (hk : k ∉ s.spaces) :
    ResourceInv (resourceStep B C s (.createAs k)) := by
  have hself : (resourceStep B C s (.createAs k)).space k = uvmmCreateEmptyAs () := Function.update_self ..
  have hsame : ∀ j ∈ s.spaces, (resourceStep B C s (.createAs k)).space j = s.space j := by
    intro j hj
    have hne : j ≠ k := fun he => hk (he ▸ hj)
    exact Function.update_of_ne hne ..
  have hrefs : (resourceStep B C s (.createAs k)).refs = s.refs := by
    show arenaRefs k ((resourceStep B C s (.createAs k)).space k).addressSpace.listArena ++ _ = _
    rw [hself]
    exact refsOf_update hk _ _ _
  refine ⟨List.nodup_cons.mpr ⟨hk, h.nodup⟩, ?_, ?_, ?_⟩
  · rw [hrefs]
    exact h.balanced
  · intro j hj
    rcases List.mem_cons.mp hj with rfl | hj
    · rw [hself]
      exact ⟨List.nodup_nil, fun _ ha => absurd ha List.not_mem_nil⟩
    · rw [hsame j hj]
      exact h.distinct j hj
  · intro j hj
    rcases List.mem_cons.mp hj with rfl | hj
    · rw [hself]
      exact fun _ ha => absurd ha List.not_mem_nil
    · rw [hsame j hj]
      exact h.ops j hj

theorem ResourceInv.createResource (h : ResourceInv s) {r : Nat} (hr : refsTo s.refs r = []) :
    ResourceInv (resourceStep B C s (.createResource r)) := by
  refine ⟨h.nodup, fun r' => ?_, h.distinct, h.ops⟩
  show (Function.update s.world.resource r {} r').Ok (refsTo s.refs r')
  by_cases hne : r' = r
  · rw [hne, Function.update_self, hr]
    exact Counter.ok_new
  · rw [Function.update_of_ne hne]
    exact h.balanced r'

theorem ResourceInv.deleteAs (h : ResourceInv s) (hk : k ∈ s.spaces) :
    ResourceInv (resourceStep B C s (.deleteAs k)) := by
  have ht := h.tracked hk
  refine ⟨h.nodup.erase k, ?_, ?_, ?_⟩
  · exact deleteArenas_balanced _ _ ht.balanced ht.ops
  · exact fun j hj => h.distinct j (List.mem_of_mem_erase hj)
  · exact fun j hj => h.ops j (List.mem_of_mem_erase hj)

theorem ResourceInv.step (h : ResourceInv s) {op : ResourceOp} (hallowed : ResourceAllowed s op)
    (hgood : ResourceGood B s op) : ResourceInv (resourceStep B C s op) := by
  cases op with
  | createAs k => exact h.createAs hallowed
  | createResource r => exact h.createResource hallowed
  | map k hintUaddr size accessRights flags resource offsetInResource =>
    exact h.set hallowed.1 ((h.tracked hallowed.1).uvmmMap _ _ _ _ _ _ hallowed.2 hgood)
  | unmap k uaddr size => exact h.set hallowed ((h.tracked hallowed).uvmmUnmap _ _)
  | resize k oldUaddr oldSize newUaddr newSize flags =>
    exact h.set hallowed ((h.tracked hallowed).uvmmResize _ _ _ _ _ hgood)
  | deleteAs k => exact h.deleteAs hallowed

end

/-! ## Runs -/

/-- No address space, and no resource. -/
def noResources (v : V) : ResourceSystem V where
  spaces := []
  space := fun _ => uvmmCreateEmptyAs ()
  world := ⟨fun _ => {}, fun _ => [], v⟩

theorem resourceInv_noResources (v : V) : ResourceInv (noResources v) :=
  ⟨List.nodup_nil, fun _ => Counter.ok_new, fun _ hk => absurd hk List.not_mem_nil,
    fun _ hk => absurd hk List.not_mem_nil⟩

/-- **The life of mapped resources**: after any sequence of calls in which no fixed mapping unmaps the last arena of
the resource it maps, every resource counts and lists the arenas that refer to it, and was freed once if the last of
them went. -/
theorem resource_runs_law (B : UvmmEnv V) (C : ResourceCalls V) (v : V) (ops : List ResourceOp)
    (hallowed : Guarded (resourceStep B C) ResourceAllowed (noResources v) ops)
    (hgood : Guarded (resourceStep B C) (ResourceGood B) (noResources v) ops) :
    ResourceLaw (run (resourceStep B C) (noResources v) ops) := by
  have hstep : ∀ (s : ResourceSystem V) op, ResourceInv s → ResourceAllowed s op ∧ ResourceGood B s op →
      ResourceInv (resourceStep B C s op) := fun s op h hop => h.step hop.1 hop.2
  exact (invariant_run hstep ops _ (resourceInv_noResources v) (guarded_and hallowed hgood)).law

/-! ## A program mapped twice at one address -/

def quietCalls : ResourceCalls Unit where
  zeroMmap := 1
  zeroOps := 1
  elf32progMmap := 2
  elf32progOps := 2
  physmemUnrefPhyspage := fun _ _ => ()
  kvmmCacheFreeArena := fun _ _ => ()
  kvmmCacheFreeAs := fun _ => ()

/-- `mapped_prog->mr` at address 2. -/
def progResource : UvmmMappedResource := ⟨2, 7, 0, some 2⟩

def mapProg : ResourceOp := .map 0 0x40000000 0x2000 7 arenaMapFixed (some progResource) 0

/-- The second mapping unmaps the first, which frees the program, and refers to it all the same. -/
theorem map_fixed_twice :
    Guarded (resourceStep quietEnv quietCalls) ResourceAllowed (noResources ())
        [.createAs 0, .createResource 2, mapProg, mapProg] ∧
      ¬ ResourceLaw (run (resourceStep quietEnv quietCalls) (noResources ())
        [.createAs 0, .createResource 2, mapProg, mapProg]) := by
  refine ⟨⟨List.not_mem_nil, rfl, ⟨by decide, ?_⟩, ⟨by decide, ?_⟩, trivial⟩, ?_⟩
  · intro res hres
    rw [← Option.some.inj hres]
    decide
  · intro res hres
    rw [← Option.some.inj hres]
    decide
  · intro hlaw
    have hlist : ((run (resourceStep quietEnv quietCalls) (noResources ())
        [.createAs 0, .createResource 2, mapProg, mapProg]).space 0).addressSpace.listArena =
        [⟨2, 0x40000000, 0x2000, 7, arenaMapFixed, some 2, progResource, 0⟩] := by decide
    have hfrees := hlaw.live 0 (by decide) _ (hlist ▸ List.mem_singleton_self _)
    exact absurd hfrees (by decide)

/-- Mapped, cut, and gone with its address space. -/
theorem map_unmap_delete : ResourceLaw (run (resourceStep quietEnv quietCalls) (noResources ())
    [.createAs 0, .createResource 2, mapProg, .unmap 0 0x40000000 0x1000, .deleteAs 0]) := by
  refine resource_runs_law quietEnv quietCalls () [.createAs 0, .createResource 2, mapProg,
    .unmap 0 0x40000000 0x1000, .deleteAs 0] ⟨List.not_mem_nil, rfl, ⟨by decide, ?_⟩, List.mem_singleton_self 0, List.mem_singleton_self 0, trivial⟩
    ⟨trivial, trivial, ?_, trivial, trivial, trivial⟩
  · intro res hres
    rw [← Option.some.inj hres]
    decide
  · intro res hres _ _ _ _ _
    exact Or.inl rfl

end Desiros.Mem
