import Mathlib.Data.Set.Card
import Desiros.Mem.ArenaRules
import Desiros.Mem.HeapOwners
import Desiros.Mem.KmallocSetup

/-!
# The cache of arenas (`mem/uvmm.c`, `mem/kvmm.c`)

The arena structures are objects of `cache_of_arena`. `uvmm_unmap` and `uvmm_map` give them to `kvmm_free`, which
refuses the objects of a slab; only `uvmm_delete_as` calls `kvmm_cache_free`. `arenaEnv` is what `uvmm.c` calls when
the structures come from the kernel heap; the mapped resources and the page tables are left to an environment for the
rest of the kernel. A structure is named by its number among all that were asked for.
-/

namespace Desiros.Mem

open Desiros.Library KslabCache

variable {X V : Type}

/-- The heap, and the addresses of the structures by their numbers, `0` for `NULL`. -/
structure ArenaWorld (X V : Type) where
  heap : Heap X
  cacheOfArena : Nat
  addrs : List Nat
  /-- The structures given to `kvmm_free`. -/
  released : List Nat
  rest : V

namespace ArenaWorld

def addr (w : ArenaWorld X V) (id : Nat) : Nat := w.addrs.getD id 0

def setRest (w : ArenaWorld X V) (v : V) : ArenaWorld X V := { w with rest := v }

/-- `kvmm_cache_alloc(cache_of_arena, 0)` -/
def allocArena (P : PageMap X) (w : ArenaWorld X V) : Bool × ArenaWorld X V :=
  match w.heap.kvmmCacheAlloc P 1 w.cacheOfArena with
  | (none, h) => (false, { w with heap := h, addrs := w.addrs ++ [0] })
  | (some a, h) => (true, { w with heap := h, addrs := w.addrs ++ [a] })

/-- `kvmm_free((__u32) arena)` -/
def kvmmFree (P : PageMap X) (arena : UvmmArena) (w : ArenaWorld X V) : ArenaWorld X V :=
  { w with heap := (w.heap.kvmmFree P (w.addr arena.id)).2, released := arena.id :: w.released }

/-- `kvmm_cache_free((__u32) arena)` -/
def kvmmCacheFree (P : PageMap X) (arena : UvmmArena) (w : ArenaWorld X V) : ArenaWorld X V :=
  { w with heap := (w.heap.kvmmCacheFree P 1 (w.addr arena.id)).2 }

/-- The number of live objects in `cache_of_arena`. -/
noncomputable def liveArenas (w : ArenaWorld X V) : Nat :=
  Set.ncard {x | (w.heap.slabs.cache w.cacheOfArena).Allocated x}

end ArenaWorld

def arenaEnv (P : PageMap X) (B : UvmmEnv V) : UvmmEnv (ArenaWorld X V) where
  allocArena := ArenaWorld.allocArena P
  freeArena := ArenaWorld.kvmmFree P
  kmallocZeroResource w := ((B.kmallocZeroResource w.rest).1, w.setRest (B.kmallocZeroResource w.rest).2)
  kfreeZeroResource r w := w.setRest (B.kfreeZeroResource r w.rest)
  zeroMmap := B.zeroMmap
  mmap m arena w := ((B.mmap m arena w.rest).1, (B.mmap m arena w.rest).2.1, w.setRest (B.mmap m arena w.rest).2.2)
  ref o arena w := w.setRest (B.ref o arena w.rest)
  unref o arena w := w.setRest (B.unref o arena w.rest)
  unmap o arena uaddr size w := w.setRest (B.unmap o arena uaddr size w.rest)
  noPage o arena uaddr writeAccess w :=
    ((B.noPage o arena uaddr writeAccess w.rest).1, w.setRest (B.noPage o arena uaddr writeAccess w.rest).2)
  resourceAddTail arena w := w.setRest (B.resourceAddTail arena w.rest)
  resourceDelete arena w := w.setRest (B.resourceDelete arena w.rest)
  pagingUnmapInterval uaddr size w :=
    ((B.pagingUnmapInterval uaddr size w.rest).1, w.setRest (B.pagingUnmapInterval uaddr size w.rest).2)
  pagingVirtualToPhysical uaddr w := B.pagingVirtualToPhysical uaddr w.rest
  pagingMap virt physical user w :=
    ((B.pagingMap virt physical user w.rest).1, w.setRest (B.pagingMap virt physical user w.rest).2)

/-! ## The objects in use -/

variable {P : PageMap X} {B : UvmmEnv V} {w : ArenaWorld X V} {n a : Nat} {T T' : List Nat}

/-- Of the first `n` structures those in `T` and the released ones are in use, each an object of its own. -/
structure ArenaHeld (n : Nat) (T : List Nat) (w : ArenaWorld X V) : Prop where
  count : w.addrs.length = n
  lt : ∀ i ∈ T ++ w.released, i < n
  nodup : ((T ++ w.released).map w.addr).Nodup
  owns : ∃ e, HeapOwns e w.heap ((T ++ w.released).map w.addr) []
  user : w.heap.UserCache w.cacheOfArena
  allocated : ∀ x, (w.heap.slabs.cache w.cacheOfArena).Allocated x ↔ x ∈ (T ++ w.released).map w.addr

theorem ArenaHeld.perm (h : ArenaHeld n T w) (hp : T.Perm T') : ArenaHeld n T' w := by
  have hperm : ((T ++ w.released).map w.addr).Perm ((T' ++ w.released).map w.addr) := (hp.append_right _).map _
  obtain ⟨e, howns⟩ := h.owns
  refine ⟨h.count, fun i hi => h.lt i ((hp.append_right _).mem_iff.mpr hi), hperm.nodup_iff.mp h.nodup,
    ⟨e, howns.mono_objs fun x hx => hperm.mem_iff.mpr hx⟩, h.user, fun x => ?_⟩
  rw [h.allocated, hperm.mem_iff]

theorem ArenaHeld.setRest (h : ArenaHeld n T w) (v : V) : ArenaHeld n T (w.setRest v) :=
  ⟨h.count, h.lt, h.nodup, h.owns, h.user, h.allocated⟩

/-- **The live objects** are those structures. -/
theorem ArenaHeld.liveArenas (h : ArenaHeld n T w) : w.liveArenas = T.length + w.released.length := by
  have hset : {x | (w.heap.slabs.cache w.cacheOfArena).Allocated x} =
      (((T ++ w.released).map w.addr).toFinset : Set Nat) := by
    ext x
    rw [Set.mem_ofPred_eq, h.allocated, Finset.mem_coe, List.mem_toFinset]
  unfold ArenaWorld.liveArenas
  rw [hset, Set.ncard_coe_finset, List.toFinset_card_of_nodup h.nodup, List.length_map, List.length_append]

/-- The structure asked for has the next number. -/
theorem ArenaHeld.alloc (h : ArenaHeld n T w) :
    ArenaHeld (n + 1) (if (w.allocArena P).1 then n :: T else T) (w.allocArena P).2 := by
  obtain ⟨e, howns⟩ := h.owns
  obtain ⟨hsame, hkeep, hnew⟩ := howns.cacheAlloc (E := P) h.user
  have hall := howns.cacheAlloc_allocated (E := P) h.user
  unfold ArenaWorld.allocArena
  generalize w.heap.kvmmCacheAlloc P 1 w.cacheOfArena = r at hsame hkeep hnew hall
  obtain ⟨o, heap⟩ := r
  have hcount : ∀ x, (w.addrs ++ [x]).length = n + 1 := fun x => by rw [List.length_append, h.count]; rfl
  have hold : ∀ x, (T ++ w.released).map ({ w with heap := heap, addrs := w.addrs ++ [x] } : ArenaWorld X V).addr =
      (T ++ w.released).map w.addr := by
    intro x
    apply List.map_congr_left
    intro i hi
    show (w.addrs ++ [x]).getD i 0 = w.addrs.getD i 0
    rw [List.getD_eq_getElem?_getD, List.getD_eq_getElem?_getD, List.getElem?_append_left (h.count ▸ h.lt i hi)]
  cases o with
  | none =>
    dsimp only
    rw [if_neg Bool.false_ne_true]
    refine ⟨hcount _, fun i hi => Nat.lt_succ_of_lt (h.lt i hi), ?_, ⟨e, ?_⟩, h.user.of_same hsame, fun x => ?_⟩
    · rw [hold]
      exact h.nodup
    · rw [hold]
      exact hkeep
    · rw [hold, ← h.allocated]
      simpa using hall x
  | some a =>
    obtain ⟨howns', hlive⟩ := hnew a rfl
    have hself : ({ w with heap := heap, addrs := w.addrs ++ [a] } : ArenaWorld X V).addr n = a := by
      show (w.addrs ++ [a]).getD n 0 = a
      rw [List.getD_eq_getElem?_getD, ← h.count, List.getElem?_concat_length]
      rfl
    have hmap : ((n :: T) ++ w.released).map ({ w with heap := heap, addrs := w.addrs ++ [a] } : ArenaWorld X V).addr =
        a :: (T ++ w.released).map w.addr := by
      rw [List.cons_append, List.map_cons, hself, hold]
    have hfresh : a ∉ (T ++ w.released).map w.addr := fun hm => hlive (howns.live hm)
    dsimp only
    rw [if_pos rfl]
    refine ⟨hcount _, ?_, ?_, ⟨e, ?_⟩, h.user.of_same hsame, fun x => ?_⟩
    · intro i hi
      cases List.mem_cons.mp hi with
      | inl he => exact he ▸ Nat.lt_succ_self n
      | inr hin => exact Nat.lt_succ_of_lt (h.lt i hin)
    · rw [hmap]
      exact List.nodup_cons.mpr ⟨hfresh, h.nodup⟩
    · rw [hmap]
      exact howns'
    · rw [hmap, List.mem_cons, ← h.allocated]
      refine (hall x).trans ?_
      rw [Option.some_inj, or_comm, eq_comm]

/-- **`kvmm_free` leaves the object in use.** -/
theorem ArenaHeld.kvmmFree (arena : UvmmArena) (h : ArenaHeld n (arena.id :: T) w) :
    ArenaHeld n T (w.kvmmFree P arena) := by
  obtain ⟨e, howns⟩ := h.owns
  have hperm : ((arena.id :: T) ++ w.released).Perm (T ++ arena.id :: w.released) := List.perm_middle.symm
  have hmap := hperm.map w.addr
  have hnothing : (w.heap.kvmmFree P (w.addr arena.id)).2 = w.heap := howns.kvmmFree_object List.mem_cons_self
  unfold ArenaWorld.kvmmFree
  rw [hnothing]
  refine ⟨h.count, fun i hi => h.lt i (hperm.mem_iff.mpr hi), hmap.nodup_iff.mp h.nodup,
    ⟨e, howns.mono_objs fun x hx => hmap.mem_iff.mpr hx⟩, h.user, fun x => ?_⟩
  exact (h.allocated x).trans hmap.mem_iff

/-- `kvmm_cache_free` gives it back. -/
theorem ArenaHeld.kvmmCacheFree (arena : UvmmArena) (h : ArenaHeld n (arena.id :: T) w) :
    ArenaHeld n T (w.kvmmCacheFree P arena) := by
  obtain ⟨e, howns⟩ := h.owns
  obtain ⟨hne, hnodup⟩ := List.nodup_cons.mp h.nodup
  obtain ⟨hsame, hkeep, hall⟩ := howns.cacheFree (E := P) h.user hne ((h.allocated _).mpr List.mem_cons_self)
  refine ⟨h.count, fun i hi => h.lt i (List.mem_cons_of_mem _ hi), hnodup, ⟨e, hkeep⟩, h.user.of_same hsame, fun x => ?_⟩
  refine (hall x).trans ?_
  rw [h.allocated]
  show x ∈ w.addr arena.id :: (T ++ w.released).map w.addr ∧ x ≠ w.addr arena.id ↔ x ∈ (T ++ w.released).map w.addr
  rw [List.mem_cons]
  constructor
  · exact fun hx => hx.1.resolve_left hx.2
  · exact fun hx => ⟨.inr hx, fun he => hne (he ▸ hx)⟩

/-- The structures on the lists of the address spaces are owned. -/
theorem arenaRules (P : PageMap X) (B : UvmmEnv V) : ArenaRules (arenaEnv P B) ArenaHeld where
  perm h hp := h.perm hp
  nodup h := (List.Nodup.of_map _ h.nodup).of_append_left
  alloc h := h.alloc
  free arena h := h.kvmmFree arena
  mmap _ _ h := h.setRest _
  ref _ _ h := h.setRest _
  unref _ _ h := h.setRest _
  unmap _ _ _ _ h := h.setRest _
  addTail _ h := h.setRest _
  delete _ h := h.setRest _
  pagingUnmap _ _ h := h.setRest _
  pagingMap _ _ _ h := h.setRest _

end Desiros.Mem
