import Desiros.Library.Runs
import Desiros.Mem.ArenaCache

/-!
# Arena structures over whole runs

Any number of address spaces whose arena structures come from `cache_of_arena`, from `uvmm_subsystem_setup` on. The
live objects of the cache are always the arenas that are linked and the structures that `kvmm_free` was given, so the
two numbers agree in every run in which `uvmm_unmap` and `uvmm_map` have nothing to give back.
-/

namespace Desiros.Mem

open Desiros.Library KslabCache

variable {X V : Type}

/-! ## uvmm_subsystem_setup -/

def sizeofUvmmAs : UInt32 := 60
def sizeofUvmmArena : UInt32 := 52
def sizeofPageTable : UInt32 := 12

/-- The page of zeros and the three caches: `cache_of_arena`, and the heap. -/
def uvmmSubsystemSetup (P : PageMap X) (h : Heap X) : Option (Nat × Heap X) :=
  match h.kvmmAlloc P 1 true with
  | (none, _) => none
  | (some _, h) =>
    match h.kvmmCacheCreate P sizeofUvmmAs 1 (kslabCreateMap ||| kslabCreateZero) with
    | (none, _) => none
    | (some _, h) =>
      match h.kvmmCacheCreate P sizeofUvmmArena 1 (kslabCreateMap ||| kslabCreateZero) with
      | (none, _) => none
      | (some cacheOfArena, h) =>
        some (cacheOfArena, (h.kvmmCacheCreate P sizeofPageTable 1 (kslabCreateMap ||| kslabCreateZero)).2)

section Setup

variable {P : PageMap X} {e : Slack} {h h' : Heap X} {n : Nat}

/-- The caches of `kmalloc` are there, and `n` free objects of the cache of caches. -/
def HeapReady (e : Slack) (n : Nat) (h : Heap X) : Prop :=
  ∃ held spare, HeapInv e h held spare [] ∧ KmallocReady Heap.kmallocTable h ∧
    n ≤ (h.slabs.cache h.slabs.cacheOfStructKslabCache).nbFreeObj

theorem HeapReady.kvmmAlloc (hr : HeapReady e n h) (k : Nat) (map : Bool) : HeapReady e n (h.kvmmAlloc P k map).2 := by
  obtain ⟨held, spare, hi, hready, hcount⟩ := hr
  obtain ⟨htouch, hnull, hsome⟩ := heapAlloc_pages (E := P) hi k map
  have ht := htouch fun _ => False
  have hsame : (h.kvmmAlloc P k map).2.slabs.cache (h.kvmmAlloc P k map).2.slabs.cacheOfStructKslabCache =
      h.slabs.cache h.slabs.cacheOfStructKslabCache := by
    rw [ht.slabs.kslabCache, ht.slabs.other _ id]
  have hready' := hready.of_touches ht id
  cases hres : (h.kvmmAlloc P k map).1 with
  | none => exact ⟨held, spare, hnull hres, hready', hsame ▸ hcount⟩
  | some a => exact ⟨held, _, hsome a hres, hready', hsame ▸ hcount⟩

/-- Objects of a size that a cache can be created for. -/
theorem initCache_structures : ∀ size ∈ [sizeofUvmmAs, sizeofUvmmArena, sizeofPageTable],
    ValidParams size (kslabCreateMap ||| kslabCreateZero) ∧ ∃ c,
      initCache PageRange size 1 0 (kslabCreateMap ||| kslabCreateZero) = .ok c ∧
        sizeofKslabFreeObj ≤ c.allocObjSize := by
  have hall : ([sizeofUvmmAs, sizeofUvmmArena, sizeofPageTable].all fun size =>
      decide (ValidParams size (kslabCreateMap ||| kslabCreateZero)) &&
        ((initCache PageRange size 1 0 (kslabCreateMap ||| kslabCreateZero)).toOption.any fun c =>
          decide (sizeofKslabFreeObj ≤ c.allocObjSize))) = true := by
    decide +kernel
  intro size hsize
  obtain ⟨hvalid, hinit⟩ := (Bool.and_eq_true _ _).mp (List.all_eq_true.mp hall size hsize)
  refine ⟨of_decide_eq_true hvalid, ?_⟩
  cases hc : initCache PageRange size 1 0 (kslabCreateMap ||| kslabCreateZero) with
  | error code =>
    rw [hc] at hinit
    cases hinit
  | ok c =>
    rw [hc] at hinit
    exact ⟨c, rfl, of_decide_eq_true hinit⟩

/-- **A new cache** has no objects, and the caches there were keep theirs. -/
theorem HeapReady.create (hr : HeapReady e (n + 1) h) (size : UInt32)
    (hsize : size ∈ [sizeofUvmmAs, sizeofUvmmArena, sizeofPageTable]) :
    ∃ newCache h', h.kvmmCacheCreate P size 1 (kslabCreateMap ||| kslabCreateZero) = (some newCache, h') ∧
      HeapReady e n h' ∧ h'.UserCache newCache ∧ (∀ x, ¬ (h'.slabs.cache newCache).Allocated x) ∧
      ∀ ca, h.UserCache ca → h'.UserCache ca ∧ h'.slabs.cache ca = h.slabs.cache ca := by
  obtain ⟨hvalid, c, hinit, hlarge⟩ := initCache_structures size hsize
  obtain ⟨held, spare, hi, hready, hcount⟩ := hr
  obtain ⟨newCache, h', heq, hnew⟩ := heapCacheCreate_spec (E := P) hi hready hvalid hinit hlarge (by omega)
  refine ⟨newCache, h', heq, ⟨held, spare, hnew.inv, hnew.ready, ?_⟩, ⟨?_, ?_, ?_⟩, fun x hx => ?_, fun ca hu => ⟨⟨?_, ?_, ?_⟩, ?_⟩⟩
  · have := hnew.count
    omega
  · rw [hnew.cacheList]
    exact List.mem_append_right _ (List.mem_singleton_self _)
  · intro he
    exact hnew.fresh ((he.trans hnew.kslabCache) ▸ hready.caches)
  · intro he
    exact hnew.fresh ((he.trans hnew.kslab) ▸ hi.slabs.kslab)
  · obtain ⟨slab, hs, -⟩ := hx
    rw [hnew.cache, (initCache_ok hvalid hinit).2.1] at hs
    cases hs
  · rw [hnew.cacheList]
    exact List.mem_append_left _ hu.mem
  · exact fun he => hu.ne_caches (he.trans hnew.kslabCache)
  · exact fun he => hu.ne_kslab (he.trans hnew.kslab)
  · exact hnew.other ca hu.mem hu.ne_caches hu.ne_kslab

/-- The cache of arenas is there, without objects. -/
theorem HeapReady.uvmmSubsystemSetup (hr : HeapReady e (n + 3) h) {ca : Nat}
    (heq : uvmmSubsystemSetup P h = some (ca, h')) :
    (∃ e, HeapOwns e h' [] []) ∧ h'.UserCache ca ∧ ∀ x, ¬ (h'.slabs.cache ca).Allocated x := by
  have halloc := hr.kvmmAlloc (P := P) 1 true
  unfold Mem.uvmmSubsystemSetup at heq
  generalize h.kvmmAlloc P 1 true = r at halloc heq
  obtain ⟨o, h₁⟩ := r
  cases o with
  | none => cases heq
  | some a =>
    obtain ⟨cacheOfAs, h₂, heq₂, hr₂, -⟩ := HeapReady.create (P := P) halloc sizeofUvmmAs (by decide)
    obtain ⟨cacheOfArena, h₃, heq₃, hr₃, hu, hnone, -⟩ :=
      HeapReady.create (P := P) hr₂ sizeofUvmmArena (by decide)
    obtain ⟨cachePt, h₄, heq₄, ⟨held, spare, hi, hready, -⟩, -, -, hkeep⟩ :=
      HeapReady.create (P := P) hr₃ sizeofPageTable (by decide)
    dsimp only at heq
    rw [heq₂] at heq
    dsimp only at heq
    rw [heq₃] at heq
    dsimp only at heq
    rw [heq₄] at heq
    obtain ⟨rfl, rfl⟩ := Prod.mk.inj (Option.some.inj heq)
    obtain ⟨hu', hsame⟩ := hkeep cacheOfArena hu
    refine ⟨⟨e, held, spare, hi, hready, fun x hx => absurd hx List.not_mem_nil, fun x hx => absurd hx List.not_mem_nil,
      fun x hx => absurd hx List.not_mem_nil⟩, hu', fun x => ?_⟩
    rw [hsame]
    exact hnone x

end Setup

/-! ## Address spaces -/

/-- The address spaces there are, and the world they share. -/
structure ArenaSystem (X V : Type) where
  spaces : List Nat
  space : Nat → UvmmAs
  world : ArenaWorld X V

inductive ArenaOp
  | createAs (k : Nat)
  | map (k : Nat) (hintUaddr size accessRights flags : UInt32) (resource : Option UvmmMappedResource)
      (offsetInResource : UInt64)
  | unmap (k : Nat) (uaddr size : UInt32)
  | resize (k : Nat) (oldUaddr oldSize newUaddr newSize flags : UInt32)
  | deleteAs (k : Nat)

namespace ArenaSystem

/-- Address space `k` in the world; the next structure is the one after all that were asked for. -/
def spaceAt (s : ArenaSystem X V) (k : Nat) : UvmmState (ArenaWorld X V) :=
  ⟨s.space k, [], s.world.addrs.length, s.world⟩

def set (s : ArenaSystem X V) (k : Nat) (t : UvmmState (ArenaWorld X V)) : ArenaSystem X V :=
  { s with space := Function.update s.space k t.addressSpace, world := t.world }

/-- The structures on the lists of some address spaces. -/
def idsOf (s : ArenaSystem X V) (ks : List Nat) : List Nat := ks.flatMap fun k => arenaIds (s.space k).listArena

/-- The arenas linked in all existing address spaces. -/
def linked (s : ArenaSystem X V) : List Nat := s.idsOf s.spaces

def others (s : ArenaSystem X V) (k : Nat) : List Nat := s.idsOf (s.spaces.erase k)

end ArenaSystem

/-- `cacheFreeAs` gives the structure of an address space back. -/
def arenaStep (P : PageMap X) (B : UvmmEnv V) (cacheFreeAs : V → V) (s : ArenaSystem X V) : ArenaOp → ArenaSystem X V
  | .createAs k => { s with spaces := k :: s.spaces, space := Function.update s.space k {} }
  | .map k hintUaddr size accessRights flags resource offsetInResource =>
    s.set k (uvmmMap (arenaEnv P B) (s.spaceAt k) hintUaddr size accessRights flags resource offsetInResource).2.2
  | .unmap k uaddr size => s.set k (uvmmUnmap (arenaEnv P B) (s.spaceAt k) uaddr size).2
  | .resize k oldUaddr oldSize newUaddr newSize flags =>
    s.set k (uvmmResize (arenaEnv P B) (s.spaceAt k) oldUaddr oldSize newUaddr newSize flags).2.2
  | .deleteAs k =>
    { s with
      spaces := s.spaces.erase k
      world := uvmmDeleteAs (arenaEnv P B) (ArenaWorld.kvmmCacheFree P) (fun w => w.setRest (cacheFreeAs w.rest))
        (s.spaceAt k) }

/-- Callers name address spaces that exist. -/
def ArenaAllowed (s : ArenaSystem X V) : ArenaOp → Prop
  | .createAs k => k ∉ s.spaces
  | .map k _ _ _ _ _ _ => k ∈ s.spaces
  | .unmap k _ _ => k ∈ s.spaces
  | .resize k _ _ _ _ _ => k ∈ s.spaces
  | .deleteAs k => k ∈ s.spaces

/-- After `uvmm_subsystem_setup`, before the first address space. -/
def arenaStart (P : PageMap X) (l : KernelLayout) (world : X) (v : V) : Option (ArenaSystem X V) :=
  (kmallocStart P l world).bind fun w =>
    (uvmmSubsystemSetup P w.heap).map fun r => ⟨[], fun _ => {}, ⟨r.2, r.1, [], [], v⟩⟩

/-! ## The balance -/

structure ArenaInv (s : ArenaSystem X V) : Prop where
  nodup : s.spaces.Nodup
  held : ArenaHeld s.world.addrs.length s.linked s.world

section

variable {P : PageMap X} {B : UvmmEnv V} {cacheFreeAs : V → V} {s : ArenaSystem X V} {k : Nat}

theorem linked_perm (hk : k ∈ s.spaces) :
    s.linked.Perm (arenaIds (s.space k).listArena ++ s.others k) :=
  (List.perm_cons_erase hk).flatMap_right _

/-- Only address space `k` changes. -/
theorem idsOf_update {ks : List Nat} (hk : k ∉ ks) (t : UvmmAs) (spaces : List Nat) (w : ArenaWorld X V) :
    ArenaSystem.idsOf ⟨spaces, Function.update s.space k t, w⟩ ks = s.idsOf ks := by
  unfold ArenaSystem.idsOf
  apply List.flatMap_congr
  intro j hj
  have hne : j ≠ k := fun he => hk (he ▸ hj)
  simp only [Function.update_of_ne hne]

theorem ArenaInv.owned (h : ArenaInv s) (hk : k ∈ s.spaces) : Owned ArenaHeld (s.others k) (s.spaceAt k) :=
  h.held.perm (linked_perm hk)

theorem ArenaInv.set (h : ArenaInv s) (hk : k ∈ s.spaces) {t : UvmmState (ArenaWorld X V)}
    (ht : Owned ArenaHeld (s.others k) t) : ArenaInv (s.set k t) := by
  have hk' : k ∈ (s.set k t).spaces := hk
  have hself : (s.set k t).space k = t.addressSpace := Function.update_self ..
  have hothers : (s.set k t).others k = s.others k := idsOf_update h.nodup.not_mem_erase _ _ _
  have hperm := linked_perm hk'
  rw [hself, hothers] at hperm
  have hcount : t.world.addrs.length = t.nextId := ht.count
  refine ⟨h.nodup, ?_⟩
  show ArenaHeld t.world.addrs.length (s.set k t).linked t.world
  rw [hcount]
  exact ht.perm hperm.symm

theorem ArenaInv.step (h : ArenaInv s) {op : ArenaOp} (hallowed : ArenaAllowed s op) :
    ArenaInv (arenaStep P B cacheFreeAs s op) := by
  have hrules := arenaRules P B
  cases op with
  | createAs k =>
    have hself : (arenaStep P B cacheFreeAs s (.createAs k)).space k = {} := Function.update_self ..
    refine ⟨List.nodup_cons.mpr ⟨hallowed, h.nodup⟩, ?_⟩
    have hlinked : (arenaStep P B cacheFreeAs s (.createAs k)).linked = s.linked := by
      show arenaIds ((arenaStep P B cacheFreeAs s (.createAs k)).space k).listArena ++ _ = _
      rw [hself]
      exact idsOf_update hallowed _ _ _
    rw [hlinked]
    exact h.held
  | map k hintUaddr size accessRights flags resource offsetInResource =>
    exact h.set hallowed (hrules.uvmmMap (h.owned hallowed) _ _ _ _ _ _)
  | unmap k uaddr size => exact h.set hallowed (hrules.uvmmUnmap (h.owned hallowed) _ _)
  | resize k oldUaddr oldSize newUaddr newSize flags =>
    exact h.set hallowed (hrules.uvmmResize (h.owned hallowed) _ _ _ _ _)
  | deleteAs k =>
    have hdone := hrules.uvmmDeleteAs (ArenaWorld.kvmmCacheFree P) (fun w => w.setRest (cacheFreeAs w.rest)) (fun arena hw => hw.kvmmCacheFree arena)
      (fun hw => hw.setRest _) (h.owned hallowed)
    refine ⟨h.nodup.erase k, ?_⟩
    have hcount := hdone.count
    rw [← hcount] at hdone
    exact hdone

theorem kmallocStart_ready {l : KernelLayout} (hl : l.Ok) {world : X} {w : KmallocWorld X}
    (hstart : kmallocStart P l world = some w) : ∃ e, HeapReady e 78 w.heap := by
  obtain ⟨h, heq, hdone⟩ := kmallocSetup_done P hl world
  have hw : w.heap = h.kmallocSetup P := by
    unfold kmallocStart at hstart
    rw [heq, Option.map_some] at hstart
    rw [← Option.some.inj hstart]
  rw [hw]
  exact ⟨_, _, _, hdone.inv, hdone.ready, hdone.count⟩

theorem arenaInv_start {l : KernelLayout} (hl : l.Ok) {world : X} {v : V} (hstart : arenaStart P l world v = some s) :
    ArenaInv s := by
  unfold arenaStart at hstart
  obtain ⟨w, hw, hstart⟩ := Option.bind_eq_some_iff.mp hstart
  obtain ⟨⟨ca, h⟩, hsub, rfl⟩ := Option.map_eq_some_iff.mp hstart
  obtain ⟨e, hr⟩ := kmallocStart_ready hl hw
  obtain ⟨howns, hu, hnone⟩ := HeapReady.uvmmSubsystemSetup (n := 75) hr hsub
  refine ⟨List.nodup_nil, rfl, fun i hi => absurd hi List.not_mem_nil, List.nodup_nil, howns, hu, fun x => ?_⟩
  exact ⟨fun hx => absurd hx (hnone x), fun hx => absurd hx List.not_mem_nil⟩

/-- **The live objects of `cache_of_arena`** are the arenas that are linked and the structures that `kvmm_free` was
given. -/
theorem arena_runs_balance (cacheFreeAs : V → V) {l : KernelLayout} (hl : l.Ok) {world : X} {v : V}
    (hstart : arenaStart P l world v = some s) (ops : List ArenaOp)
    (hallowed : Guarded (arenaStep P B cacheFreeAs) ArenaAllowed s ops) :
    (run (arenaStep P B cacheFreeAs) s ops).world.liveArenas =
      (run (arenaStep P B cacheFreeAs) s ops).linked.length +
        (run (arenaStep P B cacheFreeAs) s ops).world.released.length := by
  have hstep : ∀ (s : ArenaSystem X V) op, ArenaInv s → ArenaAllowed s op → ArenaInv (arenaStep P B cacheFreeAs s op) :=
    fun s op h hop => h.step hop
  exact (invariant_run hstep ops _ (arenaInv_start hl hstart) hallowed).held.liveArenas

end

/-! ## Nothing to give back -/

/-- The arguments that `uvmm_unmap` accepts. -/
def UnmapAccepts (uaddr size : UInt32) : Prop :=
  isPageAligned uaddr = true ∧ ¬ size ≤ 0 ∧ ¬ uaddr < userOffset ∧ ¬ uaddr > pagingTopUserAddress - pageAlignSup size

/-- The list after a region away from both ends of an arena is cut out of it. -/
def splitArenas (l : List UvmmArena) (uaddr size : UInt32) (preId : Nat) : Option (List UvmmArena) :=
  match arenasFrom l uaddr with
  | [] => none
  | arena :: rest =>
    if arena.start < uaddr ∧ uaddr + size < arena.start + arena.size then
      some (arenasBefore l uaddr ++ splitLeft uaddr arena :: splitRight uaddr size preId arena :: rest)
    else none

/-- No neighbour absorbs the mapping, and its resource accepts it. -/
def InsertsArena (B : UvmmEnv V) (l : List UvmmArena) (m : NewMapping) : Prop :=
  (mapNeighbours l m.uaddr).1.filter (mergeWithPreceding m) = none ∧
    (mapNeighbours l m.uaddr).2.filter (mergeWithNext m) = none ∧
    ∀ v, (B.mmap (m.resource.mmap.getD 0) m.arena v).1 = 0

/-- `uvmm_unmap` fails before it has a structure, or uses it. -/
def UnmapUses (P : PageMap X) (t : UvmmState (ArenaWorld X V)) (uaddr size : UInt32) : Prop :=
  UnmapAccepts uaddr size → (t.world.allocArena P).1 = true →
    splitArenas t.addressSpace.listArena uaddr (pageAlignSup size) t.nextId ≠ none

/-- `uvmm_map` fails before it has a structure, or uses it, and so does the `uvmm_unmap` it calls. -/
def MapUses (P : PageMap X) (B : UvmmEnv V) (t : UvmmState (ArenaWorld X V))
    (hintUaddr size accessRights flags : UInt32) (resource : Option UvmmMappedResource) (offsetInResource : UInt64) :
    Prop :=
  ∀ res, uvmmMapCheck hintUaddr size accessRights flags resource offsetInResource = .ok res →
    (t.world.allocArena P).1 = true →
    let mapping := fun uaddr => askedMapping uaddr size accessRights flags res offsetInResource t.nextId
    let found := findFirstFreeInterval t.addressSpace.listArena hintUaddr (pageAlignSup size)
    if hasFlag (mapping hintUaddr).flags arenaMapFixed then
      UnmapAccepts hintUaddr (pageAlignSup size) ∧ ((t.world.allocArena P).2.allocArena P).1 = true ∧
        ∃ l ∈ splitArenas t.addressSpace.listArena hintUaddr (pageAlignSup size) (t.nextId + 1),
          InsertsArena B l (mapping hintUaddr)
    else found ≠ 0 ∧ InsertsArena B t.addressSpace.listArena (mapping found)

/-- `uvmm_resize` fails, or widens its arena, or has no structure to shrink or move it with. -/
def ResizeUses (P : PageMap X) (t : UvmmState (ArenaWorld X V)) (oldUaddr oldSize newUaddr newSize flags : UInt32) :
    Prop :=
  ∀ p, uvmmResizePlan t.addressSpace.listArena oldUaddr oldSize newUaddr newSize flags = .ok p →
    let shrinksEnd := newUaddr + p.newSize < p.arena.start + p.arena.size
    let shrinksStart := newUaddr > p.arena.start
    if p.mustMoveArena then
      ∀ res, uvmmMapCheck newUaddr p.newSize p.arena.accessRights (p.arena.flags ||| internalMapCalledFromMremap)
        (some p.arena.mappedResource) p.newOffsetInResource = .ok res → (t.world.allocArena P).1 = false
    else (shrinksEnd ∨ shrinksStart → (t.world.allocArena P).1 = false) ∧
      (shrinksEnd ∧ shrinksStart → ((t.world.allocArena P).2.allocArena P).1 = false)

/-- The step has no structure to give back. -/
def ArenaKeeps (P : PageMap X) (B : UvmmEnv V) (s : ArenaSystem X V) : ArenaOp → Prop
  | .map k hintUaddr size accessRights flags resource offsetInResource =>
    MapUses P B (s.spaceAt k) hintUaddr size accessRights flags resource offsetInResource
  | .unmap k uaddr size => UnmapUses P (s.spaceAt k) uaddr size
  | .resize k oldUaddr oldSize newUaddr newSize flags =>
    ResizeUses P (s.spaceAt k) oldUaddr oldSize newUaddr newSize flags
  | _ => True

section

variable {P : PageMap X} {B : UvmmEnv V} {cacheFreeAs : V → V} {t : UvmmState (ArenaWorld X V)} {uaddr size : UInt32}
  {l : List UvmmArena} {preId : Nat}

theorem allocArena_released (w : ArenaWorld X V) : (w.allocArena P).2.released = w.released := by
  unfold ArenaWorld.allocArena
  cases w.heap.kvmmCacheAlloc P 1 w.cacheOfArena with
  | mk o h => cases o <;> rfl

theorem callOps_released {f : Nat → ArenaWorld X V → ArenaWorld X V} (hf : ∀ o w, (f o w).released = w.released)
    (ops : Option Nat) (w : ArenaWorld X V) : (callOps ops f w).released = w.released :=
  callOps_rule (P := fun v : ArenaWorld X V => v.released = w.released) (fun o hv => (hf o _).trans hv) ops rfl

/-- **A region is cut out of the middle of an arena**: the preallocated structure is linked. -/
theorem unmapRegion_split (hr : Region uaddr size)
    (hsplit : splitArenas t.addressSpace.listArena uaddr size preId = some l) :
    (unmapRegion (arenaEnv P B) t uaddr size preId).addressSpace.listArena = l ∧
      (unmapRegion (arenaEnv P B) t uaddr size preId).world.released = t.world.released := by
  unfold splitArenas at hsplit
  cases hfrom : arenasFrom t.addressSpace.listArena uaddr with
  | nil =>
    rw [hfrom] at hsplit
    cases hsplit
  | cons a rest =>
    rw [hfrom] at hsplit
    dsimp only at hsplit
    split_ifs at hsplit with hin
    obtain rfl := Option.some.inj hsplit
    have hend := hr.toNat_end
    have hlo := word_lt_iff.mp hin.1
    have hhi := word_lt_iff.mp hin.2
    unfold unmapRegion
    rw [hfrom, unmapWalk, if_neg (by rw [word_le_iff]; omega), if_neg (by rw [word_le_iff]; omega),
      if_neg (by rw [word_le_iff]; omega), if_pos hin]
    refine ⟨rfl, ?_⟩
    show ArenaWorld.released (callOps _ _ (callOps _ _ _)) = _
    rw [callOps_released, callOps_released]
    · rfl
    · exact fun o w => rfl
    · exact fun o w => rfl

theorem uvmmUnmap_accepts (E : UvmmEnv (ArenaWorld X V)) (h : UnmapAccepts uaddr size) :
    uvmmUnmap E t uaddr size = if (t.allocArena E).1 then
      (0, unmapRegion E (t.allocArena E).2 uaddr (pageAlignSup size) t.nextId) else (-3, (t.allocArena E).2) := by
  obtain ⟨h1, h2, h3, h4⟩ := h
  unfold uvmmUnmap
  rw [h1, if_neg (by decide), if_neg h2, if_neg h3, if_neg h4]
  cases (t.allocArena E).1 <;> rfl

theorem uvmmUnmap_released (h : UnmapUses P t uaddr size) :
    (uvmmUnmap (arenaEnv P B) t uaddr size).2.world.released = t.world.released := by
  by_cases hacc : UnmapAccepts uaddr size
  · rw [uvmmUnmap_accepts _ hacc]
    split_ifs with halloc
    · obtain ⟨l, hl⟩ := Option.ne_none_iff_exists'.mp (h hacc halloc)
      have hr := region_of_checks hacc.1 hacc.2.2.1 hacc.2.2.2
      have hsplit := unmapRegion_split (P := P) (B := B) (t := (t.allocArena (arenaEnv P B)).2) hr hl
      exact hsplit.2.trans (allocArena_released t.world)
    · exact allocArena_released t.world
  · have hsame : uvmmUnmap (arenaEnv P B) t uaddr size = (-1, t) := by
      unfold UnmapAccepts at hacc
      unfold uvmmUnmap
      split_ifs <;> first | rfl | simp_all
    rw [hsame]

theorem mapDone_released (m : NewMapping) (arena : UvmmArena) :
    (t.mapDone (arenaEnv P B) m arena true).2.2.world.released = t.world.released := rfl

theorem uvmmMapInsert_released {m : NewMapping} (h : InsertsArena B t.addressSpace.listArena m) :
    (uvmmMapInsert (arenaEnv P B) t m).2.2.world.released = t.world.released := by
  obtain ⟨hprev, hnext, hmmap⟩ := h
  have haccept : ¬ ((arenaEnv P B).mmap (m.resource.mmap.getD 0) m.arena
      ((arenaEnv P B).resourceAddTail m.arena t.world)).1 ≠ 0 := fun hne => hne (hmmap _)
  unfold uvmmMapInsert
  dsimp only
  rw [hprev, hnext]
  dsimp only
  unfold uvmmMapNew
  dsimp only
  rw [if_neg haccept, mapDone_released]
  show ArenaWorld.released (callOps _ _ _) = _
  rw [callOps_released]
  · rfl
  · exact fun o w => rfl

theorem uvmmMapPlace_released {hintUaddr : UInt32} {mapping : UInt32 → NewMapping}
    (hfixed : hasFlag (mapping hintUaddr).flags arenaMapFixed = true → UnmapAccepts hintUaddr (mapping hintUaddr).size ∧
      ¬ hintUaddr > pagingTopUserAddress - (mapping hintUaddr).size ∧ (t.world.allocArena P).1 = true ∧
        ∃ l ∈ splitArenas t.addressSpace.listArena hintUaddr (pageAlignSup (mapping hintUaddr).size) t.nextId,
          InsertsArena B l (mapping hintUaddr))
    (hhint : ¬ hasFlag (mapping hintUaddr).flags arenaMapFixed = true →
      findFirstFreeInterval t.addressSpace.listArena hintUaddr (mapping hintUaddr).size ≠ 0 ∧
        InsertsArena B t.addressSpace.listArena
          (mapping (findFirstFreeInterval t.addressSpace.listArena hintUaddr (mapping hintUaddr).size))) :
    (uvmmMapPlace (arenaEnv P B) t hintUaddr mapping).2.2.world.released = t.world.released := by
  unfold uvmmMapPlace
  dsimp only
  by_cases hflag : hasFlag (mapping hintUaddr).flags arenaMapFixed = true
  · obtain ⟨hacc, htop, halloc, l, hl, hins⟩ := hfixed hflag
    have hsome : (t.allocArena (arenaEnv P B)).1 = true := halloc
    have hr := region_of_checks hacc.1 hacc.2.2.1 hacc.2.2.2
    obtain ⟨hlist, hreleased⟩ :=
      unmapRegion_split (P := P) (B := B) (t := (t.allocArena (arenaEnv P B)).2) hr hl
    rw [if_pos hflag, if_neg hacc.2.2.1, if_neg htop, uvmmUnmap_accepts (arenaEnv P B) hacc, if_pos hsome,
      if_neg (by simp), uvmmMapInsert_released]
    · exact hreleased.trans (allocArena_released t.world)
    · rw [hlist]
      exact hins
  · obtain ⟨hfound, hins⟩ := hhint hflag
    rw [if_neg hflag, if_neg hfound]
    exact uvmmMapInsert_released hins

theorem uvmmMap_released {hintUaddr accessRights flags : UInt32} {resource : Option UvmmMappedResource}
    {offsetInResource : UInt64} (h : MapUses P B t hintUaddr size accessRights flags resource offsetInResource) :
    (uvmmMap (arenaEnv P B) t hintUaddr size accessRights flags resource offsetInResource).2.2.world.released =
      t.world.released := by
  have hfirst := allocArena_released (P := P) t.world
  unfold uvmmMap
  cases hcheck : uvmmMapCheck hintUaddr size accessRights flags resource offsetInResource with
  | error err => rfl
  | ok res =>
    dsimp only
    split_ifs with hfail
    · exact hfirst
    · have hsome : (t.allocArena (arenaEnv P B)).1 = true := by simpa using hfail
      have huse := h res hcheck hsome
      dsimp only at huse
      refine (uvmmMapPlace_released (fun hfixed => ?_) fun hhint => ?_).trans hfirst
      · rw [if_pos hfixed] at huse
        obtain ⟨hacc, hsecond, hsplit⟩ := huse
        have htop := hacc.2.2.2
        rw [pageAlignSup_pageAlignSup] at htop
        refine ⟨hacc, htop, hsecond, ?_⟩
        show ∃ l ∈ splitArenas t.addressSpace.listArena hintUaddr (pageAlignSup (pageAlignSup size)) (t.nextId + 1), _
        rw [pageAlignSup_pageAlignSup]
        exact hsplit
      · rw [if_neg hhint] at huse
        exact huse

/-- `uvmm_unmap` that has no structure. -/
theorem uvmmUnmap_noStructure (B : UvmmEnv V) (halloc : (t.world.allocArena P).1 = false) (uaddr size : UInt32) :
    uvmmUnmap (arenaEnv P B) t uaddr size = (-1, t) ∨
      uvmmUnmap (arenaEnv P B) t uaddr size = (-3, (t.allocArena (arenaEnv P B)).2) := by
  rcases uvmmUnmap_cases (arenaEnv P B) t uaddr size with heq | heq | ⟨-, hsome, -⟩
  · exact .inl heq
  · exact .inr heq
  · exact absurd (hsome.symm.trans halloc) (by decide)

/-- The structure at `id` starts at `start`. -/
def StartsAt (t : UvmmState (ArenaWorld X V)) (id : Nat) (start : UInt32) : Prop :=
  ∀ a ∈ t.addressSpace.listArena ++ t.freed, a.id = id → a.start = start

theorem StartsAt.arenaAt {a : UvmmArena} (h : StartsAt t a.id a.start) : ((t.arenaAt a.id).getD a).start = a.start := by
  unfold UvmmState.arenaAt
  cases hfind : (t.addressSpace.listArena ++ t.freed).find? (·.id = a.id) with
  | none => rfl
  | some b => exact h b (List.mem_of_find?_eq_some hfind) (by simpa using List.find?_some hfind)

theorem StartsAt.modifyAt {id : Nat} {start : UInt32} (h : StartsAt t id start) (id' : Nat) {f : UvmmArena → UvmmArena}
    (hf : ∀ a, (f a).id = a.id ∧ (f a).start = a.start) : StartsAt (t.modifyAt id' f) id start := by
  have hmodify : ∀ l, ∀ a ∈ modifyArena id' f l, ∃ b ∈ l, a.id = b.id ∧ a.start = b.start := by
    intro l a ha
    obtain ⟨b, hb, rfl⟩ := List.mem_map.mp ha
    refine ⟨b, hb, ?_⟩
    split_ifs
    · exact hf b
    · exact ⟨rfl, rfl⟩
  intro a ha hid
  cases List.mem_append.mp ha with
  | inl hlist =>
    obtain ⟨b, hb, hbid, hstart⟩ := hmodify _ a hlist
    exact hstart.trans (h b (List.mem_append_left _ hb) (hbid.symm.trans hid))
  | inr hfreed =>
    obtain ⟨b, hb, hbid, hstart⟩ := hmodify _ a hfreed
    exact hstart.trans (h b (List.mem_append_right _ hb) (hbid.symm.trans hid))

/-- The end of an arena in place: nothing is given back, and there is a next structure or there is not. -/
theorem uvmmResizeEnd_released {newUaddr : UInt32} {p : ResizePlan} (hat : StartsAt t p.arena.id p.arena.start)
    (h : newUaddr + p.newSize < p.arena.start + p.arena.size → (t.world.allocArena P).1 = false) :
    (uvmmResizeEnd (arenaEnv P B) t newUaddr p).world.released = t.world.released ∧
      StartsAt (uvmmResizeEnd (arenaEnv P B) t newUaddr p) p.arena.id p.arena.start ∧
      ((uvmmResizeEnd (arenaEnv P B) t newUaddr p).world = t.world ∨
        newUaddr + p.newSize < p.arena.start + p.arena.size ∧
          (uvmmResizeEnd (arenaEnv P B) t newUaddr p).world = (t.world.allocArena P).2) := by
  unfold uvmmResizeEnd
  dsimp only
  split_ifs with hshrink
  · rcases uvmmUnmap_noStructure B (h hshrink) (newUaddr + p.newSize)
      (p.arena.start + p.arena.size - (newUaddr + p.newSize)) with heq | heq
    · rw [heq]
      exact ⟨rfl, hat, .inl rfl⟩
    · rw [heq]
      exact ⟨allocArena_released t.world, hat, .inr ⟨hshrink, rfl⟩⟩
  · refine ⟨rfl, ?_, .inl rfl⟩
    apply StartsAt.modifyAt
    · intro a ha
      rw [asAccountChangeOfArenaProt_listArena] at ha
      exact hat a ha
    · exact fun a => ⟨rfl, rfl⟩

theorem uvmmResize_released {oldUaddr oldSize newUaddr newSize flags : UInt32}
    (hnodup : (arenaIds t.addressSpace.listArena).Nodup) (hfreed : t.freed = [])
    (h : ResizeUses P t oldUaddr oldSize newUaddr newSize flags) :
    (uvmmResize (arenaEnv P B) t oldUaddr oldSize newUaddr newSize flags).2.2.world.released = t.world.released := by
  unfold uvmmResize
  cases hplan : uvmmResizePlan t.addressSpace.listArena oldUaddr oldSize newUaddr newSize flags with
  | error err => rfl
  | ok p =>
    have huse := h p hplan
    dsimp only at huse ⊢
    by_cases hmove : p.mustMoveArena = true
    · -- `uvmm_map` fails, and with it the call
      rw [if_pos hmove] at huse ⊢
      unfold uvmmResizeMove uvmmMap
      cases hcheck : uvmmMapCheck newUaddr p.newSize p.arena.accessRights (p.arena.flags ||| internalMapCalledFromMremap)
          (some p.arena.mappedResource) p.newOffsetInResource with
      | error err =>
        dsimp only
        rw [if_pos (uvmmMapCheck_error hcheck)]
      | ok res =>
        have hnone : (t.allocArena (arenaEnv P B)).1 = false := huse res hcheck
        simp only [hnone]
        exact allocArena_released t.world
    · rw [if_neg hmove] at huse ⊢
      obtain ⟨hone, htwo⟩ := huse
      have hat : StartsAt t p.arena.id p.arena.start := by
        intro a ha hid
        rw [hfreed, List.append_nil] at ha
        rw [List.inj_on_of_nodup_map hnodup ha (mem_of_resizePlan hplan) hid]
      obtain ⟨hreleased, hat', hworld⟩ := uvmmResizeEnd_released (B := B) hat
        fun (hs : newUaddr + p.newSize < p.arena.start + p.arena.size) => hone (.inl hs)
      unfold uvmmResizeStart
      dsimp only
      rw [hat'.arenaAt]
      split_ifs with hshrink
      · have hnone : ((uvmmResizeEnd (arenaEnv P B) t newUaddr p).world.allocArena P).1 = false := by
          rcases hworld with heq | ⟨hend, heq⟩
          · rw [heq]
            exact hone (.inr hshrink)
          · rw [heq]
            exact htwo ⟨hend, hshrink⟩
        rcases uvmmUnmap_noStructure B hnone ((((uvmmResizeEnd (arenaEnv P B) t newUaddr p).arenaAt p.arena.id).getD p.arena).start)
          (newUaddr - p.arena.start) with heq | heq
        · rw [hat'.arenaAt] at heq
          rw [heq]
          exact hreleased
        · rw [hat'.arenaAt] at heq
          rw [heq]
          exact (allocArena_released _).trans hreleased
      · exact hreleased

theorem deleteArenas_released (l : List UvmmArena) : ∀ w : ArenaWorld X V,
    (l.foldl (deleteArena (arenaEnv P B) (ArenaWorld.kvmmCacheFree P)) w).released = w.released := by
  induction l with
  | nil => exact fun w => rfl
  | cons a l ih =>
    intro w
    rw [List.foldl_cons, ih]
    show ArenaWorld.released (callOps _ _ (callOps _ _ _)) = _
    rw [callOps_released, callOps_released]
    · rfl
    · exact fun o w => rfl
    · exact fun o w => rfl

/-- **Nothing is given to `kvmm_free`** in such a step. -/
theorem arenaStep_released {s : ArenaSystem X V} (h : ArenaInv s) {op : ArenaOp} (hallowed : ArenaAllowed s op)
    (hkeeps : ArenaKeeps P B s op) :
    (arenaStep P B cacheFreeAs s op).world.released = s.world.released := by
  cases op with
  | createAs k => rfl
  | map k hintUaddr size accessRights flags resource offsetInResource => exact uvmmMap_released hkeeps
  | unmap k uaddr size => exact uvmmUnmap_released hkeeps
  | resize k oldUaddr oldSize newUaddr newSize flags =>
    exact uvmmResize_released ((arenaRules P B).ids_nodup (h.owned hallowed)) rfl hkeeps
  | deleteAs k => exact deleteArenas_released _ _

end

/-! ## A page mapped and unmapped -/

def arenaLayout : KernelLayout := ⟨0x200000, 0x240000, 0x210000, 0x214000⟩

abbrev quietArenaStep : ArenaSystem Unit Unit → ArenaOp → ArenaSystem Unit Unit := arenaStep alwaysMaps quietEnv id

def mapFile (size : UInt32) : ArenaOp := .map 0 0x40000000 size 7 0 (some fileResource) 0

/-- `arenaStart` succeeds, and a test of the state it leaves is a test of the state there is. -/
theorem arenaStart_all (f : ArenaSystem Unit Unit → Bool)
    (h : (arenaStart alwaysMaps arenaLayout () ()).any f = true) :
    ∃ s, arenaStart alwaysMaps arenaLayout () () = some s ∧ s.spaces = [] ∧ f s = true := by
  cases hs : arenaStart alwaysMaps arenaLayout () () with
  | none =>
    rw [hs] at h
    cases h
  | some s =>
    rw [hs] at h
    refine ⟨s, rfl, ?_, h⟩
    unfold arenaStart at hs
    obtain ⟨w, -, hw⟩ := Option.bind_eq_some_iff.mp hs
    obtain ⟨r, -, rfl⟩ := Option.map_eq_some_iff.mp hw
    rfl

theorem arenaLayout_ok : arenaLayout.Ok := ⟨by decide, by decide, by decide, by decide, by decide⟩

end Desiros.Mem
