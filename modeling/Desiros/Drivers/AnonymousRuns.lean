import Desiros.Drivers.AnonymousMemory
import Mathlib.Data.List.Find

/-!
# Runs of anonymous memory

From fresh address spaces, every run whose writes are good is coherent (`anonymous_runs`). For private
arenas the location of a byte is its process and address, and a write is good when its page does not show
`zero_page`; for shared arenas it is the resource, the page id and the offset. `read_then_write` and
`read_write_read` are the runs in which the page that shows `zero_page` is never replaced.
-/

namespace Desiros.Drivers

open Desiros.Library Desiros.Mem

/-- No page is present or listed, and `zero_page` is in use and full of zeros. -/
structure Fresh (s : ZeroSystem) : Prop where
  free : s.world.physmem.FreeOk
  zero : ∀ i, s.world.mem s.world.zeroPage i = 0
  zero_not_free : s.world.zeroPage ∉ s.world.physmem.freePpage
  absent : ∀ p a, ¬ (s.world.entry p a).present
  unlisted : ∀ r, s.world.listMappedPages r = []

theorem Fresh.coherent {s : ZeroSystem} (h : Fresh s) (loc : Nat → UInt32 → Loc) :
    Coherent loc s.world [] fun _ => none where
  free := h.free
  zero := h.zero
  zero_not_free := h.zero_not_free
  injective := fun _ _ _ h => by cases h
  page := fun _ _ h => by cases h
  permits := fun p a hpres => absurd hpres (h.absent p a)
  mapped := fun p a hpres => absurd hpres (h.absent p a)
  listed := fun r id => by rw [lookupAnonymousPhyspage, h.unlisted]; rfl
  own := fun _ _ _ h => by cases h
  content := fun _ _ h => by cases h
  untouched := fun _ _ _ ⟨_, he, _⟩ => by cases he

theorem locOf_of_arenaAt {s : ZeroSystem} {loc : Nat → UInt32 → Loc} (h : s.locOf = loc) (p : Nat)
    (a : UInt32) (arena : UvmmArena) (harena : s.arenaAt p a = some arena) :
    loc p a = arenaLoc arena p a := by
  rw [← h, ZeroSystem.locOf, harena]

/-- **Runs of good accesses are coherent.** -/
theorem RunCoherent.step {loc : Nat → UInt32 → Loc} {t : ZeroRun} (h : RunCoherent loc t)
    (hloc : PageWise loc) (E : UvmmEnv ZeroWorld) (op : ZeroOp) (hgood : OpGood t op) :
    RunCoherent loc (zeroStep E t op) := by
  cases op with
  | access x => exact h.access hloc (locOf_of_arenaAt h.locOf) E x hgood
  | takePage => exact h.takePage E

theorem anonymous_runs (E : UvmmEnv ZeroWorld) {s : ZeroSystem} (hfresh : Fresh s)
    (hloc : PageWise s.locOf) (ops : List ZeroOp) (hgood : Guarded (zeroStep E) OpGood ⟨s, []⟩ ops) :
    RunCoherent s.locOf (run (zeroStep E) ⟨s, []⟩ ops) :=
  invariant_run (fun _ op h hop => h.step hloc E op hop) ops _
    ⟨rfl, trivial, _, hfresh.coherent _⟩ hgood

/-! ## Private mappings -/

/-- All mappings are private. -/
def PrivateMappings (s : ZeroSystem) : Prop :=
  ∀ p as, s.addressSpaces p = some as → ∀ arena ∈ as.listArena, isShared arena = false

/-- A write does not meet a page that shows `zero_page`. -/
def PrivateGood (t : ZeroRun) : ZeroOp → Prop
  | .access x => x.isWrite → (t.system.world.entry x.process x.uaddr).present →
      (t.system.world.entry x.process x.uaddr).paddr ≠ t.system.world.zeroPage
  | .takePage => True

/-- The history of the completed accesses, by process and address. -/
def addressHistory : MemHistory Event (Nat × UInt32) UInt8 where
  cell := fun e => (e.process, e.uaddr)
  isWrite := Event.isWrite
  value := Event.value

def privateLoc (p : Nat) (a : UInt32) : Loc := .privatePage p (pageAlignInf a)

theorem privateMappings_locOf {s : ZeroSystem} (h : PrivateMappings s) : s.locOf = privateLoc := by
  funext p a
  cases has : s.addressSpaces p with
  | none => simp only [ZeroSystem.locOf, ZeroSystem.arenaAt, has, Option.map_none, Option.bind_none, privateLoc]
  | some as =>
    have harena : s.arenaAt p a = as.listArena.find? (·.reaches a) := by
      rw [ZeroSystem.arenaAt, has]
      exact findFirstIntersectingArena_eq _ _ 1
    rw [ZeroSystem.locOf, harena]
    cases hfind : as.listArena.find? (·.reaches a) with
    | none => rfl
    | some arena =>
      have hs := h p as has arena (List.mem_of_find?_eq_some hfind)
      simp only [arenaLoc, hs, Bool.false_eq_true, if_false, privateLoc]

theorem pageWise_privateLoc : PageWise privateLoc := by
  intro p a b hab
  rw [privateLoc, hab, privateLoc]

/-- An address is the address of its page and its offset in the page. -/
theorem eq_of_page_offset {a b : UInt32} (hpage : pageAlignInf a = pageAlignInf b)
    (hoffset : vaddrPgOffset a = vaddrPgOffset b) : a = b := by
  have hp : ∀ v, (pageAlignInf v).toNat = v.toNat / 4096 * 4096 := toNat_alignInf
  have ho : ∀ v, (vaddrPgOffset v).toNat = v.toNat % 4096 := by
    intro v
    rw [vaddrPgOffset, UInt32.toNat_and]
    exact Nat.and_two_pow_sub_one_eq_mod v.toNat 12
  rw [word_eq_iff] at hpage hoffset ⊢
  rw [hp, hp] at hpage
  rw [ho, ho] at hoffset
  omega

theorem privateGood_opGood {t : ZeroRun} (h : t.system.locOf = privateLoc) (op : ZeroOp)
    (hgood : PrivateGood t op) : OpGood t op := by
  cases op with
  | takePage => trivial
  | access x =>
    intro hw
    refine ⟨fun p a hpres he => ?_, fun arena harena habsent hfails => ?_⟩
    · -- only the page itself is its location
      rw [h, privateLoc, privateLoc, Loc.privatePage.injEq] at he
      have hentry : t.system.world.entry p a = t.system.world.entry x.process x.uaddr := by
        rw [ZeroWorld.entry, ZeroWorld.entry, he.1, he.2]
      rw [hentry] at hpres ⊢
      exact hgood hw hpres
    · have hl := locOf_of_arenaAt h x.process x.uaddr arena harena
      rw [arenaLoc, if_pos hfails.1] at hl
      cases hl

/-- **Private memory is private and initially zero.** In every run whose writes do not meet a page that
shows `zero_page`, each read returns the last value its own process wrote at its address, or 0, and the
content of `zero_page` stays 0. -/
theorem private_memory_runs (E : UvmmEnv ZeroWorld) (s : ZeroSystem) (hfresh : Fresh s)
    (hprivate : PrivateMappings s) (ops : List ZeroOp)
    (hgood : Guarded (zeroStep E) PrivateGood ⟨s, []⟩ ops) :
    let t := run (zeroStep E) ⟨s, []⟩ ops
    ReadsLast addressHistory 0 t.events ∧ ∀ i, t.system.world.mem t.system.world.zeroPage i = 0 := by
  intro t
  have hinit : RunCoherent privateLoc ⟨s, []⟩ :=
    ⟨privateMappings_locOf hprivate, trivial, _, hfresh.coherent _⟩
  have hinv : RunCoherent privateLoc t :=
    invariant_run (fun _ op h hop => h.step pageWise_privateLoc E op (privateGood_opGood h.locOf op hop))
      ops _ hinit hgood
  obtain ⟨home, hcoh⟩ := hinv.coherent
  refine ⟨readsLast_congr (byteHistory privateLoc) addressHistory (fun _ => rfl) (fun _ => rfl)
    (fun e e' => ?_) hinv.reads, hcoh.zero⟩
  simp only [addressHistory, byteHistory, privateLoc, Prod.mk.injEq, Loc.privatePage.injEq]
  constructor
  · rintro ⟨hp, ha⟩
    exact ⟨⟨hp, by rw [ha]⟩, by rw [ha]⟩
  · rintro ⟨⟨hp, hpage⟩, hoffset⟩
    exact ⟨hp, eq_of_page_offset hpage hoffset⟩

/-! ## Two processes with a page each -/

/-- Every allocation succeeds; the paging functions are those of the current process. -/
def zeroQuietEnv : UvmmEnv ZeroWorld where
  allocArena := fun w => (true, w)
  freeArena := fun _ w => w
  kmallocZeroResource := fun w => (some 1, w)
  kfreeZeroResource := fun _ w => w
  zeroMmap := 1
  mmap := fun _ _ w => (0, some 1, w)
  ref := fun _ _ w => w
  unref := fun _ _ w => w
  unmap := fun _ _ _ _ w => w
  noPage := fun _ => zeroNoPage
  resourceAddTail := fun _ w => w
  resourceDelete := fun _ w => w
  pagingUnmapInterval := fun _ size w => (size, w)
  pagingVirtualToPhysical := fun virt w => pagingVirtualToPhysical w.paging virt
  pagingMap := fun virt physical user w => w.pagingMap virt physical user

/-- Two free physical pages, and `zero_page`. -/
def freshWorld : ZeroWorld where
  physmem :=
    { physmemBase := 0x1000
      physmemTop := 0x4000
      refCnt := fun paddr => if paddr = 0x1000 then 1 else 0
      freePpage := [0x2000, 0x3000]
      usedPpage := [0x1000]
      physmemUsedPages := 1 }
  mem := fun _ _ => 0
  zeroPage := 0x1000
  pageTables := fun _ _ => ⟨0, false, false, false⟩
  current := 0
  listMappedPages := fun _ => []
  cacheAllocOk := true

/-- `dev_zero_map` of one page. -/
def onePageAs (flags : UInt32) : UvmmAs :=
  (devZeroMap zeroQuietEnv (uvmmCreateEmptyAs freshWorld) 0x40000000 0x1000 3 flags).2.2.addressSpace

/-- Every process has such a page. -/
def onePageEach (flags : UInt32) : ZeroSystem where
  addressSpaces := fun _ => some (onePageAs flags)
  world := freshWorld

theorem fresh_onePageEach (flags : UInt32) : Fresh (onePageEach flags) where
  free :=
    { nodup := (by decide : freshWorld.physmem.freePpage.Nodup)
      refCnt := List.forall_mem_cons.mpr ⟨rfl, List.forall_mem_singleton.mpr rfl⟩ }
  zero := fun _ => rfl
  zero_not_free := (by decide : freshWorld.zeroPage ∉ freshWorld.physmem.freePpage)
  absent := fun _ _ => Bool.false_ne_true
  unlisted := fun _ => rfl

theorem privateMappings_onePageEach : PrivateMappings (onePageEach 0) := by
  intro p as has
  cases has
  decide

def readByte (process : Nat) : ZeroOp := .access ⟨process, 0x40000000, none, true⟩
def writeByte (process : Nat) (v : UInt8) : ZeroOp := .access ⟨process, 0x40000000, some v, true⟩

theorem private_memory_runs_first :
    ReadsLast addressHistory 0
        (run (zeroStep zeroQuietEnv) ⟨onePageEach 0, []⟩ [writeByte 0 7, readByte 0, readByte 1]).events ∧
      ∀ i, (run (zeroStep zeroQuietEnv) ⟨onePageEach 0, []⟩
        [writeByte 0 7, readByte 0, readByte 1]).system.world.mem (run (zeroStep zeroQuietEnv)
          ⟨onePageEach 0, []⟩ [writeByte 0 7, readByte 0, readByte 1]).system.world.zeroPage i = 0 := by
  refine private_memory_runs zeroQuietEnv (onePageEach 0) (fresh_onePageEach 0)
    privateMappings_onePageEach [writeByte 0 7, readByte 0, readByte 1]
    ⟨fun _ h => ?_, fun h => ?_, fun h => ?_, trivial⟩
  · exact absurd h Bool.false_ne_true
  · exact absurd h Bool.false_ne_true
  · exact absurd h Bool.false_ne_true

/-- A process reads its page and then writes it: it writes `zero_page`, and the other one reads what it
wrote. -/
theorem private_memory_shared :
    Fresh (onePageEach 0) ∧ PrivateMappings (onePageEach 0) ∧ ¬ ReadsLast addressHistory 0
      (run (zeroStep zeroQuietEnv) ⟨onePageEach 0, []⟩ [readByte 0, writeByte 0 7, readByte 1]).events := by
  have hevents : (run (zeroStep zeroQuietEnv) ⟨onePageEach 0, []⟩
      [readByte 0, writeByte 0 7, readByte 1]).events =
      [⟨1, 0x40000000, false, 7⟩, ⟨0, 0x40000000, true, 7⟩, ⟨0, 0x40000000, false, 0⟩] := by decide
  refine ⟨fresh_onePageEach 0, privateMappings_onePageEach, fun h => ?_⟩
  rw [hevents] at h
  exact absurd (h.1 rfl) (by decide)

/-! ## Shared mappings -/

/-- The arenas are made of whole pages. -/
def WholePages (s : ZeroSystem) : Prop :=
  ∀ p as, s.addressSpaces p = some as → ∀ arena ∈ as.listArena, arena.Ok

theorem pageWise_locOf {s : ZeroSystem} (h : WholePages s) : PageWise s.locOf := by
  intro p a b hab
  have harena : s.arenaAt p a = s.arenaAt p b := by
    cases has : s.addressSpaces p with
    | none => simp only [ZeroSystem.arenaAt, has, Option.map_none, Option.bind_none]
    | some as =>
      have hpage : ∀ v, (pageAlignInf v).toNat = v.toNat / 4096 * 4096 := toNat_alignInf
      have hab' := word_eq_iff.mp hab
      rw [hpage, hpage] at hab'
      simp only [ZeroSystem.arenaAt, has, Option.map_some, Option.bind_some,
        findFirstIntersectingArena_eq]
      apply List.find?_congr
      intro arena harena
      have hok := h p as has arena harena
      have hhi := hok.hi_aligned
      rw [Bool.eq_iff_iff, hok.reaches_iff, hok.reaches_iff]
      omega
  rw [ZeroSystem.locOf, ZeroSystem.locOf, harena]
  cases s.arenaAt p b with
  | none => rw [hab]
  | some arena => simp only [arenaLoc, requiredPageId, hab]

/-- **Shared memory is coherent.** In every run whose accesses are good, each read returns the last value
written to its location and offset through any arena, or 0, and once a page of a resource was written, all
addresses with its page id that are mapped show the same physical page. -/
theorem shared_memory_runs (E : UvmmEnv ZeroWorld) (s : ZeroSystem) (hfresh : Fresh s)
    (hpages : WholePages s) (ops : List ZeroOp) (hgood : Guarded (zeroStep E) OpGood ⟨s, []⟩ ops) :
    let t := run (zeroStep E) ⟨s, []⟩ ops
    ReadsLast (byteHistory s.locOf) 0 t.events ∧
    ∀ r id, (∃ i, Written (byteHistory s.locOf) (.sharedPage r id, i) t.events) →
      ∀ p a p' a', s.locOf p a = .sharedPage r id → s.locOf p' a' = .sharedPage r id →
        (t.system.world.entry p a).present → (t.system.world.entry p' a').present →
          (t.system.world.entry p a).paddr = (t.system.world.entry p' a').paddr := by
  intro t
  have hinv : RunCoherent s.locOf t := anonymous_runs E hfresh (pageWise_locOf hpages) ops hgood
  obtain ⟨home, hcoh⟩ := hinv.coherent
  refine ⟨hinv.reads, fun r id ⟨i, hwritten⟩ p a p' a' hl hl' hpres hpres' => ?_⟩
  obtain ⟨f, hf⟩ : ∃ f, home (.sharedPage r id) = some f := by
    rw [← Option.ne_none_iff_exists']
    exact fun hnone => hcoh.untouched _ hnone i hwritten
  have hshows : ∀ p a, s.locOf p a = .sharedPage r id → (t.system.world.entry p a).present →
      (t.system.world.entry p a).paddr = f := by
    intro p a hl hpres
    rcases hcoh.mapped p a hpres with hhome | ⟨_, hnone⟩
    · rw [hl, hf] at hhome
      exact (Option.some.inj hhome).symm
    · rw [hl, hf] at hnone
      cases hnone
  rw [hshows p a hl hpres, hshows p' a' hl' hpres']

theorem wholePages_onePageEach : WholePages (onePageEach 1) := by
  intro p as has
  cases has
  intro arena harena
  have hlist : (onePageAs 1).listArena =
      [⟨0, 0x40000000, 0x1000, 3, 1, some 1, ⟨1, 7, 1, some 1⟩, 0x40000000⟩] := by decide
  rw [hlist] at harena
  cases List.mem_singleton.mp harena
  exact ⟨by decide, by decide, by decide, by decide, by decide⟩

theorem shared_memory_runs_first :
    ReadsLast (byteHistory (onePageEach 1).locOf) 0
      (run (zeroStep zeroQuietEnv) ⟨onePageEach 1, []⟩ [writeByte 0 7, readByte 1]).events := by
  refine (shared_memory_runs zeroQuietEnv (onePageEach 1) (fresh_onePageEach 1) wholePages_onePageEach
    [writeByte 0 7, readByte 1] ⟨fun _ => ⟨fun p a h => ?_, fun arena _ _ hfails => ?_⟩, fun h => ?_,
      trivial⟩).1
  · exact absurd h Bool.false_ne_true
  · exact absurd hfails.2.2.2 (by decide)
  · exact absurd h Bool.false_ne_true

/-- A process reads a shared page before another one writes it: it keeps the page of zeros. -/
theorem shared_memory_diverges :
    Fresh (onePageEach 1) ∧ WholePages (onePageEach 1) ∧ ¬ ReadsLast (byteHistory (onePageEach 1).locOf) 0
      (run (zeroStep zeroQuietEnv) ⟨onePageEach 1, []⟩ [readByte 0, writeByte 1 7, readByte 0]).events := by
  have hevents : (run (zeroStep zeroQuietEnv) ⟨onePageEach 1, []⟩
      [readByte 0, writeByte 1 7, readByte 0]).events =
      [⟨0, 0x40000000, false, 0⟩, ⟨1, 0x40000000, true, 7⟩, ⟨0, 0x40000000, false, 0⟩] := by decide
  refine ⟨fresh_onePageEach 1, wholePages_onePageEach, fun h => ?_⟩
  rw [hevents] at h
  exact absurd (h.1 rfl) (by decide)

end Desiros.Drivers
