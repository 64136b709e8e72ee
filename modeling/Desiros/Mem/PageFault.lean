import Desiros.Mem.Uvmm
import Desiros.Mem.ArenaMap

/-!
# Page faults (`uvmm_lazy_loading`)

The handler asks the first arena at or after the fault address for the page, and looks neither at the
start of that arena nor at its rights. `PageFaultPolicy` is what a fault is meant to do,
`uvmmLazyLoading_policy_iff` says exactly when the handler does it.
-/

namespace Desiros.Mem

open Desiros.Library

variable {W : Type}

/-- What the handler works on. -/
structure FaultState (W : Type) where
  /-- `current` and its address space, each `none` for `NULL`. -/
  current : Option (Option UvmmAs)
  world : W

/-- The result of the handler, with the `no_page` callback it invoked, if any. -/
structure FaultResult (W : Type) where
  retval : Int
  noPageCall : Option (UvmmArena × UInt32)
  state : FaultState W

/-- `arena->ops->no_page` is mandatory; a missing table is read at address 0. -/
def callNoPage (E : UvmmEnv W) (arena : UvmmArena) (uaddr : UInt32) (writeAccess : Bool) (w : W) :
    Int × W :=
  E.noPage (arena.ops.getD 0) arena uaddr writeAccess w

def uvmmLazyLoading (E : UvmmEnv W) (f : FaultState W) (uaddr : UInt32) (writeAccess _userAccess : Bool) :
    FaultResult W :=
  match f.current with
  | none => ⟨-7, none, f⟩
  | some none => ⟨-7, none, f⟩
  | some (some as) =>
    match findFirstIntersectingArena as.listArena uaddr 1 with
    | none => ⟨-7, none, f⟩
    | some arena =>
      let (retval, w) := callNoPage E arena uaddr writeAccess f.world
      if retval ≠ 0 then
        ⟨-7, some (arena, uaddr),
          { current := some (some { as with pgfltInvalid := as.pgfltInvalid + 1 }), world := w }⟩
      else
        ⟨0, some (arena, uaddr),
          { current := some (some { as with
              physTotal := as.physTotal + pageSize
              pgfltPageIn := as.pgfltPageIn + 1 })
            world := w }⟩

/-- The rights of an arena permit a read or a write. -/
def UvmmArena.Permits (a : UvmmArena) (writeAccess : Bool) : Prop :=
  hasFlag a.accessRights (if writeAccess then pWrite else pRead) = true

/-- Some arena of the current process contains the address and permits the access. -/
def AccessAllowed (f : FaultState W) (uaddr : UInt32) (writeAccess : Bool) : Prop :=
  ∃ as, f.current = some (some as) ∧
    ∃ a ∈ as.listArena, a.Contains uaddr.toNat ∧ a.Permits writeAccess

/-- No page that was absent from the page table is present now. -/
def NoPageMapped (E : UvmmEnv W) (w w' : W) : Prop :=
  ∀ v, E.pagingVirtualToPhysical v w = 0 → E.pagingVirtualToPhysical v w' = 0

/-- `phys_total` and `pgflt_page_in` of the current process. -/
def FaultState.pageCounters (f : FaultState W) : Option (UInt32 × UInt32) :=
  f.current.join.map fun as => (as.physTotal, as.pgfltPageIn)

/-- The policy: a fault succeeds and maps a page only where an arena allows the access; otherwise it is an
error, and neither a page, nor an arena that does not contain the address, nor a counter is touched. -/
def PageFaultPolicy (E : UvmmEnv W) (f : FaultState W) (uaddr : UInt32) (writeAccess : Bool)
    (r : FaultResult W) : Prop :=
  (r.retval = 0 → AccessAllowed f uaddr writeAccess) ∧
  (¬ AccessAllowed f uaddr writeAccess →
    r.retval ≠ 0 ∧ NoPageMapped E f.world r.state.world ∧
      (∀ c ∈ r.noPageCall, c.1.Contains c.2.toNat) ∧ r.state.pageCounters = f.pageCounters)

/-- When the handler keeps to the policy: the access is allowed; or there is no process, no address space
or no arena at or after the address; or the first arena at or after the address contains it and its
`no_page` refuses the access without mapping a page. -/
def FaultGood (E : UvmmEnv W) (f : FaultState W) (uaddr : UInt32) (writeAccess : Bool) : Prop :=
  AccessAllowed f uaddr writeAccess ∨ f.current.join = none ∨
    ∃ as, f.current = some (some as) ∧ ∀ a ∈ as.listArena.find? (·.reaches uaddr),
      a.Contains uaddr.toNat ∧ (callNoPage E a uaddr writeAccess f.world).1 ≠ 0 ∧
        NoPageMapped E f.world (callNoPage E a uaddr writeAccess f.world).2

theorem findFirstIntersectingArena_eq (l : List UvmmArena) (uaddr size : UInt32) :
    findFirstIntersectingArena l uaddr size = l.find? (·.reaches uaddr) := by
  have h : ¬ uaddr > pagingTopUserAddress := by
    have := word_lt uaddr
    rw [gt_iff_lt, word_lt_iff, toNat_pagingTopUserAddress]
    omega
  rw [findFirstIntersectingArena, findEnclosingOrNextArena, if_neg h]

/-- **The page-fault handler keeps to the policy exactly when `FaultGood` holds.** -/
theorem uvmmLazyLoading_policy_iff (E : UvmmEnv W) (f : FaultState W) (uaddr : UInt32)
    (writeAccess userAccess : Bool) :
    PageFaultPolicy E f uaddr writeAccess (uvmmLazyLoading E f uaddr writeAccess userAccess) ↔
      FaultGood E f uaddr writeAccess := by
  by_cases hallowed : AccessAllowed f uaddr writeAccess
  · exact iff_of_true ⟨fun _ => hallowed, fun h => absurd hallowed h⟩ (.inl hallowed)
  rw [PageFaultPolicy, FaultGood, or_iff_right hallowed]
  cases hcur : f.current with
  | none =>
    refine iff_of_true ⟨fun h => ?_, fun _ => ?_⟩ (.inl rfl)
    · simp [uvmmLazyLoading, hcur] at h
    · simp [uvmmLazyLoading, hcur, NoPageMapped]
  | some as =>
    cases as with
    | none =>
      refine iff_of_true ⟨fun h => ?_, fun _ => ?_⟩ (.inl rfl)
      · simp [uvmmLazyLoading, hcur] at h
      · simp [uvmmLazyLoading, hcur, NoPageMapped]
    | some as =>
      have hjoin : ¬ (some (some as)).join = none := by simp
      rw [or_iff_right hjoin]
      have hfind := findFirstIntersectingArena_eq as.listArena uaddr 1
      cases hfirst : as.listArena.find? (·.reaches uaddr) with
      | none =>
        rw [hfirst] at hfind
        refine iff_of_true ⟨fun h => ?_, fun _ => ?_⟩ ⟨as, rfl, fun a ha => ?_⟩
        · simp [uvmmLazyLoading, hcur, hfind] at h
        · simp [uvmmLazyLoading, hcur, hfind, NoPageMapped]
        · rw [hfirst] at ha
          cases ha
      | some arena =>
        rw [hfirst] at hfind
        by_cases hret : (callNoPage E arena uaddr writeAccess f.world).1 = 0
        · -- the callback resolves a fault it should not
          refine iff_of_false (fun h => hallowed (h.1 ?_)) fun ⟨as', has', h⟩ => ?_
          · simp [uvmmLazyLoading, hcur, hfind, hret]
          · cases has'
            exact (h arena hfirst).2.1 hret
        · constructor
          · rintro ⟨_, h⟩
            obtain ⟨_, hpages, hcall, _⟩ := h hallowed
            refine ⟨as, rfl, fun a ha => ?_⟩
            obtain rfl : arena = a := Option.some.inj (hfirst.symm.trans ha)
            simp only [uvmmLazyLoading, hcur, hfind, if_pos hret] at hpages hcall
            exact ⟨hcall _ rfl, hret, hpages⟩
          · rintro ⟨as', has', h⟩
            cases has'
            obtain ⟨hcontains, _, hpages⟩ := h arena hfirst
            simp only [uvmmLazyLoading, hcur, hfind, if_pos hret]
            refine ⟨fun h0 => absurd h0 (by decide), fun _ => ⟨by decide, hpages, ?_, ?_⟩⟩
            · rintro c hc
              cases hc
              exact hcontains
            · simp [FaultState.pageCounters, hcur]

/-- A read-only page, and a fault below it. -/
def readOnlyPage : FaultState Unit where
  current := some (some
    { listArena := [⟨0, 0x40001000, 0x1000, 1, 0, some 1, zeroResource, 0x40001000⟩] })
  world := ()

/-- The fault below the only arena succeeds. -/
theorem uvmmLazyLoading_below :
    ¬ PageFaultPolicy quietEnv readOnlyPage 0x40000000 true
      (uvmmLazyLoading quietEnv readOnlyPage 0x40000000 true true) := by
  rintro ⟨h, _⟩
  obtain ⟨as, has, a, ha, hc, _⟩ := h (by decide)
  cases has
  cases List.mem_singleton.mp ha
  revert hc
  decide

end Desiros.Mem
