import Desiros.Drivers.Ide
import Desiros.Proc.Mutex

/-!
# The controller mutex of the IDE driver (`drivers/ide.c`)

`ideIoOperation` is the rest of `ide_io_operation` behind `kmutex_lock`, over whatever values the status register
delivers. Two of its six ways to return leave the mutex locked (`ForgetsUnlock`), and `kmutex_unlock` leaves it with its
owner when somebody waits. Where neither happens, no process comes out of the driver with the mutex
(`ide_mutex_released`).
-/

namespace Desiros.Drivers

open Desiros.Library Desiros.Proc

def ataSError : UInt8 := 0x01
def ataSDrq : UInt8 := 0x08
def ataSBsy : UInt8 := 0x80

def enxio : Int := 6

/-! ## The operation -/

section

variable (status : Nat → UInt8)

/-- `while (inb(ATA_STATUS) & ATA_S_BSY);`, from the `k`-th value on. The result is the number of values read. -/
def waitReady : Nat → Nat → Option Nat
  | 0, _ => none
  | fuel + 1, k => if status k &&& ataSBsy ≠ 0 then waitReady fuel (k + 1) else some (k + 1)

/-- The loops that wait for the DRQ bit to be set or cleared, and whether they end without an error. -/
def waitDrq (drq : Bool) : Nat → Nat → Option (Bool × Nat)
  | 0, _ => none
  | fuel + 1, k =>
    if status k &&& ataSError ≠ 0 then some (false, k + 1)
    else if status k &&& ataSBsy = 0 ∧ (status k &&& ataSDrq != 0) = drq then some (true, k + 1)
    else waitDrq drq fuel (k + 1)

/-- The mutex of the controller, the buffer of the request, and the words sent to the device. -/
structure IdeIo where
  mutex : KMutex
  buf : Nat → UInt16
  sent : List UInt16

/-- `kmutex_unlock`, and the result, unless the process loses the CPU there. -/
def IdeIo.unlock (s : IdeIo) (retval : Int) : Option Int × IdeIo :=
  ((kmutexUnlock s.mutex).1.map fun _ => retval, { s with mutex := (kmutexUnlock s.mutex).2 })

/-- The last check, and the unlock behind it. -/
def ideIoEnd (k : Nat) (s : IdeIo) : Option Int × IdeIo :=
  if status k &&& ataSError ≠ 0 then (some (-1), s) else s.unlock ok

/-- `ide_io_operation` behind `kmutex_lock`. `data` is what the data register delivers. -/
def ideIoOperation (fuel : Nat) (data : Nat → UInt16) (iswrite : Bool) (s : IdeIo) : Option (Option Int × IdeIo) :=
  (waitReady status fuel 0).bind fun k =>
    if status k &&& ataSError ≠ 0 then some (some (-enxio), s)
    else
      (waitDrq status true fuel (k + 1)).bind fun (good, k) =>
        if !good then some (s.unlock (-enxio))
        else if iswrite then
          let s := { s with sent := (List.range 256).map s.buf }
          (waitDrq status false fuel k).bind fun (good, k) =>
            if !good then some (s.unlock (-enxio)) else some (ideIoEnd status k s)
        else
          let s := { s with buf := fun i => if i < 256 then data i else s.buf i }
          some (ideIoEnd status k s)

end

/-! ## The ways to return -/

/-- The loop from `k` on ends with the `j`-th value. -/
def EndsAt (stop : UInt8 → Prop) (status : Nat → UInt8) (k j : Nat) : Prop :=
  k ≤ j ∧ stop (status j) ∧ ∀ l, k ≤ l → l < j → ¬ stop (status l)

def NotBusy (v : UInt8) : Prop := v &&& ataSBsy = 0

def IsError (v : UInt8) : Prop := v &&& ataSError ≠ 0

def DrqIs (drq : Bool) (v : UInt8) : Prop := IsError v ∨ NotBusy v ∧ (v &&& ataSDrq != 0) = drq

/-- The status register shows an error as soon as the device is ready, or after all data has been transferred. -/
def ForgetsUnlock (status : Nat → UInt8) (iswrite : Bool) : Prop :=
  ∃ i, EndsAt NotBusy status 0 i ∧ (IsError (status (i + 1)) ∨
    ∃ j, EndsAt (DrqIs true) status (i + 2) j ∧ ¬ IsError (status j) ∧
      if iswrite then ∃ k, EndsAt (DrqIs false) status (j + 1) k ∧ ¬ IsError (status k) ∧ IsError (status (k + 1))
      else IsError (status (j + 1)))

section

variable {status : Nat → UInt8} {stop : UInt8 → Prop} {fuel k j j' n : Nat} {drq good : Bool} {iswrite : Bool}
  {data : Nat → UInt16} {s : IdeIo}

theorem EndsAt.unique (h : EndsAt stop status k j) (h' : EndsAt stop status k j') : j = j' := by
  obtain ⟨hle, hstop, hall⟩ := h
  obtain ⟨hle', hstop', hall'⟩ := h'
  rcases Nat.lt_trichotomy j j' with hlt | heq | hlt
  · exact absurd hstop (hall' j hle hlt)
  · exact heq
  · exact absurd hstop' (hall j' hle' hlt)

/-- One more value that does not end the loop. -/
theorem EndsAt.step (h : EndsAt stop status (k + 1) j) (hk : ¬ stop (status k)) : EndsAt stop status k j := by
  obtain ⟨hle, hstop, hall⟩ := h
  refine ⟨by omega, hstop, fun l hl hlj => ?_⟩
  rcases Nat.eq_or_lt_of_le hl with rfl | hlt
  · exact hk
  · exact hall l hlt hlj

theorem endsAt_here (hk : stop (status k)) : EndsAt stop status k k :=
  ⟨Nat.le_refl k, hk, fun l hl hlk => absurd hl (by omega)⟩

theorem waitReady_spec : ∀ (fuel k : Nat), waitReady status fuel k = some n →
    ∃ j, n = j + 1 ∧ EndsAt NotBusy status k j := by
  intro fuel
  induction fuel with
  | zero =>
    intro k h
    cases h
  | succ fuel ih =>
    intro k h
    unfold waitReady at h
    split_ifs at h with hbusy
    · obtain ⟨j, hn, hend⟩ := ih (k + 1) h
      exact ⟨j, hn, hend.step fun hready => hbusy hready⟩
    · exact ⟨k, (Option.some.inj h).symm, endsAt_here (not_not.mp hbusy)⟩

theorem waitDrq_spec : ∀ (fuel k : Nat), waitDrq status drq fuel k = some (good, n) →
    ∃ j, n = j + 1 ∧ EndsAt (DrqIs drq) status k j ∧ (good = true ↔ ¬ IsError (status j)) := by
  intro fuel
  induction fuel with
  | zero =>
    intro k h
    cases h
  | succ fuel ih =>
    intro k h
    unfold waitDrq at h
    split_ifs at h with herror hdone
    · rw [Option.some_inj, Prod.mk.injEq] at h
      refine ⟨k, h.2.symm, endsAt_here (.inl herror), ?_⟩
      rw [← h.1]
      exact iff_of_false Bool.false_ne_true (not_not.mpr herror)
    · rw [Option.some_inj, Prod.mk.injEq] at h
      refine ⟨k, h.2.symm, endsAt_here (.inr hdone), ?_⟩
      rw [← h.1]
      exact iff_of_true rfl herror
    · obtain ⟨j, hn, hend, hgood⟩ := ih (k + 1) h
      refine ⟨j, hn, hend.step ?_, hgood⟩
      rintro (herr | hdrq)
      · exact herror herr
      · exact hdone hdrq

/-- Once the device is ready and shows an error, nothing else matters. -/
theorem forgetsUnlock_of_ready (h : EndsAt NotBusy status 0 j) (herr : IsError (status (j + 1))) :
    ForgetsUnlock status iswrite := ⟨j, h, .inl herr⟩

/-- Otherwise the loop for the DRQ bit decides: an error there is unlocked. -/
theorem forgetsUnlock_iff (h : EndsAt NotBusy status 0 j) (hok : ¬ IsError (status (j + 1)))
    (h' : EndsAt (DrqIs true) status (j + 2) j') : ForgetsUnlock status iswrite ↔ ¬ IsError (status j') ∧
      if iswrite then
        ∃ k, EndsAt (DrqIs false) status (j' + 1) k ∧ ¬ IsError (status k) ∧ IsError (status (k + 1))
      else IsError (status (j' + 1)) := by
  constructor
  · rintro ⟨i, hi, herr | ⟨i', hi', hok', hrest⟩⟩
    · rw [hi.unique h] at herr
      exact absurd herr hok
    · obtain rfl := hi.unique h
      obtain rfl := hi'.unique h'
      exact ⟨hok', hrest⟩
  · exact fun hrest => ⟨j, h, .inr ⟨j', h', hrest.1, hrest.2⟩⟩

/-- The mutex when the operation has come to its end: left as it was, or unlocked. -/
def MutexLeft (forgets : Prop) (s : IdeIo) (r : Option Int × IdeIo) : Prop :=
  (forgets ∧ r.2.mutex = s.mutex ∧ r.1.isSome = true) ∨
    (¬ forgets ∧ r.2.mutex = (kmutexUnlock s.mutex).2 ∧ r.1.isSome = (kmutexUnlock s.mutex).1.isSome)

theorem mutexLeft_unlock {forgets : Prop} (h : ¬ forgets) (retval : Int) :
    MutexLeft forgets s (s.unlock retval) := .inr ⟨h, rfl, Option.isSome_map⟩

theorem mutexLeft_end {forgets : Prop} (h : forgets ↔ IsError (status k)) :
    MutexLeft forgets s (ideIoEnd status k s) := by
  unfold ideIoEnd
  split_ifs with herr
  · exact .inl ⟨h.mpr herr, rfl, rfl⟩
  · exact mutexLeft_unlock (fun hf => herr (h.mp hf)) _

/-- **Every way to return.** -/
theorem ideIoOperation_mutex {r : Option Int × IdeIo} (h : ideIoOperation status fuel data iswrite s = some r) :
    MutexLeft (ForgetsUnlock status iswrite) s r := by
  unfold ideIoOperation at h
  obtain ⟨n, hready, h⟩ := Option.bind_eq_some_iff.mp h
  obtain ⟨j, rfl, hj⟩ := waitReady_spec _ _ hready
  by_cases herr : status (j + 1) &&& ataSError ≠ 0
  · rw [if_pos herr] at h
    obtain rfl := Option.some.inj h
    exact .inl ⟨forgetsUnlock_of_ready hj herr, rfl, rfl⟩
  rw [if_neg herr] at h
  obtain ⟨⟨good, n⟩, hdrq, h⟩ := Option.bind_eq_some_iff.mp h
  obtain ⟨j', rfl, hj', hgood⟩ := waitDrq_spec _ _ hdrq
  have hiff := @forgetsUnlock_iff status j j' iswrite hj herr hj'
  cases good with
  | false =>
    obtain rfl := Option.some.inj h
    have hbad : ¬ ¬ IsError (status j') := fun hok => Bool.false_ne_true (hgood.mpr hok)
    exact mutexLeft_unlock (fun hf => hbad (hiff.mp hf).1) _
  | true =>
    have hok := hgood.mp rfl
    cases iswrite with
    | false =>
      obtain rfl := Option.some.inj h
      exact mutexLeft_end (s := { s with buf := _ }) (hiff.trans ⟨And.right, fun herr => ⟨hok, herr⟩⟩)
    | true =>
      obtain ⟨⟨good, n⟩, hdrq', h⟩ := Option.bind_eq_some_iff.mp h
      obtain ⟨k, rfl, hk, hgood'⟩ := waitDrq_spec _ _ hdrq'
      cases good with
      | false =>
        obtain rfl := Option.some.inj h
        have hbad : ¬ ¬ IsError (status k) := fun hok => Bool.false_ne_true (hgood'.mpr hok)
        refine mutexLeft_unlock (s := { s with sent := _ }) (fun hf => ?_) _
        obtain ⟨-, k', hk', hok', -⟩ := hiff.mp hf
        exact hbad (hk'.unique hk ▸ hok')
      | true =>
        obtain rfl := Option.some.inj h
        refine mutexLeft_end (s := { s with sent := _ }) (hiff.trans ⟨?_, fun herr => ⟨hok, k, hk, hgood'.mp rfl, herr⟩⟩)
        rintro ⟨-, k', hk', -, herr⟩
        exact hk'.unique hk ▸ herr

/-- The request returns without the mutex: the caller does not own it, or unlocks it when nobody waits. -/
def IoReleases (status : Nat → UInt8) (iswrite : Bool) (m : KMutex) : Prop :=
  m.owner = some m.kernel.sched.current → ¬ ForgetsUnlock status iswrite ∧ m.kernel.waitingList = []

/-- `kmutex_unlock` leaves the mutex with its owner when somebody waits. -/
theorem kmutexUnlock_owner (m : KMutex) : (kmutexUnlock m).2.owner ≠ some m.kernel.sched.current ↔
    (m.owner = some m.kernel.sched.current → m.kernel.waitingList = []) := by
  by_cases howner : m.owner = some m.kernel.sched.current
  · rw [imp_iff_right howner]
    unfold kmutexUnlock
    dsimp only
    have hmine : ¬ m.unlockCalled.owner ≠ some m.unlockCalled.kernel.sched.current := not_not.mpr howner
    rw [if_neg hmine]
    split_ifs with hlist
    · exact iff_of_true (Option.some_ne_none _).symm hlist
    · refine iff_of_false (not_not.mpr ?_) hlist
      unfold kmutexUnlockEnd
      dsimp only
      split <;> exact howner
  · rw [kmutexUnlock_eperm howner]
    exact iff_of_true howner fun h => absurd h howner

theorem MutexLeft.owner {m : KMutex} {r : Option Int × IdeIo} (hm : s.mutex = m)
    (h : MutexLeft (ForgetsUnlock status iswrite) s r) :
    r.2.mutex.owner ≠ some m.kernel.sched.current ↔ IoReleases status iswrite m := by
  subst hm
  unfold IoReleases
  rcases h with ⟨hforgets, heq, -⟩ | ⟨hunlocks, heq, -⟩
  · rw [heq]
    exact ⟨fun hne howner => absurd howner hne, fun hr howner => (hr howner).1 hforgets⟩
  · rw [heq, kmutexUnlock_owner]
    exact forall_congr' fun _ => (and_iff_right hunlocks).symm

end

/-! ## Any interleaving of requests -/

/-- The mutex of a controller and the processes that are in `ide_io_operation`. -/
structure IdeSystem where
  mutex : KMutex
  inside : Nat → Bool

inductive IdeOp where
  /-- The clock interrupt calls `schedule`. -/
  | tick (next : Nat)
  /-- `ide_io_operation` is called, up to the end of `kmutex_lock`, which it does not look at, or the loss of the CPU. -/
  | request (next : Nat)
  /-- A process that lost the CPU goes on. -/
  | resume
  /-- The rest of `ide_io_operation`. -/
  | transfer (status : Nat → UInt8) (fuel : Nat) (data : Nat → UInt16) (iswrite : Bool) (buf : Nat → UInt16)

def IdeSystem.current (s : IdeSystem) : Nat := s.mutex.kernel.sched.current

/-- The current process has returned from `ide_io_operation`, if a call in it has a result. -/
def IdeSystem.leave (s : IdeSystem) (r : Option Int × KMutex) : IdeSystem :=
  { mutex := r.2, inside := if r.1.isSome then Function.update s.inside s.current false else s.inside }

def ideStep (s : IdeSystem) : IdeOp → IdeSystem
  | .tick next => { s with mutex := mutexStep s.mutex (.tick next) }
  | .request next =>
    { mutex := (kmutexLock s.mutex next).2, inside := Function.update s.inside s.current true }
  | .resume =>
    match s.mutex.kernel.pc s.current with
    | .inWakeup _ _ _ _ => s.leave (kmutexResume s.mutex)
    | _ => { s with mutex := (kmutexResume s.mutex).2 }
  | .transfer status fuel data iswrite buf =>
    match ideIoOperation status fuel data iswrite ⟨s.mutex, buf, []⟩ with
    | none => s
    | some r => s.leave (r.1, r.2.mutex)

def IdeAllowed (s : IdeSystem) : IdeOp → Prop
  | .tick next => MutexAllowed s.mutex (.tick next)
  | .request next => MutexAllowed s.mutex (.lock next) ∧ s.inside s.current = false
  | .resume => MutexAllowed s.mutex .resume
  | .transfer .. => s.mutex.kernel.pc s.current = .idle ∧ s.inside s.current = true

/-- The condition for a request to come out without the mutex. -/
def IdeGood (s : IdeSystem) : IdeOp → Prop
  | .transfer status _ _ iswrite _ => IoReleases status iswrite s.mutex
  | _ => True

structure IdeStart (s : IdeSystem) : Prop where
  mutex : MutexStart s.mutex
  inside : ∀ p, s.inside p = false

/-- No process outside of the driver owns the mutex; where all are outside, the next request takes it. -/
structure IdeReleased (s : IdeSystem) : Prop where
  released : ∀ p, s.inside p = false → s.mutex.owner ≠ some p
  next : (∀ p, s.inside p = false) → ∀ next, (kmutexLock s.mutex next).1 = some ok ∧
    (kmutexLock s.mutex next).2.owner = some s.current

structure IdeInv (s : IdeSystem) : Prop where
  mutex : MutexInv s.mutex
  inside : ∀ p, s.mutex.holds p = true → s.inside p = true

section

variable {s : IdeSystem} {m : KMutex} {op : IdeOp} {r : Option Int × KMutex}

theorem IdeStart.inv (h : IdeStart s) : IdeInv s := by
  refine ⟨h.mutex.inv, fun p hp => ?_⟩
  rw [h.mutex.holds p] at hp
  cases hp

theorem IdeInv.released (h : IdeInv s) : IdeReleased s := by
  have hout : ∀ p, s.inside p = false → s.mutex.owner ≠ some p := fun p hp howner => by
    have hin := h.inside p ((h.mutex.owner p).mp howner)
    rw [hp] at hin
    cases hin
  refine ⟨hout, fun hall next => ?_⟩
  have hfree : s.mutex.owner = none := Option.eq_none_iff_forall_ne_some.mpr fun p => hout p (hall p)
  unfold kmutexLock
  rw [if_neg (not_not.mpr hfree)]
  exact ⟨rfl, rfl⟩

/-- Who holds the mutex behind `kmutex_lock` held it, or is the current process. -/
theorem lock_holds (h : MutexInv m) (next p : Nat) (hp : (kmutexLock m next).2.holds p = true) :
    m.holds p = true ∨ p = m.kernel.sched.current := by
  unfold kmutexLock at hp
  split_ifs at hp with howner hmine
  · exact .inl hp
  · unfold kwaitqWait at hp
    dsimp only at hp
    split_ifs at hp with hstays
    · -- Nobody else may run: the wait ends at once, without the mutex.
      have htriggered : ((m.kernel.enterWait next).entry m.kernel.nextEntry).wakeupTriggered = false := by
        show (Function.update m.kernel.entry m.kernel.nextEntry
          ⟨m.kernel.sched.current, false, ok⟩ m.kernel.nextEntry).wakeupTriggered = false
        rw [Function.update_self]
      obtain ⟨hne, -⟩ := (h.enterWait next).waitEnd htriggered
      dsimp only at hp
      unfold kmutexLockEnd at hp
      rw [if_pos hne] at hp
      exact .inl hp
    · exact .inl hp
  · by_cases hcur : p = m.kernel.sched.current
    · exact .inr hcur
    · have htake : Function.update m.holds m.kernel.sched.current true p = true := hp
      rw [Function.update_of_ne hcur] at htake
      exact .inl htake

/-- A wait for the mutex ends without it. -/
theorem resume_holds (h : MutexInv m) (hpc : m.kernel.pc m.kernel.sched.current ≠ .idle) :
    (∃ e, m.kernel.pc m.kernel.sched.current = .inWait e) ∧ (kmutexResume m).2.holds = m.holds := by
  rcases h.pcs m.kernel.sched.current with hidle | ⟨e, hwait, htriggered⟩
  · exact absurd hidle hpc
  · obtain ⟨hne, -⟩ := h.waitEnd htriggered
    refine ⟨⟨e, hwait⟩, ?_⟩
    unfold kmutexResume
    rw [hwait]
    dsimp only
    unfold kmutexLockEnd
    rw [if_pos hne]

/-- `kmutex_unlock` returns when nobody waits, and the caller does not hold the mutex any more. -/
theorem unlock_holds (h : m.owner = some m.kernel.sched.current → m.kernel.waitingList = []) :
    (kmutexUnlock m).1.isSome = true ∧
      (kmutexUnlock m).2.holds = Function.update m.holds m.kernel.sched.current false := by
  by_cases howner : m.owner = some m.kernel.sched.current
  · have hmine : ¬ m.unlockCalled.owner ≠ some m.unlockCalled.kernel.sched.current := not_not.mpr howner
    have hlist : m.unlockCalled.kernel.waitingList = [] := h howner
    unfold kmutexUnlock
    dsimp only
    rw [if_neg hmine, if_pos hlist]
    exact ⟨rfl, rfl⟩
  · rw [kmutexUnlock_eperm howner]
    exact ⟨rfl, rfl⟩

/-- A request comes out of the driver. -/
theorem IdeInv.leave (h : IdeInv s) (hinv : MutexInv r.2) (hsome : r.1.isSome = true)
    (hholds : ∀ p, r.2.holds p = true → s.mutex.holds p = true ∧ p ≠ s.current) : IdeInv (s.leave r) := by
  refine ⟨hinv, fun p hp => ?_⟩
  obtain ⟨hheld, hne⟩ := hholds p hp
  show (if r.1.isSome = true then Function.update s.inside s.current false else s.inside) p = true
  rw [if_pos hsome, Function.update_of_ne hne]
  exact h.inside p hheld

theorem IdeInv.transfer (h : IdeInv s) {status : Nat → UInt8} {iswrite : Bool} {buf : Nat → UInt16}
    {r : Option Int × IdeIo} (hleft : MutexLeft (ForgetsUnlock status iswrite) ⟨s.mutex, buf, []⟩ r)
    (hgood : IoReleases status iswrite s.mutex) : IdeInv (s.leave (r.1, r.2.mutex)) := by
  rcases hleft with ⟨hforgets, heq, hsome⟩ | ⟨-, heq, hsome⟩
  · -- The mutex is not unlocked: it is somebody else's.
    have hnot : s.mutex.holds s.current ≠ true := fun hheld =>
      (hgood ((h.mutex.owner _).mpr hheld)).1 hforgets
    have hmutex : r.2.mutex = s.mutex := heq
    refine h.leave (show MutexInv r.2.mutex from hmutex ▸ h.mutex) hsome fun p hp => ?_
    replace hp : s.mutex.holds p = true := hmutex ▸ hp
    exact ⟨hp, fun hcur => hnot (hcur ▸ hp)⟩
  · have hlist : s.mutex.owner = some s.mutex.kernel.sched.current → s.mutex.kernel.waitingList = [] :=
      fun howner => (hgood howner).2
    obtain ⟨hreturns, hholds⟩ := unlock_holds hlist
    have hmutex : r.2.mutex = (kmutexUnlock s.mutex).2 := heq
    refine h.leave (show MutexInv r.2.mutex from hmutex ▸ h.mutex.unlock hlist) (hsome.trans hreturns) fun p hp => ?_
    replace hp : Function.update s.mutex.holds s.current false p = true :=
      (congrFun hholds p).symm.trans (hmutex ▸ hp)
    by_cases hcur : p = s.current
    · rw [hcur, Function.update_self] at hp
      cases hp
    · rw [Function.update_of_ne hcur] at hp
      exact ⟨hp, hcur⟩

/-! ## Every run -/

theorem IdeInv.step (h : IdeInv s) (hallowed : IdeAllowed s op) (hgood : IdeGood s op) : IdeInv (ideStep s op) := by
  cases op with
  | tick next => exact ⟨@MutexInv.step _ h.mutex (.tick next) hallowed trivial, h.inside⟩
  | request next =>
    refine ⟨h.mutex.lock next, fun p hp => ?_⟩
    show Function.update s.inside s.current true p = true
    by_cases hcur : p = s.current
    · rw [hcur, Function.update_self]
    · rw [Function.update_of_ne hcur]
      exact h.inside p ((lock_holds h.mutex next p hp).resolve_right hcur)
  | resume =>
    obtain ⟨⟨e, hwait⟩, hholds⟩ := resume_holds h.mutex hallowed
    have hstep : ideStep s .resume = { s with mutex := (kmutexResume s.mutex).2 } := by
      unfold ideStep
      dsimp only
      rw [show s.mutex.kernel.pc s.current = .inWait e from hwait]
    rw [hstep]
    refine ⟨@MutexInv.step _ h.mutex .resume hallowed trivial, fun p hp => h.inside p ?_⟩
    exact (congrFun hholds p).symm.trans hp
  | transfer status fuel data iswrite buf =>
    unfold ideStep
    dsimp only
    cases hio : ideIoOperation status fuel data iswrite ⟨s.mutex, buf, []⟩ with
    | none => exact h
    | some r => exact h.transfer (ideIoOperation_mutex hio) hgood

/-- **The mutex of the controller**: the caller does not own it behind `ide_io_operation` exactly if the request
releases it; in every run of such requests, no process outside of the driver owns it, and the next request takes it. -/
theorem ide_mutex_released (status : Nat → UInt8) (fuel : Nat) (data : Nat → UInt16) (iswrite : Bool) (io : IdeIo)
    (start : IdeSystem) (ops : List IdeOp) :
    (∀ r, ideIoOperation status fuel data iswrite io = some r →
      (r.2.mutex.owner ≠ some io.mutex.kernel.sched.current ↔ IoReleases status iswrite io.mutex)) ∧
    (IdeStart start → Guarded ideStep IdeAllowed start ops → Guarded ideStep IdeGood start ops →
      IdeReleased (run ideStep start ops)) := by
  constructor
  · intro r h
    exact (ideIoOperation_mutex h).owner rfl
  · intro hstart hallowed hgood
    have hboth : Guarded ideStep (fun s op => IdeAllowed s op ∧ IdeGood s op) start ops := guarded_and hallowed hgood
    exact (invariant_run (fun s op h hg => h.step hg.1 hg.2) ops start hstart.inv hboth).released

end

/-! ## A disk error -/

/-- Process 1 has called `ide_io_operation` and owns the mutex, process 2 is ready. -/
def lockedIde : IdeIo := ⟨(kmutexLock twoLockers 2).2, fun _ => 0, []⟩

/-- The device is ready and reports an error: process 1 returns with the mutex, and no further request gets it. -/
theorem ide_error_keeps_mutex :
    (ideIoOperation (fun _ => 1) 1 (fun _ => 0) false lockedIde = some (some (-6), lockedIde) ∧
      lockedIde.mutex.owner = some 1 ∧ (kmutexLock lockedIde.mutex 2).1 = some (-ebusy)) ∧
    ¬ ∀ (status : Nat → UInt8) (fuel : Nat) (data : Nat → UInt16) (iswrite : Bool) (s : IdeIo) (r : Option Int × IdeIo),
      ideIoOperation status fuel data iswrite s = some r →
      r.2.mutex.owner ≠ some s.mutex.kernel.sched.current := by
  have hio : ideIoOperation (fun _ => 1) 1 (fun _ => 0) false lockedIde = some (some (-6), lockedIde) := rfl
  have howner : lockedIde.mutex.owner = some 1 := rfl
  exact ⟨⟨hio, howner, rfl⟩, fun hclaim => hclaim _ _ _ _ _ _ hio howner⟩

def idleIde : IdeSystem := ⟨twoLockers, fun _ => false⟩

/-- Ready, no error yet, and an error where the data should come. -/
def errorAtData (k : Nat) : UInt8 := if k < 2 then 0 else 1

theorem errorAtData_unlocks : ¬ ForgetsUnlock errorAtData false := by
  have hready : EndsAt NotBusy errorAtData 0 0 := endsAt_here rfl
  have hdata : EndsAt (DrqIs true) errorAtData 2 2 := endsAt_here (.inl (show (1 : UInt8) ≠ 0 by decide))
  have hfirst : ¬ IsError (errorAtData 1) := not_not.mpr rfl
  rw [forgetsUnlock_iff hready hfirst hdata]
  exact fun h => h.1 (show (1 : UInt8) ≠ 0 by decide)

/-- Process 1 fails to read a block while process 2 is ready, and releases the mutex. -/
theorem ide_error_releases_mutex :
    IdeReleased (run ideStep idleIde [.request 2, .transfer errorAtData 1 (fun _ => 0) false fun _ => 0]) :=
  (ide_mutex_released errorAtData 1 (fun _ => 0) false lockedIde idleIde _).2 ⟨twoLockers_start, fun _ => rfl⟩
    ⟨⟨⟨rfl, by decide⟩, rfl⟩, ⟨rfl, rfl⟩, trivial⟩ ⟨trivial, fun _ => ⟨errorAtData_unlocks, rfl⟩, trivial⟩

end Desiros.Drivers
