import Desiros.Proc.WaitQueue

/-!
# Kernel mutexes (`ksynch.c`)

`kmutex_lock`, `kmutex_trylock` and `kmutex_unlock` on one mutex over its wait queue. `holds` records who had a
lock succeed and has not called `kmutex_unlock` since, `released` whose unlock returned since; no function
reads them. `MutexLaw` is what a mutex promises. `kmutex_unlock` wakes up a waiter without changing `owner`, and
the waiter gets the CPU before its entry is flagged, so the law holds over the runs in which an owner unlocks
only when nobody waits (`mutex_runs_law`).
-/

namespace Desiros.Proc

open Desiros.Library

structure KMutex where
  kernel : Kernel
  owner : Option Nat
  holds : Nat → Bool
  released : Nat → Bool

/-- `mutex->owner = current`. -/
def KMutex.take (s : KMutex) : KMutex :=
  { s with
    owner := some s.kernel.sched.current
    holds := Function.update s.holds s.kernel.sched.current true
    released := Function.update s.released s.kernel.sched.current false }

/-- `kmutex_lock` behind `kwaitq_wait`. -/
def kmutexLockEnd (s : KMutex) (retval : Int) : Int × KMutex :=
  if retval ≠ ok then (retval, s) else (ok, s.take)

/-- The result, unless the process lost the CPU to `next`. -/
def kmutexLock (s : KMutex) (next : Nat) : Option Int × KMutex :=
  if s.owner ≠ none then
    if s.owner = some s.kernel.sched.current then (some (-ebusy), s)
    else
      let r := kwaitqWait s.kernel next
      let s := { s with kernel := r.2 }
      match r.1 with
      | none => (none, s)
      | some retval => (some (kmutexLockEnd s retval).1, (kmutexLockEnd s retval).2)
  else (some ok, s.take)

def kmutexTrylock (s : KMutex) : Int × KMutex :=
  if s.owner = none then (ok, s.take) else (-ebusy, s)

/-- `kmutex_unlock` is called. -/
def KMutex.unlockCalled (s : KMutex) : KMutex :=
  { s with holds := Function.update s.holds s.kernel.sched.current false }

/-- `kmutex_unlock` returns to a process that owned the mutex. -/
def KMutex.unlockReturns (s : KMutex) : KMutex :=
  { s with released := Function.update s.released s.kernel.sched.current true }

/-- `kmutex_unlock` behind `kwaitq_wakeup`. -/
def kmutexUnlockEnd (s : KMutex) (r : Option Int × Kernel) : Option Int × KMutex :=
  let s := { s with kernel := r.2 }
  match r.1 with
  | none => (none, s)
  | some retval => (some retval, s.unlockReturns)

/-- The result, unless the process lost the CPU. -/
def kmutexUnlock (s : KMutex) : Option Int × KMutex :=
  let s := s.unlockCalled
  if s.owner ≠ some s.kernel.sched.current then (some (-eperm), s)
  else if s.kernel.waitingList = [] then (some ok, { s with owner := none }.unlockReturns)
  else kmutexUnlockEnd s (kwaitqWakeup s.kernel 1 ok)

/-- The current process goes on in the call in which it lost the CPU. -/
def kmutexResume (s : KMutex) : Option Int × KMutex :=
  match s.kernel.pc s.kernel.sched.current with
  | .idle => (none, s)
  | .inWait e =>
    let r := kmutexLockEnd { s with kernel := (waitEnd s.kernel e).2 } (waitEnd s.kernel e).1
    (some r.1, r.2)
  | .inWakeup _ _ _ _ => kmutexUnlockEnd s (kwaitqResume s.kernel)
  | .stuck => (none, s)

/-! ## Any interleaving -/

inductive MutexOp where
  /-- The clock interrupt calls `schedule`. -/
  | tick (next : Nat)
  | lock (next : Nat)
  | trylock
  | unlock
  | resume
deriving DecidableEq, Repr

def mutexStep (s : KMutex) : MutexOp → KMutex
  | .tick next => { s with kernel := { s.kernel with sched := schedule s.kernel.sched next } }
  | .lock next => (kmutexLock s next).2
  | .trylock => (kmutexTrylock s).2
  | .unlock => (kmutexUnlock s).2
  | .resume => (kmutexResume s).2

def MutexAllowed (s : KMutex) : MutexOp → Prop
  | .tick next | .lock next =>
    s.kernel.pc s.kernel.sched.current = .idle ∧ Selectable s.kernel.sched next
  | .trylock | .unlock => s.kernel.pc s.kernel.sched.current = .idle
  | .resume => s.kernel.pc s.kernel.sched.current ≠ .idle

instance (s : KMutex) : DecidablePred (MutexAllowed s)
  | .tick next | .lock next =>
    inferInstanceAs (Decidable (s.kernel.pc s.kernel.sched.current = .idle ∧ Selectable s.kernel.sched next))
  | .trylock | .unlock => inferInstanceAs (Decidable (s.kernel.pc s.kernel.sched.current = .idle))
  | .resume => inferInstanceAs (Decidable (s.kernel.pc s.kernel.sched.current ≠ .idle))

/-- `kmutex_init`, before any call. -/
structure MutexStart (s : KMutex) : Prop where
  kernel : WaitqStart s.kernel
  owner : s.owner = none
  holds : ∀ p, s.holds p = false
  released : ∀ p, s.released p = false

/-- What a mutex promises. -/
structure MutexLaw (s : KMutex) : Prop where
  one_holder : ∀ p q, s.holds p = true → s.holds q = true → p = q
  owner_holds : (∀ p, s.kernel.pc p = .idle) → ∀ p, s.owner = some p ↔ s.holds p = true
  not_owner : ∀ p, s.released p = true → s.owner ≠ some p
  /-- A second unlock is refused. -/
  eperm : s.released s.kernel.sched.current = true → (kmutexUnlock s).1 = some (-eperm)
  /-- An unlock with waiters hands the mutex to one of them: its wait returns `OK`, and so does its lock. -/
  handed_to_one : ∀ c < s.kernel.nextCall, (s.kernel.calls c).ended = true →
    ∃ e, (s.kernel.calls c).woken = [e] ∧ ((e, ok) ∈ s.kernel.returned ∨ s.kernel.WillReturn e ok)
  handed : ∀ c < s.kernel.nextCall, ∀ e ∈ (s.kernel.calls c).woken, ∀ r, (e, r) ∈ s.kernel.returned → r = ok

/-- The owner of the mutex unlocks it when nobody waits. -/
def UnlockUncontended (s : KMutex) : MutexOp → Prop
  | .unlock => s.owner = some s.kernel.sched.current → s.kernel.waitingList = []
  | _ => True

/-! ## The invariant -/

/-- The owner is the holder, and nobody was woken up. -/
structure MutexInv (s : KMutex) : Prop where
  pcs : ∀ p, s.kernel.pc p = .idle ∨
    ∃ e, s.kernel.pc p = .inWait e ∧ (s.kernel.entry e).wakeupTriggered = false
  nextCall : s.kernel.nextCall = 0
  owner : ∀ p, s.owner = some p ↔ s.holds p = true
  released : ∀ p, s.released p = true → s.owner ≠ some p

section

variable {s : KMutex} {k : Kernel}

theorem kmutexUnlock_eperm (h : s.owner ≠ some s.kernel.sched.current) :
    kmutexUnlock s = (some (-eperm), s.unlockCalled) := by
  unfold kmutexUnlock
  exact if_pos h

theorem MutexInv.law (h : MutexInv s) : MutexLaw s := by
  refine ⟨fun p q hp hq => ?_, fun _ p => h.owner p, h.released, fun hrel => ?_, fun c hc => ?_, fun c hc => ?_⟩
  · have heq := ((h.owner p).mpr hp).symm.trans ((h.owner q).mpr hq)
    exact Option.some.inj heq
  · rw [kmutexUnlock_eperm (h.released _ hrel)]
  · rw [h.nextCall] at hc
    exact absurd hc (Nat.not_lt_zero c)
  · rw [h.nextCall] at hc
    exact absurd hc (Nat.not_lt_zero c)

theorem MutexStart.inv (h : MutexStart s) : MutexInv s := by
  refine ⟨fun p => Or.inl (h.kernel.pc p), h.kernel.nextCall, fun p => ?_, fun p hp => ?_⟩
  · rw [h.owner, h.holds p]
    simp
  · rw [h.released p] at hp
    cases hp

theorem MutexInv.take (h : MutexInv s) (hfree : s.owner = none) : MutexInv s.take := by
  refine ⟨h.pcs, h.nextCall, fun p => ?_, fun p hp => ?_⟩
  · show some s.kernel.sched.current = some p ↔
      Function.update s.holds s.kernel.sched.current true p = true
    by_cases hpc : p = s.kernel.sched.current
    · rw [hpc, Function.update_self]
      simp
    · have hnot : ¬ s.holds p = true := by
        rw [← h.owner p, hfree]
        simp
      rw [Function.update_of_ne hpc]
      exact iff_of_false (fun he => hpc (Option.some.inj he).symm) hnot
  · intro he
    have hpc : s.kernel.sched.current = p := Option.some.inj he
    have hrel : Function.update s.released s.kernel.sched.current false p = true := hp
    rw [hpc, Function.update_self] at hrel
    cases hrel

/-- The wait queue changes, the mutex does not. -/
theorem MutexInv.kernel (h : MutexInv s) (hpcs : ∀ p, k.pc p = .idle ∨
    ∃ e, k.pc p = .inWait e ∧ (k.entry e).wakeupTriggered = false) (hcall : k.nextCall = 0) :
    MutexInv { s with kernel := k } := ⟨hpcs, hcall, h.owner, h.released⟩

theorem removeEntry_frame (k : Kernel) (e : Nat) : (k.removeEntry e).pc = k.pc ∧
    (k.removeEntry e).sched = k.sched ∧ (k.removeEntry e).entry = k.entry ∧
    (k.removeEntry e).nextCall = k.nextCall := by
  unfold Kernel.removeEntry Kernel.touch
  dsimp only
  split <;> exact ⟨rfl, rfl, rfl, rfl⟩

/-- A wait that ends without a wake-up. -/
theorem MutexInv.waitEnd (h : MutexInv { s with kernel := k }) {e : Nat}
    (htriggered : (k.entry e).wakeupTriggered = false) :
    (waitEnd k e).1 ≠ ok ∧ MutexInv { s with kernel := (Proc.waitEnd k e).2 } := by
  obtain ⟨hpc, -, hentry, hcall⟩ := removeEntry_frame k e
  have hend : Proc.waitEnd k e = (-eintr, (k.removeEntry e).waitReturns e (-eintr)) := by
    unfold Proc.waitEnd
    rw [htriggered]
    rfl
  rw [hend]
  refine ⟨show (-eintr : Int) ≠ ok by decide, @MutexInv.kernel { s with kernel := k } _ h (fun p => ?_) (hcall.trans h.nextCall)⟩
  show Function.update (k.removeEntry e).pc (k.removeEntry e).sched.current .idle p = .idle ∨
    ∃ f, Function.update (k.removeEntry e).pc (k.removeEntry e).sched.current .idle p = .inWait f ∧
      ((k.removeEntry e).entry f).wakeupTriggered = false
  rw [hpc, hentry]
  by_cases hp : p = (k.removeEntry e).sched.current
  · rw [hp, Function.update_self]
    exact Or.inl rfl
  · rw [Function.update_of_ne hp]
    exact h.pcs p

/-- A process goes to wait with an entry that nobody has woken up. -/
theorem MutexInv.enterWait (h : MutexInv s) (next : Nat) :
    MutexInv { s with kernel := s.kernel.enterWait next } := by
  refine h.kernel (fun p => ?_) h.nextCall
  show Function.update s.kernel.pc s.kernel.sched.current (.inWait s.kernel.nextEntry) p = .idle ∨
    ∃ f, Function.update s.kernel.pc s.kernel.sched.current (.inWait s.kernel.nextEntry) p = .inWait f ∧
      (Function.update s.kernel.entry s.kernel.nextEntry
        ⟨s.kernel.sched.current, false, ok⟩ f).wakeupTriggered = false
  by_cases hp : p = s.kernel.sched.current
  · rw [hp, Function.update_self]
    refine Or.inr ⟨_, rfl, ?_⟩
    rw [Function.update_self]
  · rw [Function.update_of_ne hp]
    refine (h.pcs p).imp_right ?_
    rintro ⟨f, hpc, htriggered⟩
    refine ⟨f, hpc, ?_⟩
    by_cases hf : f = s.kernel.nextEntry
    · rw [hf, Function.update_self]
    · rw [Function.update_of_ne hf, htriggered]

theorem MutexInv.lock (h : MutexInv s) (next : Nat) : MutexInv (kmutexLock s next).2 := by
  have henter := h.enterWait next
  unfold kmutexLock
  split_ifs with howner hmine
  · exact h
  · unfold kwaitqWait
    dsimp only
    split_ifs with hstays
    · -- Nobody else may run: the wait ends at once.
      have htriggered : ((s.kernel.enterWait next).entry s.kernel.nextEntry).wakeupTriggered = false := by
        show (Function.update s.kernel.entry s.kernel.nextEntry
          ⟨s.kernel.sched.current, false, ok⟩ s.kernel.nextEntry).wakeupTriggered = false
        rw [Function.update_self]
      obtain ⟨hne, hinv⟩ := henter.waitEnd htriggered
      dsimp only
      unfold kmutexLockEnd
      rw [if_pos hne]
      exact hinv
    · exact henter
  · exact h.take (not_not.mp howner)

theorem MutexInv.trylock (h : MutexInv s) : MutexInv (kmutexTrylock s).2 := by
  unfold kmutexTrylock
  split_ifs with hfree
  · exact h.take hfree
  · exact h

theorem MutexInv.unlock (h : MutexInv s) (huncontended : UnlockUncontended s .unlock) :
    MutexInv (kmutexUnlock s).2 := by
  by_cases hmine : s.owner = some s.kernel.sched.current
  · have hunlock : (kmutexUnlock s).2 = { s.unlockCalled with owner := none }.unlockReturns := by
      have hlist : s.unlockCalled.kernel.waitingList = [] := huncontended hmine
      have howner : s.unlockCalled.owner = some s.unlockCalled.kernel.sched.current := hmine
      unfold kmutexUnlock
      dsimp only
      rw [if_neg (not_not.mpr howner), if_pos hlist]
    rw [hunlock]
    refine ⟨h.pcs, h.nextCall, fun p => ?_, fun p _ => (Option.some_ne_none p).symm⟩
    show none = some p ↔ Function.update s.holds s.kernel.sched.current false p = true
    by_cases hp : p = s.kernel.sched.current
    · rw [hp, Function.update_self]
      simp
    · rw [Function.update_of_ne hp, ← h.owner p, hmine]
      simp [Ne.symm hp]
  · rw [kmutexUnlock_eperm hmine]
    refine ⟨h.pcs, h.nextCall, fun p => ?_, h.released⟩
    show s.owner = some p ↔ Function.update s.holds s.kernel.sched.current false p = true
    by_cases hp : p = s.kernel.sched.current
    · rw [hp, Function.update_self]
      simp [hmine]
    · rw [Function.update_of_ne hp]
      exact h.owner p

/-! ## Every interleaving -/

theorem MutexInv.step (h : MutexInv s) {op : MutexOp} (hallowed : MutexAllowed s op)
    (huncontended : UnlockUncontended s op) : MutexInv (mutexStep s op) := by
  cases op with
  | tick next => exact h.kernel h.pcs h.nextCall
  | lock next => exact h.lock next
  | trylock => exact h.trylock
  | unlock => exact h.unlock huncontended
  | resume =>
    show MutexInv (kmutexResume s).2
    rcases h.pcs s.kernel.sched.current with hidle | ⟨e, hpc, htriggered⟩
    · exact absurd hidle hallowed
    · obtain ⟨hne, hinv⟩ := h.waitEnd htriggered
      unfold kmutexResume
      rw [hpc]
      dsimp only
      unfold kmutexLockEnd
      rw [if_pos hne]
      exact hinv

/-- **The mutex** keeps its law over every interleaving in which its owner unlocks it when nobody waits. -/
theorem mutex_runs_law (s : KMutex) (hstart : MutexStart s) (ops : List MutexOp)
    (hallowed : Guarded mutexStep MutexAllowed s ops)
    (huncontended : Guarded mutexStep UnlockUncontended s ops) : MutexLaw (run mutexStep s ops) := by
  have hboth : Guarded mutexStep (fun s op => MutexAllowed s op ∧ UnlockUncontended s op) s ops :=
    guarded_and hallowed huncontended
  exact (invariant_run (fun s op h hg => h.step hg.1 hg.2) ops s hstart.inv hboth).law

end

/-! ## Two processes and a mutex -/

def twoLockers : KMutex where
  kernel := twoProcesses 1 2
  owner := none
  holds := fun _ => false
  released := fun _ => false

theorem twoLockers_start : MutexStart twoLockers :=
  ⟨twoProcesses_start 1 2, rfl, fun _ => rfl, fun _ => rfl⟩

/-- Process 2 waits for the mutex of process 1, which unlocks it: process 2 gets the CPU, its lock returns
`-EINTR`, and process 1 still owns the mutex. -/
theorem mutex_unlock_hands_to_nobody :
    Guarded mutexStep MutexAllowed twoLockers [.lock 2, .tick 2, .lock 1, .unlock, .resume] ∧
      ¬ MutexLaw (run mutexStep twoLockers [.lock 2, .tick 2, .lock 1, .unlock, .resume]) := by
  refine ⟨⟨⟨rfl, by decide⟩, ⟨rfl, by decide⟩, ⟨rfl, by decide⟩, rfl, by decide, trivial⟩, fun hlaw => ?_⟩
  have hhanded := hlaw.handed 0 (by decide) 0 (by decide) (-eintr) (by decide)
  exact absurd hhanded (by decide)

/-- Process 1 locks and unlocks, process 2 tries and takes the mutex. -/
theorem mutex_lock_unlock_trylock :
    MutexLaw (run mutexStep twoLockers [.lock 2, .tick 2, .trylock, .tick 1, .unlock, .tick 2, .trylock]) :=
  mutex_runs_law twoLockers twoLockers_start [.lock 2, .tick 2, .trylock, .tick 1, .unlock, .tick 2, .trylock]
    ⟨⟨rfl, by decide⟩, ⟨rfl, by decide⟩, rfl, ⟨rfl, by decide⟩, rfl, ⟨rfl, by decide⟩, rfl, trivial⟩
    ⟨trivial, trivial, trivial, trivial, fun _ => rfl, trivial, trivial, trivial⟩

end Desiros.Proc
