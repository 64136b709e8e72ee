import Desiros.Proc.WaitQueue

/-!
# Blocked processes and the CPU

A process that blocks in `kwaitq_wait` is meant to stay off the CPU until it is woken up, and one process at a
time is `PROC_RUNNING` (`OffCpuLaw`). The first statement of `schedule` makes the blocked process ready again,
and a switch by `reschedule` or `switch_to_task` leaves the process that had the CPU running:
`offCpu_runs_iff` says which runs keep the law.
-/

namespace Desiros.Proc

open Desiros.Library

/-- What the process on the CPU does next. -/
inductive SchedOp where
  | schedule (next : Nat)
  | reschedule (pid : Nat)
  | switchToTask (n : Nat)
  | wait (next : Nat)
  | wakeup (nbProcess : Nat) (wakeupStatus : Int)
  /-- It goes on in the wait queue. -/
  | resume
deriving DecidableEq, Repr

def schedStep (s : Kernel) : SchedOp → Kernel
  | .schedule next => { s with sched := schedule s.sched next }
  | .reschedule pid => { s with sched := reschedule s.sched pid }
  | .switchToTask n => { s with sched := switchToTask s.sched n }
  | .wait next => (kwaitqWait s next).2
  | .wakeup nbProcess wakeupStatus => (kwaitqWakeup s nbProcess wakeupStatus).2
  | .resume => (kwaitqResume s).2

def SchedAllowed (s : Kernel) : SchedOp → Prop
  | .schedule next | .wait next => s.pc s.sched.current = .idle ∧ Selectable s.sched next
  | .reschedule _ | .switchToTask _ | .wakeup _ _ => s.pc s.sched.current = .idle
  | .resume => s.pc s.sched.current ≠ .idle

instance (s : Kernel) : DecidablePred (SchedAllowed s)
  | .schedule next | .wait next =>
    inferInstanceAs (Decidable (s.pc s.sched.current = .idle ∧ Selectable s.sched next))
  | .reschedule _ | .switchToTask _ | .wakeup _ _ =>
    inferInstanceAs (Decidable (s.pc s.sched.current = .idle))
  | .resume => inferInstanceAs (Decidable (s.pc s.sched.current ≠ .idle))

structure OffCpuLaw (s : Kernel) : Prop where
  /-- From blocking to being woken up a process is neither ready nor on the CPU. -/
  asleep : ∀ p, s.asleep p = true →
    s.sched.state p ≠ .ready ∧ s.sched.state p ≠ .running ∧ s.sched.current ≠ p
  one_running : ∀ p q, s.sched.state p = .running → s.sched.state q = .running → p = q

/-- Nobody waits, and the CPU is given away only by a process that is not `PROC_RUNNING`, or to itself. -/
def LeavesCpu (s : Kernel) : SchedOp → Prop
  | .wait _ => False
  | .reschedule pid =>
    s.sched.staysOnCpu = true ∨ pid = s.sched.current ∨ s.sched.state s.sched.current ≠ .running
  | .switchToTask n => n = s.sched.current ∨ s.sched.state s.sched.current ≠ .running
  | _ => True

/-- Nobody is in the wait queue or on the way to it. -/
structure NobodyWaits (s : Kernel) : Prop where
  onlyCurrent : OnlyCurrentRuns s.sched
  pc : ∀ p, s.pc p = .idle
  waitingList : s.waitingList = []
  asleep : ∀ p, s.asleep p = false

section

variable {s : Kernel}

theorem NobodyWaits.law (h : NobodyWaits s) : OffCpuLaw s := by
  constructor
  · intro p hp
    rw [h.asleep p] at hp
    cases hp
  · intro p q hp hq
    have hcur : ∀ r, s.sched.state r = .running → r = s.sched.current := by
      intro r hr
      by_contra hne
      exact h.onlyCurrent r hne hr
    rw [hcur p hp, hcur q hq]

theorem NobodyWaits.sched (h : NobodyWaits s) {sched : Sched} (honly : OnlyCurrentRuns sched) :
    NobodyWaits { s with sched := sched } := ⟨honly, h.pc, h.waitingList, h.asleep⟩

/-- In an empty queue there is nobody to wake up. -/
theorem NobodyWaits.wakeup (h : NobodyWaits s) (nb : Nat) (st : Int) : NobodyWaits (kwaitqWakeup s nb st).2 := by
  have hloop : (kwaitqWakeup s nb st).2 = (s.openCall nb st).endCall s.nextCall := by
    have hlist : (s.openCall nb st).waitingList = [] := h.waitingList
    unfold kwaitqWakeup
    cases nb with
    | zero => rfl
    | succ nb =>
      unfold wakeupLoop
      rw [hlist]
  rw [hloop]
  refine ⟨h.onlyCurrent, fun p => ?_, h.waitingList, h.asleep⟩
  show Function.update s.pc s.sched.current .idle p = .idle
  by_cases hp : p = s.sched.current
  · rw [hp, Function.update_self]
  · rw [Function.update_of_ne hp, h.pc p]

theorem NobodyWaits.step (h : NobodyWaits s) {op : SchedOp} (hallowed : SchedAllowed s op)
    (hleaves : LeavesCpu s op) : NobodyWaits (schedStep s op) := by
  cases op with
  | schedule next => exact h.sched (h.onlyCurrent.schedule next)
  | reschedule pid =>
    apply h.sched
    unfold Proc.reschedule
    split_ifs with hstays
    · exact h.onlyCurrent
    · exact h.onlyCurrent.switch (hleaves.resolve_left hstays)
  | switchToTask n => exact h.sched (h.onlyCurrent.switch hleaves)
  | wait next => exact absurd hleaves id
  | wakeup nb st => exact h.wakeup nb st
  | resume => exact absurd (h.pc s.sched.current) hallowed

/-- The process that ran stays `PROC_RUNNING` next to the one that gets the CPU. -/
theorem two_running {n : Nat} (hn : ¬ (n = s.sched.current ∨ s.sched.state s.sched.current ≠ .running)) :
    ¬ OffCpuLaw { s with sched := switchToTask s.sched n } := by
  rw [not_or, not_not] at hn
  intro hlaw
  have hold : (switchToTask s.sched n).state s.sched.current = .running := by
    rw [switchToTask_of_ne (Ne.symm hn.1), hn.2]
  exact hn.1 (hlaw.one_running n s.sched.current switchToTask_self hold)

theorem waitEnd_sched (s : Kernel) (e : Nat) :
    (waitEnd s e).2.sched = s.sched ∧ (waitEnd s e).2.asleep = s.asleep := by
  unfold waitEnd
  cases (s.entry e).wakeupTriggered with
  | true => exact ⟨rfl, rfl⟩
  | false =>
    show (s.removeEntry e).sched = s.sched ∧ (s.removeEntry e).asleep = s.asleep
    unfold Kernel.removeEntry Kernel.touch
    dsimp only
    split <;> exact ⟨rfl, rfl⟩

/-- A process that waits is ready, or has the CPU again, without having been woken up. -/
theorem not_law_of_wait (s : Kernel) (next : Nat) : ¬ OffCpuLaw (kwaitqWait s next).2 := by
  have hwait : (kwaitqWait s next).2.sched = schedule (s.sched.setState s.sched.current .blocked) next ∧
      (kwaitqWait s next).2.asleep = Function.update s.asleep s.sched.current true := by
    unfold kwaitqWait
    dsimp only
    split_ifs
    · exact waitEnd_sched (s.enterWait next) s.nextEntry
    · exact ⟨rfl, rfl⟩
  intro hlaw
  have hasleep := hlaw.asleep s.sched.current
  rw [hwait.1, hwait.2, Function.update_self] at hasleep
  obtain ⟨hready, hrunning, -⟩ := hasleep rfl
  -- `schedule` made it ready, and running if it chose it.
  unfold schedule at hready hrunning
  dsimp only at hready hrunning
  split_ifs at hready hrunning
  · exact hready setState_self
  · by_cases hnext : s.sched.current = next
    · rw [← hnext] at hrunning
      exact hrunning switchToTask_self
    · rw [switchToTask_of_ne hnext, setState_current] at hready
      exact hready setState_self

/-- **Blocked processes stay off the CPU and one process runs**, in exactly the runs in which nobody blocks and
no running process gives the CPU away by `reschedule` or `switch_to_task`. -/
theorem offCpu_runs_iff (s : Kernel) (hstart : WaitqStart s) (ops : List SchedOp)
    (hallowed : Guarded schedStep SchedAllowed s ops) :
    Always schedStep OffCpuLaw s ops ↔ Guarded schedStep LeavesCpu s ops := by
  apply @always_iff_guarded _ _ schedStep SchedAllowed LeavesCpu NobodyWaits OffCpuLaw (fun s h => h.law)
    (fun s op h ha hl => h.step ha hl) ?_ ops s
    ⟨hstart.onlyCurrent, hstart.pc, hstart.waitingList, hstart.asleep⟩ hallowed
  intro s op h _ hbad
  cases op with
  | schedule next => exact absurd trivial hbad
  | reschedule pid =>
    obtain ⟨hstays, hrun⟩ := not_or.mp hbad
    have heq : reschedule s.sched pid = switchToTask s.sched pid := if_neg hstays
    show ¬ OffCpuLaw { s with sched := reschedule s.sched pid }
    rw [heq]
    exact two_running hrun
  | switchToTask n => exact two_running hbad
  | wait next => exact not_law_of_wait s next
  | wakeup nb st => exact absurd trivial hbad
  | resume => exact absurd trivial hbad

end

/-! ## Two processes -/

/-- Process 1 blocks and is ready in the same moment: the next clock interrupt gives it the CPU, and its wait
returns `-EINTR`. -/
theorem offCpu_wait_returns :
    Guarded schedStep SchedAllowed (twoProcesses 1 2) [.wait 2, .schedule 1, .resume] ∧
      ¬ Always schedStep OffCpuLaw (twoProcesses 1 2) [.wait 2, .schedule 1, .resume] ∧
      (run schedStep (twoProcesses 1 2) [.wait 2, .schedule 1, .resume]).returned = [(0, -eintr)] := by
  refine ⟨⟨⟨rfl, by decide⟩, ⟨rfl, by decide⟩, by decide, trivial⟩, fun hlaw => ?_, by decide⟩
  exact (hlaw.2.head.asleep 1 (by decide)).1 (by decide)

/-- Two processes under the clock. -/
theorem offCpu_clock :
    Always schedStep OffCpuLaw (twoProcesses 1 2) [.schedule 2, .wakeup 1 ok, .schedule 1, .schedule 2] :=
  (offCpu_runs_iff (twoProcesses 1 2) (twoProcesses_start 1 2) [.schedule 2, .wakeup 1 ok, .schedule 1, .schedule 2]
    ⟨⟨rfl, by decide⟩, rfl, ⟨rfl, by decide⟩, ⟨rfl, by decide⟩, trivial⟩).mpr
    ⟨trivial, trivial, trivial, trivial, trivial⟩

end Desiros.Proc
