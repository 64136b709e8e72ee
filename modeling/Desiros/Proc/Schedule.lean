import Desiros.Proc.ProcessTable

/-!
# The scheduler (`schedule.c`)

The states of the processes by slot, the slot of the process on the CPU, and the counter. `scheduleSearch` is
the search of `schedule` for the next process; what the wait queues rely on is only that it finds a process
that is ready, or process 0 (`Selectable`), so `schedule` takes the process as an argument.
-/

namespace Desiros.Proc

structure Sched where
  state : Nat → ProcessState
  current : Nat
  numProc : Int

def Sched.setState (s : Sched) (p : Nat) (st : ProcessState) : Sched :=
  { s with state := Function.update s.state p st }

/-- `switch_to_task`: the process that ran keeps its state. -/
def switchToTask (s : Sched) (n : Nat) : Sched := { s with current := n }.setState n .running

/-- `schedule` and `reschedule` return without switching. -/
def Sched.staysOnCpu (s : Sched) : Bool := s.numProc == 0 || (s.numProc == 1 && s.current != 0)

/-- The first ready slot of `i, …, i + n - 1`, or 0. -/
def firstReady (state : Nat → ProcessState) : Nat → Nat → Nat
  | 0, _ => 0
  | n + 1, i => if state i = .ready then i else firstReady state n (i + 1)

/-- The slots behind the current one, then those before it, then 0. -/
def scheduleSearch (s : Sched) : Nat :=
  let newpid := firstReady s.state (maxPid - (s.current + 1)) (s.current + 1)
  if newpid = 0 then firstReady s.state (s.current - 1) 1 else newpid

/-- `schedule` with the process `next` as the result of its search. -/
def schedule (s : Sched) (next : Nat) : Sched :=
  let s := s.setState s.current .ready
  if s.staysOnCpu then s else switchToTask s next

def reschedule (s : Sched) (pid : Nat) : Sched :=
  if s.staysOnCpu then s else switchToTask s pid

/-- A process `schedule` may choose: another one that is ready, or the kernel task. -/
def Selectable (s : Sched) (next : Nat) : Prop := next = 0 ∨ next ≠ s.current ∧ s.state next = .ready

instance (s : Sched) (next : Nat) : Decidable (Selectable s next) :=
  inferInstanceAs (Decidable (_ ∨ _ ∧ _))

theorem firstReady_spec (state : Nat → ProcessState) : ∀ n i,
    firstReady state n i = 0 ∨
      state (firstReady state n i) = .ready ∧ i ≤ firstReady state n i ∧ firstReady state n i < i + n := by
  intro n
  induction n with
  | zero => exact fun i => Or.inl rfl
  | succ n ih =>
    intro i
    unfold firstReady
    by_cases hi : state i = .ready
    · rw [if_pos hi]
      exact Or.inr ⟨hi, le_refl i, by omega⟩
    · rw [if_neg hi]
      exact (ih (i + 1)).imp_right fun h => ⟨h.1, by omega, by omega⟩

/-- **The search finds a process that may run.** -/
theorem scheduleSearch_selectable (s : Sched) : Selectable s (scheduleSearch s) := by
  unfold scheduleSearch
  dsimp only
  have hbehind := firstReady_spec s.state (maxPid - (s.current + 1)) (s.current + 1)
  have hbefore := firstReady_spec s.state (s.current - 1) 1
  by_cases h0 : firstReady s.state (maxPid - (s.current + 1)) (s.current + 1) = 0
  · rw [if_pos h0]
    exact hbefore.imp_right fun h => ⟨by omega, h.1⟩
  · rw [if_neg h0]
    have h := hbehind.resolve_left h0
    exact Or.inr ⟨by omega, h.1⟩

section

variable {s : Sched} {p q : Nat} {st : ProcessState}

@[simp] theorem setState_current : (s.setState p st).current = s.current := rfl

@[simp] theorem setState_numProc : (s.setState p st).numProc = s.numProc := rfl

@[simp] theorem setState_self : (s.setState p st).state p = st := Function.update_self ..

@[simp] theorem setState_of_ne (h : q ≠ p) : (s.setState p st).state q = s.state q :=
  Function.update_of_ne h ..

@[simp] theorem setState_staysOnCpu : (s.setState p st).staysOnCpu = s.staysOnCpu := rfl

@[simp] theorem switchToTask_current : (switchToTask s p).current = p := rfl

@[simp] theorem switchToTask_self : (switchToTask s p).state p = .running := Function.update_self ..

@[simp] theorem switchToTask_of_ne (h : q ≠ p) : (switchToTask s p).state q = s.state q :=
  Function.update_of_ne h ..

/-- Only the process on the CPU is `PROC_RUNNING`. -/
def OnlyCurrentRuns (s : Sched) : Prop := ∀ p, p ≠ s.current → s.state p ≠ .running

theorem OnlyCurrentRuns.setState (h : OnlyCurrentRuns s) (hst : st ≠ .running) :
    OnlyCurrentRuns (s.setState p st) := by
  intro q hq
  by_cases hqp : q = p
  · rw [hqp, setState_self]
    exact hst
  · rw [setState_of_ne hqp]
    exact h q hq

/-- A switch away from a process that is not `PROC_RUNNING`. -/
theorem OnlyCurrentRuns.switch (h : OnlyCurrentRuns s) (hcur : p = s.current ∨ s.state s.current ≠ .running) :
    OnlyCurrentRuns (switchToTask s p) := by
  intro q hq
  rw [switchToTask_current] at hq
  rw [switchToTask_of_ne hq]
  by_cases hqc : q = s.current
  · rw [hqc]
    exact hcur.resolve_left fun he => hq (hqc.trans he.symm)
  · exact h q hqc

theorem OnlyCurrentRuns.schedule (h : OnlyCurrentRuns s) (next : Nat) : OnlyCurrentRuns (schedule s next) := by
  have hready : OnlyCurrentRuns (s.setState s.current .ready) := h.setState (by decide)
  unfold Proc.schedule
  dsimp only
  split_ifs
  · exact hready
  · apply hready.switch
    right
    rw [setState_current, setState_self]
    decide

/-- Another process keeps its state, unless it is the one that gets the CPU. -/
theorem schedule_state_of_ne {next : Nat} (hp : p ≠ s.current) :
    (schedule s next).state p = s.state p ∨ (schedule s next).current = p := by
  unfold schedule
  dsimp only
  split_ifs
  · exact Or.inl (setState_of_ne hp)
  · by_cases hpn : p = next
    · exact Or.inr hpn.symm
    · left
      rw [switchToTask_of_ne hpn, setState_of_ne hp]

end

end Desiros.Proc
