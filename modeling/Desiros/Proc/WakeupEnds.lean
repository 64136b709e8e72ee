import Desiros.Library.Loop
import Desiros.Proc.WaitQueue

/-!
# Where `kwaitq_wakeup` ends (`kwaitq.c`)

The loop of `kwaitq_wakeup` runs with interrupts off, up to its end or to the point where `reschedule` gives the CPU to
the process that is woken up; when the caller gets it back, it goes on with the loop. It is meant to take an entry off
the queue in each iteration (`WakeupEnds`). For a process that is already running, `continue` leaves the entry at the
head of the queue, so that the next iteration finds it again: `kwaitq_wakeup_ends_iff`.
-/

namespace Desiros.Proc

open Desiros.Library

/-- In front of an iteration, with `nb` processes to wake up; `lost` if `reschedule` gave the CPU away. -/
structure WakeupState where
  kernel : Kernel
  nb : Nat
  lost : Bool

/-- `reschedule` gives the CPU to the process that is woken up. -/
def Kernel.handOver (s : Kernel) (call e nb : Nat) (wakeupStatus : Int) : Kernel :=
  let s := s.setPc (.inWakeup call e nb wakeupStatus)
  { s with sched := reschedule s.sched (s.entry e).proc }

/-- One iteration of the loop, unless it is left. -/
def wakeupTurn (call : Nat) (wakeupStatus : Int) (x : WakeupState) : Option WakeupState :=
  if x.lost then none
  else
    match x.kernel.waitingList with
    | [] => none
    | e :: _ =>
      if x.nb = 0 then none
      else
        let p := (x.kernel.entry e).proc
        -- `continue`
        if x.kernel.sched.state p = .running then some x
        else
          let s := x.kernel.markReady call e
          if s.sched.staysOnCpu then some ⟨s.wakeEntry e wakeupStatus, x.nb - 1, false⟩
          else some ⟨s.handOver call e (x.nb - 1) wakeupStatus, x.nb - 1, true⟩

/-- The loop ends after at most as many iterations as there are entries, and has woken up the first of them, at most
`nb`. -/
def WakeupEnds (call : Nat) (wakeupStatus : Int) (s : Kernel) (nb : Nat) : Prop :=
  ∃ x k, loop (wakeupTurn call wakeupStatus) (s.waitingList.length + 1) ⟨s, nb, false⟩ = some x ∧ k ≤ nb ∧
    (x.kernel.calls call).woken = (s.calls call).woken ++ s.waitingList.take k

/-- The entries that the loop looks at: with a switch of processes it is left behind the first one. -/
def Kernel.lookedAt (s : Kernel) (nb : Nat) : List Nat :=
  s.waitingList.take (if s.sched.staysOnCpu then nb else min nb 1)

/-- None of them is an entry of a running process. -/
def NoneRunning (s : Kernel) (nb : Nat) : Prop := ∀ e ∈ s.lookedAt nb, s.sched.state (s.entry e).proc ≠ .running

section

variable {call nb : Nat} {wakeupStatus : Int} {s : Kernel} {e : Nat} {rest : List Nat}

theorem touch_eq (s : Kernel) (e : Nat) : ∃ stale, s.touch e = { s with stale := stale } := by
  unfold Kernel.touch
  split_ifs
  · exact ⟨_, rfl⟩
  · exact ⟨s.stale, rfl⟩

/-- An entry at the head that is woken up. -/
theorem wakeEntry_head (hlist : s.waitingList = e :: rest) :
    (s.wakeEntry e wakeupStatus).waitingList = rest ∧ (s.wakeEntry e wakeupStatus).sched = s.sched ∧
      (s.wakeEntry e wakeupStatus).calls = s.calls ∧
      ∀ f, ((s.wakeEntry e wakeupStatus).entry f).proc = (s.entry f).proc := by
  obtain ⟨stale, hstale⟩ := touch_eq s e
  obtain ⟨stale', hstale'⟩ := touch_eq (s.removeEntry e) e
  have heq : s.wakeEntry e wakeupStatus = { s with
      waitingList := s.waitingList.erase e
      unlinked := s.unlinked ++ [e]
      stale := stale'
      entry := Function.update s.entry e
        { s.entry e with wakeupTriggered := true, wakeupStatus := wakeupStatus } } := by
    unfold Kernel.wakeEntry
    rw [hstale']
    unfold Kernel.removeEntry
    rw [hstale]
  rw [heq]
  refine ⟨?_, rfl, rfl, fun f => ?_⟩
  · show s.waitingList.erase e = rest
    rw [hlist, List.erase_cons_head]
  · show (Function.update s.entry e
      { s.entry e with wakeupTriggered := true, wakeupStatus := wakeupStatus } f).proc = (s.entry f).proc
    by_cases hf : f = e
    · rw [hf, Function.update_self]
    · rw [Function.update_of_ne hf]

theorem noneRunning_zero : NoneRunning s 0 := by
  intro f hf
  unfold Kernel.lookedAt at hf
  rw [Nat.zero_min, ite_self, List.take_zero] at hf
  exact absurd hf List.not_mem_nil

theorem noneRunning_nil (hlist : s.waitingList = []) : NoneRunning s nb := by
  intro f hf
  unfold Kernel.lookedAt at hf
  rw [hlist, List.take_nil] at hf
  exact absurd hf List.not_mem_nil

/-- The loop looks at the head of the queue, and behind it only if it keeps the CPU. -/
theorem noneRunning_cons (hlist : s.waitingList = e :: rest) : NoneRunning s (nb + 1) ↔
    s.sched.state (s.entry e).proc ≠ .running ∧
      (s.sched.staysOnCpu = true → ∀ f ∈ rest.take nb, s.sched.state (s.entry f).proc ≠ .running) := by
  unfold NoneRunning Kernel.lookedAt
  rw [hlist]
  cases s.sched.staysOnCpu with
  | false =>
    rw [if_neg Bool.false_ne_true, Nat.min_eq_right (Nat.le_add_left 1 nb)]
    exact ⟨fun h => ⟨h e List.mem_cons_self, fun h' => absurd h' Bool.false_ne_true⟩,
      fun h f hf => List.mem_singleton.mp hf ▸ h.1⟩
  | true =>
    rw [if_pos rfl, List.take_succ_cons, List.forall_mem_cons]
    exact and_congr_right fun _ => ⟨fun h _ => h, fun h => h rfl⟩

/-- With a switch of processes the loop looks at the head only. -/
theorem noneRunning_switch (hlist : s.waitingList = e :: rest) (hstays : s.sched.staysOnCpu = false)
    (hrun : s.sched.state (s.entry e).proc ≠ .running) : NoneRunning s (nb + 1) := by
  refine (noneRunning_cons hlist).mpr ⟨hrun, fun h => ?_⟩
  rw [hstays] at h
  cases h

/-- `continue` changes nothing. -/
theorem wakeupTurn_continue (hlist : s.waitingList = e :: rest)
    (hrun : s.sched.state (s.entry e).proc = .running) :
    wakeupTurn call wakeupStatus ⟨s, nb + 1, false⟩ = some ⟨s, nb + 1, false⟩ := by
  unfold wakeupTurn
  rw [if_neg Bool.false_ne_true]
  dsimp only
  rw [hlist]
  dsimp only
  rw [if_neg (Nat.succ_ne_zero nb), if_pos hrun]

theorem wakeupTurn_empty (hlist : s.waitingList = []) : wakeupTurn call wakeupStatus ⟨s, nb, false⟩ = none := by
  unfold wakeupTurn
  rw [if_neg Bool.false_ne_true]
  dsimp only
  rw [hlist]

theorem wakeupTurn_enough : wakeupTurn call wakeupStatus ⟨s, 0, false⟩ = none := by
  unfold wakeupTurn
  rw [if_neg Bool.false_ne_true]
  dsimp only
  cases s.waitingList <;> rfl

theorem wakeupTurn_lost {x : WakeupState} (h : x.lost = true) : wakeupTurn call wakeupStatus x = none := by
  unfold wakeupTurn
  rw [if_pos h]

/-- An iteration that finds a process to wake up. -/
theorem wakeupTurn_wakes (hlist : s.waitingList = e :: rest) (hrun : s.sched.state (s.entry e).proc ≠ .running) :
    wakeupTurn call wakeupStatus ⟨s, nb + 1, false⟩ =
      if s.sched.staysOnCpu then some ⟨(s.markReady call e).wakeEntry e wakeupStatus, nb, false⟩
      else some ⟨(s.markReady call e).handOver call e nb wakeupStatus, nb, true⟩ := by
  unfold wakeupTurn
  rw [if_neg Bool.false_ne_true]
  dsimp only
  rw [hlist]
  dsimp only
  rw [if_neg (Nat.succ_ne_zero nb), if_neg hrun]
  rfl

theorem markReady_woken : ((s.markReady call e).calls call).woken = (s.calls call).woken ++ [e] := by
  show (Function.update s.calls call _ call).woken = _
  rw [Function.update_self]

/-- The process that is made ready did not run, and no other one is affected. -/
theorem markReady_running (hrun : s.sched.state (s.entry e).proc ≠ .running) (p : Nat) :
    (s.markReady call e).sched.state p = .running ↔ s.sched.state p = .running := by
  by_cases hp : p = (s.entry e).proc
  · rw [hp, show (s.markReady call e).sched.state (s.entry e).proc = .ready from setState_self]
    refine ⟨fun h => ?_, fun h => absurd h hrun⟩
    cases h
  · rw [show (s.markReady call e).sched.state p = s.sched.state p from setState_of_ne hp]

/-- The entry at the head is woken up without a switch: the loop goes on with those behind it. -/
theorem noneRunning_rest (hlist : s.waitingList = e :: rest) (hstays : s.sched.staysOnCpu = true)
    (hrun : s.sched.state (s.entry e).proc ≠ .running) :
    NoneRunning ((s.markReady call e).wakeEntry e wakeupStatus) nb ↔ NoneRunning s (nb + 1) := by
  obtain ⟨hrest, hsched, -, hproc⟩ := @wakeEntry_head wakeupStatus (s.markReady call e) e rest hlist
  have hstays' : (s.markReady call e).sched.staysOnCpu = true := hstays
  rw [noneRunning_cons hlist]
  unfold NoneRunning Kernel.lookedAt
  rw [hsched, hrest, if_pos hstays']
  constructor
  · refine fun h => ⟨hrun, fun _ f hf hrunning => h f hf ?_⟩
    rw [hproc]
    exact (markReady_running hrun _).mpr hrunning
  · intro h f hf hrunning
    rw [hproc] at hrunning
    exact h.2 hstays f hf ((markReady_running hrun _).mp hrunning)

/-! ## The loop -/

/-- With a running process at the head the loop does not get anywhere. -/
theorem loop_continue (hlist : s.waitingList = e :: rest) (hrun : s.sched.state (s.entry e).proc = .running)
    (fuel : Nat) : loop (wakeupTurn call wakeupStatus) fuel ⟨s, nb + 1, false⟩ = none := by
  induction fuel with
  | zero => rfl
  | succ fuel ih => rw [loop_turn (wakeupTurn_continue hlist hrun), ih]

/-- The loop in terms of what is behind the head. -/
theorem wakeupEnds_rest (hlist : s.waitingList = e :: rest) (hstays : s.sched.staysOnCpu = true)
    (hrun : s.sched.state (s.entry e).proc ≠ .running)
    (h : WakeupEnds call wakeupStatus ((s.markReady call e).wakeEntry e wakeupStatus) nb) :
    WakeupEnds call wakeupStatus s (nb + 1) := by
  obtain ⟨hrest, -, hcalls, -⟩ := @wakeEntry_head wakeupStatus (s.markReady call e) e rest hlist
  obtain ⟨x, k, hloop, hk, hwoken⟩ := h
  have hturn := @wakeupTurn_wakes call nb wakeupStatus s e rest hlist hrun
  rw [if_pos hstays] at hturn
  rw [hrest] at hloop hwoken
  refine ⟨x, k + 1, ?_, Nat.succ_le_succ hk, ?_⟩
  · rw [hlist, List.length_cons, loop_turn hturn]
    exact hloop
  · rw [hwoken, hcalls, markReady_woken, hlist, List.take_succ_cons, List.append_assoc, List.singleton_append]

/-- The loop ends where `reschedule` gives the CPU away. -/
theorem wakeupEnds_switch (hlist : s.waitingList = e :: rest) (hstays : s.sched.staysOnCpu = false)
    (hrun : s.sched.state (s.entry e).proc ≠ .running) : WakeupEnds call wakeupStatus s (nb + 1) := by
  have hturn := @wakeupTurn_wakes call nb wakeupStatus s e rest hlist hrun
  rw [if_neg (by rw [hstays]; exact Bool.false_ne_true)] at hturn
  refine ⟨⟨(s.markReady call e).handOver call e nb wakeupStatus, nb, true⟩, 1, ?_, Nat.le_add_left 1 nb, ?_⟩
  · rw [hlist, List.length_cons, loop_turn hturn]
    exact loop_stop (wakeupTurn_lost rfl)
  · rw [hlist]
    exact markReady_woken

/-- It ends at once. -/
theorem wakeupEnds_stop (h : wakeupTurn call wakeupStatus ⟨s, nb, false⟩ = none) :
    WakeupEnds call wakeupStatus s nb := by
  refine ⟨⟨s, nb, false⟩, 0, loop_stop h, Nat.zero_le nb, ?_⟩
  rw [List.take_zero, List.append_nil]

end

section

variable {call : Nat} {wakeupStatus : Int}

theorem wakeupEnds_of_noneRunning : ∀ {nb : Nat} {s : Kernel}, NoneRunning s nb →
    WakeupEnds call wakeupStatus s nb := by
  intro nb
  induction nb with
  | zero => exact fun _ => wakeupEnds_stop wakeupTurn_enough
  | succ nb ih =>
    intro s h
    cases hlist : s.waitingList with
    | nil => exact wakeupEnds_stop (wakeupTurn_empty hlist)
    | cons e rest =>
      have hrun := ((noneRunning_cons hlist).mp h).1
      cases hstays : s.sched.staysOnCpu with
      | false => exact wakeupEnds_switch hlist hstays hrun
      | true => exact wakeupEnds_rest hlist hstays hrun (ih ((noneRunning_rest hlist hstays hrun).mpr h))

theorem loop_of_running : ∀ {nb : Nat} {s : Kernel}, ¬ NoneRunning s nb →
    ∀ fuel, loop (wakeupTurn call wakeupStatus) fuel ⟨s, nb, false⟩ = none := by
  intro nb
  induction nb with
  | zero => exact fun h => absurd noneRunning_zero h
  | succ nb ih =>
    intro s h fuel
    cases hlist : s.waitingList with
    | nil => exact absurd (noneRunning_nil hlist) h
    | cons e rest =>
      by_cases hrun : s.sched.state (s.entry e).proc = .running
      · exact loop_continue hlist hrun fuel
      · cases hstays : s.sched.staysOnCpu with
        | false => exact absurd (noneRunning_switch hlist hstays hrun) h
        | true =>
          cases fuel with
          | zero => rfl
          | succ fuel =>
            have hturn := @wakeupTurn_wakes call nb wakeupStatus s e rest hlist hrun
            rw [if_pos hstays] at hturn
            rw [loop_turn hturn]
            exact ih (fun h' => h ((noneRunning_rest hlist hstays hrun).mp h')) fuel

/-- `wakeupLoop` leaves what the loop leaves. -/
theorem wakeupLoop_of_loop : ∀ {nb : Nat} {s : Kernel} {fuel : Nat} {x : WakeupState},
    loop (wakeupTurn call wakeupStatus) fuel ⟨s, nb, false⟩ = some x →
      wakeupLoop call wakeupStatus nb s = if x.lost then (none, x.kernel) else (some ok, x.kernel.endCall call) := by
  intro nb
  induction nb with
  | zero =>
    intro s fuel x h
    obtain rfl := loop_of_stop wakeupTurn_enough h
    rfl
  | succ nb ih =>
    intro s fuel x h
    unfold wakeupLoop
    cases hlist : s.waitingList with
    | nil =>
      obtain rfl := loop_of_stop (wakeupTurn_empty hlist) h
      rfl
    | cons e rest =>
      by_cases hrun : s.sched.state (s.entry e).proc = .running
      · rw [loop_continue hlist hrun] at h
        cases h
      · have hturn := @wakeupTurn_wakes call nb wakeupStatus s e rest hlist hrun
        dsimp only
        rw [if_neg hrun]
        cases fuel with
        | zero => cases h
        | succ fuel =>
          cases hstays : s.sched.staysOnCpu with
          | false =>
            rw [if_neg (by rw [hstays]; exact Bool.false_ne_true)] at hturn
            rw [loop_turn hturn] at h
            obtain rfl := loop_of_stop (wakeupTurn_lost rfl) h
            rw [if_neg (by rw [show (s.markReady call e).sched.staysOnCpu = false from hstays]; exact Bool.false_ne_true)]
            rfl
          | true =>
            rw [if_pos hstays] at hturn
            rw [loop_turn hturn] at h
            rw [if_pos (show (s.markReady call e).sched.staysOnCpu = true from hstays)]
            exact ih h

/-- `wakeupLoop` is `stuck` where the loop has no end. -/
theorem wakeupLoop_stuck : ∀ {nb : Nat} {s : Kernel}, ¬ NoneRunning s nb →
    ∃ t : Kernel, wakeupLoop call wakeupStatus nb s = (none, t) ∧ t.pc s.sched.current = .stuck := by
  intro nb
  induction nb with
  | zero => exact fun h => absurd noneRunning_zero h
  | succ nb ih =>
    intro s h
    unfold wakeupLoop
    cases hlist : s.waitingList with
    | nil => exact absurd (noneRunning_nil hlist) h
    | cons e rest =>
      dsimp only
      by_cases hrun : s.sched.state (s.entry e).proc = .running
      · rw [if_pos hrun]
        exact ⟨_, rfl, Function.update_self ..⟩
      · rw [if_neg hrun]
        cases hstays : s.sched.staysOnCpu with
        | false => exact absurd (noneRunning_switch hlist hstays hrun) h
        | true =>
          rw [if_pos (show (s.markReady call e).sched.staysOnCpu = true from hstays)]
          obtain ⟨t, ht, hpc⟩ := ih fun h' => h ((noneRunning_rest hlist hstays hrun).mp h')
          refine ⟨t, ht, ?_⟩
          rw [(@wakeEntry_head wakeupStatus (s.markReady call e) e rest hlist).2.1] at hpc
          exact hpc

/-- **The loop of `kwaitq_wakeup` ends** exactly if no entry that it looks at is one of a running process. It is the
loop of a new call and the rest of the loop of a call that gets the CPU back. -/
theorem kwaitq_wakeup_ends_iff (s : Kernel) (call nb : Nat) (wakeupStatus : Int) :
    (WakeupEnds call wakeupStatus s nb ↔ NoneRunning s nb) ∧
      (¬ NoneRunning s nb → ∀ fuel, loop (wakeupTurn call wakeupStatus) fuel ⟨s, nb, false⟩ = none) := by
  refine ⟨⟨fun h => ?_, wakeupEnds_of_noneRunning⟩, loop_of_running⟩
  by_contra hnot
  obtain ⟨x, k, hloop, -, -⟩ := h
  rw [loop_of_running hnot] at hloop
  cases hloop

/-- Process 1 has an entry of its own in the queue that it wakes up. -/
theorem kwaitq_wakeup_own_entry :
    ¬ WakeupEnds 0 ok
      { twoProcesses 1 1 with waitingList := [0], entry := fun _ => ⟨1, false, ok⟩, nextEntry := 1 } 1 := by
  intro h
  obtain ⟨x, k, hloop, -, -⟩ := h
  rw [loop_continue rfl rfl] at hloop
  cases hloop

end

end Desiros.Proc
