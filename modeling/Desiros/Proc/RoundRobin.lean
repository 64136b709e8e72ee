import Desiros.Library.CyclicOrder
import Desiros.Proc.Schedule

/-!
# Turns of the processes (`schedule.c`)

`schedule` makes the process on the CPU ready and is meant to give the CPU to the first ready process behind it, in the
cyclic order of the slots `1, …, MAXPID - 1`, to itself if it is the only one, and to process 0 if none is ready
(`InTurn`). The second of its two searches stops in front of the current process, so that process 0 takes the turn of a
process that is the only ready one. `inTurn_iff` says which calls select the right process, and
`SameReady.turns_iff` which runs give every ready process its turn.
-/

namespace Desiros.Proc

open Desiros.Library

/-- `schedule`, with its own search. -/
def scheduleCall (s : Sched) : Sched := schedule s (scheduleSearch (s.setState s.current .ready))

/-- The ready processes of `1, …, MAXPID - 1`. -/
def Sched.ready (s : Sched) : Finset Nat := (Finset.Icc 1 (maxPid - 1)).filter fun p => s.state p = .ready

/-- Those that a call finds. -/
def Sched.candidates (s : Sched) : Finset Nat := (s.setState s.current .ready).ready

/-- What the process `next` is meant to be. -/
def InTurn (candidates : Finset Nat) (current next : Nat) : Prop :=
  if candidates = ∅ then next = 0 else NextInTurn candidates current next

/-- Process 0 is on the CPU, or another process is ready. -/
def OtherReady (s : Sched) : Prop := s.current = 0 ∨ ∃ p ∈ s.candidates, p ≠ s.current

/-- A call that switches: at least two processes, the one on the CPU in the table. -/
structure Switches (s : Sched) : Prop where
  numProc : 2 ≤ s.numProc
  current : s.current < maxPid

/-- The states in which `schedule` is called, one after the other, with the same ready processes: between the calls the
process selected last stays on the CPU. -/
structure SameReady (S : Finset Nat) (calls : List Sched) : Prop where
  switches : ∀ s ∈ calls, Switches s
  same : ∀ s ∈ calls, s.candidates = S
  onCpu : calls.IsChain fun s t => t.current = (scheduleCall s).current

def selections (calls : List Sched) : List Nat := calls.map fun s => (scheduleCall s).current

/-- Any selections in a row, as many as there are ready processes, select each of them exactly once. -/
def TakesTurns (S : Finset Nat) (selected : List Nat) : Prop :=
  ∀ w, w <:+: selected → w.length = S.card → ∀ p ∈ S, w.count p = 1

section

variable {s : Sched} {S : Finset Nat} {p : Nat}

theorem mem_ready : p ∈ s.ready ↔ (1 ≤ p ∧ p < maxPid) ∧ s.state p = .ready := by
  have hpid : p ≤ maxPid - 1 ↔ p < maxPid := Nat.le_sub_one_iff_lt (show 0 < maxPid by decide)
  unfold Sched.ready
  rw [Finset.mem_filter, Finset.mem_Icc, hpid]

theorem firstReady_le (state : Nat → ProcessState) : ∀ {n i j : Nat}, 0 < i → i ≤ j → j < i + n → state j = .ready →
    firstReady state n i ≠ 0 ∧ firstReady state n i ≤ j := by
  intro n
  induction n with
  | zero =>
    intro i j _ hle hlt
    omega
  | succ n ih =>
    intro i j hi hle hlt hj
    unfold firstReady
    by_cases hready : state i = .ready
    · rw [if_pos hready]
      exact ⟨by omega, hle⟩
    · rw [if_neg hready]
      have hne : i ≠ j := fun he => hready (he ▸ hj)
      exact ih (Nat.succ_pos i) (by omega) (by omega) hj

/-- The first search of `schedule`. -/
theorem searchBehind (hcur : s.current < maxPid) : let r := firstReady s.state (maxPid - (s.current + 1)) (s.current + 1)
    (r = 0 ∧ ∀ p ∈ s.ready, ¬ s.current < p) ∨ (r ≠ 0 ∧ r ∈ s.ready ∧ s.current < r ∧ ∀ p ∈ s.ready, s.current < p → r ≤ p) := by
  dsimp only
  have hfirst := fun p (hp : p ∈ s.ready) (hlt : s.current < p) =>
    @firstReady_le s.state (maxPid - (s.current + 1)) (s.current + 1) p (Nat.succ_pos _) hlt
      (by have := (mem_ready.mp hp).1; omega) (mem_ready.mp hp).2
  by_cases h0 : firstReady s.state (maxPid - (s.current + 1)) (s.current + 1) = 0
  · exact .inl ⟨h0, fun p hp hlt => (hfirst p hp hlt).1 h0⟩
  · obtain ⟨hready, hle, hlt⟩ := (firstReady_spec s.state (maxPid - (s.current + 1)) (s.current + 1)).resolve_left h0
    exact .inr ⟨h0, mem_ready.mpr ⟨by omega, hready⟩, hle, fun p hp hcp => (hfirst p hp hcp).2⟩

/-- The second search of `schedule`. -/
theorem searchBefore (hcur : s.current < maxPid) : let r := firstReady s.state (s.current - 1) 1
    (r = 0 ∧ ∀ p ∈ s.ready, ¬ p < s.current) ∨ (r ∈ s.ready ∧ r < s.current ∧ ∀ p ∈ s.ready, p < s.current → r ≤ p) := by
  dsimp only
  have hfirst := fun p (hp : p ∈ s.ready) (hlt : p < s.current) =>
    @firstReady_le s.state (s.current - 1) 1 p Nat.one_pos (mem_ready.mp hp).1.1 (by omega) (mem_ready.mp hp).2
  by_cases h0 : firstReady s.state (s.current - 1) 1 = 0
  · exact .inl ⟨h0, fun p hp hlt => (hfirst p hp hlt).1 h0⟩
  · obtain ⟨hready, hle, hlt⟩ := (firstReady_spec s.state (s.current - 1) 1).resolve_left h0
    exact .inr ⟨mem_ready.mpr ⟨by omega, hready⟩, by omega, fun p hp hpc => (hfirst p hp hpc).2⟩

/-- **The two searches** find the next ready process in turn, if there is another one than the current. -/
theorem scheduleSearch_turn (hcur : s.current < maxPid) :
    (∃ p ∈ s.ready, p ≠ s.current) ∧ NextInTurn s.ready s.current (scheduleSearch s) ∨
      (∀ p ∈ s.ready, p = s.current) ∧ scheduleSearch s = 0 := by
  unfold scheduleSearch
  dsimp only
  rcases searchBehind hcur with ⟨h0, hnone⟩ | ⟨hne, hmem, hlt, hfirst⟩
  · rw [if_pos h0]
    rcases searchBefore hcur with ⟨h0', hnone'⟩ | ⟨hmem, hlt, hfirst⟩
    · exact .inr ⟨fun p hp => Nat.le_antisymm (Nat.le_of_not_lt (hnone p hp)) (Nat.le_of_not_lt (hnone' p hp)), h0'⟩
    · refine .inl ⟨⟨_, hmem, hlt.ne⟩, hmem, .inr ⟨hnone, fun p hp => ?_⟩⟩
      rcases Nat.lt_or_ge p s.current with hpc | hge
      · exact hfirst p hp hpc
      · exact (hlt.trans_le hge).le
  · rw [if_neg hne]
    exact .inl ⟨⟨_, hmem, hlt.ne'⟩, hmem, .inl ⟨hlt, hfirst⟩⟩

theorem scheduleCall_current (h : Switches s) :
    (scheduleCall s).current = scheduleSearch (s.setState s.current .ready) := by
  have hnum := h.numProc
  have hstays : (s.setState s.current .ready).staysOnCpu = false := by
    unfold Sched.staysOnCpu
    rw [setState_numProc, Bool.or_eq_false_iff, Bool.and_eq_false_iff]
    exact ⟨beq_false_of_ne (by omega), .inl (beq_false_of_ne (by omega))⟩
  unfold scheduleCall schedule
  dsimp only
  rw [if_neg (by rw [hstays]; exact Bool.false_ne_true), switchToTask_current]

/-- The process on the CPU is among those that the call finds. -/
theorem current_mem_candidates (h : s.current < maxPid) (hne : s.current ≠ 0) : s.current ∈ s.candidates :=
  mem_ready.mpr ⟨⟨Nat.pos_of_ne_zero hne, h⟩, setState_self⟩

/-- What a call selects. -/
theorem scheduleCall_cases (h : Switches s) :
    (∃ p ∈ s.candidates, p ≠ s.current) ∧ NextInTurn s.candidates s.current (scheduleCall s).current ∨
      (∀ p ∈ s.candidates, p = s.current) ∧ (scheduleCall s).current = 0 := by
  rw [scheduleCall_current h]
  exact @scheduleSearch_turn (s.setState s.current .ready) h.current

/-- A process that is the only ready one loses its turn. -/
theorem scheduleCall_alone (h : Switches s) (halone : ¬ OtherReady s) :
    s.candidates = {s.current} ∧ (scheduleCall s).current = 0 := by
  obtain ⟨hne, hnone⟩ := not_or.mp halone
  rcases scheduleCall_cases h with ⟨hother, -⟩ | ⟨hself, hzero⟩
  · exact absurd hother hnone
  · refine ⟨Finset.eq_singleton_iff_unique_mem.mpr ⟨current_mem_candidates h.current hne, hself⟩, hzero⟩

/-- **One call** selects the process whose turn it is, unless the current process is the only ready one. -/
theorem inTurn_iff (h : Switches s) : InTurn s.candidates s.current (scheduleCall s).current ↔ OtherReady s := by
  unfold InTurn
  by_cases hother : OtherReady s
  · refine iff_of_true ?_ hother
    rcases scheduleCall_cases h with ⟨⟨p, hp, -⟩, hnext⟩ | ⟨hself, hzero⟩
    · rw [if_neg (Finset.ne_empty_of_mem hp)]
      exact hnext
    · -- then it is process 0 that is on the CPU, and no process is ready
      have hcur : s.current = 0 := hother.resolve_right fun ⟨p, hp, hne⟩ => hne (hself p hp)
      have hempty : s.candidates = ∅ := by
        apply Finset.eq_empty_of_forall_notMem
        intro p hp
        have hpos := (mem_ready.mp hp).1.1
        have := hself p hp
        omega
      rw [if_pos hempty]
      exact hzero
  · refine iff_of_false (fun hnext => ?_) hother
    obtain ⟨halone, hzero⟩ := scheduleCall_alone h hother
    rw [if_neg (halone ▸ Finset.singleton_ne_empty _), hzero] at hnext
    exact absurd (mem_ready.mp hnext.mem).1.1 (by decide)

variable {calls : List Sched}

/-- The selections of a run in which every call has another process to select. -/
theorem SameReady.chain (h : SameReady S calls) (hS : S.Nonempty) (hother : ∀ s ∈ calls, OtherReady s) :
    (selections calls).IsChain (NextInTurn S) ∧ ∀ p ∈ selections calls, p ∈ S := by
  have hnext : ∀ s ∈ calls, NextInTurn S s.current (scheduleCall s).current := by
    intro s hs
    have hturn := (inTurn_iff (h.switches s hs)).mpr (hother s hs)
    unfold InTurn at hturn
    rwa [h.same s hs, if_neg hS.ne_empty] at hturn
  unfold selections
  refine ⟨?_, fun p hp => ?_⟩
  · rw [List.isChain_map]
    apply h.onCpu.imp_of_mem_imp
    intro s t _ ht hcur
    exact hcur ▸ hnext t ht
  · obtain ⟨s, hs, rfl⟩ := List.mem_map.mp hp
    exact (hnext s hs).mem

/-- **A run** with the same ready processes. -/
theorem SameReady.turns_iff (h : SameReady S calls) (hS : S.Nonempty) :
    TakesTurns S (selections calls) ↔ ∀ s ∈ calls, OtherReady s := by
  constructor
  · intro hturns s hs
    by_contra halone
    obtain ⟨hcandidates, hzero⟩ := scheduleCall_alone (h.switches s hs) halone
    rw [h.same s hs] at hcandidates
    have hmem : 0 ∈ selections calls := List.mem_map.mpr ⟨s, hs, hzero⟩
    obtain ⟨before, behind, hsplit⟩ := List.append_of_mem hmem
    have hcount := hturns [0] ⟨before, behind, by rw [hsplit]; simp⟩ (by rw [hcandidates]; rfl) s.current
      (hcandidates ▸ Finset.mem_singleton_self _)
    have hcur : s.current ∈ [0] := List.count_pos_iff.mp (hcount.symm ▸ Nat.one_pos)
    exact halone (.inl (List.mem_singleton.mp hcur))
  · intro hother w hw hlen p hp
    obtain ⟨hchain, hmem⟩ := h.chain hS hother
    exact count_turns ( List.IsChain.infix hchain hw) (fun q hq => hmem q (hw.subset hq)) hlen hp

end

/-- **Round robin**: which calls of `schedule` select the process whose turn it is, and in which runs with the same ready
processes each of them gets its turn. -/
theorem schedule_roundRobin (s : Sched) (S : Finset Nat) (calls : List Sched) :
    (Switches s → (InTurn s.candidates s.current (scheduleCall s).current ↔ OtherReady s)) ∧
    (SameReady S calls → S.Nonempty → (TakesTurns S (selections calls) ↔ ∀ s ∈ calls, OtherReady s)) :=
  ⟨inTurn_iff, SameReady.turns_iff⟩

/-- Two processes, `current` on the CPU and the processes of `ready` ready. -/
def twoReady (current : Nat) (ready : List Nat) : Sched where
  state := fun p => if p = current then .running else if p ∈ ready then .ready else .blocked
  current := current
  numProc := 2

/-- Two processes take turns. -/
theorem schedule_two_take_turns :
    InTurn {1, 2} 1 (scheduleCall (twoReady 1 [2])).current ∧
      TakesTurns {1, 2} (selections [twoReady 0 [1, 2], twoReady 1 [2], twoReady 2 [1]]) := by
  have hcandidates : (twoReady 1 [2]).candidates = {1, 2} := by decide
  obtain ⟨hcall, hrun⟩ := schedule_roundRobin (twoReady 1 [2]) {1, 2} [twoReady 0 [1, 2], twoReady 1 [2], twoReady 2 [1]]
  refine ⟨?_, ?_⟩
  · rw [← hcandidates]
    exact (hcall ⟨by decide, by decide⟩).mpr (.inr ⟨2, by decide, by decide⟩)
  · have hsame : SameReady {1, 2} [twoReady 0 [1, 2], twoReady 1 [2], twoReady 2 [1]] := by
      refine ⟨List.forall_mem_cons.mpr ⟨⟨?_, ?_⟩, List.forall_mem_cons.mpr ⟨⟨?_, ?_⟩, List.forall_mem_singleton.mpr ⟨?_, ?_⟩⟩⟩,
        ?_, ?_⟩ <;> decide
    refine (hrun hsame ⟨1, by decide⟩).mpr ?_
    exact List.forall_mem_cons.mpr ⟨.inl rfl, List.forall_mem_cons.mpr ⟨.inr ⟨2, by decide, by decide⟩,
      List.forall_mem_singleton.mpr (.inr ⟨1, by decide, by decide⟩)⟩⟩

/-- Process 1 is the only ready one, and process 0 is selected. -/
theorem schedule_alone : ¬ InTurn (twoReady 1 []).candidates 1 (scheduleCall (twoReady 1 [])).current := by
  have hcandidates : (twoReady 1 []).candidates = {1} := by decide
  have hzero : (scheduleCall (twoReady 1 [])).current = 0 := by decide
  rw [hcandidates, hzero]
  intro hnext
  unfold InTurn at hnext
  rw [if_neg (by decide)] at hnext
  exact absurd hnext.mem (by decide)

end Desiros.Proc
