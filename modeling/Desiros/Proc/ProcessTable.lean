import Mathlib.Data.Finset.Card
import Mathlib.Order.Interval.Finset.Nat
import Mathlib.Logic.Function.Basic

/-!
# The process table (`syscall/exec.c`, `syscall/exit.c`, `process.c`)

`sysExec` looks for a stopped slot, counts the new process and loads it; `sysExit` stops the process that
calls it. `TableLaw` is what the slots and the counter are meant to obey over a run of both,
`procTable_law_iff` the runs from boot that do.
-/

namespace Desiros.Proc

/-- `process_state_t`. -/
inductive ProcessState where
  | stopped
  | ready
  | running
  | blocked
  | zombie
deriving DecidableEq, Repr

def maxPid : Nat := 32

/-- A `struct process`; `addressSpace` is 0 for `NULL`. -/
structure Process where
  pid : Nat
  state : ProcessState
  addressSpace : UInt32
deriving DecidableEq, Repr

/-- `pList i` is `p_list[i]`: 32 slots, and whatever lies in memory behind them. -/
structure ProcTable where
  pList : Nat → Process
  current : Nat
  numProc : Int

def ProcTable.setSlot (t : ProcTable) (i : Nat) (p : Process) : ProcTable :=
  { t with pList := Function.update t.pList i p }

/-- `while (p_list[pid].state != PROC_STOPPED && pid++ < MAXPID)` over at most `n` slots: where it ends, and the
slots it read. -/
def slotSearch (pList : Nat → Process) : Nat → Nat → Nat × List Nat
  | 0, pid => (pid, [])
  | n + 1, pid =>
    if (pList pid).state ≠ .stopped then
      if pid < maxPid then
        let (found, reads) := slotSearch pList n (pid + 1)
        (found, pid :: reads)
      else (pid + 1, [pid])
    else (pid, [pid])

/-- `process_set_address_space`; a process that has an address space ends in `while(1)`. -/
def processSetAddressSpace (proc : Process) (newAs : UInt32) : Option Process :=
  if proc.addressSpace ≠ 0 then none else some { proc with addressSpace := newAs }

/-- What `uvmm_create_empty_as` and `binfmt_elf32_map` return for the program. -/
structure ExecLoad where
  newAs : UInt32
  startUaddr : UInt32
deriving DecidableEq, Repr

/-- The slots `sys_exec` read, the slot it picked, and the table it returns with, if it returns. -/
structure ExecResult where
  reads : List Nat
  picked : Option Nat
  after : Option ProcTable

def sysExec (t : ProcTable) (load : ExecLoad) : ExecResult :=
  let (pid, reads) := slotSearch t.pList maxPid 1
  let reads := reads ++ [pid]
  if (t.pList pid).state ≠ .stopped then ⟨reads, none, some t⟩
  else
    let t := { t with numProc := t.numProc + 1 }.setSlot pid { t.pList pid with pid := pid }
    if load.startUaddr = 0 then ⟨reads, some pid, some t⟩
    else
      match processSetAddressSpace (t.pList pid) load.newAs with
      | none => ⟨reads, some pid, none⟩
      | some proc => ⟨reads, some pid, some (t.setSlot pid { proc with state := .ready })⟩

/-- `sys_exit` called by the process in slot `current`, with the switch to the kernel task. -/
def sysExit (t : ProcTable) : ProcTable :=
  let t := t.setSlot t.current { t.pList t.current with state := .stopped }
  { t with current := 0 }.setSlot 0 { t.pList 0 with state := .running }

/-! ## Runs -/

inductive ProcOp where
  | exec (load : ExecLoad)
  | exit (pid : Nat)
deriving DecidableEq, Repr

/-- One call, by any process for `sys_exec` and by process `pid` for `sys_exit`. -/
def procStep (t : ProcTable) : ProcOp → Option ProcTable
  | .exec load => (sysExec t load).after
  | .exit pid => some (sysExit { t with current := pid })

/-- The slots `1..31` that are not `PROC_STOPPED`. -/
def ProcTable.live (t : ProcTable) : Finset Nat :=
  (Finset.Icc 1 31).filter fun i => (t.pList i).state ≠ .stopped

/-- Only a process that runs exits. -/
def Callable (t : ProcTable) : ProcOp → Prop
  | .exec _ => True
  | .exit pid => pid ∈ t.live

def CallableRun : ProcTable → List ProcOp → Prop
  | _, [] => True
  | t, op :: ops => Callable t op ∧ ∀ t', procStep t op = some t' → CallableRun t' ops

/-- The promises of one call: `sys_exec` picks a stopped slot with an index in `1..31`; without one it changes
nothing and stays inside the table; and it returns. -/
def StepLaw (t : ProcTable) : ProcOp → Prop
  | .exec load =>
    (∀ pid, (sysExec t load).picked = some pid → 1 ≤ pid ∧ pid ≤ 31 ∧ (t.pList pid).state = .stopped) ∧
    ((∀ i, 1 ≤ i → i ≤ 31 → (t.pList i).state ≠ .stopped) →
      (sysExec t load).after = some t ∧ ∀ i ∈ (sysExec t load).reads, i < maxPid) ∧
    (sysExec t load).after ≠ none
  | .exit _ => True

/-- The counter is right in every state of the run, and every call keeps its promises. -/
def TableLaw : ProcTable → List ProcOp → Prop
  | t, [] => t.numProc = t.live.card
  | t, op :: ops =>
    t.numProc = t.live.card ∧ StepLaw t op ∧ ∀ t', procStep t op = some t' → TableLaw t' ops

/-- The table at boot: no process, and nothing of an earlier one. -/
structure Boot (t : ProcTable) : Prop where
  stopped : ∀ i, 1 ≤ i → i ≤ 31 → (t.pList i).state = .stopped
  addressSpace : ∀ i, 1 ≤ i → i ≤ 31 → (t.pList i).addressSpace = 0
  numProc : t.numProc = 0

/-! ## The slot search -/

section

variable {t : ProcTable} {load : ExecLoad}

/-- With a stopped slot ahead the search ends at the first one, having read none behind it. -/
theorem slotSearch_found {pList : Nat → Process} {j : Nat} (hj : (pList j).state = .stopped) (hmax : j < maxPid) :
    ∀ n i, i ≤ j → j < i + n →
      ∃ k reads, slotSearch pList n i = (k, reads) ∧ i ≤ k ∧ k ≤ j ∧ (pList k).state = .stopped ∧
        ∀ r ∈ reads, r ≤ k := by
  intro n
  induction n with
  | zero => intro i hi hlt; omega
  | succ n ih =>
    intro i hi hlt
    unfold slotSearch
    by_cases hs : (pList i).state = .stopped
    · exact ⟨i, [i], if_neg (not_not.mpr hs), le_refl i, hi, hs, by simp⟩
    · have hne : i ≠ j := fun he => hs (he ▸ hj)
      obtain ⟨k, reads, hk, hik, hkj, hstopped, hreads⟩ := ih (i + 1) (by omega) (by omega)
      refine ⟨k, i :: reads, ?_, by omega, hkj, hstopped, fun r hr => ?_⟩
      · rw [if_pos hs, if_pos (by omega), hk]
      · cases List.mem_cons.mp hr with
        | inl he => omega
        | inr hmem => exact hreads r hmem

/-- In a full table the search runs into the slot behind the last one. -/
theorem slotSearch_full {pList : Nat → Process} (hfull : ∀ i, 1 ≤ i → i ≤ 31 → (pList i).state ≠ .stopped) :
    ∀ n i, 1 ≤ i → i + n = 33 → 0 < n → maxPid ∈ (slotSearch pList n i).2 := by
  intro n
  induction n with
  | zero => intro i _ _ hpos; omega
  | succ n ih =>
    intro i hi hn _
    have hmax : maxPid = 32 := rfl
    unfold slotSearch
    by_cases hi32 : i = 32
    · rw [hi32, hmax]
      split_ifs <;> simp
    · rw [if_pos (hfull i hi (by omega)), if_pos (by omega)]
      exact List.mem_cons_of_mem _ (ih (i + 1) (by omega) (by omega) (by omega))

/-! ## One call -/

theorem mem_live {i : Nat} : i ∈ t.live ↔ (1 ≤ i ∧ i ≤ 31) ∧ (t.pList i).state ≠ .stopped := by
  unfold ProcTable.live
  rw [Finset.mem_filter, Finset.mem_Icc]

theorem live_card_le : t.live.card ≤ 31 :=
  (Finset.card_filter_le _ _).trans (by rw [Nat.card_Icc])

/-- A table has a stopped slot as long as it has fewer than 31 others. -/
theorem exists_stopped (h : t.live.card < 31) : ∃ i, 1 ≤ i ∧ i ≤ 31 ∧ (t.pList i).state = .stopped := by
  by_contra hnone
  have hall : t.live = Finset.Icc 1 31 := by
    apply Finset.filter_true_of_mem
    intro i hi hs
    rw [Finset.mem_Icc] at hi
    exact hnone ⟨i, hi.1, hi.2, hs⟩
  rw [hall, Nat.card_Icc] at h
  omega

theorem full_of_card (h : t.live.card = 31) : ∀ i, 1 ≤ i → i ≤ 31 → (t.pList i).state ≠ .stopped := by
  have hall : t.live = Finset.Icc 1 31 := by
    apply Finset.eq_of_subset_of_card_le (Finset.filter_subset _ _)
    show _ ≤ t.live.card
    rw [Nat.card_Icc, h]
  intro i hi hi'
  have hmem : i ∈ t.live := by
    rw [hall, Finset.mem_Icc]
    exact ⟨hi, hi'⟩
  exact (mem_live.mp hmem).2

/-- The counter is right, and stopped slots were never used. -/
structure Filled (t : ProcTable) : Prop where
  numProc : t.numProc = t.live.card
  unused : ∀ i, 1 ≤ i → i ≤ 31 → (t.pList i).state = .stopped → (t.pList i).addressSpace = 0

/-- With a stopped slot and a good program, `sys_exec` fills that slot. -/
theorem sysExec_good (h : Filled t) (hload : load.startUaddr ≠ 0) (hfree : t.live.card < 31) :
    ∃ t', (sysExec t load).after = some t' ∧ StepLaw t (.exec load) ∧ Filled t' ∧
      t'.live.card = t.live.card + 1 := by
  obtain ⟨j, hj1, hj31, hj⟩ := exists_stopped hfree
  obtain ⟨k, reads, hk, hk1, hkj, hstopped, hreads⟩ :=
    @slotSearch_found t.pList j hj (by unfold maxPid; omega) maxPid 1 hj1 (by unfold maxPid; omega)
  have has : (t.pList k).addressSpace = 0 := h.unused k hk1 (by omega) hstopped
  have hexec : sysExec t load = ⟨reads ++ [k], some k, some
      (({ t with numProc := t.numProc + 1 }.setSlot k { t.pList k with pid := k }).setSlot k
        { pid := k, state := .ready, addressSpace := load.newAs })⟩ := by
    unfold sysExec processSetAddressSpace
    simp [hk, hstopped, hload, ProcTable.setSlot, has]
  have hlive : (({ t with numProc := t.numProc + 1 }.setSlot k { t.pList k with pid := k }).setSlot k
      { pid := k, state := .ready, addressSpace := load.newAs } : ProcTable).live = insert k t.live := by
    ext i
    rw [Finset.mem_insert, mem_live, mem_live]
    by_cases hik : i = k
    · simp [ProcTable.setSlot, hik]
      omega
    · simp [ProcTable.setSlot, hik]
  have hnotin : k ∉ t.live := fun hmem => (mem_live.mp hmem).2 hstopped
  refine ⟨_, by rw [hexec], ⟨?_, ?_, ?_⟩, ⟨?_, ?_⟩, ?_⟩
  · intro pid hpid
    rw [hexec] at hpid
    rw [← Option.some.inj hpid]
    exact ⟨hk1, by omega, hstopped⟩
  · exact fun hfull => absurd hj (hfull j hj1 hj31)
  · rw [hexec]
    exact Option.some_ne_none _
  · rw [hlive, Finset.card_insert_of_notMem hnotin]
    show t.numProc + 1 = _
    rw [h.numProc]
    rfl
  · intro i hi hi' hs
    by_cases hik : i = k
    · simp [ProcTable.setSlot, hik] at hs
    · simp only [ProcTable.setSlot, Function.update_of_ne hik] at hs ⊢
      exact h.unused i hi hi' hs
  · rw [hlive, Finset.card_insert_of_notMem hnotin]

/-- A program that does not load is counted without a slot. -/
theorem sysExec_failed (h : Filled t) (hload : load.startUaddr = 0) (hfree : t.live.card < 31) :
    ∃ t', (sysExec t load).after = some t' ∧ t'.numProc ≠ t'.live.card := by
  obtain ⟨j, hj1, hj31, hj⟩ := exists_stopped hfree
  obtain ⟨k, reads, hk, hk1, hkj, hstopped, hreads⟩ :=
    @slotSearch_found t.pList j hj (by unfold maxPid; omega) maxPid 1 hj1 (by unfold maxPid; omega)
  have hexec : (sysExec t load).after =
      some ({ t with numProc := t.numProc + 1 }.setSlot k { t.pList k with pid := k }) := by
    unfold sysExec
    simp [hk, hstopped, hload]
  have hlive : ({ t with numProc := t.numProc + 1 }.setSlot k { t.pList k with pid := k } : ProcTable).live =
      t.live := by
    ext i
    rw [mem_live, mem_live]
    by_cases hik : i = k
    · simp [ProcTable.setSlot, hik]
    · simp [ProcTable.setSlot, hik]
  refine ⟨_, hexec, ?_⟩
  rw [hlive]
  show t.numProc + 1 ≠ _
  rw [h.numProc]
  omega

/-- A full table makes `sys_exec` look behind it. -/
theorem sysExec_full (hfull : t.live.card = 31) : ¬ StepLaw t (.exec load) := by
  have hall := full_of_card hfull
  intro hlaw
  have hmem : maxPid ∈ (sysExec t load).reads := by
    have hsearch := slotSearch_full hall maxPid 1 (le_refl 1) (by decide) (by decide)
    unfold sysExec
    dsimp only
    split_ifs
    · exact List.mem_append_left _ hsearch
    · exact List.mem_append_left _ hsearch
    · split
      · exact List.mem_append_left _ hsearch
      · exact List.mem_append_left _ hsearch
  exact absurd ((hlaw.2.1 hall).2 maxPid hmem) (Nat.lt_irrefl _)

/-- A process that exits leaves its slot but stays counted. -/
theorem sysExit_numProc (h : Filled t) {pid : Nat} (hpid : pid ∈ t.live) :
    (sysExit { t with current := pid }).numProc ≠ (sysExit { t with current := pid }).live.card := by
  have hrange := (mem_live.mp hpid).1
  have hlive : (sysExit { t with current := pid }).live = t.live.erase pid := by
    ext i
    rw [Finset.mem_erase, mem_live, mem_live]
    by_cases hi0 : i = 0
    · simp [hi0]
    by_cases hip : i = pid
    · simp [sysExit, ProcTable.setSlot, hip, show pid ≠ 0 by omega]
    · simp [sysExit, ProcTable.setSlot, hip, hi0]
  have hpos := Finset.card_pos.mpr ⟨pid, hpid⟩
  rw [hlive, Finset.card_erase_of_mem hpid]
  show t.numProc ≠ _
  rw [h.numProc]
  omega

/-! ## Whole runs -/

theorem tableLaw_iff (ops : List ProcOp) : ∀ t, Filled t → CallableRun t ops →
    (TableLaw t ops ↔ (∀ op ∈ ops, ∃ load, op = .exec load ∧ load.startUaddr ≠ 0) ∧
      t.live.card + ops.length ≤ 31) := by
  induction ops with
  | nil =>
    intro t h _
    exact iff_of_true h.numProc ⟨fun op hop => absurd hop List.not_mem_nil, live_card_le⟩
  | cons op ops ih =>
    intro t h hcall
    cases op with
    | exit pid =>
      refine iff_of_false (fun hlaw => ?_) fun hgood => ?_
      · have hnext := hlaw.2.2 _ rfl
        apply sysExit_numProc h hcall.1
        cases ops with
        | nil => exact hnext
        | cons op ops => exact hnext.1
      · obtain ⟨load, hop, _⟩ := hgood.1 _ List.mem_cons_self
        cases hop
    | exec load =>
      have hle := @live_card_le t
      by_cases hfree : t.live.card < 31
      · by_cases hload : load.startUaddr = 0
        · obtain ⟨t', hafter, hbad⟩ := sysExec_failed h hload hfree
          refine iff_of_false (fun hlaw => ?_) fun hgood => ?_
          · have hnext := hlaw.2.2 t' hafter
            apply hbad
            cases ops with
            | nil => exact hnext
            | cons op ops => exact hnext.1
          · obtain ⟨load', hop, hload'⟩ := hgood.1 _ List.mem_cons_self
            injection hop with heq
            exact hload' (heq ▸ hload)
        · obtain ⟨t', hafter, hstep, hfilled, hcard⟩ := sysExec_good h hload hfree
          have hih := ih t' hfilled (hcall.2 t' hafter)
          constructor
          · intro hlaw
            obtain ⟨hgood, hlen⟩ := hih.mp (hlaw.2.2 t' hafter)
            refine ⟨fun op hop => ?_, ?_⟩
            · cases List.mem_cons.mp hop with
              | inl he => exact ⟨load, he, hload⟩
              | inr hmem => exact hgood op hmem
            · rw [List.length_cons]
              omega
          · intro hgood
            refine ⟨h.numProc, hstep, fun t'' hafter' => ?_⟩
            have heq : t' = t'' := Option.some.inj (hafter.symm.trans hafter')
            rw [← heq]
            apply hih.mpr
            have hlen := hgood.2
            rw [List.length_cons] at hlen
            exact ⟨fun op hop => hgood.1 op (List.mem_cons_of_mem _ hop), by omega⟩
      · refine iff_of_false (fun hlaw => sysExec_full (by omega) hlaw.2.1) fun hgood => ?_
        have hlen := hgood.2
        rw [List.length_cons] at hlen
        omega

theorem Boot.filled (h : Boot t) : Filled t ∧ t.live.card = 0 := by
  have hempty : t.live = ∅ := by
    ext i
    rw [mem_live]
    simp only [Finset.notMem_empty, iff_false, not_and, not_not]
    exact fun hi => h.stopped i hi.1 hi.2
  refine ⟨⟨?_, fun i hi hi' _ => h.addressSpace i hi hi'⟩, ?_⟩
  · rw [h.numProc, hempty]
    rfl
  · rw [hempty]
    rfl

/-- **The process table over whole runs**: it is in order as long as programs are only started, at most 31 of
them, and all load. -/
theorem procTable_law_iff (t : ProcTable) (hboot : Boot t) (ops : List ProcOp) (hcall : CallableRun t ops) :
    TableLaw t ops ↔
      (∀ op ∈ ops, ∃ load, op = .exec load ∧ load.startUaddr ≠ 0) ∧ ops.length ≤ 31 := by
  obtain ⟨hfilled, hcard⟩ := hboot.filled
  rw [tableLaw_iff ops t hfilled hcall, hcard, Nat.zero_add]

end

/-! ## A slot used twice -/

/-- No process yet, the kernel task runs. -/
def bootTable : ProcTable where
  pList := fun i => ⟨0, if i = 0 then .ready else .stopped, 0⟩
  current := 0
  numProc := 0

theorem bootTable_boot : Boot bootTable := by
  refine ⟨fun i hi _ => ?_, fun _ _ _ => rfl, rfl⟩
  show (if i = 0 then ProcessState.ready else .stopped) = .stopped
  rw [if_neg (by omega)]

/-- A process starts and exits: it stays counted, and the next `sys_exec` picks its slot and never returns. -/
theorem procTable_slot_reused :
    CallableRun bootTable [.exec ⟨0x1000, 0x40000000⟩, .exit 1] ∧
      ¬ TableLaw bootTable [.exec ⟨0x1000, 0x40000000⟩, .exit 1] ∧
      ∃ t t', procStep bootTable (.exec ⟨0x1000, 0x40000000⟩) = some t ∧ procStep t (.exit 1) = some t' ∧
        t'.numProc = 1 ∧ t'.live = ∅ ∧ (sysExec t' ⟨0x2000, 0x40000000⟩).picked = some 1 ∧
        (sysExec t' ⟨0x2000, 0x40000000⟩).after.isNone = true := by
  have hstarted : ∃ t, procStep bootTable (.exec ⟨0x1000, 0x40000000⟩) = some t := ⟨_, rfl⟩
  obtain ⟨t, ht⟩ := hstarted
  have hpicked : t = (procStep bootTable (.exec ⟨0x1000, 0x40000000⟩)).get (by decide) := by
    simp [ht]
  have hcall : 1 ∈ t.live := by
    rw [hpicked]
    decide
  have hbad : ¬ (sysExit { t with current := 1 }).numProc = (sysExit { t with current := 1 }).live.card := by
    rw [hpicked]
    decide
  refine ⟨⟨trivial, fun t' ht' => ?_⟩, fun hlaw => ?_, t, _, ht, rfl, ?_⟩
  · rw [← Option.some.inj (ht.symm.trans ht')]
    exact ⟨hcall, fun _ _ => trivial⟩
  · exact hbad ((hlaw.2.2 t ht).2.2 _ rfl)
  · rw [hpicked]
    decide

/-- Two programs start and keep running. -/
theorem procTable_two_started :
    TableLaw bootTable [.exec ⟨0x1000, 0x40000000⟩, .exec ⟨0x2000, 0x40000000⟩] := by
  apply (procTable_law_iff bootTable bootTable_boot _ ?_).mpr
  · refine ⟨fun op hop => ?_, by decide⟩
    simp only [List.mem_cons, List.not_mem_nil, or_false] at hop
    rcases hop with rfl | rfl
    · exact ⟨_, rfl, by decide⟩
    · exact ⟨_, rfl, by decide⟩
  · exact ⟨trivial, fun _ _ => ⟨trivial, fun _ _ => trivial⟩⟩

end Desiros.Proc
