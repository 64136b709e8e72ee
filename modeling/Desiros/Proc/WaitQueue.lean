import Desiros.Library.Runs
import Desiros.Proc.Schedule

/-!
# Wait queues (`kwaitq.c`)

Several processes call `kwaitq_wait` and `kwaitq_wakeup` on one queue. A call runs with interrupts off up to
the point where it calls `schedule` or `reschedule`; `pc` says where a process that lost the CPU there goes on.
Entries and wake-up calls are numbered in the order in which they are made, so the entries of a queue are in
the order of waiting exactly when their numbers ascend. The fields from `calls` on record what happened and
are read by no function.
-/

namespace Desiros.Proc

open Desiros.Library

/-! ## The functions -/

def ok : Int := 0
def eperm : Int := 1
def eintr : Int := 4
def ebusy : Int := 16

structure KwaitqEntry where
  proc : Nat
  wakeupTriggered : Bool
  wakeupStatus : Int
deriving DecidableEq, Repr

/-- Where a process goes on when it gets the CPU. -/
inductive Pc where
  /-- Outside of the wait queue, with interrupts on. -/
  | idle
  /-- In `kwaitq_wait`, behind `schedule()`. -/
  | inWait (entry : Nat)
  /-- In `kwaitq_wakeup`, behind `reschedule()`, with `nb` processes still to wake up. -/
  | inWakeup (call entry nb : Nat) (wakeupStatus : Int)
  /-- In the loop of `kwaitq_wakeup`, which `continue` never leaves. -/
  | stuck
deriving DecidableEq, Repr

/-- A call of `kwaitq_wakeup`: the queue it found, and the entries whose process it made ready. -/
structure WakeupCall where
  queue : List Nat
  nbProcess : Nat
  wakeupStatus : Int
  woken : List Nat
  ended : Bool
deriving DecidableEq, Repr

structure Kernel where
  sched : Sched
  pc : Nat → Pc
  entry : Nat → KwaitqEntry
  nextEntry : Nat
  waitingList : List Nat
  calls : Nat → WakeupCall
  nextCall : Nat
  /-- The entries whose `kwaitq_wait` returned, with its result. -/
  returned : List (Nat × Int)
  unlinked : List Nat
  /-- Accesses to the entry of a `kwaitq_wait` that had returned. -/
  stale : List Nat
  /-- The processes that set themselves `PROC_BLOCKED` and were not woken up since. -/
  asleep : Nat → Bool

def Kernel.setPc (s : Kernel) (pc : Pc) : Kernel :=
  { s with pc := Function.update s.pc s.sched.current pc }

/-- `kwaitq_init_entry` and `_kwaitq_add_entry` for the entry on the stack of the current process. -/
def Kernel.addEntry (s : Kernel) : Kernel :=
  { s with
    entry := Function.update s.entry s.nextEntry ⟨s.sched.current, false, ok⟩
    nextEntry := s.nextEntry + 1
    waitingList := s.waitingList ++ [s.nextEntry] }

/-- An access to an entry. -/
def Kernel.touch (s : Kernel) (e : Nat) : Kernel :=
  if s.returned.any (·.1 == e) then { s with stale := s.stale ++ [e] } else s

/-- `_kwaitq_remove_entry`. -/
def Kernel.removeEntry (s : Kernel) (e : Nat) : Kernel :=
  let s := s.touch e
  { s with waitingList := s.waitingList.erase e, unlinked := s.unlinked ++ [e] }

/-- `kwaitq_wait` returns to its caller. -/
def Kernel.waitReturns (s : Kernel) (e : Nat) (retval : Int) : Kernel :=
  { s.setPc .idle with returned := s.returned ++ [(e, retval)] }

/-- `kwaitq_wait` behind `schedule()`. -/
def waitEnd (s : Kernel) (e : Nat) : Int × Kernel :=
  if !(s.entry e).wakeupTriggered then (-eintr, (s.removeEntry e).waitReturns e (-eintr))
  else ((s.entry e).wakeupStatus, s.waitReturns e (s.entry e).wakeupStatus)

/-- The current process sets itself `PROC_BLOCKED`. -/
def Kernel.block (s : Kernel) : Kernel :=
  { s with
    sched := s.sched.setState s.sched.current .blocked
    asleep := Function.update s.asleep s.sched.current true }

/-- The first half of `kwaitq_wait`, up to `schedule()`. -/
def Kernel.enterWait (s : Kernel) (next : Nat) : Kernel :=
  let s := s.addEntry.block.setPc (.inWait s.nextEntry)
  { s with sched := schedule s.sched next }

/-- The result, unless the process lost the CPU to `next`. -/
def kwaitqWait (s : Kernel) (next : Nat) : Option Int × Kernel :=
  let e := s.nextEntry
  let stays := s.sched.staysOnCpu
  let s := s.enterWait next
  if stays then (some (waitEnd s e).1, (waitEnd s e).2) else (none, s)

/-- `kwq_entry->proc->state = PROC_READY`. -/
def Kernel.markReady (s : Kernel) (call e : Nat) : Kernel :=
  { s with
    sched := s.sched.setState (s.entry e).proc .ready
    asleep := Function.update s.asleep (s.entry e).proc false
    calls := Function.update s.calls call
      { s.calls call with woken := (s.calls call).woken ++ [e] } }

/-- The entry is unlinked and flagged. -/
def Kernel.wakeEntry (s : Kernel) (e : Nat) (wakeupStatus : Int) : Kernel :=
  let s := (s.removeEntry e).touch e
  { s with
    entry := Function.update s.entry e
      { s.entry e with wakeupTriggered := true, wakeupStatus := wakeupStatus } }

/-- `kwaitq_wakeup` returns. -/
def Kernel.endCall (s : Kernel) (call : Nat) : Kernel :=
  { s.setPc .idle with calls := Function.update s.calls call { s.calls call with ended := true } }

/-- The loop of `kwaitq_wakeup`. -/
def wakeupLoop (call : Nat) (wakeupStatus : Int) : Nat → Kernel → Option Int × Kernel
  | 0, s => (some ok, s.endCall call)
  | nb + 1, s =>
    match s.waitingList with
    | [] => (some ok, s.endCall call)
    | e :: _ =>
      let p := (s.entry e).proc
      if s.sched.state p = .running then (none, s.setPc .stuck)
      else
        let s := s.markReady call e
        if s.sched.staysOnCpu then wakeupLoop call wakeupStatus nb (s.wakeEntry e wakeupStatus)
        else
          let s := s.setPc (.inWakeup call e nb wakeupStatus)
          (none, { s with sched := reschedule s.sched p })

def Kernel.openCall (s : Kernel) (nbProcess : Nat) (wakeupStatus : Int) : Kernel :=
  { s with
    calls := Function.update s.calls s.nextCall ⟨s.waitingList, nbProcess, wakeupStatus, [], false⟩
    nextCall := s.nextCall + 1 }

/-- The result, unless the process lost the CPU. -/
def kwaitqWakeup (s : Kernel) (nbProcess : Nat) (wakeupStatus : Int) : Option Int × Kernel :=
  wakeupLoop s.nextCall wakeupStatus nbProcess (s.openCall nbProcess wakeupStatus)

/-- The current process goes on where it lost the CPU. -/
def kwaitqResume (s : Kernel) : Option Int × Kernel :=
  match s.pc s.sched.current with
  | .idle => (none, s)
  | .inWait e => (some (waitEnd s e).1, (waitEnd s e).2)
  | .inWakeup call e nb wakeupStatus =>
    wakeupLoop call wakeupStatus nb (s.wakeEntry e wakeupStatus)
  | .stuck => (none, s)

/-! ## Any interleaving -/

/-- What the process on the CPU does next; `next` is the process `schedule` chooses. -/
inductive WaitqOp where
  /-- The clock interrupt calls `schedule`. -/
  | tick (next : Nat)
  | wait (next : Nat)
  | wakeup (nbProcess : Nat) (wakeupStatus : Int)
  /-- It goes on in the call in which it lost the CPU. -/
  | resume
deriving DecidableEq, Repr

def waitqStep (s : Kernel) : WaitqOp → Kernel
  | .tick next => { s with sched := schedule s.sched next }
  | .wait next => (kwaitqWait s next).2
  | .wakeup nbProcess wakeupStatus => (kwaitqWakeup s nbProcess wakeupStatus).2
  | .resume => (kwaitqResume s).2

/-- Calls and interrupts come outside of the wait queue, and `schedule` chooses a process that may run. -/
def WaitqAllowed (s : Kernel) : WaitqOp → Prop
  | .tick next | .wait next => s.pc s.sched.current = .idle ∧ Selectable s.sched next
  | .wakeup _ _ => s.pc s.sched.current = .idle
  | .resume => s.pc s.sched.current ≠ .idle

instance (s : Kernel) : DecidablePred (WaitqAllowed s)
  | .tick next | .wait next =>
    inferInstanceAs (Decidable (s.pc s.sched.current = .idle ∧ Selectable s.sched next))
  | .wakeup _ _ => inferInstanceAs (Decidable (s.pc s.sched.current = .idle))
  | .resume => inferInstanceAs (Decidable (s.pc s.sched.current ≠ .idle))

/-- Nobody is in the queue, and only the process on the CPU is `PROC_RUNNING`. -/
structure WaitqStart (s : Kernel) : Prop where
  onlyCurrent : OnlyCurrentRuns s.sched
  pc : ∀ p, s.pc p = .idle
  waitingList : s.waitingList = []
  nextCall : s.nextCall = 0
  returned : s.returned = []
  unlinked : s.unlinked = []
  stale : s.stale = []
  asleep : ∀ p, s.asleep p = false

/-- The wait of entry `e` returns `retval` as soon as its process gets the CPU, which it can. -/
structure Kernel.WillReturn (s : Kernel) (e : Nat) (retval : Int) : Prop where
  pc : s.pc (s.entry e).proc = .inWait e
  result : (waitEnd s e).1 = retval
  runs : s.sched.state (s.entry e).proc = .ready ∨ s.sched.current = (s.entry e).proc

/-- What a wait queue promises. -/
structure WaitqLaw (s : Kernel) : Prop where
  /-- The queue of a call is in the order of waiting. -/
  longest : ∀ c < s.nextCall, (s.calls c).queue.Pairwise (· < ·)
  /-- A call wakes up the first `min(n, k)` entries of the `k` it found. -/
  woken : ∀ c < s.nextCall, (s.calls c).ended = true →
    (s.calls c).woken = (s.calls c).queue.take (s.calls c).nbProcess
  /-- Their waits return with its status and no other. -/
  result : ∀ c < s.nextCall, ∀ e ∈ (s.calls c).woken, ∀ r, (e, r) ∈ s.returned → r = (s.calls c).wakeupStatus
  returns : ∀ c < s.nextCall, (s.calls c).ended = true → ∀ e ∈ (s.calls c).woken,
    (e, (s.calls c).wakeupStatus) ∈ s.returned ∨ s.WillReturn e (s.calls c).wakeupStatus
  returned_once : (s.returned.map Prod.fst).Nodup
  unlinked_once : s.unlinked.Nodup
  returned_unlinked : ∀ r ∈ s.returned, r.1 ∈ s.unlinked
  noStale : s.stale = []

/-! ## What the functions leave alone -/

section

variable {s : Kernel} {e : Nat} {st : Int}

theorem touch_of_not_returned (h : ∀ v, (e, v) ∉ s.returned) : s.touch e = s := by
  unfold Kernel.touch
  rw [if_neg]
  intro hany
  obtain ⟨⟨f, v⟩, hmem, heq⟩ := List.any_eq_true.mp hany
  rw [beq_iff_eq] at heq
  exact h v (heq ▸ hmem)

theorem removeEntry_of_not_returned (h : ∀ v, (e, v) ∉ s.returned) : s.removeEntry e =
    { s with waitingList := s.waitingList.erase e, unlinked := s.unlinked ++ [e] } := by
  unfold Kernel.removeEntry
  rw [touch_of_not_returned h]

theorem wakeEntry_of_not_returned (h : ∀ v, (e, v) ∉ s.returned) : s.wakeEntry e st =
    { s with
      waitingList := s.waitingList.erase e
      unlinked := s.unlinked ++ [e]
      entry := Function.update s.entry e
        { s.entry e with wakeupTriggered := true, wakeupStatus := st } } := by
  have htouch : (s.removeEntry e).touch e = s.removeEntry e := by
    apply touch_of_not_returned
    rw [removeEntry_of_not_returned h]
    exact h
  unfold Kernel.wakeEntry
  rw [htouch, removeEntry_of_not_returned h]

theorem waitEnd_result : (waitEnd s e).1 =
    if (s.entry e).wakeupTriggered then (s.entry e).wakeupStatus else -eintr := by
  unfold waitEnd
  cases (s.entry e).wakeupTriggered <;> rfl

theorem waitEnd_result_congr {s' : Kernel} (h : s'.entry e = s.entry e) : (waitEnd s' e).1 = (waitEnd s e).1 := by
  rw [waitEnd_result, waitEnd_result, h]

end

/-! ## The invariant -/

/-- What a call of `kwaitq_wakeup` did so far is in order. -/
structure CallOk (s : Kernel) (c : Nat) : Prop where
  longest : (s.calls c).queue.Pairwise (· < ·)
  woken : (s.calls c).ended = true → (s.calls c).woken = (s.calls c).queue.take (s.calls c).nbProcess
  unlinked : ∀ e ∈ (s.calls c).woken, e ∈ s.unlinked
  result : ∀ e ∈ (s.calls c).woken,
    (e, (s.calls c).wakeupStatus) ∈ s.returned ∨ s.WillReturn e (s.calls c).wakeupStatus

structure WaitqInv (s : Kernel) : Prop where
  onlyCurrent : OnlyCurrentRuns s.sched
  pcs : ∀ p, s.pc p = .idle ∨ ∃ e, s.pc p = .inWait e
  inWait : ∀ p e, s.pc p = .inWait e → e < s.nextEntry ∧ (s.entry e).proc = p ∧ (∀ v, (e, v) ∉ s.returned) ∧
    (e ∈ s.waitingList ∧ (s.entry e).wakeupTriggered = false ∨
      e ∈ s.unlinked ∧ (s.entry e).wakeupTriggered = true)
  sorted : s.waitingList.Pairwise (· < ·)
  waiting : ∀ e ∈ s.waitingList, s.pc (s.entry e).proc = .inWait e ∧ e ∉ s.unlinked
  unlinked_nodup : s.unlinked.Nodup
  unlinked_lt : ∀ e ∈ s.unlinked, e < s.nextEntry
  returned_nodup : (s.returned.map Prod.fst).Nodup
  returned_unlinked : ∀ r ∈ s.returned, r.1 ∈ s.unlinked
  stale : s.stale = []
  calls : ∀ c < s.nextCall, CallOk s c

section

variable {s s' : Kernel} {e c : Nat}

theorem WaitqInv.law (h : WaitqInv s) : WaitqLaw s := by
  refine ⟨fun c hc => (h.calls c hc).longest, fun c hc => (h.calls c hc).woken, fun c hc e he r hr => ?_,
    fun c hc _ => (h.calls c hc).result, h.returned_nodup, h.unlinked_nodup, h.returned_unlinked, h.stale⟩
  cases (h.calls c hc).result e he with
  | inl hst => exact congrArg Prod.snd (List.inj_on_of_nodup_map h.returned_nodup hr hst rfl)
  | inr hw => exact absurd hr ((h.inWait _ e hw.pc).2.2.1 r)

theorem WaitqStart.inv (h : WaitqStart s) : WaitqInv s := by
  refine ⟨h.onlyCurrent, fun p => Or.inl (h.pc p), fun p e hp => ?_, ?_, fun e he => ?_, ?_, fun e he => ?_, ?_,
    fun r hr => ?_, h.stale, fun c hc => ?_⟩
  · rw [h.pc p] at hp
    cases hp
  · rw [h.waitingList]
    exact List.Pairwise.nil
  · rw [h.waitingList] at he
    exact absurd he List.not_mem_nil
  · rw [h.unlinked]
    exact List.nodup_nil
  · rw [h.unlinked] at he
    exact absurd he List.not_mem_nil
  · rw [h.returned]
    exact List.nodup_nil
  · rw [h.returned] at hr
    exact absurd hr List.not_mem_nil
  · rw [h.nextCall] at hc
    exact absurd hc (Nat.not_lt_zero c)

theorem WaitqInv.waiting_lt (h : WaitqInv s) (he : e ∈ s.waitingList) : e < s.nextEntry :=
  (h.inWait _ e (h.waiting e he).1).1

/-- Records of earlier calls stay in order if every wait they woke up stays so. -/
theorem CallOk.mono (h : CallOk s c) (hcall : s'.calls c = s.calls c)
    (hunlinked : ∀ e ∈ s.unlinked, e ∈ s'.unlinked) (hreturned : ∀ r ∈ s.returned, r ∈ s'.returned)
    (hwill : ∀ e ∈ s.unlinked, ∀ r, s.WillReturn e r → (e, r) ∈ s'.returned ∨ s'.WillReturn e r) :
    CallOk s' c := by
  constructor
  · rw [hcall]
    exact h.longest
  · rw [hcall]
    exact h.woken
  · rw [hcall]
    exact fun e he => hunlinked e (h.unlinked e he)
  · rw [hcall]
    intro e he
    cases h.result e he with
    | inl hmem => exact Or.inl (hreturned _ hmem)
    | inr hw => exact hwill e (h.unlinked e he) _ hw

/-! ## Each step keeps it -/

/-- A process in `kwaitq_wait` is woken up by the scheduler or stays ready. -/
theorem Kernel.WillReturn.schedule {r : Int} {next : Nat} {sched : Sched} (h : s.WillReturn e r)
    (hidle : s.pc s.sched.current = .idle) (hcur : sched.current = s.sched.current)
    (hstate : ∀ p, p ≠ s.sched.current → sched.state p = s.sched.state p) :
    (schedule sched next).state (s.entry e).proc = .ready ∨
      (schedule sched next).current = (s.entry e).proc := by
  have hne : (s.entry e).proc ≠ s.sched.current := by
    intro he
    have hpc := h.pc
    rw [he, hidle] at hpc
    cases hpc
  have hready : s.sched.state (s.entry e).proc = .ready := h.runs.resolve_right fun he => hne he.symm
  have hsched := @schedule_state_of_ne sched (s.entry e).proc next (by rw [hcur]; exact hne)
  rw [hstate _ hne, hready] at hsched
  exact hsched

theorem WaitqInv.tick (h : WaitqInv s) (hidle : s.pc s.sched.current = .idle) (next : Nat) :
    WaitqInv { s with sched := schedule s.sched next } := by
  refine ⟨h.onlyCurrent.schedule next, h.pcs, h.inWait, h.sorted, h.waiting, h.unlinked_nodup, h.unlinked_lt,
    h.returned_nodup, h.returned_unlinked, h.stale, fun c hc => ?_⟩
  refine (h.calls c hc).mono rfl (fun e he => he) (fun r hr => hr) fun e _ r hw => Or.inr ?_
  have hsched := @Kernel.WillReturn.schedule s e r next s.sched hw hidle rfl fun _ _ => rfl
  exact ⟨hw.pc, (@waitEnd_result_congr s e { s with sched := schedule s.sched next } rfl).trans hw.result, hsched⟩

theorem WaitqInv.enterWait (h : WaitqInv s) (hidle : s.pc s.sched.current = .idle) (next : Nat) :
    WaitqInv (s.enterWait next) := by
  have hpc : ∀ p, p ≠ s.sched.current → (s.enterWait next).pc p = s.pc p :=
    fun p hp => Function.update_of_ne hp ..
  have hpc_self : (s.enterWait next).pc s.sched.current = .inWait s.nextEntry := Function.update_self ..
  have hentry : ∀ f, f < s.nextEntry → (s.enterWait next).entry f = s.entry f :=
    fun f hf => Function.update_of_ne (Nat.ne_of_lt hf) ..
  have hentry_self : (s.enterWait next).entry s.nextEntry = ⟨s.sched.current, false, ok⟩ :=
    Function.update_self ..
  have hne : ∀ p f, s.pc p = .inWait f → p ≠ s.sched.current := by
    intro p f hp he
    rw [he, hidle] at hp
    cases hp
  have hfresh : ∀ v, (s.nextEntry, v) ∉ s.returned := by
    intro v hv
    exact Nat.lt_irrefl _ (h.unlinked_lt _ (h.returned_unlinked _ hv))
  refine ⟨?_, fun p => ?_, fun p f hp => ?_, ?_, fun f hf => ?_, h.unlinked_nodup,
    fun f hf => Nat.lt_succ_of_lt (h.unlinked_lt f hf), h.returned_nodup, h.returned_unlinked, h.stale,
    fun c hc => ?_⟩
  · have hblocked : OnlyCurrentRuns (s.sched.setState s.sched.current .blocked) :=
      h.onlyCurrent.setState (by decide)
    exact hblocked.schedule next
  · by_cases hpc' : p = s.sched.current
    · rw [hpc', hpc_self]
      exact Or.inr ⟨_, rfl⟩
    · rw [hpc p hpc']
      exact h.pcs p
  · by_cases hpcur : p = s.sched.current
    · rw [hpcur, hpc_self] at hp
      injection hp with hf
      subst hf
      rw [hentry_self]
      exact ⟨Nat.lt_succ_self _, hpcur.symm, hfresh,
        Or.inl ⟨List.mem_append_right _ List.mem_cons_self, rfl⟩⟩
    · rw [hpc p hpcur] at hp
      obtain ⟨hlt, hproc, hret, hstate⟩ := h.inWait p f hp
      rw [hentry f hlt]
      exact ⟨Nat.lt_succ_of_lt hlt, hproc, hret,
        hstate.imp_left fun hq => ⟨List.mem_append_left _ hq.1, hq.2⟩⟩
  · show (s.waitingList ++ [s.nextEntry]).Pairwise (· < ·)
    rw [List.pairwise_append]
    refine ⟨h.sorted, List.pairwise_singleton _ _, fun a ha b hb => ?_⟩
    rw [List.mem_singleton.mp hb]
    exact h.waiting_lt ha
  · cases List.mem_append.mp hf with
    | inl hmem =>
      have hw := h.waiting f hmem
      rw [hentry f (h.waiting_lt hmem), hpc _ (hne _ _ hw.1)]
      exact hw
    | inr hnew =>
      rw [List.mem_singleton.mp hnew, hentry_self]
      exact ⟨hpc_self, fun hu => Nat.lt_irrefl _ (h.unlinked_lt _ hu)⟩
  · refine (h.calls c hc).mono rfl (fun f hf => hf) (fun r hr => hr) fun f _ r hw => Or.inr ?_
    have hf := (h.inWait _ f hw.pc).1
    have hsched := @Kernel.WillReturn.schedule s f r next _ hw hidle (@setState_current s.sched s.sched.current .blocked)
      fun p hp => setState_of_ne hp
    refine ⟨?_, ?_, ?_⟩
    · rw [hentry f hf, hpc _ (hne _ _ hw.pc)]
      exact hw.pc
    · exact (waitEnd_result_congr (hentry f hf)).trans hw.result
    · rw [hentry f hf]
      exact hsched

/-- Other waits go on as they would when one process leaves its wait. -/
theorem Kernel.WillReturn.waitReturns {f : Nat} {r v : Int} (h : s.WillReturn f v)
    (hpc : s.pc s.sched.current = .inWait e) (hentry : s'.entry = s.entry) (hsched : s'.sched = s.sched)
    (hpc' : s'.pc = Function.update s.pc s.sched.current .idle)
    (hret : s'.returned = s.returned ++ [(e, r)]) (hr : (waitEnd s e).1 = r) :
    (f, v) ∈ s'.returned ∨ s'.WillReturn f v := by
  by_cases hfe : f = e
  · left
    rw [hret, hfe, ← h.result, hfe, hr]
    exact List.mem_append_right _ List.mem_cons_self
  · right
    have hne : (s.entry f).proc ≠ s.sched.current := by
      intro he
      have hf := h.pc
      rw [he, hpc] at hf
      injection hf with heq
      exact hfe heq.symm
    refine ⟨?_, (waitEnd_result_congr (congrFun hentry f)).trans h.result, ?_⟩
    · rw [hentry, hpc', Function.update_of_ne hne]
      exact h.pc
    · rw [hentry, hsched]
      exact h.runs

theorem WaitqInv.waitEnd (h : WaitqInv s) (hpc : s.pc s.sched.current = .inWait e) :
    WaitqInv (waitEnd s e).2 := by
  obtain ⟨hlt, hproc, hret, hstate⟩ := h.inWait _ e hpc
  have hpc_of_ne : ∀ p, p ≠ s.sched.current → Function.update s.pc s.sched.current .idle p = s.pc p :=
    fun p hp => Function.update_of_ne hp ..
  have hidle : Function.update s.pc s.sched.current .idle s.sched.current = Pc.idle :=
    Function.update_self ..
  have hpcs : ∀ p, Function.update s.pc s.sched.current .idle p = .idle ∨
      ∃ f, Function.update s.pc s.sched.current .idle p = .inWait f := by
    intro p
    by_cases hp : p = s.sched.current
    · rw [hp]
      exact Or.inl hidle
    · rw [hpc_of_ne p hp]
      exact h.pcs p
  have hother : ∀ p f, Function.update s.pc s.sched.current .idle p = .inWait f →
      s.pc p = .inWait f ∧ f ≠ e := by
    intro p f hp
    by_cases hcur : p = s.sched.current
    · rw [hcur, hidle] at hp
      cases hp
    · rw [hpc_of_ne p hcur] at hp
      refine ⟨hp, fun hfe => hcur ?_⟩
      rw [← (h.inWait p f hp).2.1, hfe, hproc]
  have hreturned : ∀ r : Int, ((s.returned ++ [(e, r)]).map Prod.fst).Nodup := by
    intro r
    rw [List.map_append, List.map_singleton, List.nodup_append]
    refine ⟨h.returned_nodup, List.nodup_singleton _, fun a ha b hb => ?_⟩
    rw [List.mem_singleton.mp hb]
    intro hae
    obtain ⟨⟨g, v⟩, hmem, hg⟩ := List.mem_map.mp ha
    exact hret v ((show g = e from hg.trans hae) ▸ hmem)
  have hnot : ∀ f v r, f ≠ e → (∀ v, (f, v) ∉ s.returned) → (f, v) ∉ s.returned ++ [(e, r)] := by
    intro f v r hfe hf hmem
    cases List.mem_append.mp hmem with
    | inl hin => exact hf v hin
    | inr hin => exact hfe (Prod.mk.inj (List.mem_singleton.mp hin)).1
  rcases hstate with ⟨hqueue, htriggered⟩ | ⟨hunlinked, htriggered⟩
  · -- Not woken up: it unlinks its own entry.
    have heq : (Proc.waitEnd s e).2 = ({ s with
        waitingList := s.waitingList.erase e
        unlinked := s.unlinked ++ [e] } : Kernel).waitReturns e (-eintr) := by
      unfold Proc.waitEnd
      rw [htriggered, removeEntry_of_not_returned hret]
      rfl
    have hresult : (Proc.waitEnd s e).1 = -eintr := by
      rw [waitEnd_result, htriggered]
      rfl
    have hnodup : s.waitingList.Nodup := h.sorted.imp Nat.ne_of_lt
    rw [heq]
    refine ⟨h.onlyCurrent, hpcs, fun p f hp => ?_, h.sorted.sublist List.erase_sublist, fun f hf => ?_, ?_,
      fun f hf => ?_, hreturned _, fun r hr => ?_, h.stale, fun c hc => ?_⟩
    · obtain ⟨hp', hfe⟩ := hother p f hp
      obtain ⟨hlt', hproc', hret', hstate'⟩ := h.inWait p f hp'
      refine ⟨hlt', hproc', fun v => hnot f v _ hfe hret', ?_⟩
      exact hstate'.imp (fun hq => ⟨(List.mem_erase_of_ne hfe).mpr hq.1, hq.2⟩)
        fun hu => ⟨List.mem_append_left _ hu.1, hu.2⟩
    · replace hf := hnodup.mem_erase_iff.mp hf
      have hw := h.waiting f hf.2
      have hne : (s.entry f).proc ≠ s.sched.current := by
        intro he
        rw [he, hpc] at hw
        injection hw.1 with hef
        exact hf.1 hef.symm
      refine ⟨(hpc_of_ne _ hne).trans hw.1, fun hu => ?_⟩
      cases List.mem_append.mp hu with
      | inl hin => exact hw.2 hin
      | inr hin => exact hf.1 (List.mem_singleton.mp hin)
    · show (s.unlinked ++ [e]).Nodup
      rw [List.nodup_append]
      refine ⟨h.unlinked_nodup, List.nodup_singleton _, fun a ha b hb => ?_⟩
      rw [List.mem_singleton.mp hb]
      exact fun hae => (h.waiting e hqueue).2 (hae ▸ ha)
    · cases List.mem_append.mp hf with
      | inl hin => exact h.unlinked_lt f hin
      | inr hin => rw [List.mem_singleton.mp hin]; exact hlt
    · cases List.mem_append.mp hr with
      | inl hin => exact List.mem_append_left _ (h.returned_unlinked r hin)
      | inr hin => rw [List.mem_singleton.mp hin]; exact List.mem_append_right _ List.mem_cons_self
    · exact (h.calls c hc).mono rfl (fun f hf => List.mem_append_left _ hf)
        (fun r hr => List.mem_append_left _ hr) fun f _ v hw => hw.waitReturns hpc rfl rfl rfl rfl hresult
  · -- Woken up: its entry was unlinked before.
    have heq : (Proc.waitEnd s e).2 = s.waitReturns e (s.entry e).wakeupStatus := by
      unfold Proc.waitEnd
      rw [htriggered]
      rfl
    have hresult : (Proc.waitEnd s e).1 = (s.entry e).wakeupStatus := by
      rw [waitEnd_result, htriggered]
      rfl
    rw [heq]
    refine ⟨h.onlyCurrent, hpcs, fun p f hp => ?_, h.sorted, fun f hf => ?_, h.unlinked_nodup, h.unlinked_lt,
      hreturned _, fun r hr => ?_, h.stale, fun c hc => ?_⟩
    · obtain ⟨hp', hfe⟩ := hother p f hp
      obtain ⟨hlt', hproc', hret', hstate'⟩ := h.inWait p f hp'
      exact ⟨hlt', hproc', fun v => hnot f v _ hfe hret', hstate'⟩
    · have hw := h.waiting f hf
      have hne : (s.entry f).proc ≠ s.sched.current := by
        intro he
        rw [he, hpc] at hw
        injection hw.1 with hef
        exact hw.2 (hef ▸ hunlinked)
      exact ⟨(hpc_of_ne _ hne).trans hw.1, hw.2⟩
    · cases List.mem_append.mp hr with
      | inl hin => exact h.returned_unlinked r hin
      | inr hin => rw [List.mem_singleton.mp hin]; exact hunlinked
    · exact (h.calls c hc).mono rfl (fun f hf => hf)
        (fun r hr => List.mem_append_left _ hr) fun f _ v hw => hw.waitReturns hpc rfl rfl rfl rfl hresult

/-- One round of the loop of a call that is not interrupted. -/
theorem WaitqInv.wakeEntry (h : WaitqInv s) (hidle : s.pc s.sched.current = .idle) {rest : List Nat}
    (hqueue : s.waitingList = e :: rest) (hended : (s.calls c).ended = false) :
    WaitqInv ((s.markReady c e).wakeEntry e (s.calls c).wakeupStatus) ∧
      ((s.markReady c e).wakeEntry e (s.calls c).wakeupStatus).waitingList = rest ∧
      ((s.markReady c e).wakeEntry e (s.calls c).wakeupStatus).calls c =
        { s.calls c with woken := (s.calls c).woken ++ [e] } := by
  have hmem : e ∈ s.waitingList := hqueue ▸ List.mem_cons_self
  obtain ⟨hpc, hnot_unlinked⟩ := h.waiting e hmem
  obtain ⟨hlt, -, hret, -⟩ := h.inWait _ e hpc
  have hne : (s.entry e).proc ≠ s.sched.current := by
    intro he
    rw [he, hidle] at hpc
    cases hpc
  have hnodup : s.waitingList.Nodup := h.sorted.imp Nat.ne_of_lt
  have herase : s.waitingList.erase e = rest := by
    rw [hqueue, List.erase_cons_head]
  have heq : (s.markReady c e).wakeEntry e (s.calls c).wakeupStatus =
      { s.markReady c e with
        waitingList := rest
        unlinked := s.unlinked ++ [e]
        entry := Function.update s.entry e
          { s.entry e with wakeupTriggered := true, wakeupStatus := (s.calls c).wakeupStatus } } := by
    rw [@wakeEntry_of_not_returned (s.markReady c e) _ _ hret, ← herase]
    rfl
  generalize (s.markReady c e).wakeEntry e (s.calls c).wakeupStatus = s' at heq ⊢
  have hpc' : s'.pc = s.pc := by rw [heq]; rfl
  have hentry' : ∀ f, f ≠ e → s'.entry f = s.entry f := fun f hf => by
    rw [heq]
    exact Function.update_of_ne hf ..
  have hentry_self : s'.entry e =
      { s.entry e with wakeupTriggered := true, wakeupStatus := (s.calls c).wakeupStatus } := by
    rw [heq]
    exact Function.update_self ..
  have hcall : s'.calls c = { s.calls c with woken := (s.calls c).woken ++ [e] } := by
    rw [heq]
    exact Function.update_self ..
  have hcall' : ∀ d, d ≠ c → s'.calls d = s.calls d := fun d hd => by
    rw [heq]
    exact Function.update_of_ne hd ..
  have hsched : s'.sched = s.sched.setState (s.entry e).proc .ready := by rw [heq]; rfl
  have hrest : s'.waitingList = rest := by rw [heq]
  have hunlinked : s'.unlinked = s.unlinked ++ [e] := by rw [heq]
  have hreturned : s'.returned = s.returned := by rw [heq]; rfl
  have hnext : s'.nextEntry = s.nextEntry := by rw [heq]; rfl
  have hnextCall : s'.nextCall = s.nextCall := by rw [heq]; rfl
  have hstale : s'.stale = s.stale := by rw [heq]; rfl
  have hold : ∀ f ∈ s.unlinked, f ∈ s'.unlinked := fun f hf => by
    rw [hunlinked]
    exact List.mem_append_left _ hf
  have hwill : ∀ f ∈ s.unlinked, ∀ r, s.WillReturn f r → s'.WillReturn f r := by
    intro f hf r hw
    have hfe := hentry' f fun he => hnot_unlinked (he ▸ hf)
    refine ⟨?_, (waitEnd_result_congr hfe).trans hw.result, ?_⟩
    · rw [hfe, hpc']
      exact hw.pc
    · rw [hfe, hsched, setState_current]
      by_cases hp : (s.entry f).proc = (s.entry e).proc
      · rw [hp, setState_self]
        exact Or.inl rfl
      · rw [setState_of_ne hp]
        exact hw.runs
  refine ⟨⟨?_, fun p => ?_, fun p f hp => ?_, ?_, fun f hf => ?_, ?_, fun f hf => ?_, ?_, fun r hr => ?_, ?_,
    fun d hd => ?_⟩, hrest, hcall⟩
  · rw [hsched]
    exact h.onlyCurrent.setState (by decide)
  · rw [hpc']
    exact h.pcs p
  · rw [hpc'] at hp
    rw [hnext, hrest, hunlinked, hreturned]
    obtain ⟨hlt', hproc', hret', hstate'⟩ := h.inWait p f hp
    by_cases hfe : f = e
    · rw [hfe] at hproc' hret' hlt' ⊢
      rw [hentry_self]
      exact ⟨hlt', hproc', hret', Or.inr ⟨List.mem_append_right _ List.mem_cons_self, rfl⟩⟩
    · rw [hentry' f hfe]
      refine ⟨hlt', hproc', hret', hstate'.imp (fun hq => ⟨?_, hq.2⟩)
        fun hu => ⟨List.mem_append_left _ hu.1, hu.2⟩⟩
      rw [← herase]
      exact (List.mem_erase_of_ne hfe).mpr hq.1
  · rw [hrest]
    exact (List.pairwise_cons.mp (hqueue ▸ h.sorted)).2
  · rw [hrest, ← herase] at hf
    obtain ⟨hfe, hf⟩ := hnodup.mem_erase_iff.mp hf
    rw [hentry' f hfe, hpc', hunlinked]
    refine ⟨(h.waiting f hf).1, fun hu => ?_⟩
    cases List.mem_append.mp hu with
    | inl hin => exact (h.waiting f hf).2 hin
    | inr hin => exact hfe (List.mem_singleton.mp hin)
  · rw [hunlinked, List.nodup_append]
    refine ⟨h.unlinked_nodup, List.nodup_singleton _, fun a ha b hb => ?_⟩
    rw [List.mem_singleton.mp hb]
    exact fun hae => hnot_unlinked (hae ▸ ha)
  · rw [hunlinked] at hf
    rw [hnext]
    cases List.mem_append.mp hf with
    | inl hin => exact h.unlinked_lt f hin
    | inr hin => rw [List.mem_singleton.mp hin]; exact hlt
  · rw [hreturned]
    exact h.returned_nodup
  · rw [hreturned] at hr
    exact hold _ (h.returned_unlinked r hr)
  · rw [hstale]
    exact h.stale
  · rw [hnextCall] at hd
    have hd' := h.calls d hd
    by_cases hdc : d = c
    · subst hdc
      constructor
      · rw [hcall]
        exact hd'.longest
      · rw [hcall]
        intro hend
        rw [hended] at hend
        cases hend
      · rw [hcall, hunlinked]
        intro f hf
        cases List.mem_append.mp hf with
        | inl hin => exact List.mem_append_left _ (hd'.unlinked f hin)
        | inr hin => exact List.mem_append_right _ hin
      · rw [hcall, hreturned]
        intro f hf
        cases List.mem_append.mp hf with
        | inl hin => exact (hd'.result f hin).imp_right (hwill f (hd'.unlinked f hin) _)
        | inr hin =>
          rw [List.mem_singleton.mp hin]
          refine Or.inr ⟨?_, ?_, ?_⟩
          · rw [hentry_self, hpc']
            exact hpc
          · rw [waitEnd_result, hentry_self]
            rfl
          · rw [hentry_self, hsched]
            exact Or.inl setState_self
    · exact hd'.mono (hcall' d hdc) hold (fun r hr => hreturned ▸ hr) fun f hf r hw =>
        Or.inr (hwill f hf r hw)

/-- The end of a call: it woke up all the processes it was to wake up, or all there were. -/
theorem WaitqInv.endCall (h : WaitqInv s) (hidle : s.pc s.sched.current = .idle)
    (hwoken : (s.calls c).woken = (s.calls c).queue.take (s.calls c).nbProcess) :
    WaitqInv (s.endCall c) := by
  have hpc : (s.endCall c).pc = s.pc := by
    show Function.update s.pc s.sched.current .idle = s.pc
    rw [← hidle, Function.update_eq_self]
  refine ⟨h.onlyCurrent, hpc ▸ h.pcs, hpc ▸ h.inWait, h.sorted, hpc ▸ h.waiting, h.unlinked_nodup, h.unlinked_lt,
    h.returned_nodup, h.returned_unlinked, h.stale, fun d hd => ?_⟩
  have hwill : ∀ f r, s.WillReturn f r → (s.endCall c).WillReturn f r :=
    fun f r hw => ⟨hpc ▸ hw.pc, (@waitEnd_result_congr s f (s.endCall c) rfl).trans hw.result, hw.runs⟩
  by_cases hdc : d = c
  · subst hdc
    have hcall : (s.endCall d).calls d = { s.calls d with ended := true } := Function.update_self ..
    have hd' := h.calls d hd
    constructor
    · rw [hcall]
      exact hd'.longest
    · rw [hcall]
      exact fun _ => hwoken
    · rw [hcall]
      exact hd'.unlinked
    · rw [hcall]
      exact fun f hf => (hd'.result f hf).imp_right (hwill f _)
  · exact (h.calls d hd).mono (Function.update_of_ne hdc ..) (fun f hf => hf) (fun r hr => hr)
      fun f _ r hw => Or.inr (hwill f r hw)

/-- The loop of a call that is not interrupted, with the entries woken up so far in front of the queue. -/
theorem WaitqInv.wakeupLoop (nb : Nat) : ∀ s, WaitqInv s → s.pc s.sched.current = .idle →
    (s.calls c).ended = false → (s.calls c).queue = (s.calls c).woken ++ s.waitingList →
    (s.calls c).woken.length + nb = (s.calls c).nbProcess →
    nb = 0 ∨ s.waitingList = [] ∨ s.sched.staysOnCpu = true →
    WaitqInv (wakeupLoop c (s.calls c).wakeupStatus nb s).2 := by
  induction nb with
  | zero =>
    intro s h hidle _ hqueue hlen _
    apply h.endCall hidle
    rw [hqueue, ← hlen, Nat.add_zero, List.take_left]
  | succ nb ih =>
    intro s h hidle hended hqueue hlen hstays
    unfold Proc.wakeupLoop
    cases hlist : s.waitingList with
    | nil =>
      apply h.endCall hidle
      rw [hqueue, hlist, List.append_nil, List.take_of_length_le (by omega)]
    | cons e rest =>
      have hstay : s.sched.staysOnCpu = true := by
        rcases hstays with h0 | hnil | hstay
        · omega
        · rw [hlist] at hnil
          cases hnil
        · exact hstay
      have hne : (s.entry e).proc ≠ s.sched.current := by
        intro he
        have hpc := (h.waiting e (hlist ▸ List.mem_cons_self)).1
        rw [he, hidle] at hpc
        cases hpc
      have hstay' : (s.markReady c e).sched.staysOnCpu = true := hstay
      obtain ⟨hinv, hrest, hcall⟩ := h.wakeEntry hidle hlist hended
      dsimp only
      rw [if_neg (h.onlyCurrent _ hne), if_pos hstay']
      have hstatus : (s.calls c).wakeupStatus =
          (((s.markReady c e).wakeEntry e (s.calls c).wakeupStatus).calls c).wakeupStatus := by
        rw [hcall]
      have hret := (h.inWait _ e (h.waiting e (hlist ▸ List.mem_cons_self)).1).2.2.1
      have heq := @wakeEntry_of_not_returned (s.markReady c e) e (s.calls c).wakeupStatus hret
      generalize (s.markReady c e).wakeEntry e (s.calls c).wakeupStatus = s' at *
      rw [hstatus]
      have hsched : s'.sched = s.sched.setState (s.entry e).proc .ready := by rw [heq]; rfl
      have hpc : s'.pc = s.pc := by rw [heq]; rfl
      apply ih s' hinv
      · rw [hpc, hsched, setState_current]
        exact hidle
      · rw [hcall]
        exact hended
      · rw [hcall, hrest, List.append_assoc, List.singleton_append, ← hlist]
        exact hqueue
      · rw [hcall, List.length_append, List.length_singleton]
        show (s.calls c).woken.length + 1 + nb = (s.calls c).nbProcess
        omega
      · rw [hsched, setState_staysOnCpu]
        exact Or.inr (Or.inr hstay)

/-- A new call finds the queue as it is. -/
theorem WaitqInv.kwaitqWakeup (h : WaitqInv s) (hidle : s.pc s.sched.current = .idle) {nb : Nat} {st : Int}
    (hstays : nb = 0 ∨ s.waitingList = [] ∨ s.sched.staysOnCpu = true) :
    WaitqInv (kwaitqWakeup s nb st).2 := by
  have hcall : (s.openCall nb st).calls s.nextCall = ⟨s.waitingList, nb, st, [], false⟩ :=
    Function.update_self ..
  have hinv : WaitqInv (s.openCall nb st) := by
    refine ⟨h.onlyCurrent, h.pcs, h.inWait, h.sorted, h.waiting, h.unlinked_nodup, h.unlinked_lt,
      h.returned_nodup, h.returned_unlinked, h.stale, fun c hc => ?_⟩
    by_cases hcn : c = s.nextCall
    · subst hcn
      constructor
      · rw [hcall]
        exact h.sorted
      · rw [hcall]
        intro hended
        cases hended
      · rw [hcall]
        exact fun e he => absurd he List.not_mem_nil
      · rw [hcall]
        exact fun e he => absurd he List.not_mem_nil
    · have hc' : c < s.nextCall := Nat.lt_of_le_of_ne (Nat.le_of_lt_succ hc) hcn
      exact (h.calls c hc').mono (Function.update_of_ne hcn ..) (fun f hf => hf) (fun r hr => hr)
        fun f _ r hw => Or.inr ⟨hw.pc, (@waitEnd_result_congr s f (s.openCall nb st) rfl).trans hw.result, hw.runs⟩
  have hloop := @WaitqInv.wakeupLoop s.nextCall nb (s.openCall nb st) hinv hidle
  rw [hcall] at hloop
  exact hloop rfl (List.nil_append _).symm (Nat.zero_add _) hstays

/-! ## Every interleaving -/

/-- A call that has somebody to wake up comes when `reschedule` returns at once. -/
def WakeupUnswitched (s : Kernel) : WaitqOp → Prop
  | .wakeup nbProcess _ => nbProcess = 0 ∨ s.waitingList = [] ∨ s.sched.staysOnCpu = true
  | _ => True

theorem schedule_current_of_stays {s : Sched} (h : s.staysOnCpu = true) (next : Nat) :
    (schedule s next).current = s.current := by
  have h' : (s.setState s.current .ready).staysOnCpu = true := h
  unfold schedule
  dsimp only
  rw [if_pos h', setState_current]

theorem WaitqInv.step (h : WaitqInv s) {op : WaitqOp} (hallowed : WaitqAllowed s op)
    (hwakeup : WakeupUnswitched s op) : WaitqInv (waitqStep s op) := by
  cases op with
  | tick next => exact h.tick hallowed.1 next
  | wait next =>
    have henter := h.enterWait hallowed.1 next
    show WaitqInv (kwaitqWait s next).2
    unfold kwaitqWait
    dsimp only
    split_ifs with hstays
    · -- Nobody else may run: the wait ends at once.
      have hstays' : (s.sched.setState s.sched.current .blocked).staysOnCpu = true := hstays
      have hcur : (s.enterWait next).sched.current = s.sched.current :=
        schedule_current_of_stays hstays' next
      apply henter.waitEnd
      rw [hcur]
      exact Function.update_self ..
    · exact henter
  | wakeup nb st => exact h.kwaitqWakeup hallowed hwakeup
  | resume =>
    show WaitqInv (kwaitqResume s).2
    rcases h.pcs s.sched.current with hidle | ⟨e, hpc⟩
    · exact absurd hidle hallowed
    · unfold kwaitqResume
      rw [hpc]
      exact h.waitEnd hpc

/-- **The wait queue protocol** holds over every interleaving in which no call that wakes somebody up loses
the CPU to the process it wakes. -/
theorem waitq_runs_law (s : Kernel) (hstart : WaitqStart s) (ops : List WaitqOp)
    (hallowed : Guarded waitqStep WaitqAllowed s ops) (hwakeup : Guarded waitqStep WakeupUnswitched s ops) :
    WaitqLaw (run waitqStep s ops) := by
  have hboth : Guarded waitqStep (fun s op => WaitqAllowed s op ∧ WakeupUnswitched s op) s ops :=
    guarded_and hallowed hwakeup
  exact (invariant_run (fun s op h hg => h.step hg.1 hg.2) ops s hstart.inv hboth).law

end

/-! ## Two processes and a queue -/

/-- The kernel task and two processes, `current` on the CPU and nobody in the queue. -/
def twoProcesses (current : Nat) (numProc : Int) : Kernel where
  sched := ⟨fun p => if p = current then .running else if p ≤ 2 then .ready else .stopped, current, numProc⟩
  pc := fun _ => .idle
  entry := fun _ => ⟨0, false, ok⟩
  nextEntry := 0
  waitingList := []
  calls := fun _ => ⟨[], 0, ok, [], false⟩
  nextCall := 0
  returned := []
  unlinked := []
  stale := []
  asleep := fun _ => false

theorem twoProcesses_start (current : Nat) (numProc : Int) : WaitqStart (twoProcesses current numProc) := by
  refine ⟨fun p hp => ?_, fun _ => rfl, rfl, rfl, rfl, rfl, rfl, fun _ => rfl⟩
  have hp' : p ≠ current := hp
  show (if p = current then ProcessState.running else if p ≤ 2 then .ready else .stopped) ≠ .running
  rw [if_neg hp']
  split_ifs <;> decide

/-- Process 1 waits, process 2 wakes it up with status `OK`: process 1 gets the CPU before its entry is flagged,
and its wait returns `-EINTR`. -/
theorem waitq_wakeup_switches :
    Guarded waitqStep WaitqAllowed (twoProcesses 1 2) [.wait 2, .wakeup 1 ok, .resume] ∧
      ¬ WaitqLaw (run waitqStep (twoProcesses 1 2) [.wait 2, .wakeup 1 ok, .resume]) := by
  refine ⟨⟨⟨rfl, by decide⟩, rfl, by decide, trivial⟩, fun hlaw => ?_⟩
  have hresult := hlaw.result 0 (by decide) 0 (by decide) (-eintr) (by decide)
  exact absurd hresult (by decide)

/-- The kernel task waits and the only process wakes it up. -/
theorem waitq_wakeup_kernel_task :
    WaitqLaw (run waitqStep (twoProcesses 0 1) [.wait 1, .wakeup 1 7, .tick 0]) :=
  waitq_runs_law (twoProcesses 0 1) (twoProcesses_start 0 1) [.wait 1, .wakeup 1 7, .tick 0]
    ⟨⟨rfl, by decide⟩, rfl, ⟨rfl, by decide⟩, trivial⟩ ⟨trivial, Or.inr (Or.inr rfl), trivial, trivial⟩

end Desiros.Proc
