import Desiros.Proc.WaitQueue

/-!
# Kernel semaphores (`ksynch.c`)

`ksema_down`, `ksema_trydown` and `ksema_up` on one semaphore, with interrupts off but for the point where a
`ksema_down` waits: there the call is suspended, and other processes run until its `kwaitq_wait` returns. Which
of the waiters a `kwaitq_wakeup` selects and when a wait fails is left open; a wait returns `OK` only after a
wake-up selected its entry. `initial`, `ups` and `okDowns` record what happened and are read by no function.

`value` is an `int`, which wraps. `SemaLaw` holds along a run exactly as long as it does not
(`sema_always_iff`).
-/

namespace Desiros.Proc

open Desiros.Library

/-- The value of an `int` after an operation with the exact result `x`. -/
def wrapInt (x : Int) : Int := x.bmod 4294967296

structure KSema where
  value : Int
  /-- The entries of the calls of `ksema_down` in `kwaitq_wait`. -/
  suspended : List Nat
  /-- The entries that a wake-up with status `OK` selected. -/
  woken : Nat → Bool
  nextEntry : Nat
  initial : Int
  ups : Nat
  /-- The calls of `ksema_down` and `ksema_trydown` that returned `OK`. -/
  okDowns : Nat

def ksemaInit (initialValue : Int) : KSema where
  value := initialValue
  suspended := []
  woken := fun _ => false
  nextEntry := 0
  initial := initialValue
  ups := 0
  okDowns := 0

/-- A call takes the semaphore. -/
def KSema.returnsOk (s : KSema) : KSema := { s with okDowns := s.okDowns + 1 }

/-- A new entry waits. -/
def KSema.suspend (s : KSema) : KSema :=
  { s with
    suspended := s.suspended ++ [s.nextEntry]
    woken := Function.update s.woken s.nextEntry false
    nextEntry := s.nextEntry + 1 }

/-- The result, unless the call is suspended. -/
def ksemaDown (s : KSema) : Option Int × KSema :=
  let s := { s with value := wrapInt (s.value - 1) }
  if s.value < 0 then (none, s.suspend) else (some ok, s.returnsOk)

/-- `ksema_down` behind `kwaitq_wait`, which returned `retval`. -/
def ksemaDownEnd (s : KSema) (e : Nat) (retval : Int) : Int × KSema :=
  let s := { s with suspended := s.suspended.erase e }
  if ok ≠ retval then (retval, { s with value := wrapInt (s.value + 1) }) else (retval, s.returnsOk)

def ksemaTrydown (s : KSema) : Int × KSema :=
  if 1 ≤ s.value then (ok, { s with value := wrapInt (s.value - 1) }.returnsOk) else (-ebusy, s)

/-- `kwaitq_wakeup (& sema->kwaitq, 1, OK)` selects an entry, if it finds one. -/
def KSema.wakeup (s : KSema) : Option Nat → KSema
  | none => s
  | some e => { s with woken := Function.update s.woken e true }

def ksemaUp (s : KSema) (selected : Option Nat) : Int × KSema :=
  let s := { s with value := wrapInt (s.value + 1), ups := s.ups + 1 }
  (ok, s.wakeup selected)

/-! ## Any interleaving -/

inductive SemaOp where
  | down
  | trydown
  | up (selected : Option Nat)
  /-- `kwaitq_wait` returns to the call with the entry `e`. -/
  | waitReturns (e : Nat) (retval : Int)
deriving DecidableEq, Repr

def semaStep (s : KSema) : SemaOp → KSema
  | .down => (ksemaDown s).2
  | .trydown => (ksemaTrydown s).2
  | .up selected => (ksemaUp s selected).2
  | .waitReturns e retval => (ksemaDownEnd s e retval).2

/-- What a wait queue does: a wake-up selects an entry that waits, and a wait that nobody selected fails. -/
def SemaAllowed (s : KSema) : SemaOp → Prop
  | .down | .trydown => True
  | .up selected => ∀ e ∈ selected, e ∈ s.suspended
  | .waitReturns e retval => e ∈ s.suspended ∧ (retval = ok → s.woken e = true)

/-- What a semaphore promises. -/
structure SemaLaw (s : KSema) : Prop where
  okDowns_le : (s.okDowns : Int) ≤ s.initial + s.ups
  value : s.value = s.initial + s.ups - (s.okDowns + s.suspended.length)

/-- The `++` or `--` of a step has its exact result. -/
def ValueInRange (s : KSema) : SemaOp → Prop
  | .down => -2147483648 < s.value
  | .trydown => True
  | .up _ => s.value < 2147483647
  | .waitReturns _ retval => retval ≠ ok → s.value < 2147483647

/-! ## The invariant -/

/-- The calls that returned `OK` and those that will were let in by the initial value or by an up. -/
structure SemaInv (s : KSema) : Prop where
  range : -2147483648 ≤ s.value ∧ s.value ≤ 2147483647
  value : s.value = s.initial + s.ups - (s.okDowns + s.suspended.length)
  nodup : s.suspended.Nodup
  lt_nextEntry : ∀ e ∈ s.suspended, e < s.nextEntry
  granted : ((s.okDowns + s.suspended.countP s.woken : Nat) : Int) ≤ s.initial + s.ups

theorem wrapInt_eq {x : Int} (hlo : -2147483648 ≤ x) (hhi : x ≤ 2147483647) : wrapInt x = x := by
  rw [wrapInt, Int.bmod_def]
  split_ifs <;> omega

theorem countP_update_le (f : Nat → Bool) (e : Nat) (l : List Nat) :
    l.countP (Function.update f e true) ≤ l.countP f + l.count e := by
  induction l with
  | nil => exact Nat.le_refl 0
  | cons a l ih =>
    rw [List.countP_cons, List.countP_cons, List.count_cons]
    by_cases ha : a = e
    · rw [ha, Function.update_self, if_pos rfl, beq_self_eq_true, if_pos rfl]
      omega
    · rw [Function.update_of_ne ha]
      omega

/-- Entries that are not in the list. -/
theorem countP_update_of_notMem (f : Nat → Bool) {e : Nat} {b : Bool} {l : List Nat} (h : e ∉ l) :
    l.countP (Function.update f e b) = l.countP f := by
  apply List.countP_congr
  intro a ha
  have hae : a ≠ e := fun hae => h (hae ▸ ha)
  rw [Function.update_of_ne hae]

section

variable {s : KSema}

theorem SemaInv.law (h : SemaInv s) : SemaLaw s := by
  refine ⟨?_, h.value⟩
  have hgranted := h.granted
  push_cast at hgranted
  omega

theorem ksemaInit_inv {v : Int} (hv : 0 ≤ v) (hint : v ≤ 2147483647) : SemaInv (ksemaInit v) := by
  refine ⟨⟨?_, hint⟩, ?_, List.nodup_nil, fun e he => absurd he List.not_mem_nil, ?_⟩
  · show -2147483648 ≤ v
    omega
  · simp [ksemaInit]
  · simpa [ksemaInit] using hv

/-- A call is let in at a value that is positive. -/
theorem SemaInv.take (h : SemaInv s) (hpos : 1 ≤ s.value) :
    SemaInv { s with value := s.value - 1 }.returnsOk := by
  have hvalue := h.value
  have hcount : s.suspended.countP s.woken ≤ s.suspended.length := List.countP_le_length
  refine ⟨?_, ?_, h.nodup, h.lt_nextEntry, ?_⟩
  · have hrange := h.range
    constructor
    · show -2147483648 ≤ s.value - 1
      omega
    · show s.value - 1 ≤ 2147483647
      omega
  · show s.value - 1 = s.initial + s.ups - ((s.okDowns + 1 : Nat) + s.suspended.length)
    push_cast
    omega
  · show ((s.okDowns + 1 + s.suspended.countP s.woken : Nat) : Int) ≤ s.initial + s.ups
    push_cast
    omega

theorem SemaInv.down (h : SemaInv s) (hrange : ValueInRange s .down) : SemaInv (ksemaDown s).2 := by
  have hlo : -2147483648 < s.value := hrange
  have hexact : wrapInt (s.value - 1) = s.value - 1 := wrapInt_eq (by omega) (by have := h.range.2; omega)
  unfold ksemaDown
  dsimp only
  rw [hexact]
  split_ifs with hneg
  · have hfresh : s.nextEntry ∉ s.suspended := fun hmem => Nat.lt_irrefl _ (h.lt_nextEntry _ hmem)
    refine ⟨⟨?_, ?_⟩, ?_, ?_, fun e he => ?_, ?_⟩
    · show -2147483648 ≤ s.value - 1
      omega
    · show s.value - 1 ≤ 2147483647
      omega
    · show s.value - 1 = s.initial + s.ups - (s.okDowns + (s.suspended ++ [s.nextEntry]).length)
      have hvalue := h.value
      rw [List.length_append, List.length_singleton]
      push_cast
      omega
    · show (s.suspended ++ [s.nextEntry]).Nodup
      rw [List.nodup_append]
      refine ⟨h.nodup, List.nodup_singleton _, fun a ha b hb => ?_⟩
      rw [List.mem_singleton.mp hb]
      exact fun hab => hfresh (hab ▸ ha)
    · show e < s.nextEntry + 1
      rcases List.mem_append.mp he with hold | hnew
      · exact Nat.lt_succ_of_lt (h.lt_nextEntry e hold)
      · rw [List.mem_singleton.mp hnew]
        exact Nat.lt_succ_self _
    · show ((s.okDowns + (s.suspended ++ [s.nextEntry]).countP
        (Function.update s.woken s.nextEntry false) : Nat) : Int) ≤ s.initial + s.ups
      rw [List.countP_append, countP_update_of_notMem _ hfresh, List.countP_singleton, Function.update_self]
      exact h.granted
  · exact h.take (by omega)

theorem SemaInv.trydown (h : SemaInv s) : SemaInv (ksemaTrydown s).2 := by
  unfold ksemaTrydown
  split_ifs with hpos
  · have hexact : wrapInt (s.value - 1) = s.value - 1 := wrapInt_eq (by omega) (by have := h.range.2; omega)
    dsimp only
    rw [hexact]
    exact h.take hpos
  · exact h

theorem SemaInv.up (h : SemaInv s) {selected : Option Nat} (hrange : ValueInRange s (.up selected)) :
    SemaInv (ksemaUp s selected).2 := by
  have hhi : s.value < 2147483647 := hrange
  have hexact : wrapInt (s.value + 1) = s.value + 1 := wrapInt_eq (by have := h.range.1; omega) (by omega)
  -- Before the wake-up, the new up lets in nobody.
  have hinv : SemaInv { s with value := s.value + 1, ups := s.ups + 1 } ∧
      ((s.okDowns + s.suspended.countP s.woken : Nat) : Int) + 1 ≤ s.initial + (s.ups + 1 : Nat) := by
    have hvalue := h.value
    have hgranted := h.granted
    refine ⟨⟨⟨?_, ?_⟩, ?_, h.nodup, h.lt_nextEntry, ?_⟩, ?_⟩
    · show -2147483648 ≤ s.value + 1
      have := h.range.1
      omega
    · show s.value + 1 ≤ 2147483647
      omega
    · show s.value + 1 = s.initial + (s.ups + 1 : Nat) - (s.okDowns + s.suspended.length)
      push_cast
      omega
    · show ((s.okDowns + s.suspended.countP s.woken : Nat) : Int) ≤ s.initial + (s.ups + 1 : Nat)
      push_cast at hgranted ⊢
      omega
    · push_cast at hgranted ⊢
      omega
  obtain ⟨hinv, hroom⟩ := hinv
  unfold ksemaUp
  dsimp only
  rw [hexact]
  cases selected with
  | none => exact hinv
  | some e =>
    refine ⟨hinv.range, hinv.value, hinv.nodup, hinv.lt_nextEntry, ?_⟩
    show ((s.okDowns + s.suspended.countP (Function.update s.woken e true) : Nat) : Int) ≤
      s.initial + (s.ups + 1 : Nat)
    have honce : s.suspended.count e ≤ 1 := List.nodup_iff_count_le_one.mp h.nodup e
    have hcount := countP_update_le s.woken e s.suspended
    push_cast at hroom ⊢
    omega

theorem SemaInv.downEnd (h : SemaInv s) {e : Nat} {retval : Int}
    (hallowed : SemaAllowed s (.waitReturns e retval)) (hrange : ValueInRange s (.waitReturns e retval)) :
    SemaInv (ksemaDownEnd s e retval).2 := by
  obtain ⟨hmem, hwoken⟩ := hallowed
  have hvalue := h.value
  have hgranted := h.granted
  have hlength := List.length_erase_of_mem hmem
  have hpos : 0 < s.suspended.length := List.length_pos_of_mem hmem
  have hcount : (s.suspended.erase e).countP s.woken ≤ s.suspended.countP s.woken :=
    List.Sublist.countP_le List.erase_sublist
  unfold ksemaDownEnd
  dsimp only
  by_cases hretval : ok = retval
  · -- The entry was selected, so the call was granted already.
    have hselected : s.woken e = true := hwoken hretval.symm
    have herase : (s.suspended.erase e).countP s.woken + 1 = s.suspended.countP s.woken := by
      have hperm := (List.perm_cons_erase hmem).countP_eq s.woken
      rw [List.countP_cons, if_pos hselected] at hperm
      exact hperm.symm
    rw [if_neg (not_not.mpr hretval)]
    refine ⟨h.range, ?_, h.nodup.erase e, fun f hf => h.lt_nextEntry f (List.mem_of_mem_erase hf), ?_⟩
    · show s.value = s.initial + s.ups - ((s.okDowns + 1 : Nat) + (s.suspended.erase e).length)
      push_cast
      omega
    · show ((s.okDowns + 1 + (s.suspended.erase e).countP s.woken : Nat) : Int) ≤ s.initial + s.ups
      push_cast at hgranted ⊢
      omega
  · have hhi : s.value < 2147483647 := hrange (Ne.symm hretval)
    have hlo := h.range.1
    rw [if_pos hretval, wrapInt_eq (by omega) (by omega)]
    refine ⟨⟨?_, ?_⟩, ?_, h.nodup.erase e, fun f hf => h.lt_nextEntry f (List.mem_of_mem_erase hf), ?_⟩
    · show -2147483648 ≤ s.value + 1
      omega
    · show s.value + 1 ≤ 2147483647
      omega
    · show s.value + 1 = s.initial + s.ups - (s.okDowns + (s.suspended.erase e).length)
      omega
    · show ((s.okDowns + (s.suspended.erase e).countP s.woken : Nat) : Int) ≤ s.initial + s.ups
      push_cast at hgranted ⊢
      omega

/-! ## Every interleaving -/

theorem SemaInv.step (h : SemaInv s) {op : SemaOp} (hallowed : SemaAllowed s op) (hrange : ValueInRange s op) :
    SemaInv (semaStep s op) := by
  cases op with
  | down => exact h.down hrange
  | trydown => exact h.trydown
  | up selected => exact h.up hrange
  | waitReturns e retval => exact h.downEnd hallowed hrange

/-- At the ends of the range of `int` the identity of the counter is lost. -/
theorem SemaInv.overflow (h : SemaInv s) {op : SemaOp} (hallowed : SemaAllowed s op)
    (hrange : ¬ ValueInRange s op) : ¬ SemaLaw (semaStep s op) := by
  have hvalue := h.value
  have hmin : wrapInt 2147483648 = -2147483648 := by decide
  have hmax : wrapInt (-2147483649) = 2147483647 := by decide
  intro hlaw
  have hlaw := hlaw.value
  cases op with
  | down =>
    have heq : s.value = -2147483648 := le_antisymm (not_lt.mp hrange) h.range.1
    have hexact : wrapInt (s.value - 1) = 2147483647 := by
      rw [heq]
      exact hmax
    have hdown : (semaStep s .down) = { s with value := 2147483647 }.returnsOk := by
      show (ksemaDown s).2 = _
      unfold ksemaDown
      rw [hexact]
      rfl
    rw [hdown] at hlaw
    have hlaw : 2147483647 = s.initial + s.ups - ((s.okDowns + 1 : Nat) + s.suspended.length) := hlaw
    push_cast at hlaw
    omega
  | trydown => exact hrange trivial
  | up selected =>
    have heq : s.value = 2147483647 := le_antisymm h.range.2 (not_lt.mp hrange)
    have hup : (semaStep s (.up selected)).value = -2147483648 ∧
        (semaStep s (.up selected)).initial = s.initial ∧ (semaStep s (.up selected)).ups = s.ups + 1 ∧
        (semaStep s (.up selected)).okDowns = s.okDowns ∧
        (semaStep s (.up selected)).suspended = s.suspended := by
      have hexact : wrapInt (s.value + 1) = -2147483648 := by
        rw [heq]
        exact hmin
      cases selected <;> exact ⟨hexact, rfl, rfl, rfl, rfl⟩
    obtain ⟨h1, h2, h3, h4, h5⟩ := hup
    rw [h1, h2, h3, h4, h5] at hlaw
    push_cast at hlaw
    omega
  | waitReturns e retval =>
    obtain ⟨hne, hhi⟩ := Classical.not_imp.mp hrange
    have heq : s.value = 2147483647 := le_antisymm h.range.2 (not_lt.mp hhi)
    have hexact : wrapInt (s.value + 1) = -2147483648 := by
      rw [heq]
      exact hmin
    have hend : semaStep s (.waitReturns e retval) =
        { s with suspended := s.suspended.erase e, value := -2147483648 } := by
      show (ksemaDownEnd s e retval).2 = _
      unfold ksemaDownEnd
      dsimp only
      rw [if_pos (Ne.symm hne), hexact]
    rw [hend] at hlaw
    have hlaw : -2147483648 = s.initial + s.ups - (s.okDowns + (s.suspended.erase e).length) := hlaw
    have hlength := List.length_erase_of_mem hallowed.1
    have hpos : 0 < s.suspended.length := List.length_pos_of_mem hallowed.1
    omega

/-- **The semaphore** lets in at most as many calls as its initial value and its ups allow, and counts them,
in every state of every interleaving, as long as its counter stays an `int`, and no longer. -/
theorem sema_always_iff (v : Int) (hv : 0 ≤ v) (hint : v ≤ 2147483647) (ops : List SemaOp)
    (hallowed : Guarded semaStep SemaAllowed (ksemaInit v) ops) :
    Always semaStep SemaLaw (ksemaInit v) ops ↔ Guarded semaStep ValueInRange (ksemaInit v) ops :=
  always_iff_guarded (fun _ h => h.law) (fun _ _ h hallowed hrange => h.step hallowed hrange)
    (fun _ _ h hallowed hrange => h.overflow hallowed hrange) ops (ksemaInit v) (ksemaInit_inv hv hint) hallowed

end

/-- An up at the largest `int`. -/
theorem sema_up_overflow : Guarded semaStep SemaAllowed (ksemaInit 2147483647) [.up none] ∧
    ¬ Always semaStep SemaLaw (ksemaInit 2147483647) [.up none] := by
  refine ⟨⟨fun e he => absurd he (Option.not_mem_none e), trivial⟩, fun h => ?_⟩
  exact absurd h.2.value (by decide)

/-- One call waits, fails after an up selected it, and a `ksema_trydown` takes its place. -/
theorem sema_failed_wait :
    Always semaStep SemaLaw (ksemaInit 0) [.down, .up (some 0), .waitReturns 0 (-eintr), .trydown] ↔
      Guarded semaStep ValueInRange (ksemaInit 0) [.down, .up (some 0), .waitReturns 0 (-eintr), .trydown] := by
  apply sema_always_iff 0 (by decide) (by decide)
  refine ⟨trivial, fun e he => ?_, ⟨by decide, fun h => absurd h (by decide)⟩, trivial, trivial⟩
  rw [← Option.some.inj he]
  decide

end Desiros.Proc
