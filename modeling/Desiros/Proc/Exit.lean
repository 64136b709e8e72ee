import Desiros.Library.CircularList
import Desiros.Mem.Kmalloc
import Desiros.Mem.SlabCache
import Desiros.Proc.Schedule

/-!
# The end of a process (`syscall/exit.c`)

`sys_exit` drops its reference to each page table of the process, and then takes the structures off the list, with
`list_pop_head` and `list_delete` in turn. What `list_pop_head` leaves in the links of the entry is what `list_delete`
follows: `sysExit_releases_iff`.
-/

namespace Desiros.Proc

open Desiros.Library Desiros.Mem

/-- Where a run of `sys_exit` is cut off. -/
inductive ExitFault where
  /-- It follows a null link. -/
  | nullLink
  /-- A loop that did not end in time. -/
  | endless
deriving DecidableEq, Repr

/-- The process that leaves, its `struct page_table`s by their addresses, the kernel heap, and the scheduler. The lists
record the arguments of `physmem_unref_physpage` and the entries that were unlinked. -/
structure ExitWorld (X : Type) where
  esp0 : UInt32
  cr3 : UInt32
  listPt : CircularList Nat
  pt : Nat → UInt32
  heap : Heap X
  sched : Sched
  unrefs : List UInt32
  unlinked : List Nat

variable {X : Type}

/-- `physmem_unref_physpage` -/
def ExitWorld.unref (w : ExitWorld X) (ppagePaddr : UInt32) : ExitWorld X :=
  { w with unrefs := w.unrefs ++ [ppagePaddr] }

/-- The loop over the page tables. -/
def ExitWorld.unrefTables (w : ExitWorld X) (tables : List Nat) : ExitWorld X :=
  tables.foldl (fun w ptToDel => w.unref (w.pt ptToDel)) w

/-- `list_pop_head_named`, with `list_delete_named` for the same entry behind it, and `kvmm_free`. -/
def ExitWorld.dropHead (P : PageMap X) (w : ExitWorld X) : Except ExitFault (ExitWorld X) :=
  match w.listPt.popHead with
  | none => .error .nullLink
  | some (structPt, listPt) =>
    match listPt.delete structPt with
    | none => .error .nullLink
    | some listPt => .ok { w with
        listPt := listPt
        unlinked := w.unlinked ++ [structPt]
        heap := (w.heap.kvmmFree P structPt).2 }

/-- `while (!list_is_empty_named(current->list_pt, prev, next))` -/
def ExitWorld.dropPageTables (P : PageMap X) : Nat → ExitWorld X → Except ExitFault (ExitWorld X)
  | 0, _ => .error .endless
  | fuel + 1, w =>
    if w.listPt.head = none then .ok w
    else
      match w.dropHead P with
      | .error fault => .error fault
      | .ok w => dropPageTables P fuel w

/-- The process is left for process 0. -/
def ExitWorld.leave (w : ExitWorld X) : ExitWorld X :=
  { w with sched := switchToTask (w.sched.setState w.sched.current .stopped) 0 }

/-- `sys_exit`; the pages of the address space are 4096 bytes. -/
def ExitWorld.sysExit (P : PageMap X) (virtualToPhysical : UInt32 → UInt32) (fuel : Nat) (w : ExitWorld X) :
    Except ExitFault (ExitWorld X) :=
  let w := w.unref (virtualToPhysical (w.esp0 - 4096))
  match w.listPt.forEach fuel with
  | none => .error .endless
  | some tables =>
    match dropPageTables P fuel (w.unrefTables tables) with
    | .error fault => .error fault
    | .ok w => .ok (w.unref w.cr3).leave

/-- `sys_exit` ends, having dropped a reference to the page table of each entry, unlinked each entry once, and given
each structure back to `cache_pt`. -/
def ExitReleases (P : PageMap X) (virtualToPhysical : UInt32 → UInt32) (cachePt : Nat) (w : ExitWorld X)
    (entries : List Nat) : Prop :=
  ∃ fuel w', w.sysExit P virtualToPhysical fuel = .ok w' ∧
    w'.unrefs = w.unrefs ++ virtualToPhysical (w.esp0 - 4096) :: entries.map w.pt ++ [w.cr3] ∧
    w'.unlinked = w.unlinked ++ entries ∧
    (∀ e ∈ entries, ¬ (w'.heap.slabs.cache cachePt).Allocated e) ∧
    w'.listPt.head = none

section

variable {P : PageMap X} {virtualToPhysical : UInt32 → UInt32} {cachePt : Nat} {w : ExitWorld X} {entries : List Nat}

@[simp] theorem unref_listPt (ppagePaddr : UInt32) : (w.unref ppagePaddr).listPt = w.listPt := rfl

/-- The loop over the page tables leaves the list alone. -/
@[simp] theorem unrefTables_listPt (tables : List Nat) : (w.unrefTables tables).listPt = w.listPt := by
  induction tables generalizing w with
  | nil => rfl
  | cons e tables ih => exact ih

/-- **The second unlinking** of the entry at the head follows a link that the first one cleared. -/
theorem dropHead_nullLink {e : Nat} (h : w.listPt.Ring (e :: entries)) (hnodup : (e :: entries).Nodup) :
    w.dropHead P = .error .nullLink := by
  obtain ⟨listPt, hpop, -, hprev⟩ := h.popHead hnodup
  unfold ExitWorld.dropHead
  rw [hpop]
  dsimp only
  rw [CircularList.delete_cleared hprev]

theorem dropPageTables_cons {e : Nat} (h : w.listPt.Ring (e :: entries)) (hnodup : (e :: entries).Nodup)
    (fuel : Nat) : w.dropPageTables P (fuel + 1) = .error .nullLink := by
  have hhead : w.listPt.head ≠ none := by
    rw [h.1]
    exact Option.some_ne_none e
  unfold ExitWorld.dropPageTables
  rw [if_neg hhead, dropHead_nullLink h hnodup]

theorem dropPageTables_empty (h : w.listPt.head = none) (fuel : Nat) : w.dropPageTables P (fuel + 1) = .ok w := by
  unfold ExitWorld.dropPageTables
  rw [if_pos h]

/-- With an entry on the list `sys_exit` drops its references, and writes through a null link. -/
theorem sysExit_cons {e : Nat} (h : w.listPt.Ring (e :: entries)) (hnodup : (e :: entries).Nodup) {fuel : Nat}
    (hfuel : (e :: entries).length < fuel) : w.sysExit P virtualToPhysical fuel = .error .nullLink := by
  have hring : ((w.unref (virtualToPhysical (w.esp0 - 4096))).unrefTables (e :: entries)).listPt.Ring
      (e :: entries) := by
    rwa [unrefTables_listPt]
  obtain ⟨n, rfl⟩ := Nat.exists_eq_add_of_lt hfuel
  unfold ExitWorld.sysExit
  dsimp only
  rw [unref_listPt, h.forEach hnodup hfuel]
  dsimp only
  rw [dropPageTables_cons hring hnodup]

/-- It does not come to its end, however long the loops may take. -/
theorem sysExit_ne_ok {e : Nat} (h : w.listPt.Ring (e :: entries)) (hnodup : (e :: entries).Nodup) (fuel : Nat)
    (w' : ExitWorld X) : w.sysExit P virtualToPhysical fuel ≠ .ok w' := by
  unfold ExitWorld.sysExit
  dsimp only
  cases (w.unref (virtualToPhysical (w.esp0 - 4096))).listPt.forEach fuel with
  | none => exact fun h => by cases h
  | some tables =>
    have hring : ((w.unref (virtualToPhysical (w.esp0 - 4096))).unrefTables tables).listPt.Ring (e :: entries) := by
      rwa [unrefTables_listPt]
    cases fuel with
    | zero => exact fun h => by cases h
    | succ fuel =>
      dsimp only
      rw [dropPageTables_cons hring hnodup]
      exact fun h => by cases h

/-- Without page tables nothing is left to do. -/
theorem sysExit_nil (h : w.listPt.Ring []) : w.sysExit P virtualToPhysical 1 =
    .ok ((w.unref (virtualToPhysical (w.esp0 - 4096))).unref w.cr3).leave := by
  have hforEach := h.forEach List.nodup_nil Nat.zero_lt_one
  have hdrop := @dropPageTables_empty X P (w.unref (virtualToPhysical (w.esp0 - 4096))) h 0
  unfold ExitWorld.sysExit
  dsimp only
  rw [unref_listPt, hforEach]
  dsimp only
  rw [show (w.unref (virtualToPhysical (w.esp0 - 4096))).unrefTables [] =
    w.unref (virtualToPhysical (w.esp0 - 4096)) from rfl, hdrop]
  rfl

end

/-- **`sys_exit` releases the page tables** of a process exactly if it has none. -/
theorem sysExit_releases_iff (P : PageMap X) (virtualToPhysical : UInt32 → UInt32) (cachePt : Nat) (w : ExitWorld X)
    (entries : List Nat) (hring : w.listPt.Ring entries) (hnodup : entries.Nodup) :
    (ExitReleases P virtualToPhysical cachePt w entries ↔ entries = []) ∧
      (entries ≠ [] → w.sysExit P virtualToPhysical (entries.length + 1) = .error .nullLink) := by
  refine ⟨⟨?_, ?_⟩, fun hne => ?_⟩
  · rintro ⟨fuel, w', hexit, -⟩
    cases entries with
    | nil => rfl
    | cons e entries => exact absurd hexit (sysExit_ne_ok hring hnodup fuel w')
  · rintro rfl
    refine ⟨1, _, sysExit_nil hring, ?_, (List.append_nil _).symm, fun e he => absurd he List.not_mem_nil, hring⟩
    rfl
  · cases entries with
    | nil => exact absurd rfl hne
    | cons e entries => exact sysExit_cons hring hnodup (Nat.lt_succ_self _)

/-! ## A process without page tables, and one with a single one -/

def oneCache (ρ : Type) : KslabCache ρ := ⟨12, 12, 341, 1, 0, 0, true, 0, []⟩

/-- A process whose list of page tables is `listPt`. -/
def exiting (listPt : CircularList Nat) : ExitWorld Unit where
  esp0 := 0x2000
  cr3 := 0x5000
  listPt := listPt
  pt := fun _ => 0x6000
  heap := ⟨⟨[1], fun _ => oneCache PageRange, [], 0, 0, 0⟩, ⟨[], [], fun _ => none, oneCache (Option Nat), ()⟩, 0, []⟩
  sched := ⟨fun _ => .ready, 1, 1⟩
  unrefs := []
  unlinked := []

def noUnmap : PageMap Unit := ⟨fun _ _ => (true, ()), fun _ _ => (), fun _ _ _ => ()⟩

theorem sysExit_no_page_tables :
    ExitReleases noUnmap id 1 (exiting ⟨none, fun _ => none, fun _ => none⟩) [] :=
  (sysExit_releases_iff noUnmap id 1 (exiting ⟨none, fun _ => none, fun _ => none⟩) [] rfl List.nodup_nil).1.mpr rfl

/-- An entry at 16 whose links lead to itself. -/
theorem sysExit_one_page_table : (exiting ⟨some 16, fun _ => some 16, fun _ => some 16⟩).listPt.Ring [16] ∧
    ¬ ExitReleases noUnmap id 1 (exiting ⟨some 16, fun _ => some 16, fun _ => some 16⟩) [16] := by
  have hring : (exiting ⟨some 16, fun _ => some 16, fun _ => some 16⟩).listPt.Ring [16] :=
    ⟨rfl, .singleton 16, rfl, rfl⟩
  refine ⟨hring, ?_⟩
  rintro ⟨fuel, w', hexit, -⟩
  exact sysExit_ne_ok hring (List.nodup_singleton 16) fuel w' hexit

end Desiros.Proc
