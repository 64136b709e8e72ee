import Desiros.Mem.Resize
import Desiros.Library.Runs

/-!
# Address spaces over whole runs

A run performs `uvmm_map`, `uvmm_unmap`, `uvmm_resize` and `uvmm_brk` calls with any arguments from
`uvmm_create_empty_as`. `StepGood` is the condition on one call in the state it is made in;
`uvmm_runs_wellFormed` keeps the list well-formed in every run of such calls, and
`uvmm_runs_overlap` is a run of two calls outside the condition that maps a page twice.
-/

namespace Desiros.Mem

open Desiros.Library

variable {W : Type}

inductive UvmmOp
  | map (hintUaddr size accessRights flags : UInt32) (resource : Option UvmmMappedResource)
      (offsetInResource : UInt64)
  | unmap (uaddr size : UInt32)
  | resize (oldUaddr oldSize newUaddr newSize flags : UInt32)
  | brk (newTopUaddr : UInt32)

/-- The state after one call. -/
def uvmmStep (E : UvmmEnv W) (s : UvmmState W) : UvmmOp → UvmmState W
  | .map hintUaddr size accessRights flags resource offsetInResource =>
    (uvmmMap E s hintUaddr size accessRights flags resource offsetInResource).2.2
  | .unmap uaddr size => (uvmmUnmap E s uaddr size).2
  | .resize oldUaddr oldSize newUaddr newSize flags =>
    (uvmmResize E s oldUaddr oldSize newUaddr newSize flags).2.2
  | .brk newTopUaddr => (uvmmBrk E s newTopUaddr).2

/-- The condition on a call of `uvmm_brk`: nothing to do, or a condition on the call it makes. -/
def BrkGood (as : UvmmAs) (newTopUaddr : UInt32) : Prop :=
  let newSize := pageAlignSup newTopUaddr - as.heapStart
  newTopUaddr = 0 ∨ newTopUaddr = as.heapStart + as.heapSize ∨ newTopUaddr < as.heapStart ∨
    if as.heapSize = 0 then MapGood as.listArena as.heapStart newSize 0
    else newSize ≤ 0 ∨ ResizeStepGood as.listArena as.heapStart as.heapSize as.heapStart newSize 0

/-- The condition on a call. `uvmm_unmap` needs none. -/
def StepGood (s : UvmmState W) : UvmmOp → Prop
  | .map hintUaddr size accessRights flags resource offsetInResource =>
    (∃ err, uvmmMapCheck hintUaddr size accessRights flags resource offsetInResource =
        .error err) ∨ MapGood s.addressSpace.listArena hintUaddr size flags
  | .unmap _ _ => True
  | .resize oldUaddr oldSize newUaddr newSize flags =>
    ResizeStepGood s.addressSpace.listArena oldUaddr oldSize newUaddr newSize flags
  | .brk newTopUaddr => BrkGood s.addressSpace newTopUaddr

theorem Inv.setHeap {s : UvmmState W} (h : Inv s) (heapStart heapSize : UInt32) :
    Inv (s.setHeap heapStart heapSize) := ⟨h.wellFormed, h.distinct⟩

theorem Inv.devZeroMap {s : UvmmState W} (h : Inv s) (E : UvmmEnv W)
    (uaddr size accessRights flags : UInt32)
    (hgood : MapGood s.addressSpace.listArena uaddr size flags) :
    Inv (devZeroMap E s uaddr size accessRights flags).2.2 := by
  rw [Mem.devZeroMap]
  split
  · exact h.setWorld _
  · rename_i addr w _
    have hmap := (h.setWorld w).uvmmMap E uaddr size accessRights flags
      (some ⟨addr, pRead ||| pWrite ||| pUser, mappedResourceAnonymous, some E.zeroMmap⟩) 0 hgood
    simp only
    split_ifs
    · exact hmap.setWorld _
    · exact hmap

theorem Inv.uvmmBrk {s : UvmmState W} (h : Inv s) (E : UvmmEnv W) (newTopUaddr : UInt32)
    (hgood : BrkGood s.addressSpace newTopUaddr) : Inv (uvmmBrk E s newTopUaddr).2 := by
  simp only [Mem.uvmmBrk]
  by_cases h1 : newTopUaddr = 0
  · rw [if_pos h1]
    exact h
  by_cases h2 : newTopUaddr = s.addressSpace.heapStart + s.addressSpace.heapSize
  · rw [if_neg h1, if_pos h2]
    exact h
  by_cases h3 : newTopUaddr < s.addressSpace.heapStart
  · rw [if_neg h1, if_neg h2, if_pos h3]
    exact h
  simp only [BrkGood, h1, h2, h3, false_or] at hgood
  rw [if_neg h1, if_neg h2, if_neg h3]
  split_ifs with h4 h5 h6 h7 h8
  · rw [if_pos h4] at hgood
    exact (h.devZeroMap E _ _ _ _ hgood).setHeap _ _
  · rw [if_pos h4] at hgood
    exact ((h.devZeroMap E _ _ _ _ hgood).setHeap _ _).setHeap _ _
  · exact h.uvmmUnmap E _ _
  · exact (h.uvmmUnmap E _ _).setHeap _ _
  · rw [if_neg h4] at hgood
    exact h.uvmmResize E _ _ _ _ _ (hgood.resolve_left h6)
  · rw [if_neg h4] at hgood
    exact (h.uvmmResize E _ _ _ _ _ (hgood.resolve_left h6)).setHeap _ _

/-- One call that meets its condition keeps the invariant. -/
theorem Inv.uvmmStep {s : UvmmState W} (h : Inv s) (E : UvmmEnv W) (op : UvmmOp)
    (hgood : StepGood s op) : Inv (uvmmStep E s op) := by
  cases op with
  | map hintUaddr size accessRights flags resource offsetInResource =>
    rcases hgood with ⟨err, herr⟩ | hgood
    · simp only [Mem.uvmmStep, Mem.uvmmMap, herr]
      exact h
    · exact h.uvmmMap E _ _ _ _ _ _ hgood
  | unmap uaddr size => exact h.uvmmUnmap E _ _
  | resize oldUaddr oldSize newUaddr newSize flags => exact h.uvmmResize E _ _ _ _ _ hgood
  | brk newTopUaddr => exact h.uvmmBrk E _ hgood

theorem inv_uvmmCreateEmptyAs (w : W) : Inv (uvmmCreateEmptyAs w) :=
  ⟨wellFormed_nil, ⟨List.nodup_nil, fun _ h => by cases h⟩⟩

/-- **Well-formedness over whole runs.** From the empty address space, after any sequence of calls each
of which meets its condition, the arenas are ascending, made of whole pages of user space, and disjoint. -/
theorem uvmm_runs_wellFormed (E : UvmmEnv W) (w : W) (ops : List UvmmOp)
    (hgood : Guarded (uvmmStep E) StepGood (uvmmCreateEmptyAs w) ops) :
    WellFormed (run (uvmmStep E) (uvmmCreateEmptyAs w) ops).addressSpace.listArena :=
  (invariant_run (fun _ op h hop => h.uvmmStep E op hop) ops _ (inv_uvmmCreateEmptyAs w)
    hgood).wellFormed

/-! ## Two calls that map a page twice -/

/-- Two anonymous pages at the bottom of user space. -/
def mapTwoPages : UvmmOp := .map 0x40000000 0x2000 3 0 (some zeroResource) 0

/-- One page with a hint inside them: the search answers the hint itself. -/
def mapInside : UvmmOp := .map 0x40001000 0x1000 3 0 (some zeroResource) 0

theorem uvmm_runs_wellFormed_first :
    WellFormed (run (uvmmStep quietEnv) (uvmmCreateEmptyAs ()) [mapTwoPages]).addressSpace.listArena := by
  refine uvmm_runs_wellFormed quietEnv () [mapTwoPages] ⟨.inr ?_, trivial⟩
  rw [MapGood, if_neg (by decide)]
  refine .inr (.inl ⟨searchStart 0x40000000, ⟨le_rfl, fun a ha => ?_, fun g h1 h2 => ?_⟩,
    .inl fun a ha => ?_⟩)
  · cases ha
  · omega
  · cases ha

theorem uvmm_runs_overlap :
    ¬ WellFormed (run (uvmmStep quietEnv) (uvmmCreateEmptyAs ())
      [mapTwoPages, mapInside]).addressSpace.listArena := by
  have hl : (run (uvmmStep quietEnv) (uvmmCreateEmptyAs ())
      [mapTwoPages, mapInside]).addressSpace.listArena =
      [⟨0, 0x40000000, 0x2000, 3, 0, some 1, zeroResource, 0x40000000⟩,
       ⟨1, 0x40001000, 0x1000, 3, 0, some 1, zeroResource, 0x40001000⟩] := by decide
  rw [hl]
  intro h
  exact (List.pairwise_pair.mp h.disjoint) 0x40001000 (by decide)

end Desiros.Mem
