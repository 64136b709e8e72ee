import Desiros.Fs.FileIo
import Desiros.Library.Runs

/-!
# Kernel memory of file accesses

The functions of the file system and of the block devices free none of the buffers they allocate, so that the live
blocks grow with every buffer. `memory_runs_law_iff` says which sequences of calls leave behind only what
`ext2_lookup` returned: those whose calls all return before their first buffer.
-/

namespace Desiros.Fs

open Desiros.Library Block

/-! ## Growing heaps -/

/-- `h'` comes from `h` by calls of `kmalloc`. -/
def Grows (h h' : Kheap) : Prop := ∃ k, h' = Kheap.kmalloc^[k] h

section

variable {h h' h'' : Kheap}

@[refl] theorem Grows.refl (h : Kheap) : Grows h h := ⟨0, rfl⟩

theorem Grows.trans (hg : Grows h h') (hg' : Grows h' h'') : Grows h h'' := by
  obtain ⟨k, rfl⟩ := hg
  obtain ⟨k', rfl⟩ := hg'
  exact ⟨k' + k, (Function.iterate_add_apply _ _ _ _).symm⟩

theorem grows_kmalloc (h : Kheap) : Grows h h.kmalloc := ⟨1, rfl⟩

theorem Grows.next_le (hg : Grows h h') : h.next ≤ h'.next ∧ ∀ id ∈ h.live, id ∈ h'.live := by
  obtain ⟨k, rfl⟩ := hg
  induction k with
  | zero => exact ⟨Nat.le_refl _, fun _ hid => hid⟩
  | succ k ih =>
    rw [Function.iterate_succ_apply']
    exact ⟨Nat.le_succ_of_le ih.1, fun id hid => List.mem_cons_of_mem _ (ih.2 id hid)⟩

/-- Every live block is below the next one. -/
theorem Grows.lt_next (hg : Grows h h') (hlt : ∀ id ∈ h.live, id < h.next) : ∀ id ∈ h'.live, id < h'.next := by
  obtain ⟨k, rfl⟩ := hg
  induction k with
  | zero => exact hlt
  | succ k ih =>
    rw [Function.iterate_succ_apply']
    intro id hid
    rcases List.mem_cons.mp hid with heq | hold
    · rw [heq]
      exact Nat.lt_succ_self _
    · exact Nat.lt_succ_of_lt (ih id hold)

/-- A buffer stays behind. -/
theorem Grows.leaks (hg : Grows h.kmalloc h') : h.next ∈ h'.live ∧ h.next < h'.next :=
  ⟨hg.next_le.2 _ List.mem_cons_self, hg.next_le.1⟩

theorem Grows.of_kmalloc (hg : Grows h.kmalloc h') : Grows h h' := (grows_kmalloc h).trans hg

end

theorem transferLoop_grows (b : Blockdev) (len : UInt32) : ∀ (fuel : Nat) (done : UInt32) (o : UInt64) (h : Kheap),
    Grows h (transferLoop b len fuel done o h) := by
  intro fuel
  induction fuel with
  | zero => exact fun _ _ h => Grows.refl h
  | succ fuel ih =>
    intro done o h
    unfold transferLoop
    by_cases hlt : done < len
    · by_cases hend : o / b.blockSize.toUInt64 ≥ b.numberOfBlocks
      · rw [if_neg (not_not.mpr hlt), if_pos hend]
      · rw [if_neg (not_not.mpr hlt), if_neg hend]
        exact (grows_kmalloc h).trans (ih _ _ _)
    · rw [if_pos hlt]

section

variable {dev : Blkdev} (hdev : ∀ count pos h, Grows h (dev.heap count pos h)) (g : FileGarbage) (w : Ext2Kernel)

include hdev

theorem getBlock_grows (bnum : Nat) : Grows w.heap (w.getBlock dev g bnum).2.heap := hdev _ _ _

theorem indirectReads_grows (inode : Ext2Inode) (n : Int) : Grows w.heap (indirectReads dev g w inode n).heap := by
  have hblock := fun w bnum => getBlock_grows hdev g w bnum
  unfold indirectReads
  dsimp only
  generalize (if inode.iSize = 0 then 0 else 1 + (inode.iSize - 1) / w.blockSize) = size
  split_ifs
  · exact Grows.refl _
  · exact hblock _ _
  · exact (hblock _ _).trans (hblock _ _)
  · exact ((hblock _ _).trans (hblock _ _)).trans (hblock _ _)
  · exact Grows.refl _

theorem getDataBlock_grows (inode : Ext2Inode) (n : Int) : Grows w.heap (w.getDataBlock dev g inode n).2.heap :=
  (((grows_kmalloc _).trans (grows_kmalloc _)).trans (grows_kmalloc _)).trans (indirectReads_grows hdev g _ inode n)

theorem readInode_leaks (inum : Nat) : Grows w.heap.kmalloc (w.readInode dev g inum).2.heap :=
  (grows_kmalloc _).trans (getBlock_grows hdev g _ _)

theorem allocBlockGroups_grows (is : List Nat) : ∀ w, Grows w.heap (allocBlockGroups dev g is w).2.heap := by
  induction is with
  | nil => exact fun w => Grows.refl _
  | cons i is ih =>
    intro w
    have hread : ∀ w' : Ext2Kernel, ∀ pos, Grows w'.heap (w'.kmalloc.readData dev g.behindBlock w.blockSize pos).2.heap :=
      fun w' pos => (grows_kmalloc _).trans (hdev _ _ _)
    unfold allocBlockGroups
    split_ifs
    · dsimp only
      split
      · exact (hread w _).trans (hdev _ _ _)
      · exact (hread w _).trans (ih _)
    · exact ih w

theorem setBlockInodeData_grows (einode : Bytes) (blkN blk : Nat) :
    Grows w.heap (w.setBlockInodeData dev g einode blkN blk).2.heap := by
  unfold Ext2Kernel.setBlockInodeData
  split_ifs
  · exact Grows.refl _
  · exact (allocBlockGroups_grows hdev g _ w).trans (hdev _ _ _)
  · exact hdev _ _ _
  · exact Grows.refl _

theorem ext2ReadLoop_grows (einode : Ext2Inode) (fuel : Nat) : ∀ (w : Ext2Kernel) (size nBlk offset : Nat) (buf : Bytes)
    (count : Nat) r, ext2ReadLoop dev g einode fuel w size nBlk offset buf count = some r → Grows w.heap r.2.2.heap := by
  induction fuel with
  | zero =>
    intro w size nBlk offset buf count r hr
    cases hr
  | succ fuel ih =>
    intro w size nBlk offset buf count r hr
    have hblock := getDataBlock_grows hdev g w einode nBlk
    unfold ext2ReadLoop at hr
    dsimp only at hr
    by_cases hsize : size = 0
    · rw [if_pos hsize] at hr
      rw [← Option.some.inj hr]
    rw [if_neg hsize] at hr
    by_cases hhole : (w.getDataBlock dev g einode nBlk).1 = 0
    · rw [if_pos hhole] at hr
      rw [← Option.some.inj hr]
      exact hblock
    · rw [if_neg hhole] at hr
      exact (hblock.trans (hdev _ _ _)).trans (ih _ _ _ _ _ _ _ hr)

/-- The block that `ext2_write` puts into the inode. -/
theorem newBlock_grows (einode : Bytes) (nBlk : Nat) :
    Grows w.heap ((w.allocBlock dev g).2.setBlockInodeData dev g einode nBlk (w.allocBlock dev g).1).2.heap :=
  (allocBlockGroups_grows hdev g _ w).trans (setBlockInodeData_grows hdev g _ einode nBlk _)

theorem ext2WriteSkip_grows (fuel : Nat) : ∀ (w : Ext2Kernel) (einode : Bytes) (off : Int) (nBlk : Nat) r,
    ext2WriteSkip dev g fuel w einode off nBlk = some r → Grows w.heap r.2.2.2.heap := by
  induction fuel with
  | zero =>
    intro w einode off nBlk r hr
    cases hr
  | succ fuel ih =>
    intro w einode off nBlk r hr
    have hblock := getDataBlock_grows hdev g w (ext2InodeAt einode) nBlk
    unfold ext2WriteSkip at hr
    dsimp only at hr
    by_cases hoff : off < w.blockSize
    · rw [if_pos hoff] at hr
      rw [← Option.some.inj hr]
    rw [if_neg hoff] at hr
    generalize w.getDataBlock dev g (ext2InodeAt einode) nBlk = a at hr hblock
    by_cases hhole : a.1 = 0
    · rw [if_pos hhole] at hr
      exact (hblock.trans (newBlock_grows hdev g a.2 einode nBlk)).trans (ih _ _ _ _ _ hr)
    · rw [if_neg hhole] at hr
      exact hblock.trans (ih _ _ _ _ _ hr)

theorem ext2WriteLoop_grows (buf : Bytes) (fuel : Nat) : ∀ (w : Ext2Kernel) (einode : Bytes) (size : Nat) (off : Int)
    (nBlk count : Nat) r, ext2WriteLoop dev g buf fuel w einode size off nBlk count = some r →
      Grows w.heap r.2.2.heap := by
  induction fuel with
  | zero =>
    intro w einode size off nBlk count r hr
    cases hr
  | succ fuel ih =>
    intro w einode size off nBlk count r hr
    have hblock := getDataBlock_grows hdev g w (ext2InodeAt einode) nBlk
    unfold ext2WriteLoop at hr
    dsimp only at hr
    by_cases hsize : size = 0
    · rw [if_pos hsize] at hr
      rw [← Option.some.inj hr]
    rw [if_neg hsize] at hr
    generalize w.getDataBlock dev g (ext2InodeAt einode) nBlk = a at hr hblock
    by_cases hhole : a.1 = 0
    · rw [if_pos hhole] at hr
      have hnew := newBlock_grows hdev g a.2 einode nBlk
      exact ((hblock.trans hnew).trans (hdev _ _ _)).trans (ih _ _ _ _ _ _ _ hr)
    · rw [if_neg hhole] at hr
      exact (hblock.trans (hdev _ _ _)).trans (ih _ _ _ _ _ _ _ hr)

theorem findDirEntryFrom_grows (dirInode : Ext2Inode) (name : List UInt8) (fuel : Nat) : ∀ (w : Ext2Kernel)
    (block : Bytes) (i count logical : Nat) r,
    findDirEntryFrom dev g dirInode name fuel w block i count logical = some r → Grows w.heap r.2.heap := by
  induction fuel with
  | zero =>
    intro w block i count logical r hr
    cases hr
  | succ fuel ih =>
    intro w block i count logical r hr
    have hblock := fun n => getDataBlock_grows hdev g w dirInode n
    unfold findDirEntryFrom at hr
    dsimp only at hr
    split_ifs at hr
    · rw [← Option.some.inj hr]
    · rw [← Option.some.inj hr]
    · exact ((hblock _).trans (hdev _ _ _)).trans (ih _ _ _ _ _ _ hr)
    · exact ih _ _ _ _ _ _ hr

/-- A lookup keeps the buffer of `readdir_inode`. -/
theorem getinodeFromName_leaks (fuel inode : Nat) (name : List UInt8) {r : Int × Ext2Kernel}
    (hr : w.getinodeFromName dev g fuel inode name = some r) : Grows w.heap.kmalloc r.2.heap := by
  unfold Ext2Kernel.getinodeFromName at hr
  dsimp only at hr
  obtain ⟨found, hfound, heq⟩ := Option.map_eq_some_iff.mp hr
  have hfind := findDirEntryFrom_grows hdev g _ name fuel _ _ _ _ _ _ hfound
  have hinode := (readInode_leaks hdev g w.kmalloc inode).of_kmalloc
  rw [← heq]
  exact (((hinode.trans (grows_kmalloc _)).trans (getDataBlock_grows hdev g _ _ _)).trans (hdev _ _ _)).trans hfind

end

/-! ## Single calls -/

/-- No buffer is allocated for a transfer of nothing, or behind the end of the device. -/
def noTransfer (b : Blockdev) (count : UInt32) (offset : UInt64) : Prop :=
  count = 0 ∨ offset / b.blockSize.toUInt64 ≥ b.numberOfBlocks

theorem transferLoop_noTransfer {b : Blockdev} {count : UInt32} {offset : UInt64} (hno : noTransfer b count offset)
    (h : Kheap) : transferLoop b count count.toNat 0 offset h = h := by
  cases hfuel : count.toNat with
  | zero => rfl
  | succ fuel =>
    unfold transferLoop
    by_cases hlt : (0 : UInt32) < count
    · have hne : count ≠ 0 := by
        intro hzero
        rw [hzero] at hlt
        exact absurd hlt (by decide)
      rw [if_neg (not_not.mpr hlt), if_pos (hno.resolve_left hne)]
    · rw [if_pos hlt]

theorem transferLoop_leaks {b : Blockdev} {count : UInt32} {offset : UInt64} (hno : ¬ noTransfer b count offset)
    (h : Kheap) : Grows h.kmalloc (transferLoop b count count.toNat 0 offset h) := by
  have hne : count ≠ 0 := fun hzero => hno (Or.inl hzero)
  have hend : ¬ offset / b.blockSize.toUInt64 ≥ b.numberOfBlocks := fun hend => hno (Or.inr hend)
  have hpos : 0 < count.toNat := by
    rw [Nat.pos_iff_ne_zero]
    intro hzero
    exact hne (UInt32.toNat_inj.mp hzero)
  obtain ⟨fuel, hfuel⟩ : ∃ fuel, count.toNat = fuel + 1 := ⟨count.toNat - 1, by omega⟩
  have hlt : (0 : UInt32) < count := hpos
  rw [hfuel]
  unfold transferLoop
  rw [if_neg (not_not.mpr hlt), if_neg hend]
  exact transferLoop_grows b count _ _ _ _

theorem blockdevOf_grows (b : Blockdev) (garbage : Nat → Nat → UInt8) (count pos : Nat) (h : Kheap) :
    Grows h ((blockdevOf b garbage).heap count pos h) := transferLoop_grows b _ _ _ _ h

section

variable {dev : Blkdev} (hdev : ∀ count pos h, Grows h (dev.heap count pos h)) {g : FileGarbage} {fuel : Nat}
  {w : Ext2Kernel}

/-- `ext2_read` and `ext2_write` return before their first buffer where the descriptor does not allow the access
(`refused`), and where the number of the inode is negative as an `int`. -/
def noAccess (ofd : Ext2File) (refused : Nat) : Prop := ofd.flags &&& oAccmode = refused ∨ toInt ofd.iIno < 0

theorem ext2Read_noAccess {ofd : Ext2File} (hno : noAccess ofd oWronly) {buf : Bytes} {size : Nat}
    {r : Int × Bytes × Ext2File × Ext2Kernel} (hr : ext2Read dev g fuel w ofd buf size = some r) : r.2.2.2 = w := by
  unfold ext2Read at hr
  by_cases hflags : ofd.flags &&& oAccmode = oWronly
  · rw [if_pos hflags] at hr
    rw [← Option.some.inj hr]
  · have hneg := not_le.mpr (hno.resolve_left hflags)
    rw [if_neg hflags, if_neg hneg] at hr
    rw [← Option.some.inj hr]

theorem ext2Write_noAccess {ofd : Ext2File} (hno : noAccess ofd oRdonly) {buf : Bytes} {size : Nat}
    {r : Int × Ext2Kernel} (hr : ext2Write dev g fuel w ofd buf size = some r) : r.2 = w := by
  unfold ext2Write at hr
  by_cases hflags : ofd.flags &&& oAccmode = oRdonly
  · rw [if_pos hflags] at hr
    rw [← Option.some.inj hr]
  · have hneg := not_le.mpr (hno.resolve_left hflags)
    rw [if_neg hflags, if_neg hneg] at hr
    rw [← Option.some.inj hr]

include hdev

theorem ext2Read_leaks {ofd : Ext2File} (hno : ¬ noAccess ofd oWronly) {buf : Bytes} {size : Nat}
    {r : Int × Bytes × Ext2File × Ext2Kernel} (hr : ext2Read dev g fuel w ofd buf size = some r) :
    Grows w.heap.kmalloc r.2.2.2.heap := by
  obtain ⟨hflags, hino⟩ := not_or.mp hno
  have hleak := readInode_leaks hdev g w ofd.iIno
  unfold ext2Read at hr
  rw [if_neg hflags, if_pos (not_lt.mp hino)] at hr
  dsimp only at hr
  split_ifs at hr
  · rw [← Option.some.inj hr]
    exact hleak
  · obtain ⟨found, hfound, heq⟩ := Option.map_eq_some_iff.mp hr
    rw [← heq]
    exact hleak.trans (ext2ReadLoop_grows hdev g _ fuel _ _ _ _ _ _ _ hfound)

theorem ext2Write_leaks {ofd : Ext2File} (hno : ¬ noAccess ofd oRdonly) {buf : Bytes} {size : Nat}
    {r : Int × Ext2Kernel} (hr : ext2Write dev g fuel w ofd buf size = some r) : Grows w.heap.kmalloc r.2.heap := by
  obtain ⟨hflags, hino⟩ := not_or.mp hno
  have hleak := readInode_leaks hdev g w ofd.iIno
  unfold ext2Write at hr
  rw [if_neg hflags, if_pos (not_lt.mp hino)] at hr
  dsimp only at hr
  obtain ⟨skipped, hskipped, hrest⟩ := Option.bind_eq_some_iff.mp hr
  obtain ⟨written, hwritten, heq⟩ := Option.map_eq_some_iff.mp hrest
  have hgrows := (hleak.trans (ext2WriteSkip_grows hdev g fuel _ _ _ _ _ hskipped)).trans
    (ext2WriteLoop_grows hdev g buf fuel _ _ _ _ _ _ _ hwritten)
  rw [← heq]
  by_cases hzero : ofd.iIno = 0
  · rw [if_pos hzero]
    exact hgrows
  · rw [if_neg hzero]
    exact hgrows.trans (hdev _ _ _)

/-- A lookup leaves a buffer behind in front of the blocks that it returns. -/
theorem ext2Lookup_leaks {dentry : Dentry} {name : List UInt8} {r : Option (Dentry × List Nat) × Ext2Kernel}
    (hr : w.ext2Lookup dev g fuel dentry name = some r) : ∃ h, Grows w.heap.kmalloc h ∧ Grows h r.2.heap ∧
      ∀ d, r.1 = some d → d.2 = [h.next, h.next + 1, h.next + 2] ∧ ∀ id ∈ d.2, id ∈ r.2.heap.live := by
  unfold Ext2Kernel.ext2Lookup at hr
  obtain ⟨⟨inode, w'⟩, hfound, heq⟩ := Option.map_eq_some_iff.mp hr
  dsimp only at heq
  have hleak := getinodeFromName_leaks hdev g w fuel _ name hfound
  by_cases hpos : inode ≤ 0
  · rw [if_pos hpos] at heq
    refine ⟨w'.heap, hleak, ?_, ?_⟩
    · rw [← heq]
    · intro d hd
      rw [← heq] at hd
      cases hd
  · rw [if_neg hpos] at heq
    have hread := (readInode_leaks hdev g w' inode.toNat).of_kmalloc
    refine ⟨_, hleak.trans hread, ?_, ?_⟩
    · rw [← heq]
      exact ((grows_kmalloc _).trans (grows_kmalloc _)).trans (grows_kmalloc _)
    · intro d hd
      rw [← heq] at hd ⊢
      rw [← Option.some.inj hd]
      refine ⟨rfl, ?_⟩
      intro id hid
      simp only [List.mem_cons, List.not_mem_nil, or_false] at hid
      simp only [Ext2Kernel.kmalloc, Kheap.kmalloc, List.mem_cons]
      tauto

end

/-! ## Sequences of calls -/

/-- The kernel, the blocks that lived at the start, and those that `ext2_lookup` returned. -/
structure MemState where
  kernel : Ext2Kernel
  initial : List Nat
  returned : List Nat

/-- A device is the mounted one, or another. -/
inductive FileCall
  | read (g : FileGarbage) (ofd : Ext2File) (buf : Bytes) (size : Nat)
  | write (g : FileGarbage) (ofd : Ext2File) (buf : Bytes) (size : Nat)
  | lookup (g : FileGarbage) (dentry : Dentry) (name : List UInt8)
  | blockdevWrapRead (other : Option Blockdev) (count : UInt32) (offset : UInt64)
  | blockdevWrapWrite (other : Option Blockdev) (buf : Bytes) (count : UInt32) (offset : UInt64)

section

variable (b : Blockdev) (garbage : Nat → Nat → UInt8) (fuel : Nat)

/-- A call, with the mounted device `b`; `none` where it does not return. -/
def fileCall (s : MemState) : FileCall → Option MemState
  | .read g ofd buf size =>
    (ext2Read (blockdevOf b garbage) g fuel s.kernel ofd buf size).map fun r => { s with kernel := r.2.2.2 }
  | .write g ofd buf size =>
    (ext2Write (blockdevOf b garbage) g fuel s.kernel ofd buf size).map fun r => { s with kernel := r.2 }
  | .lookup g dentry name =>
    (s.kernel.ext2Lookup (blockdevOf b garbage) g fuel dentry name).map fun r =>
      { s with kernel := r.2, returned := (r.1.elim [] fun d => d.2) ++ s.returned }
  | .blockdevWrapRead other count offset =>
    some { s with kernel :=
      { s.kernel with heap := transferLoop (other.getD b) count count.toNat 0 offset s.kernel.heap } }
  | .blockdevWrapWrite other buf count offset =>
    let disk := match other with
      | none => (blockdevOf b garbage).write s.kernel.volume.disk buf count.toNat offset.toNat
      | some _ => s.kernel.volume.disk
    some { s with kernel :=
      { volume := { s.kernel.volume with disk := disk }
        heap := transferLoop (other.getD b) count count.toNat 0 offset s.kernel.heap } }

def fileStep (s : MemState) (call : FileCall) : MemState := (fileCall b garbage fuel s call).getD s

def callReturns (s : MemState) (call : FileCall) : Prop := (fileCall b garbage fuel s call).isSome

/-- The call returns before it allocates its first buffer. -/
def beforeBuffer : FileCall → Prop
  | .read _ ofd _ _ => noAccess ofd oWronly
  | .write _ ofd _ _ => noAccess ofd oRdonly
  | .lookup _ _ _ => False
  | .blockdevWrapRead other count offset => noTransfer (other.getD b) count offset
  | .blockdevWrapWrite other _ count offset => noTransfer (other.getD b) count offset

/-- The live blocks are those of the start and those that `ext2_lookup` returned. -/
def MemState.Conserved (s : MemState) : Prop := ∀ id, id ∈ s.kernel.heap.live ↔ id ∈ s.initial ∨ id ∈ s.returned

/-- What every call keeps. -/
structure MemInv (s : MemState) : Prop where
  below : ∀ id ∈ s.kernel.heap.live, id < s.kernel.heap.next
  initial : ∀ id ∈ s.initial, id ∈ s.kernel.heap.live
  returned : ∀ id ∈ s.returned, id ∈ s.kernel.heap.live

/-- The heap of a call that allocates: a buffer first, and what it returns behind it. -/
def Leaks (s s' : MemState) : Prop := ∃ h new, Grows s.kernel.heap.kmalloc h ∧ Grows h s'.kernel.heap ∧
  s'.initial = s.initial ∧ s'.returned = new ++ s.returned ∧ ∀ id ∈ new, h.next ≤ id ∧ id ∈ s'.kernel.heap.live

/-- A call that returns nothing leaks where its heap does. -/
theorem Leaks.of_grows {s : MemState} {w : Ext2Kernel} (hgrows : Grows s.kernel.heap.kmalloc w.heap) :
    Leaks s { s with kernel := w } :=
  ⟨w.heap, [], hgrows, Grows.refl _, rfl, rfl, fun _ hid => absurd hid List.not_mem_nil⟩

variable {b garbage fuel}

theorem fileCall_quiet {s s' : MemState} {call : FileCall} (hquiet : beforeBuffer b call)
    (hcall : fileCall b garbage fuel s call = some s') :
    s'.kernel.heap = s.kernel.heap ∧ s'.initial = s.initial ∧ s'.returned = s.returned := by
  cases call with
  | read g ofd buf size =>
    obtain ⟨r, hr, rfl⟩ := Option.map_eq_some_iff.mp hcall
    exact ⟨congrArg Ext2Kernel.heap (ext2Read_noAccess hquiet hr), rfl, rfl⟩
  | write g ofd buf size =>
    obtain ⟨r, hr, rfl⟩ := Option.map_eq_some_iff.mp hcall
    exact ⟨congrArg Ext2Kernel.heap (ext2Write_noAccess hquiet hr), rfl, rfl⟩
  | lookup g dentry name => exact absurd hquiet id
  | blockdevWrapRead other count offset =>
    rw [← Option.some.inj hcall]
    exact ⟨transferLoop_noTransfer hquiet _, rfl, rfl⟩
  | blockdevWrapWrite other buf count offset =>
    rw [← Option.some.inj hcall]
    exact ⟨transferLoop_noTransfer hquiet _, rfl, rfl⟩

theorem fileCall_leaks {s s' : MemState} {call : FileCall} (hquiet : ¬ beforeBuffer b call)
    (hcall : fileCall b garbage fuel s call = some s') : Leaks s s' := by
  have hdev := blockdevOf_grows b garbage
  cases call with
  | read g ofd buf size =>
    obtain ⟨r, hr, rfl⟩ := Option.map_eq_some_iff.mp hcall
    exact Leaks.of_grows (ext2Read_leaks hdev hquiet hr)
  | write g ofd buf size =>
    obtain ⟨r, hr, rfl⟩ := Option.map_eq_some_iff.mp hcall
    exact Leaks.of_grows (ext2Write_leaks hdev hquiet hr)
  | lookup g dentry name =>
    obtain ⟨r, hr, rfl⟩ := Option.map_eq_some_iff.mp hcall
    obtain ⟨h, hleak, hgrows, hblocks⟩ := ext2Lookup_leaks hdev hr
    refine ⟨h, _, hleak, hgrows, rfl, rfl, ?_⟩
    intro id hid
    cases hd : r.1 with
    | none =>
      rw [hd] at hid
      exact absurd hid List.not_mem_nil
    | some d =>
      rw [hd] at hid
      obtain ⟨heq, hlive⟩ := hblocks d hd
      refine ⟨?_, hlive id hid⟩
      have hid' : id ∈ d.2 := hid
      rw [heq] at hid'
      simp only [List.mem_cons, List.not_mem_nil, or_false] at hid'
      omega
  | blockdevWrapRead other count offset =>
    rw [← Option.some.inj hcall]
    exact Leaks.of_grows (transferLoop_leaks hquiet _)
  | blockdevWrapWrite other buf count offset =>
    rw [← Option.some.inj hcall]
    exact Leaks.of_grows (transferLoop_leaks hquiet _)

theorem Leaks.inv {s s' : MemState} (hleaks : Leaks s s') (hinv : MemInv s) : MemInv s' := by
  obtain ⟨h, new, hleak, hgrows, hinitial, hreturned, hnew⟩ := hleaks
  have hall := hleak.of_kmalloc.trans hgrows
  refine ⟨hall.lt_next hinv.below, ?_, ?_⟩
  · intro id hid
    rw [hinitial] at hid
    exact hall.next_le.2 id (hinv.initial id hid)
  · intro id hid
    rw [hreturned] at hid
    rcases List.mem_append.mp hid with hid | hid
    · exact (hnew id hid).2
    · exact hall.next_le.2 id (hinv.returned id hid)

theorem Leaks.not_conserved {s s' : MemState} (hleaks : Leaks s s') (hinv : MemInv s) : ¬ s'.Conserved := by
  obtain ⟨h, new, hleak, hgrows, hinitial, hreturned, hnew⟩ := hleaks
  intro hcons
  have hbuffer := hleak.leaks
  have hlive := hgrows.next_le.2 _ hbuffer.1
  rcases (hcons _).mp hlive with hid | hid
  · rw [hinitial] at hid
    exact absurd (hinv.below _ (hinv.initial _ hid)) (Nat.lt_irrefl _)
  · rw [hreturned] at hid
    rcases List.mem_append.mp hid with hid | hid
    · have := (hnew _ hid).1
      omega
    · exact absurd (hinv.below _ (hinv.returned _ hid)) (Nat.lt_irrefl _)

theorem fileStep_inv {s : MemState} {call : FileCall} (hinv : MemInv s) (hret : callReturns b garbage fuel s call) :
    MemInv (fileStep b garbage fuel s call) := by
  obtain ⟨s', hs'⟩ := Option.isSome_iff_exists.mp hret
  have hstep : fileStep b garbage fuel s call = s' := by rw [fileStep, hs', Option.getD_some]
  rw [hstep]
  by_cases hquiet : beforeBuffer b call
  · obtain ⟨hheap, hinitial, hreturned⟩ := fileCall_quiet hquiet hs'
    constructor
    · rw [hheap]
      exact hinv.below
    · rw [hheap, hinitial]
      exact hinv.initial
    · rw [hheap, hreturned]
      exact hinv.returned
  · exact (fileCall_leaks hquiet hs').inv hinv

theorem fileStep_conserved_iff {s : MemState} {call : FileCall} (hinv : MemInv s)
    (hret : callReturns b garbage fuel s call) :
    (fileStep b garbage fuel s call).Conserved ↔ s.Conserved ∧ beforeBuffer b call := by
  obtain ⟨s', hs'⟩ := Option.isSome_iff_exists.mp hret
  have hstep : fileStep b garbage fuel s call = s' := by rw [fileStep, hs', Option.getD_some]
  rw [hstep]
  by_cases hquiet : beforeBuffer b call
  · obtain ⟨hheap, hinitial, hreturned⟩ := fileCall_quiet hquiet hs'
    rw [and_iff_left hquiet]
    unfold MemState.Conserved
    rw [hheap, hinitial, hreturned]
  · exact iff_of_false ((fileCall_leaks hquiet hs').not_conserved hinv) fun h => hquiet h.2

end

/-- **File accesses conserve the kernel memory exactly if they return before their first buffer.** After calls that
return, the live blocks are those of the start and what `ext2_lookup` returned if and only if no call of the sequence
is a lookup, an access that the descriptor allows to an inode, or a transfer of bytes of a device. -/
theorem memory_runs_law_iff (b : Blockdev) (garbage : Nat → Nat → UInt8) (fuel : Nat) (w : Ext2Kernel)
    (hfresh : ∀ id ∈ w.heap.live, id < w.heap.next) (calls : List FileCall)
    (hret : Guarded (fileStep b garbage fuel) (callReturns b garbage fuel) ⟨w, w.heap.live, []⟩ calls) :
    (run (fileStep b garbage fuel) ⟨w, w.heap.live, []⟩ calls).Conserved ↔
      Guarded (fileStep b garbage fuel) (fun _ call => beforeBuffer b call) ⟨w, w.heap.live, []⟩ calls := by
  have hstart : MemInv ⟨w, w.heap.live, []⟩ :=
    ⟨hfresh, fun _ hid => hid, fun _ hid => absurd hid List.not_mem_nil⟩
  have hlaw : MemState.Conserved ⟨w, w.heap.live, []⟩ := fun id => by simp
  have hrun := @run_iff_guarded _ _ (fileStep b garbage fuel) (callReturns b garbage fuel)
    (fun _ call => beforeBuffer b call) MemInv MemState.Conserved (fun _ _ hinv hret => fileStep_inv hinv hret)
    (fun _ _ hinv hret => fileStep_conserved_iff hinv hret) calls _ hstart hret
  rw [hrun, and_iff_right hlaw]

/-! ## One disk and one file -/

def smallFiles : Ext2Kernel := ⟨smallTables 128, ⟨[0], 1⟩⟩

def oneSector : FileCall := .blockdevWrapRead none 512 0

/-- A buffer of one sector stays behind. -/
theorem read_sector_leaks :
    ¬ (run (fileStep smallDisk (fun _ _ => 0) 1) ⟨smallFiles, smallFiles.heap.live, []⟩ [oneSector]).Conserved := by
  intro hcons
  have hlive : 1 ∈ (run (fileStep smallDisk (fun _ _ => 0) 1) ⟨smallFiles, smallFiles.heap.live, []⟩
      [oneSector]).kernel.heap.live := by decide
  rcases (hcons 1).mp hlive with hid | hid
  · exact absurd (show 1 ∈ [0] from hid) (by decide)
  · exact absurd (show 1 ∈ [] from hid) List.not_mem_nil

/-- A file opened for reading is written, and no bytes are read from the disk. -/
theorem refused_write_conserves :
    (run (fileStep smallDisk (fun _ _ => 0) 1) ⟨smallFiles, smallFiles.heap.live, []⟩
      [.write ⟨noGarbage, fun _ => 0, fun _ => 0⟩ ⟨0, 0, 2⟩ (fun _ => 7) 100, .blockdevWrapRead none 0 0]).Conserved :=
  (memory_runs_law_iff smallDisk (fun _ _ => 0) 1 smallFiles (by decide)
    [.write ⟨noGarbage, fun _ => 0, fun _ => 0⟩ ⟨0, 0, 2⟩ (fun _ => 7) 100, .blockdevWrapRead none 0 0]
    ⟨rfl, rfl, trivial⟩).mpr ⟨Or.inl rfl, Or.inl rfl, trivial⟩

end Desiros.Fs
