import Desiros.Fs.BlockBitmap
import Desiros.Fs.Lookup

/-!
# Allocating inodes (`ext2_internal.c`)

`alloc_inode` writes the new inode at its number times the size of `struct ext2_inode` from the start of the
inode table, in 32 bits; `read_inode` goes by the inodes that fit a block, each of `s_inode_size` bytes.
`alloc_inode_law_iff` says when the two mean the same slot.
-/

namespace Desiros.Fs

open Desiros.Library

/-- `sizeof(struct ext2_inode)` -/
def sizeofExt2Inode : Nat := 128

section

variable (v : Ext2Volume)

/-- `instance->write_data`. -/
def Ext2Volume.writeBytes (buf : Bytes) (count pos : Nat) : Ext2Volume :=
  { v with disk := fun n => if pos ≤ n ∧ n < pos + count then buf (n - pos) else v.disk n }

/-- The group and the bit at which the loops of `alloc_inode` stop. -/
def allocInodeAt : Option (Nat × Nat) :=
  (List.range v.nGroups).findSome? fun i =>
    if v.bgFreeInodesCount i ≠ 0 then
      (firstClear (v.inodeBitmap i) v.superblock.sInodesPerGroup).map fun ib => (i, ib)
    else none

/-- `inode` is the `struct ext2_inode` as it lies in memory. -/
def allocInode (inode : Bytes) : Int × Ext2Volume :=
  match allocInodeAt v with
  | some (i, ib) =>
    let inodeN := toInt ((i * v.superblock.sInodesPerGroup + ib + 1) % 2 ^ 32)
    let addrTable := v.addrOf (v.groupDescTable i).bgInodeTable
    let v := v.writeBytes inode sizeofExt2Inode ((addrTable + sizeofExt2Inode * ib) % 2 ^ 32)
    let byte := setBit (v.inodeBitmap i (ib / 8)) (ib % 8)
    let v := { v with
      inodeBitmap := Function.update v.inodeBitmap i (Function.update (v.inodeBitmap i) (ib / 8) byte) }
    (inodeN, v.writeByte ((v.addrOf (v.bgInodeBitmap i) + ib / 8) % 2 ^ 32) byte)
  | none => (0, v)

/-! ## Slots -/

def inodesPerBlock : Nat := v.blockSize / v.superblock.sInodeSize

/-- Where `read_inode` finds inode `k` of group `i`. -/
def slotPos (i k : Nat) : Nat :=
  ((v.groupDescTable i).bgInodeTable + k / inodesPerBlock v) * v.blockSize +
    k % inodesPerBlock v * v.superblock.sInodeSize

/-- The block behind the inode table of group `i`. -/
def tableEnd (i : Nat) : Nat :=
  (v.groupDescTable i).bgInodeTable + (v.superblock.sInodesPerGroup + inodesPerBlock v - 1) / inodesPerBlock v

/-- The bit of inode `k` of group `i` on disk. -/
def diskInodeBit (i k : Nat) : Bool := bitAt v.disk (v.bgInodeBitmap i * v.blockSize) k

/-- The same bit in memory. -/
def memInodeBit (i k : Nat) : Bool := bitAt (v.inodeBitmap i) 0 k

/-- The number of inode `k` of group `i`. -/
def inodeNumber (i k : Nat) : Nat := i * v.superblock.sInodesPerGroup + k + 1

/-- The inode tables and bitmaps of an ext2 file system. -/
structure InodeTables : Prop where
  inodesPerGroup_pos : 0 < v.superblock.sInodesPerGroup
  inodeSize : sizeofExt2Inode ≤ v.superblock.sInodeSize ∧ v.superblock.sInodeSize ≤ v.blockSize
  fits : v.superblock.sInodesPerGroup ≤ 8 * v.blockSize
  number : v.nGroups * v.superblock.sInodesPerGroup < 2 ^ 32
  word : ∀ i < v.nGroups, tableEnd v i ≤ 2 ^ 32
  tables : ∀ i < v.nGroups, ∀ j < v.nGroups, i ≠ j →
    tableEnd v i ≤ (v.groupDescTable j).bgInodeTable ∨ tableEnd v j ≤ (v.groupDescTable i).bgInodeTable
  bitmaps : ∀ i < v.nGroups, ∀ j < v.nGroups, v.bgInodeBitmap i = v.bgInodeBitmap j → i = j
  apart : ∀ i < v.nGroups, ∀ j < v.nGroups,
    v.bgInodeBitmap i < (v.groupDescTable j).bgInodeTable ∨ tableEnd v j ≤ v.bgInodeBitmap i
  /-- The copy in memory is the bitmap on disk. -/
  copy : ∀ i < v.nGroups, ∀ k < v.superblock.sInodesPerGroup, memInodeBit v i k = diskInodeBit v i k

/-- The tables of the inodes `1` to `inodesCount` lie apart, in 32-bit block numbers. -/
structure InodeGeometry (inodesCount : Nat) : Prop where
  inodesPerGroup_pos : 0 < v.superblock.sInodesPerGroup
  inodeSize : sizeofExt2Inode ≤ v.superblock.sInodeSize ∧ v.superblock.sInodeSize ≤ v.blockSize
  count : inodesCount < 2 ^ 32
  word : ∀ i, i * v.superblock.sInodesPerGroup < inodesCount → tableEnd v i ≤ 2 ^ 32
  tables : ∀ i j, i * v.superblock.sInodesPerGroup < inodesCount → j * v.superblock.sInodesPerGroup < inodesCount →
    i ≠ j → tableEnd v i ≤ (v.groupDescTable j).bgInodeTable ∨ tableEnd v j ≤ (v.groupDescTable i).bgInodeTable

/-- `x` as `read_inode` returns it. -/
def inodeOf (g : Garbage) (x : Bytes) : Ext2Inode :=
  ext2InodeAt fun t => if t < sizeofExt2Inode then x t else g.bufInode t

/-- Inode `k` of group `i` is the new inode, and no other inode changes. -/
structure NewInode (g : Garbage) (x : Bytes) (v' : Ext2Volume) (i k : Nat) : Prop where
  read : readInode v'.toExt2FsInstance g (inodeNumber v i k) = inodeOf g x
  clear : diskInodeBit v i k = false ∧ memInodeBit v i k = false
  set : diskInodeBit v' i k = true ∧ memInodeBit v' i k = true
  others : ∀ j < v.nGroups, ∀ m < v.superblock.sInodesPerGroup, (j, m) ≠ (i, k) →
    readInode v'.toExt2FsInstance g (inodeNumber v j m) = readInode v.toExt2FsInstance g (inodeNumber v j m) ∧
      diskInodeBit v' j m = diskInodeBit v j m ∧ memInodeBit v' j m = memInodeBit v j m

/-- A positive number that `alloc_inode` returns is that of a new inode. -/
def AllocInodeLaw : Prop :=
  ∀ (g : Garbage) (x : Bytes), 0 < (allocInode v x).1 →
    ∃ i < v.nGroups, ∃ k < v.superblock.sInodesPerGroup, (allocInode v x).1 = inodeNumber v i k ∧
      NewInode v g x (allocInode v x).2 i k

/-- Inode `k` of group `i` is the first free one of the first group that has free inodes. -/
structure NextInode (i k : Nat) : Prop where
  group : i < v.nGroups ∧ v.bgFreeInodesCount i ≠ 0
  bit : k < v.superblock.sInodesPerGroup ∧ memInodeBit v i k = false
  first : ∀ m < k, memInodeBit v i m = true
  before : ∀ j < i, v.bgFreeInodesCount j ≠ 0 → ∀ m < v.superblock.sInodesPerGroup, memInodeBit v j m = true

/-- The slot of the next inode is the same in both formulas, and its addresses are 32-bit words. -/
def SlotAgrees : Prop :=
  ∀ i k, NextInode v i k → inodeNumber v i k < 2 ^ 31 →
    (v.superblock.sInodeSize = sizeofExt2Inode ∨ k = 0) ∧
      (v.groupDescTable i).bgInodeTable * v.blockSize + sizeofExt2Inode * k < 2 ^ 32 ∧
      v.bgInodeBitmap i * v.blockSize + k / 8 < 2 ^ 32

end

section

variable {v : Ext2Volume} {i j k m : Nat}

theorem firstClear_eq_some {bitmap : Bytes} {n : Nat} : firstClear bitmap n = some k ↔
    k < n ∧ bitAt bitmap 0 k = false ∧ ∀ m < k, bitAt bitmap 0 m = true := by
  unfold firstClear
  rw [List.find?_range_eq_some]
  simp only [Bool.not_eq_true', Bool.not_not, List.mem_range]
  tauto

/-- The first index at which a function has a value. -/
theorem findSome?_range_eq_some {β : Type} {f : Nat → Option β} {b : β} (n : Nat) :
    (List.range n).findSome? f = some b ↔ ∃ i < n, f i = some b ∧ ∀ j < i, f j = none := by
  induction n with
  | zero => exact iff_of_false (by simp) fun ⟨i, hi, _⟩ => Nat.not_lt_zero i hi
  | succ n ih =>
    rw [List.range_succ, List.findSome?_append, Option.or_eq_some_iff, ih, List.findSome?_eq_none_iff]
    constructor
    · rintro (⟨i, hi, hb⟩ | ⟨hnone, hb⟩)
      · exact ⟨i, Nat.lt_succ_of_lt hi, hb⟩
      · exact ⟨n, Nat.lt_succ_self n, by simpa using hb, fun j hj => hnone j (List.mem_range.mpr hj)⟩
    · rintro ⟨i, hi, hb, hbefore⟩
      rcases Nat.lt_succ_iff_lt_or_eq.mp hi with hlt | rfl
      · exact Or.inl ⟨i, hlt, hb, hbefore⟩
      · exact Or.inr ⟨fun j hj => hbefore j (List.mem_range.mp hj), by simpa using hb⟩

theorem firstClear_eq_none {bitmap : Bytes} {n : Nat} : firstClear bitmap n = none ↔
    ∀ m < n, bitAt bitmap 0 m = true := by
  unfold firstClear
  rw [List.find?_eq_none]
  simp only [Bool.not_eq_true', Bool.not_eq_false, List.mem_range]

theorem allocInodeAt_eq_some : allocInodeAt v = some (i, k) ↔ NextInode v i k := by
  unfold allocInodeAt
  rw [findSome?_range_eq_some]
  constructor
  · rintro ⟨j, hj, hfound, hbefore⟩
    split_ifs at hfound with hcount
    obtain ⟨m, hm, heq⟩ := Option.map_eq_some_iff.mp hfound
    obtain ⟨rfl, rfl⟩ := Prod.mk.inj heq
    obtain ⟨hlt, hclear, hfirst⟩ := firstClear_eq_some.mp hm
    refine ⟨⟨hj, hcount⟩, ⟨hlt, hclear⟩, hfirst, fun l hl hne => ?_⟩
    have hnone := hbefore l hl
    rw [if_pos hne, Option.map_eq_none_iff] at hnone
    exact firstClear_eq_none.mp hnone
  · intro h
    refine ⟨i, h.group.1, ?_, fun j hj => ?_⟩
    · rw [if_pos h.group.2, firstClear_eq_some.mpr ⟨h.bit.1, h.bit.2, h.first⟩]
      rfl
    · split_ifs with hcount
      · rw [firstClear_eq_none.mpr (h.before j hj hcount)]
        rfl
      · rfl

/-! ## Addresses -/

theorem blockSize_dvd (fs : Ext2FsInstance) : sizeofExt2Inode ∣ fs.blockSize := by
  unfold Ext2FsInstance.blockSize sizeofExt2Inode
  rw [Nat.shiftLeft_eq, Nat.dvd_mod_iff (by norm_num)]
  exact Dvd.dvd.mul_right (by norm_num) _

theorem table_le_slotPos (v : Ext2Volume) (i k : Nat) :
    (v.groupDescTable i).bgInodeTable * v.blockSize + v.superblock.sInodeSize * k ≤ slotPos v i k := by
  have hblock : inodesPerBlock v * v.superblock.sInodeSize ≤ v.blockSize := Nat.div_mul_le_self _ _
  have hmul := Nat.mul_le_mul_left (k / inodesPerBlock v) hblock
  calc (v.groupDescTable i).bgInodeTable * v.blockSize + v.superblock.sInodeSize * k
      = (v.groupDescTable i).bgInodeTable * v.blockSize + (k / inodesPerBlock v * (inodesPerBlock v *
          v.superblock.sInodeSize) + k % inodesPerBlock v * v.superblock.sInodeSize) := by
        rw [← Nat.mul_assoc, ← Nat.add_mul, Nat.div_add_mod', Nat.mul_comm k]
    _ ≤ (v.groupDescTable i).bgInodeTable * v.blockSize + (k / inodesPerBlock v * v.blockSize +
          k % inodesPerBlock v * v.superblock.sInodeSize) :=
        Nat.add_le_add_left (Nat.add_le_add_right hmul _) _
    _ = slotPos v i k := by rw [slotPos, Nat.add_mul, Nat.add_assoc]

section

variable {count : Nat} (h : InodeGeometry v count)

include h

theorem InodeGeometry.inodeSize_pos : 0 < v.superblock.sInodeSize :=
  Nat.lt_of_lt_of_le (by decide) h.inodeSize.1

theorem InodeGeometry.inodesPerBlock_pos : 0 < inodesPerBlock v := Nat.div_pos h.inodeSize.2 h.inodeSize_pos

/-- The slot of an inode lies in one block. -/
theorem InodeGeometry.slot_in_block (k : Nat) :
    k % inodesPerBlock v * v.superblock.sInodeSize + v.superblock.sInodeSize ≤ v.blockSize := by
  have hlt := Nat.mod_lt k h.inodesPerBlock_pos
  calc k % inodesPerBlock v * v.superblock.sInodeSize + v.superblock.sInodeSize
      = (k % inodesPerBlock v + 1) * v.superblock.sInodeSize := by rw [Nat.add_mul, Nat.one_mul]
    _ ≤ inodesPerBlock v * v.superblock.sInodeSize := Nat.mul_le_mul_right _ hlt
    _ ≤ v.blockSize := Nat.div_mul_le_self _ _

/-- The block of an inode lies in the table. -/
theorem InodeGeometry.block_lt_tableEnd (i : Nat) (hk : k < v.superblock.sInodesPerGroup) :
    (v.groupDescTable i).bgInodeTable + k / inodesPerBlock v < tableEnd v i := by
  have hpos := h.inodesPerBlock_pos
  have hdiv : k / inodesPerBlock v + 1 ≤
      (v.superblock.sInodesPerGroup + inodesPerBlock v - 1) / inodesPerBlock v := by
    rw [← Nat.add_div_right k hpos]
    exact Nat.div_le_div_right (by omega)
  unfold tableEnd
  omega

theorem InodeGeometry.slotPos_add_le (i : Nat) (hk : k < v.superblock.sInodesPerGroup) :
    slotPos v i k + v.superblock.sInodeSize ≤ tableEnd v i * v.blockSize := by
  have hblock := h.block_lt_tableEnd i hk
  have hslot := h.slot_in_block k
  have hmul : ((v.groupDescTable i).bgInodeTable + k / inodesPerBlock v + 1) * v.blockSize ≤
      tableEnd v i * v.blockSize := Nat.mul_le_mul_right _ hblock
  rw [Nat.add_mul, Nat.one_mul] at hmul
  unfold slotPos
  omega

/-- Slots of one group follow each other. -/
theorem InodeGeometry.slotPos_lt (i : Nat) (hkm : k < m) :
    slotPos v i k + v.superblock.sInodeSize ≤ slotPos v i m := by
  have hslot := h.slot_in_block k
  rcases Nat.lt_or_eq_of_le (Nat.div_le_div_right (c := inodesPerBlock v) hkm.le) with hblock | hblock
  · have hmul := Nat.mul_le_mul_right v.blockSize hblock
    rw [Nat.succ_mul] at hmul
    unfold slotPos
    rw [Nat.add_mul, Nat.add_mul]
    omega
  · have hdiv := Nat.div_add_mod k (inodesPerBlock v)
    have hdiv' := Nat.div_add_mod m (inodesPerBlock v)
    rw [hblock] at hdiv
    have hmod : k % inodesPerBlock v + 1 ≤ m % inodesPerBlock v := by omega
    have hmul := Nat.mul_le_mul_right v.superblock.sInodeSize hmod
    rw [Nat.add_mul, Nat.one_mul] at hmul
    unfold slotPos
    rw [hblock]
    omega

/-- The slots of two inodes do not meet. -/
theorem InodeGeometry.slots_apart (hi : i * v.superblock.sInodesPerGroup < count) (hk : k < v.superblock.sInodesPerGroup)
    (hj : j * v.superblock.sInodesPerGroup < count) (hm : m < v.superblock.sInodesPerGroup) (hne : (j, m) ≠ (i, k)) :
    slotPos v i k + sizeofExt2Inode ≤ slotPos v j m ∨ slotPos v j m + sizeofExt2Inode ≤ slotPos v i k := by
  have hsize := h.inodeSize.1
  by_cases hij : i = j
  · subst hij
    have hkm : k ≠ m := fun hkm => hne (by rw [hkm])
    rcases Nat.lt_or_gt_of_ne hkm with hlt | hgt
    · have := h.slotPos_lt i hlt
      omega
    · have := h.slotPos_lt i hgt
      omega
  · have hend := h.slotPos_add_le i hk
    have hend' := h.slotPos_add_le j hm
    have hstart := table_le_slotPos v i k
    have hstart' := table_le_slotPos v j m
    rcases h.tables i j hi hj hij with hle | hle
    · have := Nat.mul_le_mul_right v.blockSize hle
      omega
    · have := Nat.mul_le_mul_right v.blockSize hle
      omega

/-- An inode number is split into the group and the index in it. -/
theorem InodeGeometry.split (hk : k < v.superblock.sInodesPerGroup) :
    (i * v.superblock.sInodesPerGroup + k) / v.superblock.sInodesPerGroup = i ∧
      (i * v.superblock.sInodesPerGroup + k) % v.superblock.sInodesPerGroup = k := by
  constructor
  · rw [Nat.mul_comm, Nat.mul_add_div h.inodesPerGroup_pos, Nat.div_eq_of_lt hk, Nat.add_zero]
  · rw [Nat.mul_comm, Nat.mul_add_mod, Nat.mod_eq_of_lt hk]

/-- The block of the slot is a 32-bit number. -/
theorem InodeGeometry.block_mod (hk : k < v.superblock.sInodesPerGroup) (hnumber : inodeNumber v i k ≤ count) :
    ((v.groupDescTable i).bgInodeTable + k / inodesPerBlock v) % 2 ^ 32 =
      (v.groupDescTable i).bgInodeTable + k / inodesPerBlock v := by
  have hgroup : i * v.superblock.sInodesPerGroup < count := by
    unfold inodeNumber at hnumber
    omega
  exact Nat.mod_eq_of_lt (Nat.lt_of_lt_of_le (h.block_lt_tableEnd i hk) (h.word i hgroup))

/-- `read_inode` finds the slot. -/
theorem InodeGeometry.slot_read (g : Garbage) (hk : k < v.superblock.sInodesPerGroup)
    (hnumber : inodeNumber v i k ≤ count) {fs : Ext2FsInstance} (hsuper : fs.superblock = v.superblock)
    (hdesc : fs.groupDescTable = v.groupDescTable) :
    let inum := (inodeNumber v i k + (2 ^ 32 - 1)) % 2 ^ 32
    let inodeInGroup := inum % fs.superblock.sInodesPerGroup
    let inodePerBlock := fs.blockSize / fs.superblock.sInodeSize
    ∀ t < sizeofExt2Inode, getBlock fs g (((fs.groupDescTable (inum / fs.superblock.sInodesPerGroup)).bgInodeTable +
      inodeInGroup / inodePerBlock) % 2 ^ 32) (inodeInGroup % inodePerBlock * fs.superblock.sInodeSize + t) =
        fs.disk (slotPos v i k + t) := by
  intro inum inodeInGroup inodePerBlock t ht
  obtain ⟨hgroup, hindex⟩ := @InodeGeometry.split v i k count h hk
  have hword : inum = i * v.superblock.sInodesPerGroup + k := by
    have hcount := h.count
    show (inodeNumber v i k + (2 ^ 32 - 1)) % 2 ^ 32 = _
    unfold inodeNumber at hnumber ⊢
    omega
  have hbs : fs.blockSize = v.blockSize := by
    unfold Ext2FsInstance.blockSize
    rw [hsuper]
  have hper : inodePerBlock = inodesPerBlock v := by
    show fs.blockSize / fs.superblock.sInodeSize = _
    rw [hbs, hsuper]
    rfl
  have hin : inodeInGroup = k := by
    show inum % fs.superblock.sInodesPerGroup = _
    rw [hword, hsuper, hindex]
  have hslot := h.slot_in_block k
  have hsize := h.inodeSize.1
  rw [hin, hper, hword, hsuper, hgroup, hdesc, h.block_mod hk hnumber]
  unfold getBlock readData slotPos
  rw [hbs, if_pos (by omega), Nat.add_assoc]

/-- `read_inode` reads the slot. -/
theorem InodeGeometry.readInode_eq (g : Garbage) (hk : k < v.superblock.sInodesPerGroup)
    (hnumber : inodeNumber v i k ≤ count) {fs : Ext2FsInstance} (hsuper : fs.superblock = v.superblock)
    (hdesc : fs.groupDescTable = v.groupDescTable) :
    readInode fs g (inodeNumber v i k) = inodeOf g fun t => fs.disk (slotPos v i k + t) := by
  have hread := h.slot_read g hk hnumber hsuper hdesc
  have hmin : min fs.superblock.sInodeSize 128 = sizeofExt2Inode := by
    rw [hsuper]
    exact Nat.min_eq_right h.inodeSize.1
  unfold readInode inodeOf
  dsimp only at hread ⊢
  rw [hmin]
  apply congrArg
  funext t
  by_cases ht : t < sizeofExt2Inode
  · rw [if_pos ht, if_pos ht]
    exact hread t ht
  · rw [if_neg ht, if_neg ht]

end

theorem inodeNumber_le (hi : i < v.nGroups) (hk : k < v.superblock.sInodesPerGroup) :
    inodeNumber v i k ≤ v.nGroups * v.superblock.sInodesPerGroup := by
  have hmul := Nat.mul_le_mul_right v.superblock.sInodesPerGroup hi
  rw [Nat.succ_mul] at hmul
  unfold inodeNumber
  omega

section

variable (h : InodeTables v)

include h

/-- All inodes of the groups. -/
theorem InodeTables.geometry : InodeGeometry v (v.nGroups * v.superblock.sInodesPerGroup) := by
  have hlt : ∀ i, i * v.superblock.sInodesPerGroup < v.nGroups * v.superblock.sInodesPerGroup → i < v.nGroups :=
    fun i hi => Nat.lt_of_mul_lt_mul_right hi
  exact ⟨h.inodesPerGroup_pos, h.inodeSize, h.number, fun i hi => h.word i (hlt i hi),
    fun i j hi hj hne => h.tables i (hlt i hi) j (hlt j hj) hne⟩

theorem InodeTables.blockSize_pos : 0 < v.blockSize :=
  Nat.lt_of_lt_of_le h.geometry.inodeSize_pos h.inodeSize.2

theorem InodeTables.slot_in_block (k : Nat) :
    k % inodesPerBlock v * v.superblock.sInodeSize + v.superblock.sInodeSize ≤ v.blockSize :=
  h.geometry.slot_in_block k

theorem InodeTables.block_lt_tableEnd (i : Nat) (hk : k < v.superblock.sInodesPerGroup) :
    (v.groupDescTable i).bgInodeTable + k / inodesPerBlock v < tableEnd v i := h.geometry.block_lt_tableEnd i hk

theorem InodeTables.slotPos_add_le (i : Nat) (hk : k < v.superblock.sInodesPerGroup) :
    slotPos v i k + v.superblock.sInodeSize ≤ tableEnd v i * v.blockSize := h.geometry.slotPos_add_le i hk

theorem InodeTables.slots_apart (hi : i < v.nGroups) (hk : k < v.superblock.sInodesPerGroup) (hj : j < v.nGroups)
    (hm : m < v.superblock.sInodesPerGroup) (hne : (j, m) ≠ (i, k)) :
    slotPos v i k + sizeofExt2Inode ≤ slotPos v j m ∨ slotPos v j m + sizeofExt2Inode ≤ slotPos v i k :=
  h.geometry.slots_apart (Nat.mul_lt_mul_of_pos_right hi h.inodesPerGroup_pos) hk
    (Nat.mul_lt_mul_of_pos_right hj h.inodesPerGroup_pos) hm hne

/-- The byte of a bit of an inode bitmap lies in no slot. -/
theorem InodeTables.bitmap_apart (hi : i < v.nGroups) (hk : k < v.superblock.sInodesPerGroup) (hj : j < v.nGroups)
    (hm : m < v.superblock.sInodesPerGroup) :
    v.bgInodeBitmap i * v.blockSize + k / 8 < slotPos v j m ∨
      slotPos v j m + sizeofExt2Inode ≤ v.bgInodeBitmap i * v.blockSize + k / 8 := by
  have hsize := h.inodeSize.1
  have hfits := h.fits
  have hend := h.slotPos_add_le j hm
  have hstart := table_le_slotPos v j m
  rcases h.apart i hi j hj with hlt | hle
  · have := Nat.mul_le_mul_right v.blockSize hlt
    rw [Nat.succ_mul] at this
    omega
  · have := Nat.mul_le_mul_right v.blockSize hle
    omega

/-- The slot of an inode lies in a block of the table. -/
theorem InodeTables.slot_block {t : Nat} (hk : k < v.superblock.sInodesPerGroup) (ht : t < sizeofExt2Inode) :
    (slotPos v i k + t) / v.blockSize = (v.groupDescTable i).bgInodeTable + k / inodesPerBlock v ∧
      (v.groupDescTable i).bgInodeTable + k / inodesPerBlock v < tableEnd v i := by
  have hslot := h.slot_in_block k
  have hsize := h.inodeSize.1
  refine ⟨?_, h.block_lt_tableEnd i hk⟩
  unfold slotPos
  rw [Nat.add_assoc]
  exact pos_div (by omega)

theorem InodeTables.readInode_eq (g : Garbage) (hi : i < v.nGroups) (hk : k < v.superblock.sInodesPerGroup)
    {fs : Ext2FsInstance} (hsuper : fs.superblock = v.superblock) (hdesc : fs.groupDescTable = v.groupDescTable) :
    readInode fs g (inodeNumber v i k) = inodeOf g fun t => fs.disk (slotPos v i k + t) :=
  h.geometry.readInode_eq g hk (inodeNumber_le hi hk) hsuper hdesc

end

/-! ## The write -/

/-- Where `alloc_inode` writes the inode. -/
def writePos (v : Ext2Volume) (i k : Nat) : Nat :=
  (v.addrOf (v.groupDescTable i).bgInodeTable + sizeofExt2Inode * k) % 2 ^ 32

/-- Where it writes the byte of the bitmap. -/
def bitmapPos (v : Ext2Volume) (i k : Nat) : Nat := (v.addrOf (v.bgInodeBitmap i) + k / 8) % 2 ^ 32

theorem allocInode_next (h : NextInode v i k) (x : Bytes) :
    (allocInode v x).1 = toInt (inodeNumber v i k % 2 ^ 32) ∧
      (allocInode v x).2.superblock = v.superblock ∧ (allocInode v x).2.groupDescTable = v.groupDescTable ∧
      (allocInode v x).2.bgInodeBitmap = v.bgInodeBitmap ∧
      (allocInode v x).2.inodeBitmap = Function.update v.inodeBitmap i
        (Function.update (v.inodeBitmap i) (k / 8) (setBit (v.inodeBitmap i (k / 8)) (k % 8))) ∧
      (allocInode v x).2.disk = Function.update (v.writeBytes x sizeofExt2Inode (writePos v i k)).disk
        (bitmapPos v i k) (setBit (v.inodeBitmap i (k / 8)) (k % 8)) := by
  unfold allocInode
  rw [allocInodeAt_eq_some.mpr h]
  exact ⟨rfl, rfl, rfl, rfl, rfl, rfl⟩

/-- A byte that neither write meets. -/
theorem allocInode_disk_of_ne (h : NextInode v i k) (x : Bytes) {n : Nat} (hbitmap : n ≠ bitmapPos v i k)
    (hslot : n < writePos v i k ∨ writePos v i k + sizeofExt2Inode ≤ n) : (allocInode v x).2.disk n = v.disk n := by
  rw [(allocInode_next h x).2.2.2.2.2, Function.update_of_ne hbitmap]
  exact if_neg (by omega)

/-- A byte of the slot. -/
theorem allocInode_disk_slot (h : NextInode v i k) (x : Bytes) {t : Nat} (ht : t < sizeofExt2Inode)
    (hbitmap : writePos v i k + t ≠ bitmapPos v i k) : (allocInode v x).2.disk (writePos v i k + t) = x t := by
  rw [(allocInode_next h x).2.2.2.2.2, Function.update_of_ne hbitmap]
  refine (if_pos (by omega)).trans ?_
  rw [Nat.add_sub_cancel_left]

theorem writePos_dvd (v : Ext2Volume) (i k : Nat) : sizeofExt2Inode ∣ writePos v i k := by
  have hword : sizeofExt2Inode ∣ 2 ^ 32 := by
    rw [sizeofExt2Inode]
    norm_num
  unfold writePos Ext2Volume.addrOf
  rw [Nat.dvd_mod_iff hword, Nat.dvd_add_left (Nat.dvd_mul_right _ _), Nat.dvd_mod_iff hword]
  exact Dvd.dvd.mul_left (blockSize_dvd v.toExt2FsInstance) _

/-- The inode is written at or before the slot. -/
theorem InodeTables.writePos_le (h : InodeTables v) (i k : Nat) :
    writePos v i k ≤ (v.groupDescTable i).bgInodeTable * v.blockSize + sizeofExt2Inode * k ∧
      (v.groupDescTable i).bgInodeTable * v.blockSize + sizeofExt2Inode * k ≤ slotPos v i k := by
  constructor
  · unfold writePos Ext2Volume.addrOf
    exact (Nat.mod_le _ _).trans (Nat.add_le_add_right (Nat.mod_le _ _) _)
  · have hsize := Nat.mul_le_mul_right k h.inodeSize.1
    exact (Nat.add_le_add_left hsize _).trans (table_le_slotPos v i k)

/-- The two formulas agree where both are exact. -/
theorem InodeTables.writePos_eq_iff (h : InodeTables v) (i k : Nat) : writePos v i k = slotPos v i k ↔
    (v.superblock.sInodeSize = sizeofExt2Inode ∨ k = 0) ∧
      (v.groupDescTable i).bgInodeTable * v.blockSize + sizeofExt2Inode * k < 2 ^ 32 := by
  constructor
  · intro heq
    have hle := h.writePos_le i k
    have hstart := table_le_slotPos v i k
    have hsize := h.inodeSize.1
    have hlt : writePos v i k < 2 ^ 32 := Nat.mod_lt _ (by norm_num)
    refine ⟨?_, by omega⟩
    by_contra hne
    rw [not_or] at hne
    have hmul : (sizeofExt2Inode + 1) * k ≤ v.superblock.sInodeSize * k := Nat.mul_le_mul_right k (by omega)
    rw [Nat.add_mul] at hmul
    omega
  · rintro ⟨hsize, hlt⟩
    have htable : (v.groupDescTable i).bgInodeTable * v.blockSize < 2 ^ 32 := by omega
    unfold writePos Ext2Volume.addrOf
    rw [Nat.mod_eq_of_lt htable, Nat.mod_eq_of_lt hlt]
    rcases hsize with hsize | rfl
    · have hblock : inodesPerBlock v * sizeofExt2Inode = v.blockSize := by
        unfold inodesPerBlock
        rw [hsize]
        exact Nat.div_mul_cancel (blockSize_dvd v.toExt2FsInstance)
      have hindex : k / inodesPerBlock v * (inodesPerBlock v * sizeofExt2Inode) +
          k % inodesPerBlock v * sizeofExt2Inode = sizeofExt2Inode * k := by
        rw [← Nat.mul_assoc, ← Nat.add_mul, Nat.div_add_mod', Nat.mul_comm]
      unfold slotPos
      rw [hsize, Nat.add_mul, Nat.add_assoc, ← hblock, hindex]
    · unfold slotPos
      rw [Nat.zero_div, Nat.zero_mod, Nat.add_zero, Nat.zero_mul, Nat.mul_zero]

theorem bitmapPos_eq_iff (v : Ext2Volume) (i k : Nat) :
    bitmapPos v i k = v.bgInodeBitmap i * v.blockSize + k / 8 ↔ v.bgInodeBitmap i * v.blockSize + k / 8 < 2 ^ 32 := by
  unfold bitmapPos Ext2Volume.addrOf
  constructor
  · intro heq
    rw [← heq]
    exact Nat.mod_lt _ (by norm_num)
  · intro hlt
    rw [Nat.mod_eq_of_lt (show v.bgInodeBitmap i * v.blockSize < 2 ^ 32 by omega), Nat.mod_eq_of_lt hlt]

/-! ## The law -/

theorem NextInode.unique (h : NextInode v i k) (h' : NextInode v j m) : i = j ∧ k = m := by
  have heq := (allocInodeAt_eq_some.mpr h).symm.trans (allocInodeAt_eq_some.mpr h')
  exact Prod.mk.inj (Option.some.inj heq)

/-- A number that is an `int`. -/
theorem toInt_of_lt {n : Nat} (hn : n < 2 ^ 31) : toInt n = n := if_pos hn

theorem toInt_pos_iff {n : Nat} (hn : n < 2 ^ 32) : 0 < toInt n ↔ 0 < n ∧ n < 2 ^ 31 := by
  unfold toInt
  split_ifs with h
  · omega
  · omega

theorem InodeTables.inodeNumber_lt (h : InodeTables v) (hi : i < v.nGroups)
    (hk : k < v.superblock.sInodesPerGroup) : inodeNumber v i k < 2 ^ 32 :=
  Nat.lt_of_le_of_lt (inodeNumber_le hi hk) h.number

/-- The number returned, for the next inode. -/
theorem InodeTables.allocInode_number (h : InodeTables v) (hnext : NextInode v i k) (x : Bytes) :
    0 < (allocInode v x).1 ↔ inodeNumber v i k < 2 ^ 31 := by
  have hlt := h.inodeNumber_lt hnext.group.1 hnext.bit.1
  rw [(allocInode_next hnext x).1, Nat.mod_eq_of_lt hlt, toInt_pos_iff hlt]
  exact and_iff_right (Nat.succ_pos _)

theorem InodeTables.allocInode_fst (h : InodeTables v) (hnext : NextInode v i k) (x : Bytes)
    (hsmall : inodeNumber v i k < 2 ^ 31) : (allocInode v x).1 = inodeNumber v i k := by
  have hlt := h.inodeNumber_lt hnext.group.1 hnext.bit.1
  rw [(allocInode_next hnext x).1, Nat.mod_eq_of_lt hlt, toInt, if_pos hsmall]

/-- The bits of the copy in memory. -/
theorem memInodeBit_next (hnext : NextInode v i k) (x : Bytes) (j m : Nat) :
    memInodeBit (allocInode v x).2 j m = (memInodeBit v j m || decide (j = i ∧ m = k)) := by
  unfold memInodeBit
  rw [(allocInode_next hnext x).2.2.2.2.1]
  by_cases hj : j = i
  · subst hj
    have hbit := @bitAt_setBit (v.inodeBitmap j) 0 0 k m
    have hsame : (0 + m / 8 = k / 8 ∧ k % 8 = m % 8) ↔ j = j ∧ m = k := by omega
    rw [Nat.zero_add, decide_eq_decide.mpr hsame] at hbit
    rw [Function.update_self]
    exact hbit
  · rw [Function.update_of_ne hj, decide_eq_false (fun hand => hj hand.1), Bool.or_false]

section

variable (h : InodeTables v) (hnext : NextInode v i k) (hslot : writePos v i k = slotPos v i k)
  (hbitmap : bitmapPos v i k = v.bgInodeBitmap i * v.blockSize + k / 8) (x : Bytes)

include h hnext hslot hbitmap

/-- The bits on disk. -/
theorem InodeTables.diskInodeBit_next (hj : j < v.nGroups) (hm : m < v.superblock.sInodesPerGroup) :
    diskInodeBit (allocInode v x).2 j m = (diskInodeBit v j m || decide (j = i ∧ m = k)) := by
  have hi := hnext.group.1
  have hfits := h.fits
  have hk := hnext.bit.1
  have hframe := allocInode_next hnext x
  have hbs : (allocInode v x).2.blockSize = v.blockSize := by
    unfold Ext2FsInstance.blockSize
    rw [hframe.2.1]
  -- The slot that is written lies apart from the bitmap.
  have hkept : v.disk (v.bgInodeBitmap j * v.blockSize + m / 8) =
      (v.writeBytes x sizeofExt2Inode (writePos v i k)).disk (v.bgInodeBitmap j * v.blockSize + m / 8) := by
    have hapart := h.bitmap_apart hj hm hi hk
    rw [← hslot] at hapart
    exact (if_neg (by omega)).symm
  have hdisk : diskInodeBit (allocInode v x).2 j m =
      bitAt (Function.update (v.writeBytes x sizeofExt2Inode (writePos v i k)).disk (bitmapPos v i k)
        (setBit (v.inodeBitmap i (k / 8)) (k % 8))) (v.bgInodeBitmap j * v.blockSize) m := by
    unfold diskInodeBit
    rw [hbs, hframe.2.2.2.1, hframe.2.2.2.2.2]
  rw [hdisk, bitAt_update, hbitmap]
  by_cases hbyte : v.bgInodeBitmap j * v.blockSize + m / 8 = v.bgInodeBitmap i * v.blockSize + k / 8
  · obtain ⟨hblock, hindex⟩ := block_pos_inj (show m / 8 < v.blockSize by omega) (show k / 8 < v.blockSize by omega)
      hbyte
    obtain rfl := h.bitmaps j hj i hi hblock
    have hcopy := h.copy j hj m hm
    have hsame : k % 8 = m % 8 ↔ j = j ∧ m = k := by omega
    rw [if_pos hbyte, testBit_setBit (Nat.mod_lt m (by decide)), decide_eq_decide.mpr hsame, ← hcopy]
    unfold memInodeBit bitAt
    rw [Nat.zero_add, hindex]
  · have hne : ¬ (j = i ∧ m = k) := fun hand => hbyte (by rw [hand.1, hand.2])
    rw [if_neg hbyte, decide_eq_false hne, Bool.or_false]
    unfold diskInodeBit bitAt
    rw [← hkept]

/-- Both writes meet the slot and the bit of the next inode, and nothing else. -/
theorem InodeTables.newInode (g : Garbage) : NewInode v g x (allocInode v x).2 i k := by
  have hi := hnext.group.1
  have hk := hnext.bit.1
  have hframe := allocInode_next hnext x
  have hcopy := h.copy i hi k hk
  refine ⟨?_, ⟨?_, hnext.bit.2⟩, ⟨?_, ?_⟩, fun j hj m hm hne => ⟨?_, ?_, ?_⟩⟩
  · rw [h.readInode_eq g hi hk hframe.2.1 hframe.2.2.1]
    unfold inodeOf
    apply congrArg
    funext t
    split_ifs with ht
    · have hapart := h.bitmap_apart hi hk hi hk
      rw [← hslot, ← hbitmap] at hapart
      rw [← hslot]
      exact allocInode_disk_slot hnext x ht (by omega)
    · rfl
  · rw [← hcopy]
    exact hnext.bit.2
  · rw [h.diskInodeBit_next hnext hslot hbitmap x hi hk, decide_eq_true ⟨rfl, rfl⟩, Bool.or_true]
  · rw [memInodeBit_next hnext, decide_eq_true ⟨rfl, rfl⟩, Bool.or_true]
  · rw [h.readInode_eq g hj hm hframe.2.1 hframe.2.2.1, h.readInode_eq g hj hm rfl rfl]
    unfold inodeOf
    apply congrArg
    funext t
    split_ifs with ht
    · have hapart := h.slots_apart hi hk hj hm hne
      have hbyte := h.bitmap_apart hi hk hj hm
      rw [← hslot] at hapart
      rw [← hbitmap] at hbyte
      exact allocInode_disk_of_ne hnext x (by omega) (by omega)
    · rfl
  · have hfalse : ¬ (j = i ∧ m = k) := fun hand => hne (by rw [hand.1, hand.2])
    rw [h.diskInodeBit_next hnext hslot hbitmap x hj hm, decide_eq_false hfalse, Bool.or_false]
  · have hfalse : ¬ (j = i ∧ m = k) := fun hand => hne (by rw [hand.1, hand.2])
    rw [memInodeBit_next hnext, decide_eq_false hfalse, Bool.or_false]

end

/-- A bitmap behind the first 4 GiB is not written. -/
theorem InodeTables.bitmapPos_of_law (h : InodeTables v) (hnext : NextInode v i k)
    (hset : ∀ x, diskInodeBit (allocInode v x).2 i k = true) :
    v.bgInodeBitmap i * v.blockSize + k / 8 < 2 ^ 32 := by
  by_contra hhigh
  have hframe := allocInode_next hnext fun _ => 0
  have hbs : (allocInode v fun _ => 0).2.blockSize = v.blockSize := by
    unfold Ext2FsInstance.blockSize
    rw [hframe.2.1]
  have hwrite : writePos v i k < 2 ^ 32 := Nat.mod_lt _ (by norm_num)
  have hbyte : bitmapPos v i k < 2 ^ 32 := Nat.mod_lt _ (by norm_num)
  obtain ⟨q, hq⟩ := writePos_dvd v i k
  have hend : writePos v i k + sizeofExt2Inode ≤ 2 ^ 32 := by
    unfold sizeofExt2Inode at hq ⊢
    omega
  have hsame : diskInodeBit (allocInode v fun _ => 0).2 i k = diskInodeBit v i k := by
    unfold diskInodeBit bitAt
    rw [hbs, hframe.2.2.2.1, allocInode_disk_of_ne hnext (fun _ => 0) (by omega) (by omega)]
  have hclear := h.copy i hnext.group.1 k hnext.bit.1
  rw [hnext.bit.2] at hclear
  have htrue := hset fun _ => 0
  rw [hsame, ← hclear] at htrue
  cases htrue

/-- An inode written elsewhere is not read: its last byte stays what it was. -/
theorem InodeTables.slot_of_law (h : InodeTables v) (hnext : NextInode v i k) (g : Garbage)
    (hbitmap : bitmapPos v i k = v.bgInodeBitmap i * v.blockSize + k / 8)
    (hread : ∀ x, readInode (allocInode v x).2.toExt2FsInstance g (inodeNumber v i k) = inodeOf g x) :
    writePos v i k = slotPos v i k := by
  by_contra hne
  have hi := hnext.group.1
  have hk := hnext.bit.1
  have hle := h.writePos_le i k
  have hapart := h.bitmap_apart hi hk hi hk
  rw [← hbitmap] at hapart
  let x : Bytes := fun _ => v.disk (slotPos v i k + 127) + 1
  have hframe := allocInode_next hnext x
  have heq := hread x
  rw [h.readInode_eq g hi hk hframe.2.1 hframe.2.2.1] at heq
  -- The last pointer of `i_block`, as an array that runs to the end of the inode.
  have hword : leWord (fun t => if t < sizeofExt2Inode then (allocInode v x).2.disk (slotPos v i k + t)
      else g.bufInode t) 124 4 = leWord (fun t => if t < sizeofExt2Inode then x t else g.bufInode t) 124 4 :=
    congrFun (congrArg Ext2Inode.iBlock heq) 21
  have hlast := leWord_inj 4 124 hword 3 (by norm_num)
  rw [if_pos (show 124 + 3 < sizeofExt2Inode by decide), if_pos (show 124 + 3 < sizeofExt2Inode by decide)] at hlast
  have hkept : (allocInode v x).2.disk (slotPos v i k + 127) = v.disk (slotPos v i k + 127) := by
    unfold sizeofExt2Inode at hapart
    apply allocInode_disk_of_ne hnext x (by omega)
    unfold sizeofExt2Inode
    omega
  have hchanged : (allocInode v x).2.disk (slotPos v i k + 127) = v.disk (slotPos v i k + 127) + 1 := hlast
  rw [hkept] at hchanged
  have hnat := congrArg UInt8.toNat hchanged
  rw [UInt8.toNat_add] at hnat
  have hone : (1 : UInt8).toNat = 1 := rfl
  have hbound := (v.disk (slotPos v i k + 127)).toNat_lt
  omega

end

/-! ## A group of eight inodes -/

/-- Blocks of 1024 bytes: the inode bitmap in block 2, where the first inode is in use, and the table from block 3
on, with inodes of `size` bytes. -/
def smallTables (size : Nat) : Ext2Volume where
  superblock := ⟨0, 8, size⟩
  groupDescTable := fun _ => ⟨3⟩
  disk := fun n => if n = 2048 then 1 else 0
  sFirstDataBlock := 1
  sBlocksPerGroup := 8
  nGroups := 1
  bgBlockBitmap := fun _ => 1
  bgFreeBlocksCount := fun _ => 0
  bgInodeBitmap := fun _ => 2
  bgFreeInodesCount := fun _ => 7
  inodeBitmap := fun _ n => if n = 0 then 1 else 0

theorem smallTables_tables {size : Nat} (hsize : size = 128 ∨ size = 256) : InodeTables (smallTables size) := by
  have hgroup : ∀ i < (smallTables size).nGroups, i = 0 := fun i hi => Nat.lt_one_iff.mp hi
  have hend : 3 < tableEnd (smallTables size) 0 ∧ tableEnd (smallTables size) 0 ≤ 2 ^ 32 := by
    rcases hsize with rfl | rfl <;> decide
  have hcopy : ∀ k < 8, memInodeBit (smallTables size) 0 k = diskInodeBit (smallTables size) 0 k := by
    rcases hsize with rfl | rfl <;> decide
  refine ⟨show 0 < 8 by decide, ?_, show 8 ≤ 8 * 1024 by decide, show 1 * 8 < 2 ^ 32 by decide, fun i hi => ?_,
    fun i hi j hj hne => ?_, fun i hi j hj _ => ?_, fun i _ j _ => Or.inl (show 2 < 3 by decide), fun i hi k hk => ?_⟩
  · rcases hsize with rfl | rfl <;> decide
  · rw [hgroup i hi]
    exact hend.2
  · exact absurd ((hgroup i hi).trans (hgroup j hj).symm) hne
  · exact (hgroup i hi).trans (hgroup j hj).symm
  · rw [hgroup i hi]
    exact hcopy k hk

end Desiros.Fs
