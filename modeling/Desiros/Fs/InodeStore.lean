import Desiros.Fs.MakeDir

/-!
# The inode table as a store (`ext2_internal.c`)

`write_inode` computes the address of an inode, `read_inode` loads its block and indexes into it. Both split the number
into a group, a block and a slot, so that what is written is read, and the other inodes stay as they are
(`writeInode_store`).
-/

namespace Desiros.Fs

open Desiros.Library

section

variable (v : Ext2Volume) (g : Garbage)

/-- `write_inode` with the value that it returns. -/
def writeInodeCall (inum : Int) (einode : Bytes) : Int × Ext2Volume :=
  (if 0 < inum then 0 else -enoent, writeInode v inum einode)

/-- Where the 128 bytes of an inode start. -/
def inodeSlot (inum : Nat) : Nat :=
  slotPos v ((inum - 1) / v.superblock.sInodesPerGroup) ((inum - 1) % v.superblock.sInodesPerGroup)

end

section

variable {v v' : Ext2Volume} {g : Garbage} {count i k : Nat} {x : Bytes}

/-- The geometry does not depend on the disk. -/
theorem InodeGeometry.of_fs (h : InodeGeometry v count)
    (hfs : v'.toExt2FsInstance = { v.toExt2FsInstance with disk := v'.disk }) : InodeGeometry v' count := by
  obtain ⟨fs, _, _, _, _, _, _, _, _⟩ := v'
  obtain ⟨d, rfl⟩ : ∃ d, fs = { v.toExt2FsInstance with disk := d } := ⟨fs.disk, hfs⟩
  exact ⟨h.inodesPerGroup_pos, h.inodeSize, h.count, h.word, h.tables⟩

theorem InodeGeometry.disk (h : InodeGeometry v count) (d : Bytes) : InodeGeometry { v with disk := d } count :=
  h.of_fs rfl

/-- The buffer of `read_inode` holds the slot. -/
theorem InodeGeometry.bufInode_eq (h : InodeGeometry v count) (g : Garbage) (hk : k < v.superblock.sInodesPerGroup)
    (hnumber : inodeNumber v i k ≤ count) {fs : Ext2FsInstance} (hsuper : fs.superblock = v.superblock)
    (hdesc : fs.groupDescTable = v.groupDescTable) : bufInode fs g (inodeNumber v i k) =
      fun t => if t < sizeofExt2Inode then fs.disk (slotPos v i k + t) else g.bufInode t := by
  have hread := h.slot_read g hk hnumber hsuper hdesc
  have hmin : min fs.superblock.sInodeSize 128 = sizeofExt2Inode := by
    rw [hsuper]
    exact Nat.min_eq_right h.inodeSize.1
  unfold bufInode
  dsimp only at hread ⊢
  rw [hmin]
  funext t
  by_cases ht : t < sizeofExt2Inode
  · rw [if_pos ht, if_pos ht]
    exact hread t ht
  · rw [if_neg ht, if_neg ht]

/-- `write_inode` writes the slot. -/
theorem InodeGeometry.writeInode_eq (h : InodeGeometry v count) (hk : k < v.superblock.sInodesPerGroup)
    (hnumber : inodeNumber v i k ≤ count) (hint : inodeNumber v i k < 2 ^ 31) (disk x : Bytes) :
    writeInode { v with disk := disk } (toInt (inodeNumber v i k)) x =
      Ext2Volume.writeBytes { v with disk := disk } x sizeofExt2Inode (slotPos v i k) := by
  obtain ⟨hgroup, hindex⟩ := @InodeGeometry.split v i k count h hk
  have hpos : (0 : Int) < inodeNumber v i k := by
    unfold inodeNumber
    omega
  have hword : toWord ((inodeNumber v i k : Int) - 1) = i * v.superblock.sInodesPerGroup + k := by
    unfold toWord inodeNumber at *
    omega
  unfold writeInode
  rw [toInt_of_lt hint, if_pos hpos]
  dsimp only
  rw [hword, hgroup, hindex]
  show Ext2Volume.writeBytes _ _ _ ((_ + k / inodesPerBlock v) % 2 ^ 32 * v.blockSize + _) = _
  rw [h.block_mod hk hnumber]
  rfl

/-- A number of an inode is that of a group and an index in it. -/
theorem InodeGeometry.number (h : InodeGeometry v count) {inum : Nat} (hpos : 1 ≤ inum) :
    inodeNumber v ((inum - 1) / v.superblock.sInodesPerGroup) ((inum - 1) % v.superblock.sInodesPerGroup) = inum ∧
      (inum - 1) % v.superblock.sInodesPerGroup < v.superblock.sInodesPerGroup := by
  refine ⟨?_, Nat.mod_lt _ h.inodesPerGroup_pos⟩
  unfold inodeNumber
  rw [Nat.div_add_mod']
  exact Nat.sub_add_cancel hpos

/-- Different inodes have slots that do not meet. -/
theorem InodeGeometry.inodeSlots_apart (h : InodeGeometry v count) {i j : Nat} (hi : 1 ≤ i ∧ i ≤ count)
    (hj : 1 ≤ j ∧ j ≤ count) (hne : j ≠ i) :
    inodeSlot v i + sizeofExt2Inode ≤ inodeSlot v j ∨ inodeSlot v j + sizeofExt2Inode ≤ inodeSlot v i := by
  obtain ⟨hnumber, hk⟩ := h.number hi.1
  obtain ⟨hnumber', hm⟩ := h.number hj.1
  have hgroup : ∀ n, 1 ≤ n → n ≤ count → (n - 1) / v.superblock.sInodesPerGroup * v.superblock.sInodesPerGroup <
      count := by
    intro n hpos hle
    have hdiv := Nat.div_mul_le_self (n - 1) v.superblock.sInodesPerGroup
    omega
  refine h.slots_apart (hgroup i hi.1 hi.2) hk (hgroup j hj.1 hj.2) hm fun heq => hne ?_
  obtain ⟨hgroups, hindex⟩ := Prod.mk.inj heq
  rw [← hnumber, ← hnumber', hgroups, hindex]

/-- The buffer of `read_inode` holds the 128 bytes of the inode. -/
theorem InodeGeometry.bufInode_slot (h : InodeGeometry v count) (g : Garbage) {j : Nat} (hj : 1 ≤ j ∧ j ≤ count)
    {fs : Ext2FsInstance} (hsuper : fs.superblock = v.superblock) (hdesc : fs.groupDescTable = v.groupDescTable) :
    bufInode fs g j = fun t => if t < sizeofExt2Inode then fs.disk (inodeSlot v j + t) else g.bufInode t := by
  obtain ⟨hnumber, hk⟩ := h.number hj.1
  have heq := h.bufInode_eq g hk (hnumber.trans_le hj.2) hsuper hdesc
  rwa [hnumber] at heq

section

variable {n : Nat} (h : InodeGeometry v count) (hn : 1 ≤ n ∧ n ≤ count) (hint : n < 2 ^ 31)

include h hn hint

theorem InodeGeometry.writeInode_slot (x : Bytes) :
    writeInode v (toInt n) x = v.writeBytes x sizeofExt2Inode (inodeSlot v n) := by
  obtain ⟨hnumber, hk⟩ := h.number hn.1
  have heq := h.writeInode_eq hk (hnumber.trans_le hn.2) (hnumber.trans_lt hint) v.disk x
  rwa [hnumber] at heq

/-- Only the slot changes on the disk. -/
theorem InodeGeometry.writeInode_disk (x : Bytes) {p : Nat}
    (hp : p < inodeSlot v n ∨ inodeSlot v n + sizeofExt2Inode ≤ p) : (writeInode v (toInt n) x).disk p = v.disk p := by
  rw [h.writeInode_slot hn hint]
  exact if_neg (by omega)

/-- The inode written is read. -/
theorem InodeGeometry.bufInode_written (g : Garbage) (x : Bytes) :
    bufInode (writeInode v (toInt n) x).toExt2FsInstance g n =
      fun t => if t < sizeofExt2Inode then x t else g.bufInode t := by
  have hwrite := h.writeInode_slot hn hint x
  rw [h.bufInode_slot g hn (congrArg (·.superblock) hwrite) (congrArg (·.groupDescTable) hwrite), hwrite]
  funext t
  by_cases ht : t < sizeofExt2Inode
  · rw [if_pos ht, if_pos ht]
    show (if _ then x (inodeSlot v n + t - inodeSlot v n) else _) = x t
    rw [if_pos ⟨Nat.le_add_right _ _, Nat.add_lt_add_left ht _⟩, Nat.add_sub_cancel_left]
  · rw [if_neg ht, if_neg ht]

/-- The others are as they were. -/
theorem InodeGeometry.bufInode_other (g : Garbage) (x : Bytes) {j : Nat} (hj : 1 ≤ j ∧ j ≤ count) (hne : j ≠ n) :
    bufInode (writeInode v (toInt n) x).toExt2FsInstance g j = bufInode v.toExt2FsInstance g j := by
  have hapart := h.inodeSlots_apart hn hj hne
  have hsame : ∀ t < sizeofExt2Inode,
      (writeInode v (toInt n) x).disk (inodeSlot v j + t) = v.disk (inodeSlot v j + t) :=
    fun t ht => h.writeInode_disk hn hint x (by omega)
  have hwrite := h.writeInode_slot hn hint x
  rw [h.bufInode_slot g hj (congrArg (·.superblock) hwrite) (congrArg (·.groupDescTable) hwrite),
    h.bufInode_slot g hj rfl rfl]
  funext t
  by_cases ht : t < sizeofExt2Inode
  · rw [if_pos ht, if_pos ht]
    exact hsame t ht
  · rw [if_neg ht, if_neg ht]

end

end

/-! ## Two groups with inodes of 256 bytes -/

/-- Blocks of 1024 bytes, eight inodes a group, and the tables in blocks 5 and 6, and 13 and 14. -/
def twoTables : Ext2Volume :=
  { smallTables 256 with
    nGroups := 2
    groupDescTable := fun i => ⟨8 * i + 5⟩ }

theorem twoTables_geometry : InodeGeometry twoTables 16 := by
  have hgroup : ∀ i, i * 8 < 16 → i = 0 ∨ i = 1 := fun i hi => by omega
  refine ⟨by decide, by decide, by decide, fun i hi => ?_, fun i j hi hj hne => ?_⟩
  · rcases hgroup i hi with rfl | rfl <;> decide
  · rcases hgroup i hi with rfl | rfl <;> rcases hgroup j hj with rfl | rfl
    · exact absurd rfl hne
    · exact .inl (by decide)
    · exact .inr (by decide)
    · exact absurd rfl hne

end Desiros.Fs
