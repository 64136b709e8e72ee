import Desiros.Library.Bytes

/-!
# The ext2 file system (`ext2_internal.c`)

A mounted file system: the superblock and the group descriptors that `mount_EXT2` read, and the device. Numbers
are naturals, 32-bit products wrap. `getDataBlock` is the source's block mapping, which takes the pointers of an
indirect block from behind its own local variable; `formatBlock` is the mapping of the ext2 format.
-/

namespace Desiros.Fs

open Desiros.Library

structure Ext2SuperBlock where
  sLogBlockSize : Nat
  sInodesPerGroup : Nat
  sInodeSize : Nat

structure Ext2GroupDesc where
  bgInodeTable : Nat

structure Ext2FsInstance where
  superblock : Ext2SuperBlock
  groupDescTable : Nat → Ext2GroupDesc
  /-- The bytes that `read_data` reads. -/
  disk : Bytes

structure Ext2Inode where
  iMode : Nat
  iUid : Nat
  iSize : Nat
  iAtime : Nat
  iCtime : Nat
  iMtime : Nat
  iDtime : Nat
  iGid : Nat
  iLinksCount : Nat
  iBlocks : Nat
  iBlock : Nat → Nat

/-- What the memory holds that a lookup reads without having written it. -/
structure Garbage where
  /-- The local variable `dep` of `readdir_inode`. -/
  dep : Bytes
  /-- The words from the local variable `ind_block` of `get_data_block` on. -/
  indBlock : Nat → Nat
  /-- The bytes behind a block allocated by `kmalloc`, by their distance from its start. -/
  behindBlock : Bytes
  /-- A buffer for an inode allocated by `kmalloc`. -/
  bufInode : Bytes

/-- Memory full of zeros. -/
def noGarbage : Garbage := ⟨fun _ => 0, fun _ => 0, fun _ => 0, fun _ => 0⟩

section

variable (fs : Ext2FsInstance) (g : Garbage)

/-- `1024 << s_log_block_size` -/
def Ext2FsInstance.blockSize : Nat := (1024 <<< fs.superblock.sLogBlockSize) % 2 ^ 32

/-- A buffer of a block filled by `read_data`. -/
def readData (pos : Nat) : Bytes := fun i => if i < fs.blockSize then fs.disk (pos + i) else g.behindBlock i

def getBlock (bnum : Nat) : Bytes := readData fs g (bnum * fs.blockSize)

def ext2InodeAt (buf : Bytes) : Ext2Inode where
  iMode := le16 buf 0
  iUid := le16 buf 2
  iSize := le32 buf 4
  iAtime := le32 buf 8
  iCtime := le32 buf 12
  iMtime := le32 buf 16
  iDtime := le32 buf 20
  iGid := le16 buf 24
  iLinksCount := le16 buf 26
  iBlocks := le32 buf 28
  iBlock := fun n => le32 buf (40 + 4 * n)

def readInode (inum : Nat) : Ext2Inode :=
  let inodePerBlock := fs.blockSize / fs.superblock.sInodeSize
  let inum := (inum + (2 ^ 32 - 1)) % 2 ^ 32
  let group := inum / fs.superblock.sInodesPerGroup
  let inodeInGroup := inum % fs.superblock.sInodesPerGroup
  let blockInGroup := inodeInGroup / inodePerBlock
  let inodeInBlock := inodeInGroup % inodePerBlock
  let bnum := ((fs.groupDescTable group).bgInodeTable + blockInGroup) % 2 ^ 32
  let block := getBlock fs g bnum
  let n := min fs.superblock.sInodeSize 128
  ext2InodeAt fun i => if i < n then block (inodeInBlock * fs.superblock.sInodeSize + i) else g.bufInode i

/-- The blocks that are read into `ind_block`, `dind_block` and `tind_block` are not looked at: `p1` points to the
variable `ind_block` itself. -/
def getDataBlock (inode : Ext2Inode) (n : Int) : Nat :=
  let ptrsPerBlock1 : Int := 2 ^ (fs.superblock.sLogBlockSize + 8)
  let ptrsPerBlock2 : Int := 2 ^ ((fs.superblock.sLogBlockSize + 8) * 2)
  let ptrsPerBlock3 : Int := 2 ^ ((fs.superblock.sLogBlockSize + 8) * 3)
  let size := if inode.iSize = 0 then 0 else 1 + (inode.iSize - 1) / fs.blockSize
  if size = 0 then 2 ^ 32 - 1
  else if n < 0 ∨ size ≤ n then 2 ^ 32 - 1
  else if n < 12 then inode.iBlock n.toNat * fs.blockSize % 2 ^ 32
  else
    let n := n - 12
    if n < ptrsPerBlock1 then g.indBlock n.toNat * fs.blockSize % 2 ^ 32
    else
      let n := n - ptrsPerBlock1
      if n < ptrsPerBlock2 then g.indBlock (n % ptrsPerBlock1).toNat * fs.blockSize % 2 ^ 32
      else
        let n := n - ptrsPerBlock2
        if n < ptrsPerBlock3 then g.indBlock (n % ptrsPerBlock1).toNat * fs.blockSize % 2 ^ 32
        else 2 ^ 32 - 1

/-! ## The ext2 format -/

/-- Pointer `i` of the indirect block `b`. -/
def blockPointer (b i : Nat) : Nat := le32 fs.disk (b * fs.blockSize + 4 * i)

/-- The block that holds the logical block `n` of an inode. -/
def formatBlock (inode : Ext2Inode) (n : Nat) : Nat :=
  let p := fs.blockSize / 4
  if n < 12 then inode.iBlock n
  else
    let n := n - 12
    if n < p then blockPointer fs (inode.iBlock 12) n
    else
      let n := n - p
      if n < p ^ 2 then blockPointer fs (blockPointer fs (inode.iBlock 13) (n / p)) (n % p)
      else
        let n := n - p ^ 2
        blockPointer fs (blockPointer fs (blockPointer fs (inode.iBlock 14) (n / p ^ 2)) (n / p % p)) (n % p)

/-- The bytes of the logical block `n`. -/
def formatData (inode : Ext2Inode) (n : Nat) : Bytes :=
  fun i => fs.disk (formatBlock fs inode n * fs.blockSize + i)

/-- A block that `get_data_block` finds: a direct one below 4 GiB. -/
def DirectBlock (inode : Ext2Inode) (n : Nat) : Prop := n < 12 ∧ inode.iBlock n * fs.blockSize < 2 ^ 32

end

section

variable {fs : Ext2FsInstance} {g : Garbage} {inode : Ext2Inode} {n : Nat}

theorem ext2InodeAt_size_lt (buf : Bytes) : (ext2InodeAt buf).iSize < 2 ^ 32 := le32_lt buf 4

theorem readInode_size_lt (fs : Ext2FsInstance) (g : Garbage) (inum : Nat) : (readInode fs g inum).iSize < 2 ^ 32 :=
  ext2InodeAt_size_lt _

theorem blockSize_pow (h : 0 < fs.blockSize) : ∃ e, 10 ≤ e ∧ e < 32 ∧ fs.blockSize = 2 ^ e := by
  unfold Ext2FsInstance.blockSize at h ⊢
  rw [Nat.shiftLeft_eq, show 1024 = 2 ^ 10 from rfl, ← Nat.pow_add] at h ⊢
  by_cases hlog : 10 + fs.superblock.sLogBlockSize < 32
  · exact ⟨_, Nat.le_add_right _ _, hlog, Nat.mod_eq_of_lt (Nat.pow_lt_pow_right (by decide) hlog)⟩
  · have hdvd : 2 ^ 32 ∣ 2 ^ (10 + fs.superblock.sLogBlockSize) := Nat.pow_dvd_pow 2 (by omega)
    rw [Nat.mod_eq_zero_of_dvd hdvd] at h
    exact absurd h (lt_irrefl 0)

theorem le_blockSize (h : 0 < fs.blockSize) : 1024 ≤ fs.blockSize := by
  obtain ⟨e, he, -, heq⟩ := blockSize_pow h
  rw [heq]
  exact Nat.pow_le_pow_right (show 0 < 2 by decide) he

theorem blockSize_dvd_word (h : 0 < fs.blockSize) : fs.blockSize ∣ 2 ^ 32 := by
  obtain ⟨e, -, he, heq⟩ := blockSize_pow h
  rw [heq]
  exact Nat.pow_dvd_pow 2 he.le

/-- The block of a position in a block. -/
theorem pos_div {bs b t : Nat} (ht : t < bs) : (b * bs + t) / bs = b := by
  rw [Nat.mul_comm, Nat.mul_add_div (Nat.zero_lt_of_lt ht), Nat.div_eq_of_lt ht, Nat.add_zero]

/-- A position that is not in a block lies in front of it or behind it. -/
theorem outside_block {bs b n : Nat} (hn : n / bs ≠ b) : n < b * bs ∨ b * bs + bs ≤ n := by
  by_contra hin
  rw [not_or, not_lt, not_le] at hin
  obtain ⟨t, rfl⟩ := Nat.exists_eq_add_of_le hin.1
  exact hn (pos_div (Nat.lt_of_add_lt_add_left hin.2))

theorem getDataBlock_zero (hsize : inode.iSize ≠ 0) :
    getDataBlock fs g inode (0 : Nat) = inode.iBlock 0 * fs.blockSize % 2 ^ 32 := by
  unfold getDataBlock
  dsimp only
  rw [if_neg hsize]
  generalize (inode.iSize - 1) / fs.blockSize = blocks
  rw [if_neg (by omega), if_neg (by omega), if_pos (by decide)]
  rfl

/-- The direct blocks of a file are found where the format has them. -/
theorem getDataBlock_direct (hdirect : DirectBlock fs inode n) {nb : Nat} (hsize : inode.iSize = nb * fs.blockSize)
    (hbs : 0 < fs.blockSize) (hn : n < nb) : getDataBlock fs g inode n = formatBlock fs inode n * fs.blockSize := by
  have hblocks : fs.blockSize ≤ nb * fs.blockSize := Nat.le_mul_of_pos_left _ (by omega)
  have hpos : inode.iSize ≠ 0 := by omega
  have hcount : 1 + (inode.iSize - 1) / fs.blockSize = nb := by
    have hlast : (inode.iSize - 1) / fs.blockSize = nb - 1 := by
      have hsub : (nb - 1) * fs.blockSize = nb * fs.blockSize - fs.blockSize := by
        rw [Nat.sub_mul, Nat.one_mul]
      apply Nat.div_eq_of_lt_le
      · omega
      · rw [Nat.sub_add_cancel (by omega)]
        omega
    omega
  have hin : ¬ ((n : Int) < 0 ∨ (nb : Int) ≤ n) := by omega
  have hlt : (n : Int) < 12 := by
    have := hdirect.1
    omega
  unfold getDataBlock formatBlock
  dsimp only
  rw [if_neg hpos, hcount, if_neg (by omega), if_neg hin, if_pos hlt, if_pos hdirect.1, Int.toNat_natCast,
    Nat.mod_eq_of_lt hdirect.2]

/-- The buffer holds the block of the format. -/
theorem readData_direct (hdirect : DirectBlock fs inode n) {nb : Nat} (hsize : inode.iSize = nb * fs.blockSize)
    (hbs : 0 < fs.blockSize) (hn : n < nb) {i : Nat} (hi : i < fs.blockSize) :
    readData fs g (getDataBlock fs g inode n) i = formatData fs inode n i := by
  rw [getDataBlock_direct hdirect hsize hbs hn]
  unfold readData formatData
  exact if_pos hi

end

end Desiros.Fs
