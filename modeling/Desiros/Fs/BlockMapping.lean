import Desiros.Fs.Ext2

/-!
# Logical blocks (`get_data_block`)

`mapsBlock_iff` says which logical blocks `get_data_block` maps as the ext2 format does. The pointers `p1`, `p2` and
`p3` are made from the addresses of the local variables, `(unsigned int *) &ind_block`, where the buffers were meant,
so that behind the direct blocks the result is a word of the stack. The product with the block size has 32 bits.
-/

namespace Desiros.Fs

section

variable (fs : Ext2FsInstance) (inode : Ext2Inode)

/-- The number of blocks of a file. -/
def blockCount : Nat := (inode.iSize + fs.blockSize - 1) / fs.blockSize

/-- What `get_data_block` is for: the address of a block of the file, and no address of a block for the others,
whatever the memory holds that it reads without having written it. -/
def MapsBlock (n : Int) : Prop := ∀ g : Garbage,
  if 0 ≤ n ∧ n < blockCount fs inode then getDataBlock fs g inode n = fs.blockSize * formatBlock fs inode n.toNat
  else ∀ b, getDataBlock fs g inode n ≠ fs.blockSize * b

end

section

variable {fs : Ext2FsInstance} {g : Garbage} {inode : Ext2Inode} {n : Int}

theorem blockSize_of_log (hlog : fs.superblock.sLogBlockSize ≤ 2) :
    fs.blockSize = 1024 ∨ fs.blockSize = 2048 ∨ fs.blockSize = 4096 := by
  unfold Ext2FsInstance.blockSize
  obtain h | h | h : fs.superblock.sLogBlockSize = 0 ∨ fs.superblock.sLogBlockSize = 1 ∨
      fs.superblock.sLogBlockSize = 2 := by omega
  · exact .inl (by rw [h]; decide)
  · exact .inr (.inl (by rw [h]; decide))
  · exact .inr (.inr (by rw [h]; decide))

/-- The number of blocks as `get_data_block` computes it. -/
theorem blockCount_eq (hbs : 0 < fs.blockSize) :
    blockCount fs inode = if inode.iSize = 0 then 0 else 1 + (inode.iSize - 1) / fs.blockSize := by
  unfold blockCount
  split_ifs with hsize
  · rw [hsize, Nat.zero_add]
    exact Nat.div_eq_of_lt (Nat.sub_lt hbs Nat.one_pos)
  · rw [show inode.iSize + fs.blockSize - 1 = inode.iSize - 1 + fs.blockSize by omega, Nat.add_div_right _ hbs,
      Nat.add_comm]

/-- Outside of the file the result is the word of all ones. -/
theorem getDataBlock_outside (hbs : 0 < fs.blockSize) (hn : ¬ (0 ≤ n ∧ n < blockCount fs inode)) :
    getDataBlock fs g inode n = 2 ^ 32 - 1 := by
  rw [blockCount_eq hbs] at hn
  unfold getDataBlock
  dsimp only
  generalize (if inode.iSize = 0 then 0 else 1 + (inode.iSize - 1) / fs.blockSize) = size at hn
  split_ifs
  all_goals first | rfl | omega

theorem getDataBlock_inside (hbs : 0 < fs.blockSize) (hn : 0 ≤ n ∧ n < blockCount fs inode) (hdirect : n < 12) :
    getDataBlock fs g inode n = inode.iBlock n.toNat * fs.blockSize % 2 ^ 32 := by
  rw [blockCount_eq hbs] at hn
  unfold getDataBlock
  dsimp only
  generalize (if inode.iSize = 0 then 0 else 1 + (inode.iSize - 1) / fs.blockSize) = size at hn
  rw [if_neg (by omega), if_neg (by omega), if_pos hdirect]

/-- Behind the direct blocks the result is made of a word of the stack, or the file is too big. -/
theorem getDataBlock_indirect (hbs : 0 < fs.blockSize) (hn : 0 ≤ n ∧ n < blockCount fs inode) (hdirect : ¬ n < 12) :
    (∃ i, ∀ g : Garbage, getDataBlock fs g inode n = g.indBlock i * fs.blockSize % 2 ^ 32) ∨
      ∀ g : Garbage, getDataBlock fs g inode n = 2 ^ 32 - 1 := by
  rw [blockCount_eq hbs] at hn
  unfold getDataBlock
  dsimp only
  generalize (if inode.iSize = 0 then 0 else 1 + (inode.iSize - 1) / fs.blockSize) = size at hn
  have hsome : ¬ size = 0 := by omega
  have hin : ¬ (n < 0 ∨ (size : Int) ≤ n) := by omega
  simp only [if_neg hsome, if_neg hin, if_neg hdirect]
  split_ifs
  · exact .inl ⟨_, fun _ => rfl⟩
  · exact .inl ⟨_, fun _ => rfl⟩
  · exact .inl ⟨_, fun _ => rfl⟩
  · exact .inr fun _ => rfl

/-- The word of all ones is no address of a block. -/
theorem not_blockAddress (hlog : fs.superblock.sLogBlockSize ≤ 2) (b : Nat) : 2 ^ 32 - 1 ≠ fs.blockSize * b := by
  rcases blockSize_of_log hlog with h | h | h <;> rw [h] <;> omega

end

/-- **The logical blocks that `get_data_block` maps**: the direct ones below 4 GiB, and those outside of the file. -/
theorem mapsBlock_iff (fs : Ext2FsInstance) (inode : Ext2Inode) (n : Int) (hlog : fs.superblock.sLogBlockSize ≤ 2) :
    MapsBlock fs inode n ↔ (0 ≤ n ∧ n < blockCount fs inode → n < 12 ∧ inode.iBlock n.toNat * fs.blockSize < 2 ^ 32) := by
  have hbs : 0 < fs.blockSize := by
    rcases blockSize_of_log hlog with h | h | h <;> omega
  constructor
  · intro h hn
    simp only [MapsBlock, if_pos hn] at h
    by_cases hdirect : n < 12
    · refine ⟨hdirect, ?_⟩
      have hformat : formatBlock fs inode n.toNat = inode.iBlock n.toNat := if_pos (by omega)
      have hmap := h noGarbage
      rw [getDataBlock_inside hbs hn hdirect, hformat, Nat.mul_comm fs.blockSize] at hmap
      rw [← hmap]
      exact Nat.mod_lt _ (by decide)
    · exfalso
      rcases getDataBlock_indirect hbs hn hdirect with ⟨i, hword⟩ | hbig
      · -- two stacks give two results
        have hzero := h noGarbage
        have hone := h { noGarbage with indBlock := fun _ => 1 }
        rw [← hzero, hword, hword] at hone
        have hmod : 1 * fs.blockSize % 2 ^ 32 = 0 * fs.blockSize % 2 ^ 32 := hone
        rcases blockSize_of_log hlog with hsize | hsize | hsize <;> rw [hsize] at hmod <;> omega
      · have hmap := h noGarbage
        rw [hbig] at hmap
        exact not_blockAddress hlog _ hmap
  · intro h g
    by_cases hn : 0 ≤ n ∧ n < blockCount fs inode
    · rw [if_pos hn]
      obtain ⟨hdirect, hlow⟩ := h hn
      have hformat : formatBlock fs inode n.toNat = inode.iBlock n.toNat := if_pos (by omega)
      rw [getDataBlock_inside hbs hn hdirect, Nat.mod_eq_of_lt hlow, hformat, Nat.mul_comm]
    · rw [if_neg hn, getDataBlock_outside hbs hn]
      exact not_blockAddress hlog

/-- A file of thirteen blocks of 1 KiB. -/
def thirteenBlocks : Ext2FsInstance × Ext2Inode :=
  (⟨⟨0, 8, 128⟩, fun _ => ⟨5⟩, fun _ => 0⟩,
    ⟨0o100644, 0, 13 * 1024, 0, 0, 0, 0, 0, 1, 26, fun n => 100 + n⟩)

theorem thirteenBlocks_first : MapsBlock thirteenBlocks.1 thirteenBlocks.2 11 :=
  (mapsBlock_iff thirteenBlocks.1 thirteenBlocks.2 11 (by decide)).mpr fun _ => by decide

/-- Its last block, the first one behind the direct blocks, is found where a word of the stack says. -/
theorem thirteenBlocks_last : ¬ ∀ (fs : Ext2FsInstance) (inode : Ext2Inode) (n : Int),
    fs.superblock.sLogBlockSize ≤ 2 → MapsBlock fs inode n := by
  intro hclaim
  have hmap := hclaim thirteenBlocks.1 thirteenBlocks.2 12 (by decide) { noGarbage with indBlock := fun _ => 7 }
  rw [if_pos (by decide)] at hmap
  exact absurd hmap (by decide)

end Desiros.Fs
