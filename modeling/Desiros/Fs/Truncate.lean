import Desiros.Fs.InodeStore
import Desiros.Fs.BlockMapping

/-!
# Truncating a file (`ext2_truncate`)

The loop of `ext2_truncate` ends where `get_data_block` returns 0, which it does for a hole only: behind the end of the
file it returns the word of all ones. It starts at block 1 where the new size is 0, and it counts the new size down
before it frees a block. `ext2Truncate_right` says when the call does what it is for, and when it does not.
-/

namespace Desiros.Fs

open Desiros.Library

/-! ## The functions -/

section

variable (v : Ext2Volume) (g : Garbage)

/-- `einode->i_size = size` -/
def setISize (buf : Bytes) (size : Nat) : Bytes :=
  fun t => if 4 ≤ t ∧ t < 8 then UInt8.ofNat (size / 256 ^ (t - 4)) else buf t

/-- `einode->i_block[n] = blk` for an `int n`, which can lie in front of the array. -/
def setIBlockInt (buf : Bytes) (n : Int) (blk : Nat) : Bytes :=
  fun t => if 40 + 4 * n ≤ t ∧ t < 44 + 4 * n then UInt8.ofNat (blk / 256 ^ (t - (40 + 4 * n)).toNat) else buf t

/-- The two cases behind the indirect block do nothing. -/
def setBlockInodeData (einode : Bytes) (blkN : Int) (blk : Nat) : Bytes × Ext2Volume :=
  if blkN < 12 then (setIBlockInt einode blkN blk, v)
  else if blkN < 12 + v.blockSize / 4 then
    let (einode, v) :=
      if (ext2InodeAt einode).iBlock 12 = 0 then
        let (b, v) := allocBlock v g.behindBlock
        (setIBlock einode 12 b, v)
      else (einode, v)
    let j := (blkN - 12).toNat
    let addr0 := (ext2InodeAt einode).iBlock 12
    (einode, v.writeBytes (fun t => UInt8.ofNat (blk / 256 ^ t)) 4 ((addr0 * v.blockSize + 4 * j) % 2 ^ 32))
  else (einode, v)

/-- `while (addr)`; `off` has 64 bits. -/
def truncateFree (einode : Ext2Inode) : Nat → Ext2Volume → Nat → Nat → Option Ext2Volume
  | 0, _, _, _ => none
  | fuel + 1, v, off, nBlk =>
    let addr := getDataBlock v.toExt2FsInstance g einode (toInt nBlk)
    if addr ≠ 0 then
      if off = 0 then truncateFree einode fuel (freeBlock v (addr / v.blockSize)) off ((nBlk + 1) % 2 ^ 32)
      else truncateFree einode fuel v ((off + 2 ^ 64 - v.blockSize) % 2 ^ 64) ((nBlk + 1) % 2 ^ 32)
    else some v

/-- `while (off > 0)` -/
def truncateAlloc : Nat → Ext2Volume → Bytes → Nat → Nat → Option (Bytes × Ext2Volume)
  | 0, _, _, _, _ => none
  | fuel + 1, v, einode, off, nBlk =>
    if 0 < off then
      let (blk, v) := allocBlock v g.behindBlock
      let (einode, v) := setBlockInodeData v g einode (toInt nBlk) blk
      truncateAlloc fuel v einode ((off + 2 ^ 64 - v.blockSize) % 2 ^ 64) ((nBlk + 1) % 2 ^ 32)
    else some (einode, v)

/-- The block at which the loops start. -/
def truncateStart (size : Nat) : Nat := if 0 < size then (size - 1) / v.blockSize + 1 else 1

/-- `ext2_truncate` behind its loops. -/
def truncateEnd (inode : Inode) (size : Nat) (einode : Bytes) : Int × Ext2Volume × Inode :=
  let einode := setISize einode size
  (0, writeInode v (toInt inode.iIno) einode,
    { ext2inode2Inode inode.iIno (ext2InodeAt einode) with iCount := inode.iCount })

/-- `read_inode` and `write_inode` take the number of the inode as an `int`. -/
def ext2Truncate (fuel : Nat) (inode : Inode) (off : Nat) : Option (Int × Ext2Volume × Inode) :=
  let size := off % 2 ^ 32
  let einode := bufInode v.toExt2FsInstance g inode.iIno
  let nBlk := truncateStart v size
  let result :=
    if getDataBlock v.toExt2FsInstance g (ext2InodeAt einode) (toInt nBlk) ≠ 0 then
      (truncateFree g (ext2InodeAt einode) fuel v off nBlk).map fun v => (einode, v)
    else truncateAlloc g fuel v einode off nBlk
  result.map fun (einode, v) => truncateEnd v inode size einode

end

/-! ## The property -/

/-- The byte `x` of a file; a hole reads as zeros. -/
def fileByte (fs : Ext2FsInstance) (inode : Ext2Inode) (x : Nat) : UInt8 :=
  if formatBlock fs inode (x / fs.blockSize) = 0 then 0 else formatData fs inode (x / fs.blockSize) (x % fs.blockSize)

section

variable (v : Ext2Volume) (g : Garbage) (inode : Inode) (off : Nat)

/-- The inode on the disk. -/
def diskInode : Ext2Inode := readInode v.toExt2FsInstance g inode.iIno

/-- The blocks of the file, 0 for a hole. -/
def fileBlock (n : Nat) : Nat := formatBlock v.toExt2FsInstance (diskInode v g inode) n

def fileBlocks : Nat := blockCount v.toExt2FsInstance (diskInode v g inode)

/-- The file has the new size, keeps its bytes and continues with zeros, and the blocks behind it that it had are free,
and no others than before. -/
structure TruncateLaw (v' : Ext2Volume) (inode' : Inode) : Prop where
  disk : (diskInode v' g inode).iSize = off
  memory : inode'.iSize = off
  kept : ∀ x < off, x < (diskInode v g inode).iSize →
    fileByte v'.toExt2FsInstance (diskInode v' g inode) x = fileByte v.toExt2FsInstance (diskInode v g inode) x
  zeros : ∀ x < off, (diskInode v g inode).iSize ≤ x → fileByte v'.toExt2FsInstance (diskInode v' g inode) x = 0
  freed : ∀ b, BlockFree v' b ↔ BlockFree v b ∨
    ∃ n < fileBlocks v g inode, (off + v.blockSize - 1) / v.blockSize ≤ n ∧ b ≠ 0 ∧ b = fileBlock v g inode n
  inodes : ∀ i < v.nGroups, ∀ k < v.superblock.sInodesPerGroup, diskInodeBit v' i k = diskInodeBit v i k

def TruncateRight : Prop :=
  ∃ v' inode', (∃ N, ∀ fuel ≥ N, ext2Truncate v g fuel inode off = some (0, v', inode')) ∧
    TruncateLaw v g inode off v' inode'

/-- A file of a well-formed file system: its blocks are in use, and are different ones. -/
structure TruncateFile : Prop where
  image : Ext2Image v
  bitmaps : ∀ i < v.nGroups, ∀ j < v.nGroups, v.bgBlockBitmap i = v.bgBlockBitmap j → i = j
  number : ∃ i < v.nGroups, ∃ k < v.superblock.sInodesPerGroup, inode.iIno = inodeNumber v i k ∧ inode.iIno < 2 ^ 31
  used : ∀ n < fileBlocks v g inode, fileBlock v g inode n ≠ 0 →
    blockGroup v (fileBlock v g inode n) < v.nGroups ∧ ¬ BlockFree v (fileBlock v g inode n)
  distinct : ∀ n < fileBlocks v g inode, ∀ m < fileBlocks v g inode, fileBlock v g inode n ≠ 0 →
    fileBlock v g inode n = fileBlock v g inode m → n = m

/-- The new size is 0, the first block of the file is a hole, and the other ones form a run in front of a hole. -/
structure TruncateFits : Prop where
  zero : off = 0
  zeroBased : (∃ n < fileBlocks v g inode, fileBlock v g inode n ≠ 0) → v.sFirstDataBlock = 0
  hole : ∃ h, 0 < h ∧ h < 12 ∧ h < fileBlocks v g inode ∧ fileBlock v g inode 0 = 0 ∧
    (∀ n, 0 < n → n < h → fileBlock v g inode n ≠ 0 ∧ fileBlock v g inode n * v.blockSize < 2 ^ 32) ∧
    ∀ n, h ≤ n → n < fileBlocks v g inode → fileBlock v g inode n = 0

/-- A file of direct blocks without a hole, or one in which the loop that frees comes to a hole. -/
structure TruncateKind : Prop where
  direct : fileBlocks v g inode ≤ 12
  low : ∀ n < fileBlocks v g inode, fileBlock v g inode n * v.blockSize < 2 ^ 32
  ends : (∀ n < fileBlocks v g inode, fileBlock v g inode n ≠ 0) ∨ v.sFirstDataBlock = 0 ∧
    (∃ h < fileBlocks v g inode, truncateStart v (off % 2 ^ 32) ≤ h ∧ fileBlock v g inode h = 0) ∧
      (fileBlock v g inode (truncateStart v (off % 2 ^ 32)) = 0 → off = 0)

end

/-! ## The loop that frees -/

/-- Blocks freed one after the other. -/
def freeAll (v : Ext2Volume) (bs : List Nat) : Ext2Volume := bs.foldl freeBlock v

section

variable {v : Ext2Volume} {g : Garbage} {bs : List Nat}

theorem freeAll_same (v : Ext2Volume) (bs : List Nat) : freeAll v bs = { v with disk := (freeAll v bs).disk } := by
  induction bs generalizing v with
  | nil => rfl
  | cons b bs ih => exact ih (freeBlock v b)

theorem Addressable.freeBlock (h : Addressable v) (b : Nat) : Addressable (freeBlock v b) :=
  ⟨⟨h.zeroBased, h.low⟩, h.blocksPerGroup_pos, h.fits, h.distinct⟩

/-- The blocks that are free afterwards. -/
theorem Addressable.freeAll_free (h : Addressable v) (hbs : ∀ c ∈ bs, blockGroup v c < v.nGroups) (b : Nat) :
    BlockFree (freeAll v bs) b ↔ BlockFree v b ∨ b ∈ bs := by
  induction bs generalizing v with
  | nil => exact (or_iff_left List.not_mem_nil).symm
  | cons c bs ih =>
    have hrest := ih (h.freeBlock c) fun c hc => hbs c (List.mem_cons_of_mem _ hc)
    rw [List.mem_cons, ← or_assoc, ← h.blockFree_clear (hbs c List.mem_cons_self) b]
    exact hrest

/-- Only bytes of the block bitmaps change. -/
theorem Addressable.freeAll_disk (h : Addressable v) (hbs : ∀ c ∈ bs, blockGroup v c < v.nGroups) {n : Nat}
    (hn : ∀ i < v.nGroups, n / v.blockSize ≠ v.bgBlockBitmap i) : (freeAll v bs).disk n = v.disk n := by
  induction bs generalizing v with
  | nil => rfl
  | cons c bs ih =>
    have hgroup := hbs c List.mem_cons_self
    have hrest := ih (h.freeBlock c) (fun c hc => hbs c (List.mem_cons_of_mem _ hc)) hn
    have hbit := blockBit_lt h.blocksPerGroup_pos c
    have hfits := h.fits
    refine hrest.trans ?_
    rw [h.freeBlock_eq hgroup]
    apply Function.update_of_ne
    rintro rfl
    exact hn _ hgroup (pos_div (by omega))

/-- The loop comes to the hole `h`: it has freed blocks in front of it, all of them if no bytes are left, and not the
first one otherwise. -/
theorem truncateFree_run {einode : Ext2Inode} {blk : Nat → Nat} {h : Nat} (hh : h < 2 ^ 31) : ∀ {d nBlk off : Nat}
    {v : Ext2Volume}, nBlk + d = h → 0 < v.blockSize → getDataBlock v.toExt2FsInstance g einode h = 0 →
    (∀ n, nBlk ≤ n → n < h → getDataBlock v.toExt2FsInstance g einode n = blk n * v.blockSize ∧ blk n ≠ 0) →
    ∃ bs, (∀ fuel > d, truncateFree g einode fuel v off nBlk = some (freeAll v bs)) ∧
      (∀ c ∈ bs, ∃ n, nBlk ≤ n ∧ n < h ∧ c = blk n ∧ (n = nBlk → off = 0)) ∧
      (off = 0 → ∀ n, nBlk ≤ n → n < h → blk n ∈ bs) := by
  intro d
  induction d with
  | zero =>
    intro nBlk off v hd _ hzero _
    obtain rfl : nBlk = h := hd
    refine ⟨[], fun fuel hfuel => ?_, fun c hc => absurd hc List.not_mem_nil, fun _ n hle hlt => by omega⟩
    obtain ⟨fuel, rfl⟩ := Nat.exists_eq_add_one.mpr hfuel
    rw [truncateFree, toInt_of_lt hh, hzero]
    rfl
  | succ d ih =>
    intro nBlk off v hd hbs hzero haddr
    obtain ⟨hfirst, hblk⟩ := haddr nBlk le_rfl (by omega)
    have hne : blk nBlk * v.blockSize ≠ 0 := Nat.mul_ne_zero hblk hbs.ne'
    have hnext : (nBlk + 1) % 2 ^ 32 = nBlk + 1 := by omega
    have hturn : ∀ fuel, truncateFree g einode (fuel + 1) v off nBlk =
        if off = 0 then truncateFree g einode fuel (freeBlock v (blk nBlk)) off (nBlk + 1)
        else truncateFree g einode fuel v ((off + 2 ^ 64 - v.blockSize) % 2 ^ 64) (nBlk + 1) := by
      intro fuel
      rw [truncateFree, toInt_of_lt (by omega), hfirst, if_pos hne, Nat.mul_div_cancel _ hbs, hnext]
    by_cases hoff : off = 0
    · obtain ⟨bs, hrun, hmem, hall⟩ := @ih (nBlk + 1) off (freeBlock v (blk nBlk)) (by omega) hbs hzero
        fun n hle hlt => haddr n (by omega) hlt
      refine ⟨blk nBlk :: bs, fun fuel hfuel => ?_, fun c hc => ?_, fun _ n hle hlt => ?_⟩
      · obtain ⟨fuel, rfl⟩ := Nat.exists_eq_add_one.mpr (Nat.zero_lt_of_lt hfuel)
        rw [hturn, if_pos hoff, hrun fuel (Nat.lt_of_succ_lt_succ hfuel)]
        rfl
      · rcases List.mem_cons.mp hc with rfl | hin
        · exact ⟨nBlk, le_rfl, by omega, rfl, fun _ => hoff⟩
        · obtain ⟨n, hle, hlt, heq, -⟩ := hmem c hin
          exact ⟨n, by omega, hlt, heq, fun _ => hoff⟩
      · rcases Nat.eq_or_lt_of_le hle with rfl | hgt
        · exact List.mem_cons_self
        · exact List.mem_cons_of_mem _ (hall hoff n hgt hlt)
    · obtain ⟨bs, hrun, hmem, -⟩ := @ih (nBlk + 1) ((off + 2 ^ 64 - v.blockSize) % 2 ^ 64) v (by omega) hbs hzero
        fun n hle hlt => haddr n (by omega) hlt
      refine ⟨bs, fun fuel hfuel => ?_, fun c hc => ?_, fun hzero => absurd hzero hoff⟩
      · obtain ⟨fuel, rfl⟩ := Nat.exists_eq_add_one.mpr (Nat.zero_lt_of_lt hfuel)
        rw [hturn, if_neg hoff]
        exact hrun fuel (Nat.lt_of_succ_lt_succ hfuel)
      · obtain ⟨n, hle, hlt, heq, -⟩ := hmem c hc
        exact ⟨n, by omega, hlt, heq, fun h => by omega⟩

/-- Without a hole the loop does not end. -/
theorem truncateFree_never {einode : Ext2Inode} : ∀ {fuel nBlk off : Nat} {v : Ext2Volume}, nBlk < 2 ^ 32 →
    (∀ n < 2 ^ 32, getDataBlock v.toExt2FsInstance g einode (toInt n) ≠ 0) →
      truncateFree g einode fuel v off nBlk = none := by
  intro fuel
  induction fuel with
  | zero => exact fun _ _ => rfl
  | succ fuel ih =>
    intro nBlk off v hn hne
    have hnext : (nBlk + 1) % 2 ^ 32 < 2 ^ 32 := Nat.mod_lt _ (by decide)
    rw [truncateFree, if_pos (hne nBlk hn)]
    split_ifs
    · exact ih hnext hne
    · exact ih hnext hne

end

/-! ## The end of the call -/

section

variable {v v₁ : Ext2Volume} {g : Garbage} {inode : Inode} {einode : Bytes} {size i k : Nat} {disk : Bytes}

theorem setISize_size (buf : Bytes) (hsize : size < 2 ^ 32) : (ext2InodeAt (setISize buf size)).iSize = size :=
  le32_bytes hsize (by show UInt8.ofNat (size / 256 ^ 0) = _; rw [pow_zero, Nat.div_one]) rfl rfl rfl

theorem InodeTables.writeInode_eq (h : InodeTables v) (hi : i < v.nGroups) (hk : k < v.superblock.sInodesPerGroup)
    (hnumber : inodeNumber v i k < 2 ^ 31) (disk x : Bytes) :
    writeInode { v with disk := disk } (toInt (inodeNumber v i k)) x =
      Ext2Volume.writeBytes { v with disk := disk } x sizeofExt2Inode (slotPos v i k) :=
  h.geometry.writeInode_eq hk (inodeNumber_le hi hk) hnumber disk x

/-- What the volume says after the inode is written to a disk that differs in the block bitmaps only. -/
structure Written (v v₁ v' : Ext2Volume) (g : Garbage) (i k : Nat) (x : Bytes) : Prop where
  free : ∀ b, BlockFree v' b ↔ BlockFree v₁ b
  read : readInode v'.toExt2FsInstance g (inodeNumber v i k) = inodeOf g x
  inodes : ∀ j < v.nGroups, ∀ m < v.superblock.sInodesPerGroup, diskInodeBit v' j m = diskInodeBit v j m

theorem Ext2Image.written (h : Ext2Image v) (hi : i < v.nGroups) (hk : k < v.superblock.sInodesPerGroup)
    (hnumber : inodeNumber v i k < 2 ^ 31) (g : Garbage) (x : Bytes) (hsame : v₁ = { v with disk := v₁.disk })
    (hdisk : ∀ n, (∀ j < v.nGroups, n / v.blockSize ≠ v.bgBlockBitmap j) → v₁.disk n = v.disk n) :
    Written v v₁ (writeInode v₁ (toInt (inodeNumber v i k)) x) g i k x := by
  have hwrite : writeInode v₁ (toInt (inodeNumber v i k)) x =
      Ext2Volume.writeBytes { v with disk := v₁.disk } x sizeofExt2Inode (slotPos v i k) := by
    conv_lhs => rw [hsame]
    exact h.writeInode_eq hi hk hnumber v₁.disk x
  have hslot : ∀ t < sizeofExt2Inode, ∀ j < v.nGroups, (slotPos v i k + t) / v.blockSize ≠ v.bgBlockBitmap j := by
    intro t ht j hj heq
    obtain ⟨hblock, hlt⟩ := @Ext2Image.slot_block v i k t h hk ht
    have hapart := (h.blockBitmaps j hj i hi).2
    have hle := Nat.le_add_right (v.groupDescTable i).bgInodeTable (k / inodesPerBlock v)
    omega
  rw [hwrite]
  refine ⟨fun b => ?_, ?_, fun j hj m hm => ?_⟩
  · rw [hsame]
    apply h.blockFree_agree v.inodeBitmap
    rintro n ⟨j, hj, hn⟩
    apply if_neg
    rintro ⟨hle, hlt⟩
    obtain ⟨t, rfl⟩ := Nat.exists_eq_add_of_le hle
    exact hslot t (by omega) j hj hn
  · rw [h.readInode_eq g hi hk (show (Ext2Volume.writeBytes { v with disk := v₁.disk } x sizeofExt2Inode
      (slotPos v i k)).superblock = v.superblock from rfl) rfl]
    unfold inodeOf
    apply congrArg
    funext t
    split_ifs with ht
    · show (if slotPos v i k ≤ slotPos v i k + t ∧ _ then x (slotPos v i k + t - slotPos v i k) else _) = x t
      rw [if_pos ⟨Nat.le_add_right _ _, Nat.add_lt_add_left ht _⟩, Nat.add_sub_cancel_left]
    · rfl
  · have hapart := h.bitmap_apart hj hm hi hk
    have hfits := h.fits
    have hblock : (v.bgInodeBitmap j * v.blockSize + m / 8) / v.blockSize = v.bgInodeBitmap j := pos_div (by omega)
    show bitAt (fun n => if slotPos v i k ≤ n ∧ n < slotPos v i k + sizeofExt2Inode then x (n - slotPos v i k)
      else v₁.disk n) (v.bgInodeBitmap j * v.blockSize) m = bitAt v.disk (v.bgInodeBitmap j * v.blockSize) m
    unfold bitAt
    dsimp only
    rw [if_neg (by omega), hdisk]
    intro l hl heq
    exact (h.blockBitmaps l hl j hj).1 (heq.symm.trans hblock)

end

/-! ## The law -/

section

variable {v : Ext2Volume} {g : Garbage} {inode : Inode} {off h n : Nat} {bs : List Nat}

theorem TruncateFile.blockSize_pos (hfile : TruncateFile v g inode) : 0 < v.blockSize := hfile.image.blockSize_pos

theorem TruncateFile.addressable (hfile : TruncateFile v g inode) (hzero : v.sFirstDataBlock = 0) : Addressable v := by
  refine ⟨⟨hzero, fun i hi => ?_⟩, hfile.image.blocksPerGroup_pos, hfile.image.blockBitmap_fits, hfile.bitmaps⟩
  have hlow := (hfile.image.low i hi).2.2
  rw [Nat.succ_mul] at hlow
  exact hlow.le

/-- The address of a direct block. -/
theorem TruncateFile.addr (hfile : TruncateFile v g inode) (hn : n < fileBlocks v g inode) (hdirect : n < 12) :
    getDataBlock v.toExt2FsInstance g (diskInode v g inode) n = fileBlock v g inode n * v.blockSize % 2 ^ 32 := by
  have hblock : fileBlock v g inode n = (diskInode v g inode).iBlock n := if_pos hdirect
  rw [hblock]
  exact getDataBlock_inside hfile.blockSize_pos ⟨Int.natCast_nonneg n, Int.ofNat_lt.mpr hn⟩ (Int.ofNat_lt.mpr hdirect)

/-- The volume after blocks are freed and the inode is written. -/
theorem TruncateFile.written (hfile : TruncateFile v g inode) (hbs : ∀ c ∈ bs, blockGroup v c < v.nGroups)
    (hzero : bs ≠ [] → v.sFirstDataBlock = 0) (x : Bytes) :
    (∀ b, BlockFree (writeInode (freeAll v bs) (toInt inode.iIno) x) b ↔ BlockFree v b ∨ b ∈ bs) ∧
      diskInode (writeInode (freeAll v bs) (toInt inode.iIno) x) g inode = inodeOf g x ∧
      ∀ i < v.nGroups, ∀ k < v.superblock.sInodesPerGroup,
        diskInodeBit (writeInode (freeAll v bs) (toInt inode.iIno) x) i k = diskInodeBit v i k := by
  obtain ⟨i, hi, k, hk, hino, hnumber⟩ := hfile.number
  rw [hino] at hnumber
  have hfree : (∀ n, (∀ j < v.nGroups, n / v.blockSize ≠ v.bgBlockBitmap j) → (freeAll v bs).disk n = v.disk n) ∧
      ∀ b, BlockFree (freeAll v bs) b ↔ BlockFree v b ∨ b ∈ bs := by
    by_cases hnil : bs = []
    · rw [hnil]
      exact ⟨fun _ _ => rfl, fun b => (or_iff_left List.not_mem_nil).symm⟩
    · have haddr := hfile.addressable (hzero hnil)
      exact ⟨fun n hn => haddr.freeAll_disk hbs hn, haddr.freeAll_free hbs⟩
  have hwritten := hfile.image.written hi hk hnumber g x (freeAll_same v bs) hfree.1
  unfold diskInode
  rw [hino]
  exact ⟨fun b => (hwritten.free b).trans (hfree.2 b), hwritten.read, hwritten.inodes⟩

/-- The call that comes to the hole `h`. -/
theorem TruncateFile.run (hfile : TruncateFile v g inode) (hh : h < fileBlocks v g inode) (hdirect : h < 12)
    (hstart : truncateStart v (off % 2 ^ 32) ≤ h) (hhole : fileBlock v g inode h = 0)
    (hblocks : ∀ n, truncateStart v (off % 2 ^ 32) ≤ n → n < h →
      fileBlock v g inode n ≠ 0 ∧ fileBlock v g inode n * v.blockSize < 2 ^ 32)
    (hoff : truncateStart v (off % 2 ^ 32) = h → off = 0) :
    ∃ bs d, (∀ fuel > d, ext2Truncate v g fuel inode off =
        some (truncateEnd (freeAll v bs) inode (off % 2 ^ 32) (bufInode v.toExt2FsInstance g inode.iIno))) ∧
      (∀ c ∈ bs, ∃ n, truncateStart v (off % 2 ^ 32) ≤ n ∧ n < h ∧ c = fileBlock v g inode n ∧
        (n = truncateStart v (off % 2 ^ 32) → off = 0)) ∧
      (off = 0 → ∀ n, truncateStart v (off % 2 ^ 32) ≤ n → n < h → fileBlock v g inode n ∈ bs) := by
  generalize hs : truncateStart v (off % 2 ^ 32) = start at *
  have hbs := hfile.blockSize_pos
  have hinode : ext2InodeAt (bufInode v.toExt2FsInstance g inode.iIno) = diskInode v g inode := rfl
  have haddr : ∀ n, start ≤ n → n < h →
      getDataBlock v.toExt2FsInstance g (diskInode v g inode) n = fileBlock v g inode n * v.blockSize := by
    intro n hle hlt
    rw [hfile.addr (by omega) (by omega), Nat.mod_eq_of_lt (hblocks n hle hlt).2]
  have haddrHole : getDataBlock v.toExt2FsInstance g (diskInode v g inode) h = 0 := by
    rw [hfile.addr hh hdirect, hhole, Nat.zero_mul, Nat.zero_mod]
  rcases Nat.lt_or_eq_of_le hstart with hlt | rfl
  · obtain ⟨bs, hrun, hmem, hall⟩ := @truncateFree_run g (diskInode v g inode) (fileBlock v g inode) h (by omega)
      (h - start) start off v (by omega) hbs haddrHole
      fun n hle hlt => ⟨haddr n hle hlt, (hblocks n hle hlt).1⟩
    refine ⟨bs, h - start, fun fuel hfuel => ?_, hmem, hall⟩
    unfold ext2Truncate
    dsimp only
    rw [hs, hinode, @toInt_of_lt start (by omega), haddr start le_rfl hlt,
      if_pos (Nat.mul_ne_zero (hblocks start le_rfl hlt).1 hbs.ne'), hrun fuel hfuel]
    rfl
  · have hzero := hoff rfl
    refine ⟨[], 0, fun fuel hfuel => ?_, fun c hc => absurd hc List.not_mem_nil, fun _ n hle hlt => by omega⟩
    obtain ⟨fuel, rfl⟩ := Nat.exists_eq_add_one.mpr hfuel
    unfold ext2Truncate
    dsimp only
    rw [hs, hinode, @toInt_of_lt start (by omega), haddrHole, if_neg (not_not.mpr rfl), truncateAlloc,
      if_neg (show ¬ 0 < off by omega)]
    rfl

theorem inodeOf_size (g : Garbage) (x : Bytes) : (inodeOf g x).iSize = (ext2InodeAt x).iSize := rfl

/-- What the end of the call leaves. -/
theorem TruncateFile.end_law (hfile : TruncateFile v g inode) (hbs : ∀ c ∈ bs, blockGroup v c < v.nGroups)
    (hzero : bs ≠ [] → v.sFirstDataBlock = 0) {size : Nat} (hsize : size < 2 ^ 32) {einode : Bytes} {v' : Ext2Volume}
    {inode' : Inode} (h : truncateEnd (freeAll v bs) inode size einode = (0, v', inode')) :
    (∀ b, BlockFree v' b ↔ BlockFree v b ∨ b ∈ bs) ∧ (diskInode v' g inode).iSize = size ∧ inode'.iSize = size ∧
      ∀ i < v.nGroups, ∀ k < v.superblock.sInodesPerGroup, diskInodeBit v' i k = diskInodeBit v i k := by
  obtain ⟨-, h⟩ := Prod.mk.inj h
  obtain ⟨rfl, rfl⟩ := Prod.mk.inj h
  obtain ⟨hfree, hread, hinodes⟩ := hfile.written hbs hzero (setISize einode size)
  refine ⟨hfree, ?_, setISize_size einode hsize, hinodes⟩
  rw [hread, inodeOf_size]
  exact setISize_size einode hsize

theorem truncateRight_of_fits (hfile : TruncateFile v g inode) (hfits : TruncateFits v g inode off) :
    TruncateRight v g inode off := by
  obtain ⟨rfl, hzeroBased, h, hpos, hdirect, hh, hfirst, hrun, hbehind⟩ := hfits
  have hstart : truncateStart v (0 % 2 ^ 32) = 1 := rfl
  obtain ⟨bs, d, hcall, hmem, hall⟩ := @TruncateFile.run v g inode 0 h hfile hh hdirect (by rw [hstart]; exact hpos)
    (hbehind h le_rfl hh) (fun n hle hlt => hrun n (by omega) hlt) fun _ => rfl
  rw [hstart] at hmem hall
  have hblock : ∀ c ∈ bs, ∃ n < fileBlocks v g inode, fileBlock v g inode n ≠ 0 ∧ c = fileBlock v g inode n := by
    intro c hc
    obtain ⟨n, hle, hlt, heq, -⟩ := hmem c hc
    exact ⟨n, hlt.trans hh, (hrun n hle hlt).1, heq⟩
  have hbs : ∀ c ∈ bs, blockGroup v c < v.nGroups := by
    intro c hc
    obtain ⟨n, hn, hne, rfl⟩ := hblock c hc
    exact (hfile.used n hn hne).1
  have hzero : bs ≠ [] → v.sFirstDataBlock = 0 := by
    intro hne
    obtain ⟨c, hc⟩ := List.exists_mem_of_ne_nil bs hne
    obtain ⟨n, hn, hne, -⟩ := hblock c hc
    exact hzeroBased ⟨n, hn, hne⟩
  obtain ⟨hfree, hdisk, hmemory, hinodes⟩ := hfile.end_law hbs hzero (show 0 % 2 ^ 32 < 2 ^ 32 by decide)
    (show truncateEnd (freeAll v bs) inode (0 % 2 ^ 32) (bufInode v.toExt2FsInstance g inode.iIno) = _ from rfl)
  refine ⟨_, _, ⟨d + 1, fun fuel hfuel => hcall fuel hfuel⟩, hdisk, hmemory, fun x hx => absurd hx (Nat.not_lt_zero x),
    fun x hx => absurd hx (Nat.not_lt_zero x), fun b => ?_, hinodes⟩
  rw [hfree]
  refine or_congr_right ⟨fun hb => ?_, ?_⟩
  · obtain ⟨n, hn, hne, rfl⟩ := hblock b hb
    refine ⟨n, hn, ?_, hne, rfl⟩
    rw [Nat.zero_add, Nat.div_eq_of_lt (Nat.sub_lt hfile.blockSize_pos Nat.one_pos)]
    exact Nat.zero_le n
  · rintro ⟨n, hn, -, hne, rfl⟩
    apply hall rfl n
    · exact Nat.pos_of_ne_zero fun h0 => hne (h0 ▸ hfirst)
    · exact Nat.lt_of_not_le fun hle => hne (hbehind n hle hn)

theorem truncateStart_lt (v : Ext2Volume) {size : Nat} (hsize : size < 2 ^ 32) : truncateStart v size < 2 ^ 32 := by
  unfold truncateStart
  split_ifs with hpos
  · have hle := Nat.div_le_self (size - 1) v.blockSize
    omega
  · decide

/-- A file without a hole: the call does not return. -/
theorem ext2Truncate_never (hfile : TruncateFile v g inode) (hdirect : fileBlocks v g inode ≤ 12)
    (hlow : ∀ n < fileBlocks v g inode, fileBlock v g inode n * v.blockSize < 2 ^ 32)
    (hne : ∀ n < fileBlocks v g inode, fileBlock v g inode n ≠ 0) (fuel off : Nat) :
    ext2Truncate v g fuel inode off = none := by
  have hbs := hfile.blockSize_pos
  have haddr : ∀ n < 2 ^ 32, getDataBlock v.toExt2FsInstance g (diskInode v g inode) (toInt n) ≠ 0 := by
    intro n hn
    by_cases hin : 0 ≤ toInt n ∧ toInt n < fileBlocks v g inode
    · obtain ⟨m, hm⟩ := Int.eq_ofNat_of_zero_le hin.1
      rw [hm] at hin ⊢
      have hm := Int.ofNat_lt.mp hin.2
      rw [hfile.addr hm (by omega), Nat.mod_eq_of_lt (hlow m hm)]
      exact Nat.mul_ne_zero (hne m hm) hbs.ne'
    · rw [getDataBlock_outside hbs hin]
      decide
  have hstart := truncateStart_lt v (Nat.mod_lt off (show 0 < 2 ^ 32 by decide))
  have hinode : ext2InodeAt (bufInode v.toExt2FsInstance g inode.iIno) = diskInode v g inode := rfl
  unfold ext2Truncate
  dsimp only
  rw [hinode, if_pos (haddr _ hstart), truncateFree_never hstart haddr]
  rfl

theorem fits_of_truncateRight (hfile : TruncateFile v g inode) (hkind : TruncateKind v g inode off)
    (hright : TruncateRight v g inode off) : TruncateFits v g inode off := by
  obtain ⟨v', inode', ⟨N, hcall⟩, hlaw⟩ := hright
  rcases hkind.ends with hne | ⟨hzeroBased, hhole, hoff⟩
  · have hcall := hcall N le_rfl
    rw [ext2Truncate_never hfile hkind.direct hkind.low hne] at hcall
    exact absurd hcall (by simp)
  · -- the first hole that the loop comes to
    classical
    obtain ⟨hh, hstart, hzero⟩ := Nat.find_spec hhole
    have hfirst := fun n (hn : n < Nat.find hhole) => Nat.find_min hhole hn
    generalize Nat.find hhole = h at *
    have hdirect := hkind.direct
    have hlt : off < 2 ^ 32 := hlaw.disk ▸ readInode_size_lt _ _ _
    have hblocks : ∀ n, truncateStart v (off % 2 ^ 32) ≤ n → n < h → fileBlock v g inode n ≠ 0 :=
      fun n hle hlt heq => hfirst n hlt ⟨hlt.trans hh, hle, heq⟩
    obtain ⟨bs, d, hrun, hmem, hall⟩ := @TruncateFile.run v g inode off h hfile hh (by omega) hstart hzero
      (fun n hle hlt => ⟨hblocks n hle hlt, hkind.low n (hlt.trans hh)⟩) fun heq => hoff (heq ▸ hzero)
    have hend := hrun (N + d + 1) (by omega)
    rw [hcall (N + d + 1) (by omega)] at hend
    have hbs : ∀ c ∈ bs, blockGroup v c < v.nGroups := by
      intro c hc
      obtain ⟨n, hle, hlt, rfl, -⟩ := hmem c hc
      exact (hfile.used n (hlt.trans hh) (hblocks n hle hlt)).1
    obtain ⟨hfree, -⟩ := hfile.end_law hbs (fun _ => hzeroBased) (Nat.mod_lt off (show 0 < 2 ^ 32 by decide))
      (Option.some.inj hend).symm
    -- a block that has to be free is one that the loop has freed
    have hfreed : ∀ n < fileBlocks v g inode, (off + v.blockSize - 1) / v.blockSize ≤ n → fileBlock v g inode n ≠ 0 →
        truncateStart v (off % 2 ^ 32) ≤ n ∧ n < h ∧ (n = truncateStart v (off % 2 ^ 32) → off = 0) := by
      intro n hn hle hne
      have hb := (hlaw.freed (fileBlock v g inode n)).mpr (.inr ⟨n, hn, hle, hne, rfl⟩)
      rcases (hfree _).mp hb with hold | hin
      · exact absurd hold (hfile.used n hn hne).2
      · obtain ⟨m, hle', hlt', heq, hm⟩ := hmem _ hin
        obtain rfl := hfile.distinct n hn m (hlt'.trans hh) hne heq
        exact ⟨hle', hlt', hm⟩
    have hbs := hfile.blockSize_pos
    have hsize : off % 2 ^ 32 = off := Nat.mod_eq_of_lt hlt
    rw [hsize] at hstart hblocks hfreed hoff
    by_cases hoff0 : off = 0
    · have hone : truncateStart v off = 1 := if_neg (by omega)
      have hceil : (off + v.blockSize - 1) / v.blockSize = 0 := by
        rw [hoff0, Nat.zero_add]
        exact Nat.div_eq_of_lt (Nat.sub_lt hbs Nat.one_pos)
      rw [hone] at hstart hblocks hfreed
      rw [hceil] at hfreed
      refine ⟨hoff0, fun _ => hzeroBased, h, hstart, by omega, hh, ?_, fun n hpos hn => ?_, fun n hle hn => ?_⟩
      · by_contra hne
        exact absurd (hfreed 0 (by omega) le_rfl hne).1 (by decide)
      · exact ⟨hblocks n hpos hn, hkind.low n (hn.trans hh)⟩
      · by_contra hne
        exact absurd (hfreed n hn (Nat.zero_le n) hne).2.1 hle.not_gt
    · -- the loop counts the new size down at the first block that has to be free
      have hceil : (off + v.blockSize - 1) / v.blockSize = truncateStart v off := by
        unfold truncateStart
        rw [if_pos (Nat.pos_of_ne_zero hoff0), show off + v.blockSize - 1 = off - 1 + v.blockSize by omega,
          Nat.add_div_right _ hbs]
      exact absurd ((hfreed _ (by omega) hceil.le (mt hoff hoff0)).2.2 rfl) hoff0

end

section

variable {v w : Ext2Volume} {g : Garbage}

theorem allocBlock_disk (v : Ext2Volume) (garbage : Bytes) : ∃ d, (allocBlock v garbage).2 = { v with disk := d } := by
  unfold allocBlock
  split
  · exact ⟨_, rfl⟩
  · exact ⟨v.disk, rfl⟩

theorem setBlockInodeData_disk (v : Ext2Volume) (g : Garbage) (einode : Bytes) (blkN : Int) (blk : Nat) :
    ∃ d, (setBlockInodeData v g einode blkN blk).2 = { v with disk := d } := by
  unfold setBlockInodeData
  split_ifs
  · exact ⟨v.disk, rfl⟩
  · obtain ⟨d, hd⟩ := allocBlock_disk v g.behindBlock
    dsimp only
    rw [hd]
    exact ⟨_, rfl⟩
  · exact ⟨_, rfl⟩
  · exact ⟨v.disk, rfl⟩

theorem truncateFree_disk {einode : Ext2Inode} : ∀ {fuel off nBlk : Nat} {v : Ext2Volume},
    truncateFree g einode fuel v off nBlk = some w → ∃ d, w = { v with disk := d } := by
  intro fuel
  induction fuel with
  | zero => exact fun h => absurd h (by simp [truncateFree])
  | succ fuel ih =>
    intro off nBlk v h
    unfold truncateFree at h
    dsimp only at h
    split_ifs at h
    · exact @ih _ _ (freeBlock v _) h
    · exact ih h
    · obtain rfl := Option.some.inj h
      exact ⟨v.disk, rfl⟩

theorem truncateAlloc_disk {einode' : Bytes} : ∀ {fuel off nBlk : Nat} {v : Ext2Volume} {einode : Bytes},
    truncateAlloc g fuel v einode off nBlk = some (einode', w) → ∃ d, w = { v with disk := d } := by
  intro fuel
  induction fuel with
  | zero => exact fun h => absurd h (by simp [truncateAlloc])
  | succ fuel ih =>
    intro off nBlk v einode h
    unfold truncateAlloc at h
    dsimp only at h
    split_ifs at h
    · obtain ⟨d, hd⟩ := allocBlock_disk v g.behindBlock
      obtain ⟨d', hd'⟩ := setBlockInodeData_disk { v with disk := d } g einode (toInt nBlk)
        (allocBlock v g.behindBlock).1
      rw [hd, hd'] at h
      exact @ih _ _ { v with disk := d' } _ h
    · obtain ⟨-, rfl⟩ := Prod.mk.inj (Option.some.inj h)
      exact ⟨v.disk, rfl⟩

/-- A call that returns has written the inode last, with the new size. -/
theorem ext2Truncate_volume {fuel off : Nat} {inode inode' : Inode} {ret : Int} {v' : Ext2Volume}
    (hcall : ext2Truncate v g fuel inode off = some (ret, v', inode')) : inode'.iIno = inode.iIno ∧
      ∃ d einode, v' = writeInode { v with disk := d } (toInt inode.iIno) (setISize einode (off % 2 ^ 32)) := by
  unfold ext2Truncate at hcall
  dsimp only at hcall
  obtain ⟨⟨einode, w⟩, hloop, hend⟩ := Option.map_eq_some_iff.mp hcall
  obtain ⟨d, rfl⟩ : ∃ d, w = { v with disk := d } := by
    split_ifs at hloop
    · obtain ⟨w', hfree, heq⟩ := Option.map_eq_some_iff.mp hloop
      obtain ⟨-, rfl⟩ := Prod.mk.inj heq
      exact truncateFree_disk hfree
    · exact truncateAlloc_disk hloop
  obtain ⟨-, hend⟩ := Prod.mk.inj hend
  obtain ⟨rfl, rfl⟩ := Prod.mk.inj hend
  exact ⟨rfl, d, einode, rfl⟩

theorem InodeGeometry.writeInode_size {count inum size : Nat} (h : InodeGeometry v count)
    (hn : 1 ≤ inum ∧ inum ≤ count) (hint : inum < 2 ^ 31) (hsize : size < 2 ^ 32) (einode : Bytes) :
    (readInode (writeInode v (toInt inum) (setISize einode size)).toExt2FsInstance g inum).iSize = size := by
  have hread := h.bufInode_written hn hint g (setISize einode size)
  have hsame : (ext2InodeAt fun t => if t < sizeofExt2Inode then setISize einode size t else g.bufInode t).iSize =
      (ext2InodeAt (setISize einode size)).iSize := by
    apply leWord_congr
    intro i hi
    exact if_pos (show 4 + i < 128 by omega)
  exact (congrArg (fun buf => (ext2InodeAt buf).iSize) hread).trans (hsame.trans (setISize_size einode hsize))

theorem writeInode_volume (v : Ext2Volume) (inum : Int) (x : Bytes) : ∃ d, writeInode v inum x = { v with disk := d } := by
  unfold writeInode
  split_ifs
  · exact ⟨_, rfl⟩
  · exact ⟨v.disk, rfl⟩

end

/-! ## A sparse file and an empty one -/

/-- The disk of `holeImage`: the bitmaps in blocks 2 and 3, the inode table in block 4, where the second inode is a file
of three blocks, of which only the second one is not a hole: block 5. -/
def holeDisk : Bytes := fun n =>
  match n with
  | 2048 => 63
  | 3072 => 3
  | 4225 => 0x80
  | 4229 => 12
  | 4250 => 1
  | 4268 => 5
  | _ => 0

def holeImage : Ext2Volume := { rootImage with disk := holeDisk, sFirstDataBlock := 0 }

theorem holeImage_image : Ext2Image holeImage where
  inodesPerGroup_pos := rootImage_tables.inodesPerGroup_pos
  inodeSize := rootImage_tables.inodeSize
  fits := rootImage_tables.fits
  number := rootImage_tables.number
  word := rootImage_tables.word
  tables := rootImage_tables.tables
  bitmaps := rootImage_tables.bitmaps
  apart := rootImage_tables.apart
  copy := by
    intro i hi k hk
    obtain rfl : i = 0 := Nat.lt_one_iff.mp hi
    have hcopy : ∀ k < 8, memInodeBit holeImage 0 k = diskInodeBit holeImage 0 k := by decide
    exact hcopy k hk
  inodeSize_dvd := rootImage_image.inodeSize_dvd
  blocksPerGroup_pos := rootImage_image.blocksPerGroup_pos
  blockBitmap_fits := rootImage_image.blockBitmap_fits
  reserved := rootImage_image.reserved
  low := rootImage_image.low
  blockBitmaps := rootImage_image.blockBitmaps
  unused := by
    intro g i hi k hk hclear
    obtain rfl : i = 0 := Nat.lt_one_iff.mp hi
    have hk8 : k < 8 := hk
    have hlate : 2 ≤ k := by
      by_contra hlt
      have hset : ∀ k < 2, diskInodeBit holeImage 0 k = true := by decide
      rw [hset k (by omega)] at hclear
      cases hclear
    have hzero : ∀ t < sizeofExt2Inode, holeImage.disk (slotPos rootImage 0 k + t) = 0 := by
      intro t ht
      unfold sizeofExt2Inode at ht
      rw [rootImage_slotPos hk8]
      show holeDisk _ = 0
      unfold holeDisk
      split <;> first | omega | rfl
    have hread : readInode holeImage.toExt2FsInstance g (inodeNumber holeImage 0 k) = inodeOf g fun _ => 0 :=
      rootImage_readInode_zero g hk8 rfl rfl hzero
    rw [hread]
    exact ⟨rfl, fun hsize => absurd rfl hsize⟩

def holeInode : Inode := ext2inode2Inode 2 (readInode holeImage.toExt2FsInstance noGarbage 2)

theorem holeImage_blocks : fileBlocks holeImage noGarbage holeInode = 3 ∧ fileBlock holeImage noGarbage holeInode 0 = 0 ∧
    fileBlock holeImage noGarbage holeInode 1 = 5 ∧ fileBlock holeImage noGarbage holeInode 2 = 0 := by
  decide +kernel

theorem holeImage_file : TruncateFile holeImage noGarbage holeInode := by
  obtain ⟨hblocks, hzero, hone, htwo⟩ := holeImage_blocks
  have honly : ∀ n < fileBlocks holeImage noGarbage holeInode, fileBlock holeImage noGarbage holeInode n ≠ 0 → n = 1 := by
    intro n hn hne
    obtain rfl | rfl | rfl : n = 0 ∨ n = 1 ∨ n = 2 := by omega
    · exact absurd hzero hne
    · rfl
    · exact absurd htwo hne
  refine ⟨holeImage_image, fun i hi j hj _ => ?_, ⟨0, by decide, 1, by decide, by decide, by decide⟩,
    fun n hn hne => ?_, fun n hn m hm hne heq => ?_⟩
  · exact (Nat.lt_one_iff.mp hi).trans (Nat.lt_one_iff.mp hj).symm
  · obtain rfl := honly n hn hne
    rw [hone]
    decide
  · exact (honly n hn hne).trans (honly m hm (heq ▸ hne)).symm

/-- An inode of size 0 of `rootImage`. -/
def emptyInode : Inode := ext2inode2Inode 3 (readInode rootImage.toExt2FsInstance noGarbage 3)

theorem rootImage_empty : fileBlocks rootImage noGarbage emptyInode = 0 := by
  decide +kernel

end Desiros.Fs
