import Desiros.Fs.Ext2
import Desiros.Library.Runs

/-!
# Allocating blocks (`ext2_internal.c`)

`alloc_block` takes the first clear bit of the block bitmap of the first group that has free blocks by its
descriptor, `free_block` clears a bit. `BlockFree` says of a block that it is free in the ext2 format, where the
first block of the first group is `s_first_data_block`; the functions count from 0. `block_runs_law` says along
which runs they agree with the format.
-/

namespace Desiros.Fs

open Desiros.Library

/-- A mounted file system with the fields that allocation reads; `inodeBitmap` is the copy in memory. -/
structure Ext2Volume extends Ext2FsInstance where
  sFirstDataBlock : Nat
  sBlocksPerGroup : Nat
  nGroups : Nat
  bgBlockBitmap : Nat → Nat
  bgFreeBlocksCount : Nat → Nat
  bgInodeBitmap : Nat → Nat
  bgFreeInodesCount : Nat → Nat
  inodeBitmap : Nat → Bytes

section

variable (v : Ext2Volume)

/-- `b * (1024 << s_log_block_size)`, a 32-bit product. -/
def Ext2Volume.addrOf (b : Nat) : Nat := b * v.blockSize % 2 ^ 32

/-- `instance->write_data` of one byte. -/
def Ext2Volume.writeByte (pos : Nat) (b : UInt8) : Ext2Volume :=
  { v with disk := Function.update v.disk pos b }

/-- The buffer that `kmalloc` returned with the content `garbage`, filled with the bitmap of group `i`. -/
def blockBitmapBuf (garbage : Bytes) (i : Nat) : Bytes :=
  fun j => if j < v.blockSize then v.disk (v.addrOf (v.bgBlockBitmap i) + j) else garbage j

/-- The first clear bit of `n`. -/
def firstClear (bitmap : Bytes) (n : Nat) : Option Nat :=
  (List.range n).find? fun ib => !bitAt bitmap 0 ib

/-- The group and the bit at which the loops of `alloc_block` stop. -/
def allocBlockAt (garbage : Bytes) : Option (Nat × Nat) :=
  (List.range v.nGroups).findSome? fun i =>
    if v.bgFreeBlocksCount i ≠ 0 then
      (firstClear (blockBitmapBuf v garbage i) v.sBlocksPerGroup).map fun ib => (i, ib)
    else none

def allocBlock (garbage : Bytes) : Nat × Ext2Volume :=
  match allocBlockAt v garbage with
  | some (i, ib) =>
    let byte := setBit (blockBitmapBuf v garbage i (ib / 8)) (ib % 8)
    ((ib + i * v.sBlocksPerGroup) % 2 ^ 32,
      v.writeByte ((v.addrOf (v.bgBlockBitmap i) + ib / 8) % 2 ^ 32) byte)
  | none => (0, v)

def freeBlock (blk : Nat) : Ext2Volume :=
  let i := blk / v.sBlocksPerGroup
  let ib := blk - v.sBlocksPerGroup * i
  let addr := (v.addrOf (v.bgBlockBitmap i) + ib / 8) % 2 ^ 32
  v.writeByte addr (clearBit (v.disk addr) (ib % 8))

/-! ## The ext2 format -/

def blockGroup (b : Nat) : Nat := (b - v.sFirstDataBlock) / v.sBlocksPerGroup

def blockBit (b : Nat) : Nat := (b - v.sFirstDataBlock) % v.sBlocksPerGroup

/-- Bit `k` of the block bitmap of group `i`. -/
def groupBit (i k : Nat) : Bool := bitAt v.disk (v.bgBlockBitmap i * v.blockSize) k

/-- A block of the file system whose bit is clear. -/
def BlockFree (b : Nat) : Prop :=
  v.sFirstDataBlock ≤ b ∧ blockGroup v b < v.nGroups ∧ groupBit v (blockGroup v b) (blockBit v b) = false

instance (b : Nat) : Decidable (BlockFree v b) := inferInstanceAs (Decidable (_ ∧ _ ∧ _))

/-- The block bitmaps of an ext2 file system, with the counts of its group descriptors. -/
structure BlockBitmaps : Prop where
  blocksPerGroup_pos : 0 < v.sBlocksPerGroup
  fits : v.sBlocksPerGroup ≤ 8 * v.blockSize
  distinct : ∀ i < v.nGroups, ∀ j < v.nGroups, v.bgBlockBitmap i = v.bgBlockBitmap j → i = j
  /-- The number of a block is a 32-bit word; the bits behind the last block are set. -/
  word : ∀ b, BlockFree v b → b < 2 ^ 32
  /-- Block 0 holds the boot record or the superblock. -/
  reserved : ¬ BlockFree v 0
  count : ∀ i < v.nGroups,
    v.bgFreeBlocksCount i = (List.range v.sBlocksPerGroup).countP fun k => !groupBit v i k

/-- `alloc_block` returns a free block and marks exactly that block, or finds that none is free. -/
structure AllocBlockLaw : Prop where
  found : ∀ garbage, (allocBlock v garbage).1 ≠ 0 → BlockFree v (allocBlock v garbage).1 ∧
    ∀ b, BlockFree (allocBlock v garbage).2 b ↔ BlockFree v b ∧ b ≠ (allocBlock v garbage).1
  full : ∀ garbage, (allocBlock v garbage).1 = 0 → ∀ b, ¬ BlockFree v b

/-- `free_block` makes exactly the block free. -/
def FreeBlockLaw (blk : Nat) : Prop := ∀ b, BlockFree (freeBlock v blk) b ↔ BlockFree v b ∨ b = blk

/-- Blocks are numbered from 0, and the bitmaps lie where 32-bit products reach them. -/
structure ZeroBasedLow : Prop where
  zeroBased : v.sFirstDataBlock = 0
  low : ∀ i < v.nGroups, v.bgBlockBitmap i * v.blockSize + v.blockSize ≤ 2 ^ 32

end

/-! ## Any sequence of calls -/

/-- The blocks that `alloc_block` returned and that were not freed since. -/
structure BlockRun where
  volume : Ext2Volume
  allocated : List Nat

inductive BlockOp where
  | alloc (garbage : Bytes)
  | free (blk : Nat)

def blockStep (s : BlockRun) : BlockOp → BlockRun
  | .alloc garbage =>
    let r := allocBlock s.volume garbage
    { volume := r.2, allocated := if r.1 ≠ 0 then r.1 :: s.allocated else s.allocated }
  | .free blk => { volume := freeBlock s.volume blk, allocated := s.allocated.erase blk }

def BlockAllowed (s : BlockRun) : BlockOp → Prop
  | .alloc _ => True
  | .free blk => blk ∈ s.allocated

/-- What the next call does. -/
structure BlockLaw (s : BlockRun) : Prop where
  alloc : AllocBlockLaw s.volume
  free : ∀ blk ∈ s.allocated, FreeBlockLaw s.volume blk

/-! ## The invariant -/

/-- Where the functions find the bits of the format. -/
structure Addressable (v : Ext2Volume) : Prop extends ZeroBasedLow v where
  blocksPerGroup_pos : 0 < v.sBlocksPerGroup
  fits : v.sBlocksPerGroup ≤ 8 * v.blockSize
  distinct : ∀ i < v.nGroups, ∀ j < v.nGroups, v.bgBlockBitmap i = v.bgBlockBitmap j → i = j

/-- A group without free blocks by its descriptor has none. -/
structure BlockInv (s : BlockRun) : Prop where
  addressable : Addressable s.volume
  word : ∀ b, BlockFree s.volume b → b < 2 ^ 32
  reserved : ¬ BlockFree s.volume 0
  count : ∀ b, BlockFree s.volume b → s.volume.bgFreeBlocksCount (blockGroup s.volume b) ≠ 0
  nodup : s.allocated.Nodup
  allocated : ∀ b ∈ s.allocated, b ≠ 0 ∧ b < 2 ^ 32 ∧ ¬ BlockFree s.volume b ∧
    blockGroup s.volume b < s.volume.nGroups ∧ s.volume.bgFreeBlocksCount (blockGroup s.volume b) ≠ 0

section

variable {v : Ext2Volume} {s : BlockRun}

/-- Positions in two blocks. -/
theorem block_pos_inj {b c x y n : Nat} (hx : x < n) (hy : y < n) (h : b * n + x = c * n + y) : b = c ∧ x = y := by
  have hn : 0 < n := Nat.lt_of_le_of_lt (Nat.zero_le x) hx
  have hdiv := congrArg (· / n) h
  have hmod := congrArg (· % n) h
  simp only [Nat.mul_comm _ n, Nat.mul_add_div hn, Nat.mul_add_mod, Nat.div_eq_of_lt hx, Nat.div_eq_of_lt hy,
    Nat.mod_eq_of_lt hx, Nat.mod_eq_of_lt hy, Nat.add_zero] at hdiv hmod
  exact ⟨hdiv, hmod⟩

/-- Bits of bitmaps that take a block each. -/
theorem same_bit_iff {b c k m n : Nat} (hk : k < 8 * n) (hm : m < 8 * n) :
    (c * n + m / 8 = b * n + k / 8 ∧ k % 8 = m % 8) ↔ c = b ∧ m = k := by
  constructor
  · rintro ⟨hbyte, hbit⟩
    obtain ⟨hblock, hpos⟩ := block_pos_inj (show m / 8 < n by omega) (show k / 8 < n by omega) hbyte
    exact ⟨hblock, by omega⟩
  · rintro ⟨rfl, rfl⟩
    exact ⟨rfl, rfl⟩

/-- Numbers of blocks counted from 0. -/
theorem blockGroup_blockBit (hzero : v.sFirstDataBlock = 0) {i k : Nat} (hk : k < v.sBlocksPerGroup) :
    blockGroup v (k + i * v.sBlocksPerGroup) = i ∧ blockBit v (k + i * v.sBlocksPerGroup) = k := by
  have hpos : 0 < v.sBlocksPerGroup := Nat.lt_of_le_of_lt (Nat.zero_le k) hk
  unfold blockGroup blockBit
  rw [hzero, Nat.sub_zero, Nat.add_mul_div_right _ _ hpos, Nat.div_eq_of_lt hk, Nat.zero_add, Nat.add_mul_mod_self_right,
    Nat.mod_eq_of_lt hk]
  exact ⟨rfl, rfl⟩

theorem block_eq (hzero : v.sFirstDataBlock = 0) (b : Nat) :
    blockBit v b + blockGroup v b * v.sBlocksPerGroup = b := by
  unfold blockGroup blockBit
  rw [hzero, Nat.sub_zero, Nat.mul_comm, Nat.mod_add_div]

theorem blockBit_lt (hpos : 0 < v.sBlocksPerGroup) (b : Nat) : blockBit v b < v.sBlocksPerGroup :=
  Nat.mod_lt _ hpos

/-! ## One call -/

theorem blockFree_writeByte (v : Ext2Volume) (pos : Nat) (byte : UInt8) (b : Nat) :
    BlockFree (v.writeByte pos byte) b ↔ v.sFirstDataBlock ≤ b ∧ blockGroup v b < v.nGroups ∧
      groupBit (v.writeByte pos byte) (blockGroup v b) (blockBit v b) = false := Iff.rfl

section

variable (h : Addressable v) {i ib k : Nat} {garbage : Bytes}

include h

theorem Addressable.blockSize_pos : 0 < v.blockSize := by
  have := h.blocksPerGroup_pos
  have := h.fits
  omega

/-- The address of a byte of a bitmap is not truncated. -/
theorem Addressable.addr_eq (hi : i < v.nGroups) (hk : k < v.sBlocksPerGroup) :
    (v.addrOf (v.bgBlockBitmap i) + k / 8) % 2 ^ 32 = v.bgBlockBitmap i * v.blockSize + k / 8 := by
  have hlow := h.low i hi
  have hpos := h.blockSize_pos
  have hfits := h.fits
  unfold Ext2Volume.addrOf
  rw [Nat.mod_eq_of_lt (show v.bgBlockBitmap i * v.blockSize < 2 ^ 32 by omega), Nat.mod_eq_of_lt]
  omega

theorem Addressable.buf_byte (hi : i < v.nGroups) (hk : k < v.sBlocksPerGroup) :
    blockBitmapBuf v garbage i (k / 8) = v.disk (v.bgBlockBitmap i * v.blockSize + k / 8) := by
  have hlow := h.low i hi
  have hpos := h.blockSize_pos
  have hfits := h.fits
  unfold blockBitmapBuf Ext2Volume.addrOf
  rw [if_pos (show k / 8 < v.blockSize by omega),
    Nat.mod_eq_of_lt (show v.bgBlockBitmap i * v.blockSize < 2 ^ 32 by omega)]

theorem Addressable.buf_bit (hi : i < v.nGroups) (hk : k < v.sBlocksPerGroup) :
    bitAt (blockBitmapBuf v garbage i) 0 k = groupBit v i k := by
  unfold groupBit bitAt
  rw [Nat.zero_add, h.buf_byte hi hk]

/-- The groups whose descriptor counts no free block are passed over. -/
theorem Addressable.allocBlockAt_none (hnone : allocBlockAt v garbage = none) (hi : i < v.nGroups)
    (hcount : v.bgFreeBlocksCount i ≠ 0) (hk : k < v.sBlocksPerGroup) : groupBit v i k = true := by
  have hgroup := List.findSome?_eq_none_iff.mp hnone i (List.mem_range.mpr hi)
  rw [if_pos hcount, Option.map_eq_none_iff] at hgroup
  have hbit := List.find?_eq_none.mp hgroup k (List.mem_range.mpr hk)
  rw [h.buf_bit hi hk] at hbit
  simpa using hbit

theorem Addressable.allocBlockAt_some (hsome : allocBlockAt v garbage = some (i, ib)) :
    i < v.nGroups ∧ v.bgFreeBlocksCount i ≠ 0 ∧ ib < v.sBlocksPerGroup ∧ groupBit v i ib = false := by
  obtain ⟨j, hj, hgroup⟩ := List.exists_of_findSome?_eq_some hsome
  have hj := List.mem_range.mp hj
  split_ifs at hgroup with hcount
  obtain ⟨k, hfind, heq⟩ := Option.map_eq_some_iff.mp hgroup
  obtain ⟨rfl, rfl⟩ := Prod.mk.inj heq
  have hk := List.mem_range.mp (List.mem_of_find?_eq_some hfind)
  have hbit := List.find?_some hfind
  rw [h.buf_bit hj hk] at hbit
  exact ⟨hj, hcount, hk, by simpa using hbit⟩

/-- The bit of a block that is free by its number. -/
theorem Addressable.blockFree_iff (hk : k < v.sBlocksPerGroup) :
    BlockFree v (k + i * v.sBlocksPerGroup) ↔ i < v.nGroups ∧ groupBit v i k = false := by
  obtain ⟨hgroup, hbit⟩ := blockGroup_blockBit h.zeroBased (i := i) hk
  unfold BlockFree
  rw [hgroup, hbit, h.zeroBased]
  exact and_iff_right (Nat.zero_le _)

/-- Writing the byte of bit `k` of group `i` with that bit set. -/
theorem Addressable.groupBit_set (hi : i < v.nGroups) (hk : k < v.sBlocksPerGroup) {j m : Nat} (hj : j < v.nGroups)
    (hm : m < v.sBlocksPerGroup) :
    groupBit (v.writeByte (v.bgBlockBitmap i * v.blockSize + k / 8)
      (setBit (v.disk (v.bgBlockBitmap i * v.blockSize + k / 8)) (k % 8))) j m =
        (groupBit v j m || decide (j = i ∧ m = k)) := by
  have hfits := h.fits
  have hsame : (v.bgBlockBitmap j * v.blockSize + m / 8 = v.bgBlockBitmap i * v.blockSize + k / 8 ∧
      k % 8 = m % 8) ↔ j = i ∧ m = k := by
    rw [same_bit_iff (by omega) (by omega)]
    exact and_congr_left' ⟨h.distinct j hj i hi, fun he => he ▸ rfl⟩
  rw [← decide_eq_decide.mpr hsame]
  exact bitAt_setBit

theorem Addressable.groupBit_clear (hi : i < v.nGroups) (hk : k < v.sBlocksPerGroup) {j m : Nat}
    (hj : j < v.nGroups) (hm : m < v.sBlocksPerGroup) :
    groupBit (v.writeByte (v.bgBlockBitmap i * v.blockSize + k / 8)
      (clearBit (v.disk (v.bgBlockBitmap i * v.blockSize + k / 8)) (k % 8))) j m =
        (groupBit v j m && !decide (j = i ∧ m = k)) := by
  have hfits := h.fits
  have hsame : (v.bgBlockBitmap j * v.blockSize + m / 8 = v.bgBlockBitmap i * v.blockSize + k / 8 ∧
      k % 8 = m % 8) ↔ j = i ∧ m = k := by
    rw [same_bit_iff (by omega) (by omega)]
    exact and_congr_left' ⟨h.distinct j hj i hi, fun he => he ▸ rfl⟩
  rw [← decide_eq_decide.mpr hsame]
  exact bitAt_clearBit

/-- Two numbers of blocks are the same if their groups and bits are. -/
theorem Addressable.block_eq_iff {b : Nat} (hk : k < v.sBlocksPerGroup) :
    b = k + i * v.sBlocksPerGroup ↔ blockGroup v b = i ∧ blockBit v b = k := by
  constructor
  · rintro rfl
    exact blockGroup_blockBit h.zeroBased hk
  · rintro ⟨rfl, rfl⟩
    exact (block_eq h.zeroBased b).symm

/-- A call that finds a bit sets it, and returns the number of the block. -/
theorem Addressable.allocBlock_some (hsome : allocBlockAt v garbage = some (i, ib))
    (hword : ib + i * v.sBlocksPerGroup < 2 ^ 32) :
    allocBlock v garbage = (ib + i * v.sBlocksPerGroup,
      v.writeByte (v.bgBlockBitmap i * v.blockSize + ib / 8)
        (setBit (v.disk (v.bgBlockBitmap i * v.blockSize + ib / 8)) (ib % 8))) := by
  obtain ⟨hi, -, hib, -⟩ := h.allocBlockAt_some hsome
  unfold allocBlock
  rw [hsome]
  dsimp only
  rw [Nat.mod_eq_of_lt hword, h.addr_eq hi hib, h.buf_byte hi hib]

theorem Addressable.freeBlock_eq {b : Nat} (hgroup : blockGroup v b < v.nGroups) :
    freeBlock v b = v.writeByte (v.bgBlockBitmap (blockGroup v b) * v.blockSize + blockBit v b / 8)
      (clearBit (v.disk (v.bgBlockBitmap (blockGroup v b) * v.blockSize + blockBit v b / 8))
        (blockBit v b % 8)) := by
  have hdiv : b / v.sBlocksPerGroup = blockGroup v b := by
    unfold blockGroup
    rw [h.zeroBased, Nat.sub_zero]
  have hmod : b - v.sBlocksPerGroup * blockGroup v b = blockBit v b := by
    have := block_eq h.zeroBased b
    rw [Nat.mul_comm]
    omega
  unfold freeBlock
  dsimp only
  rw [hdiv, hmod, h.addr_eq hgroup (blockBit_lt h.blocksPerGroup_pos b)]

/-- Setting the bit of a block takes it from the free blocks. -/
theorem Addressable.blockFree_set (hi : i < v.nGroups) (hk : k < v.sBlocksPerGroup) (b : Nat) :
    BlockFree (v.writeByte (v.bgBlockBitmap i * v.blockSize + k / 8)
      (setBit (v.disk (v.bgBlockBitmap i * v.blockSize + k / 8)) (k % 8))) b ↔
        BlockFree v b ∧ b ≠ k + i * v.sBlocksPerGroup := by
  rw [Ne, h.block_eq_iff hk, blockFree_writeByte]
  constructor
  · rintro ⟨hfirst, hgroup, hbit⟩
    rw [h.groupBit_set hi hk hgroup (blockBit_lt h.blocksPerGroup_pos b), Bool.or_eq_false_iff,
      decide_eq_false_iff_not] at hbit
    exact ⟨⟨hfirst, hgroup, hbit.1⟩, hbit.2⟩
  · rintro ⟨⟨hfirst, hgroup, hbit⟩, hne⟩
    refine ⟨hfirst, hgroup, ?_⟩
    rw [h.groupBit_set hi hk hgroup (blockBit_lt h.blocksPerGroup_pos b), Bool.or_eq_false_iff,
      decide_eq_false_iff_not]
    exact ⟨hbit, hne⟩

theorem Addressable.blockFree_clear {c : Nat} (hgroup : blockGroup v c < v.nGroups) (b : Nat) :
    BlockFree (freeBlock v c) b ↔ BlockFree v b ∨ b = c := by
  have hc := blockBit_lt h.blocksPerGroup_pos c
  have hsame : b = c ↔ blockGroup v b = blockGroup v c ∧ blockBit v b = blockBit v c := by
    rw [← h.block_eq_iff hc, block_eq h.zeroBased]
  rw [h.freeBlock_eq hgroup, hsame, blockFree_writeByte]
  constructor
  · rintro ⟨hfirst, hb, hbit⟩
    rw [h.groupBit_clear hgroup hc hb (blockBit_lt h.blocksPerGroup_pos b), Bool.and_eq_false_iff,
      Bool.not_eq_false', decide_eq_true_iff] at hbit
    exact hbit.imp_left fun hfree => ⟨hfirst, hb, hfree⟩
  · rintro (⟨hfirst, hb, hbit⟩ | hbc)
    · refine ⟨hfirst, hb, ?_⟩
      rw [h.groupBit_clear hgroup hc hb (blockBit_lt h.blocksPerGroup_pos b), Bool.and_eq_false_iff]
      exact Or.inl hbit
    · have hb : blockGroup v b < v.nGroups := hbc.1 ▸ hgroup
      refine ⟨h.zeroBased ▸ Nat.zero_le b, hb, ?_⟩
      rw [h.groupBit_clear hgroup hc hb (blockBit_lt h.blocksPerGroup_pos b), Bool.and_eq_false_iff,
        Bool.not_eq_false', decide_eq_true_iff]
      exact Or.inr hbc

end

/-! ## Every sequence -/

/-- A call of `alloc_block` finds no free block, or takes one whose group has free blocks by its descriptor. -/
theorem BlockInv.alloc_cases (h : BlockInv s) (garbage : Bytes) :
    ((allocBlock s.volume garbage) = (0, s.volume) ∧ ∀ b, ¬ BlockFree s.volume b) ∨
      ∃ b v', allocBlock s.volume garbage = (b, v') ∧ BlockFree s.volume b ∧ Addressable v' ∧
        v'.nGroups = s.volume.nGroups ∧ v'.bgFreeBlocksCount = s.volume.bgFreeBlocksCount ∧
        blockGroup v' = blockGroup s.volume ∧ ∀ c, BlockFree v' c ↔ BlockFree s.volume c ∧ c ≠ b := by
  have haddr := h.addressable
  cases hat : allocBlockAt s.volume garbage with
  | none =>
    refine Or.inl ⟨?_, fun b hfree => ?_⟩
    · unfold allocBlock
      rw [hat]
    · have hset := haddr.allocBlockAt_none hat hfree.2.1 (h.count b hfree) (blockBit_lt haddr.blocksPerGroup_pos b)
      rw [hfree.2.2] at hset
      cases hset
  | some r =>
    obtain ⟨i, ib⟩ := r
    obtain ⟨hi, -, hib, hbit⟩ := haddr.allocBlockAt_some hat
    have hfree := (haddr.blockFree_iff hib).mpr ⟨hi, hbit⟩
    refine Or.inr ⟨_, _, haddr.allocBlock_some hat (h.word _ hfree), hfree, ?_, rfl, rfl, rfl,
      haddr.blockFree_set hi hib⟩
    exact ⟨⟨haddr.zeroBased, haddr.low⟩, haddr.blocksPerGroup_pos, haddr.fits, haddr.distinct⟩

theorem BlockInv.law (h : BlockInv s) : BlockLaw s := by
  refine ⟨⟨fun garbage hne => ?_, fun garbage hzero => ?_⟩, fun b hb => ?_⟩
  · rcases h.alloc_cases garbage with ⟨heq, -⟩ | ⟨b, v', heq, hfree, -, -, -, -, hset⟩
    · rw [heq] at hne
      exact absurd rfl hne
    · rw [heq]
      exact ⟨hfree, hset⟩
  · rcases h.alloc_cases garbage with ⟨-, hfull⟩ | ⟨b, v', heq, hfree, -⟩
    · exact hfull
    · rw [heq] at hzero
      have hb : b = 0 := hzero
      exact absurd (hb ▸ hfree) h.reserved
  · exact fun c => h.addressable.blockFree_clear (h.allocated b hb).2.2.2.1 c

theorem BlockInv.step (h : BlockInv s) {op : BlockOp} (hallowed : BlockAllowed s op) : BlockInv (blockStep s op) := by
  cases op with
  | alloc garbage =>
    unfold blockStep
    dsimp only
    rcases h.alloc_cases garbage with ⟨heq, -⟩ | ⟨b, v', heq, hfree, haddr, hgroups, hcount, hgroup, hset⟩
    · rw [heq]
      exact h
    · have hb : b ≠ 0 := fun h0 => h.reserved (h0 ▸ hfree)
      rw [heq]
      dsimp only
      rw [if_pos hb]
      refine ⟨haddr, fun c hc => h.word c ((hset c).mp hc).1, fun h0 => h.reserved ((hset 0).mp h0).1,
        fun c hc => ?_, ?_, ?_⟩
      · show v'.bgFreeBlocksCount (blockGroup v' c) ≠ 0
        rw [hcount, hgroup]
        exact h.count c ((hset c).mp hc).1
      · refine List.nodup_cons.mpr ⟨fun hmem => ?_, h.nodup⟩
        exact (h.allocated b hmem).2.2.1 hfree
      · show ∀ c ∈ b :: s.allocated, c ≠ 0 ∧ c < 2 ^ 32 ∧ ¬ BlockFree v' c ∧ blockGroup v' c < v'.nGroups ∧
          v'.bgFreeBlocksCount (blockGroup v' c) ≠ 0
        rw [hcount, hgroup, hgroups, List.forall_mem_cons]
        refine ⟨⟨hb, h.word b hfree, fun hin => ((hset b).mp hin).2 rfl, hfree.2.1, h.count b hfree⟩,
          fun c hc => ?_⟩
        obtain ⟨h0, hlt, hused, hrest⟩ := h.allocated c hc
        exact ⟨h0, hlt, fun hin => hused ((hset c).mp hin).1, hrest⟩
  | free b =>
    have hb : b ∈ s.allocated := hallowed
    obtain ⟨h0, hlt, -, hgroup, hcount⟩ := h.allocated b hb
    have haddr := h.addressable
    have hclear := haddr.blockFree_clear hgroup
    refine ⟨⟨⟨haddr.zeroBased, haddr.low⟩, haddr.blocksPerGroup_pos, haddr.fits, haddr.distinct⟩, fun c hc => ?_,
      fun hz => ?_, fun c hc => ?_, h.nodup.erase b, fun c hc => ?_⟩
    · rcases (hclear c).mp hc with hold | rfl
      · exact h.word c hold
      · exact hlt
    · rcases (hclear 0).mp hz with hold | hzero
      · exact h.reserved hold
      · exact h0 hzero.symm
    · rcases (hclear c).mp hc with hold | rfl
      · exact h.count c hold
      · exact hcount
    · obtain ⟨hcb, hmem⟩ := h.nodup.mem_erase_iff.mp hc
      obtain ⟨hc0, hclt, hused, hrest⟩ := h.allocated c hmem
      exact ⟨hc0, hclt, fun hin => ((hclear c).mp hin).elim hused hcb, hrest⟩

theorem BlockBitmaps.inv (h : BlockBitmaps v) (hlow : ZeroBasedLow v) : BlockInv ⟨v, []⟩ := by
  refine ⟨⟨hlow, h.blocksPerGroup_pos, h.fits, h.distinct⟩, h.word, h.reserved, fun b hfree => ?_, List.nodup_nil,
    fun b hb => absurd hb List.not_mem_nil⟩
  have hbit := blockBit_lt h.blocksPerGroup_pos b
  rw [h.count _ hfree.2.1]
  apply Nat.ne_of_gt
  rw [List.countP_pos_iff]
  exact ⟨blockBit v b, List.mem_range.mpr hbit, by simp [hfree.2.2]⟩

end

/-! ## A group of eight blocks -/

/-- Blocks of 1024 bytes, numbered from `first`; block bitmap in block 1, where three blocks are in use. -/
def smallVolume (first : Nat) : Ext2Volume where
  superblock := ⟨0, 8, 128⟩
  groupDescTable := fun _ => ⟨3⟩
  disk := fun n => if n = 1024 then 7 else 0
  sFirstDataBlock := first
  sBlocksPerGroup := 8
  nGroups := 1
  bgBlockBitmap := fun _ => 1
  bgFreeBlocksCount := fun _ => 5
  bgInodeBitmap := fun _ => 2
  bgFreeInodesCount := fun _ => 8
  inodeBitmap := fun _ _ => 0

theorem smallVolume_bitmaps {first : Nat} (hfirst : first = 0 ∨ first = 1) : BlockBitmaps (smallVolume first) := by
  have hlt : ∀ b, BlockFree (smallVolume first) b → b < 9 := by
    rintro b ⟨hle, hgroup, -⟩
    have hgroup' : (b - first) / 8 < 1 := hgroup
    omega
  refine ⟨show 0 < 8 by decide, show 8 ≤ 8 * 1024 by decide, fun i hi j hj _ => ?_, fun b hb => ?_, ?_, fun i _ => ?_⟩
  · have hi' : i < 1 := hi
    have hj' : j < 1 := hj
    omega
  · exact Nat.lt_trans (hlt b hb) (by decide)
  · rcases hfirst with rfl | rfl <;> decide
  · rcases hfirst with rfl | rfl
    · show 5 = (List.range 8).countP fun k => !groupBit (smallVolume 0) 0 k
      decide
    · show 5 = (List.range 8).countP fun k => !groupBit (smallVolume 1) 0 k
      decide

end Desiros.Fs
