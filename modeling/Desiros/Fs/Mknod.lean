import Desiros.Fs.AddRight
import Desiros.Fs.MakeDir

/-!
# Creating a node (`ext2_mknod`, `mknod_inode`)

`mknod_inode` enters the inode in the directory whether `alloc_inode` had one or not, does not learn whether the entry
has found room, and picks the type of the entry by single bits of the mode, which several types share.
`ext2_mknod_right` says when the node is made, or nothing happens.
-/

namespace Desiros.Fs

open Desiros.Library

/-! ## Types -/

def ext2SIfreg : Nat := 0x8000

/-- The type of an entry for a mode. A mode without a type is that of a file. -/
def fileTypeOf (mode : Nat) : Nat :=
  let type := mode &&& sIfmt
  if type = ext2SIfdir then ext2FtDir
  else if type = ext2SIfifo then ext2FtFifo
  else if type = ext2SIfchr then ext2FtChrdev
  else if type = ext2SIfblk then ext2FtBlkdev
  else if type = ext2SIfsock then ext2FtSock
  else if type = ext2SIflnk then ext2FtSymlink
  else if type = ext2SIfreg ∨ type = 0 then ext2FtRegFile
  else 0

/-- The type that `mknod_inode` gives to the entry. -/
def mknodType (mode : Nat) : Nat :=
  if mode &&& ext2SIfdir ≠ 0 then ext2FtDir
  else if mode &&& ext2SIfifo ≠ 0 then ext2FtFifo
  else if mode &&& ext2SIfchr ≠ 0 then ext2FtChrdev
  else if mode &&& ext2SIfblk ≠ 0 then ext2FtBlkdev
  else if mode &&& ext2SIfsock ≠ 0 then ext2FtSock
  else if mode &&& ext2SIflnk ≠ 0 then ext2FtSymlink
  else ext2FtRegFile

section

variable {v : Ext2Volume} {g : Garbage} {fuel inode mode cdate : Nat} {name : List UInt8}

/-- Bits above the lowest twelve. -/
theorem and_high (mode y : Nat) (hy : y < 2 ^ 4) : mode &&& y * 2 ^ 12 = (mode / 2 ^ 12 % 2 ^ 4 &&& y) * 2 ^ 12 := by
  apply Nat.eq_of_testBit_eq
  intro i
  rw [Nat.testBit_and, Nat.testBit_mul_two_pow, Nat.testBit_mul_two_pow, Nat.testBit_and, Nat.testBit_mod_two_pow,
    Nat.testBit_div_two_pow]
  by_cases hi : 12 ≤ i
  · rw [decide_eq_true hi, Bool.true_and, Bool.true_and, Nat.sub_add_cancel hi]
    by_cases hlow : i - 12 < 4
    · rw [decide_eq_true hlow, Bool.true_and]
    · have hzero : y.testBit (i - 12) = false :=
        Nat.testBit_lt_two_pow (Nat.lt_of_lt_of_le hy (Nat.pow_le_pow_right (show 0 < 2 by decide) (Nat.not_lt.mp hlow)))
      rw [hzero, Bool.and_false, Bool.and_false]
  · rw [decide_eq_false hi, Bool.false_and, Bool.false_and, Bool.and_false]

/-- The types for which one bit is enough. -/
theorem fileTypeOf_eq_iff (mode : Nat) : fileTypeOf mode = mknodType mode ↔ mode &&& sIfmt = 0 ∨
    mode &&& sIfmt = ext2SIfdir ∨ mode &&& sIfmt = ext2SIfchr ∨ mode &&& sIfmt = ext2SIfifo := by
  have hmask : ∀ y < 16, mode &&& y * 4096 = (mode / 4096 % 16 &&& y) * 4096 := and_high mode
  have hfmt := hmask 15 (by decide)
  have hdir := hmask 4 (by decide)
  have hfifo := hmask 1 (by decide)
  have hchr := hmask 2 (by decide)
  have hblk := hmask 6 (by decide)
  have hsock := hmask 12 (by decide)
  have hlnk := hmask 10 (by decide)
  have hlt : mode / 4096 % 16 < 16 := Nat.mod_lt _ (by norm_num)
  generalize mode / 4096 % 16 = c at hfmt hdir hfifo hchr hblk hsock hlnk hlt
  unfold fileTypeOf mknodType sIfmt ext2SIfdir ext2SIfifo ext2SIfchr ext2SIfblk ext2SIfsock ext2SIflnk ext2SIfreg
  norm_num at hfmt hdir hfifo hchr hblk hsock hlnk
  rw [hfmt, hdir, hfifo, hchr, hblk, hsock, hlnk]
  clear hfmt hdir hfifo hchr hblk hsock hlnk hmask
  revert c
  decide

theorem mknodType_lt (mode : Nat) : mknodType mode < 256 := by
  unfold mknodType
  split_ifs <;> decide

/-- All types take the same way. -/
theorem mknodInode_eq (v : Ext2Volume) (g : Garbage) (fuel inode : Nat) (name : List UInt8) (mode cdate : Nat) :
    mknodInode v g fuel inode name mode cdate =
      let r := allocInode v (newExt2Inode mode cdate)
      (addDirEntry r.2.toExt2FsInstance g fuel inode name (mknodType mode) (toWord r.1)).map fun fs =>
        (r.1, if mode &&& ext2SIfdir ≠ 0 then initDir (r.2.withFs fs) g r.1 inode else r.2.withFs fs) := by
  unfold mknodInode mknodType
  dsimp only
  split_ifs <;> rw [Option.map_map] <;> rfl

end

/-! ## The property -/

section

variable (v : Ext2Volume) (g : Garbage) (p : Nat) (blocks : List (List (Nat × DirRecord))) (name : List UInt8)
  (mode : Nat)

/-- A block of an inode table or an inode bitmap. -/
def InodeMeta (b : Nat) : Prop :=
  ∃ i < v.nGroups, b = v.bgInodeBitmap i ∨ (v.groupDescTable i).bgInodeTable ≤ b ∧ b < tableEnd v i

/-- Block `n` of the parent directory. -/
def parentBlock (n : Nat) : Nat := formatBlock v.toExt2FsInstance (readInode v.toExt2FsInstance g p) n

def IsParentBlock (b : Nat) : Prop := ∃ n < blocks.length, b = parentBlock v g p n

/-- Whatever the blocks `P` hold, the parent has the same blocks. -/
def PointersOutside (P : Nat → Prop) : Prop :=
  ∀ m : Bytes, (∀ i, ¬ P (i / v.blockSize) → m i = v.disk i) → ∀ n < blocks.length,
    formatBlock { v.toExt2FsInstance with disk := m } (readInode v.toExt2FsInstance g p) n = parentBlock v g p n

/-- A well-formed directory in use, the records of which have lengths that are multiples of 4, apart from the inode
tables and bitmaps. -/
structure MknodParent : Prop where
  log : v.superblock.sLogBlockSize ≤ 2
  inode : ∃ j < v.nGroups, ∃ m < v.superblock.sInodesPerGroup, p = inodeNumber v j m ∧ diskInodeBit v j m = true
  holds : DirHolds v.toExt2FsInstance (readInode v.toExt2FsInstance g p) blocks
  aligned : ∀ rs ∈ blocks, ∀ x ∈ rs, 4 ∣ x.1
  distinct : ∀ n < blocks.length, ∀ k < blocks.length, parentBlock v g p n = parentBlock v g p k → n = k
  apart : ∀ n < blocks.length, ¬ InodeMeta v (parentBlock v g p n)
  pointers : PointersOutside v g p blocks fun b => InodeMeta v b ∨ IsParentBlock v g p blocks b

/-- The parent has one more entry, of the name and the type of the mode, for an inode that was free and has the mode. -/
structure MknodLaw (v' : Ext2Volume) (i : Nat) : Prop where
  parent : readInode v'.toExt2FsInstance g p = readInode v.toExt2FsInstance g p ∧ ∀ n < blocks.length,
    formatBlock v'.toExt2FsInstance (readInode v.toExt2FsInstance g p) n = parentBlock v g p n
  entry : ∃ blocks', DirHolds v'.toExt2FsInstance (readInode v'.toExt2FsInstance g p) blocks' ∧
    (∀ rs ∈ blocks', ∀ x ∈ rs, 4 ∣ x.1) ∧
    (blocks'.flatten.map Prod.snd).Perm (⟨i, name, fileTypeOf mode⟩ :: blocks.flatten.map Prod.snd)
  inode : ∃ j < v.nGroups, ∃ m < v.superblock.sInodesPerGroup, i = inodeNumber v j m ∧ diskInodeBit v j m = false ∧
    diskInodeBit v' j m = true
  mode : (readInode v'.toExt2FsInstance g i).iMode = mode

/-- `ext2_mknod` returns; after an error nothing has changed, and without one the node is there. -/
def MknodRight (dir : Inode) (cdate : Nat) : Prop :=
  ∃ ret v' d, (∃ N, ∀ fuel ≥ N, ext2Mknod v g fuel dir name mode cdate = some (ret, v', d)) ∧
    (ret ≠ 0 → v' = v) ∧
    (ret = 0 → ∃ inode, d = some inode ∧ MknodLaw v g dir.iIno blocks name mode v' inode.iIno)

/-- The next inode has the same slot in `alloc_inode` and `read_inode`, and both addresses are words. -/
def NextSlot (i k : Nat) : Prop :=
  NextInode v i k ∧ (v.superblock.sInodeSize = sizeofExt2Inode ∨ k = 0) ∧
    (v.groupDescTable i).bgInodeTable * v.blockSize + sizeofExt2Inode * k < 2 ^ 32 ∧
    v.bgInodeBitmap i * v.blockSize + k / 8 < 2 ^ 32

/-- What `init_dir` writes for a directory without blocks lies elsewhere: the tables, the bitmaps and the parent are in
the first 4 GiB, behind two blocks. -/
structure InFirst4G : Prop where
  inodes : ∀ b, InodeMeta v b → ¬ Outside v.blockSize b
  parent : ∀ n < blocks.length, ¬ Outside v.blockSize (parentBlock v g p n)
  pointers : PointersOutside v g p blocks fun b =>
    InodeMeta v b ∨ IsParentBlock v g p blocks b ∨ Outside v.blockSize b

/-- There is a free inode, the last record of the first block has room for the entry, and the mode is one of 16 bits
whose type `mknod_inode` knows. -/
structure MknodFits : Prop where
  next : ∃ i k, NextSlot v i k
  bits : mode < 2 ^ 16
  type : mode &&& sIfmt = 0 ∨ mode &&& sIfmt = ext2SIfdir ∨ mode &&& sIfmt = ext2SIfchr ∨ mode &&& sIfmt = ext2SIfifo
  length : name.length < 256
  room : AddFits v.toExt2FsInstance g p blocks name
  directory : mode &&& ext2SIfdir ≠ 0 → InFirst4G v g p blocks

/-- The last record of the first block could be shorter, in a block that ends below 4 GiB. -/
def Slack : Prop :=
  (parentBlock v g p 0) * v.blockSize + v.blockSize < 2 ^ 32 ∧ ∃ init len r rest,
    blocks = (init ++ [(len, r)]) :: rest ∧ len ≠ dirEntrySize r.name.length

/-- No directory is made, in a parent with a first block below 4 GiB, and the inode is written where it is read, or
there is none and the last record becomes shorter. -/
structure MknodKind : Prop where
  notDirectory : mode &&& ext2SIfdir = 0
  low : parentBlock v g p 0 * v.blockSize < 2 ^ 32
  inode : (∃ i k, NextSlot v i k) ∨ (∀ i k, ¬ NextInode v i k) ∧ name.length < 256 ∧ Slack v g p blocks

end

/-! ## The inode allocated -/

section

variable {v : Ext2Volume} {g : Garbage} {i j k m n p : Nat} {blocks : List (List (Nat × DirRecord))} {d d' : Bytes}

theorem NextSlot.positions (h : InodeTables v) (hslot : NextSlot v i k) : writePos v i k = slotPos v i k ∧
    bitmapPos v i k = v.bgInodeBitmap i * v.blockSize + k / 8 :=
  ⟨(h.writePos_eq_iff i k).mpr ⟨hslot.2.1, hslot.2.2.1⟩, (bitmapPos_eq_iff v i k).mpr hslot.2.2.2⟩

/-- A byte of a slot. -/
theorem InodeTables.slot_meta {t : Nat} (h : InodeTables v) (hi : i < v.nGroups)
    (hk : k < v.superblock.sInodesPerGroup) (ht : t < sizeofExt2Inode) :
    InodeMeta v ((slotPos v i k + t) / v.blockSize) := by
  obtain ⟨heq, hlt⟩ := @InodeTables.slot_block v i k h t hk ht
  rw [heq]
  exact ⟨i, hi, .inr ⟨Nat.le_add_right _ _, hlt⟩⟩

/-- The byte of a bit of a bitmap. -/
theorem InodeTables.bit_meta (h : InodeTables v) (hi : i < v.nGroups) (hk : k < v.superblock.sInodesPerGroup) :
    InodeMeta v ((v.bgInodeBitmap i * v.blockSize + k / 8) / v.blockSize) := by
  have hfits := h.fits
  rw [pos_div (show k / 8 < v.blockSize by omega)]
  exact ⟨i, hi, .inl rfl⟩

theorem allocInode_fs (hnext : NextInode v i k) (x : Bytes) : (allocInode v x).2.toExt2FsInstance =
    { v.toExt2FsInstance with disk := (allocInode v x).2.disk } := by
  unfold allocInode
  rw [allocInodeAt_eq_some.mpr hnext]
  rfl

/-- Only tables and bitmaps of inodes are written. -/
theorem InodeTables.allocInode_outside (h : InodeTables v) (hslot : NextSlot v i k) (x : Bytes)
    (hn : ¬ InodeMeta v (n / v.blockSize)) : (allocInode v x).2.disk n = v.disk n := by
  obtain ⟨hwrite, hbitmap⟩ := hslot.positions h
  have hi := hslot.1.group.1
  have hk := hslot.1.bit.1
  apply allocInode_disk_of_ne hslot.1 x
  · rintro rfl
    apply hn
    rw [hbitmap]
    exact h.bit_meta hi hk
  · by_contra hin
    rw [not_or, not_lt, not_le] at hin
    obtain ⟨t, rfl⟩ := Nat.exists_eq_add_of_le hin.1
    apply hn
    rw [hwrite]
    exact h.slot_meta hi hk (by omega)

/-- The tables determine the inodes. -/
theorem InodeTables.readInode_meta (h : InodeTables v) (g : Garbage) (hj : j < v.nGroups)
    (hm : m < v.superblock.sInodesPerGroup) (hsame : ∀ n, InodeMeta v (n / v.blockSize) → d n = d' n) :
    readInode { v.toExt2FsInstance with disk := d } g (inodeNumber v j m) =
      readInode { v.toExt2FsInstance with disk := d' } g (inodeNumber v j m) := by
  have heq : ∀ d : Bytes, readInode { v.toExt2FsInstance with disk := d } g (inodeNumber v j m) =
      inodeOf g fun t => d (slotPos v j m + t) := fun d =>
    h.readInode_eq g hj hm (show ({ v.toExt2FsInstance with disk := d } : Ext2FsInstance).superblock = v.superblock
      from rfl) rfl
  rw [heq, heq]
  unfold inodeOf
  apply congrArg
  funext t
  by_cases ht : t < sizeofExt2Inode
  · rw [if_pos ht, if_pos ht]
    exact hsame _ (h.slot_meta hj hm ht)
  · rw [if_neg ht, if_neg ht]

/-- The bitmaps determine the bits. -/
theorem InodeTables.diskInodeBit_meta (h : InodeTables v) {v₁ v₂ : Ext2Volume} (hj : j < v.nGroups)
    (hm : m < v.superblock.sInodesPerGroup) (hbs : v₁.blockSize = v.blockSize ∧ v₂.blockSize = v.blockSize)
    (hbitmap : v₁.bgInodeBitmap = v.bgInodeBitmap ∧ v₂.bgInodeBitmap = v.bgInodeBitmap)
    (hsame : ∀ n, InodeMeta v (n / v.blockSize) → v₁.disk n = v₂.disk n) :
    diskInodeBit v₁ j m = diskInodeBit v₂ j m := by
  unfold diskInodeBit bitAt
  rw [hbs.1, hbs.2, hbitmap.1, hbitmap.2, hsame _ (h.bit_meta hj hm)]

end

/-! ## The parent -/

section

variable {v : Ext2Volume} {g : Garbage} {i k n p : Nat} {blocks : List (List (Nat × DirRecord))}

/-- The parent on a disk that differs in the tables and bitmaps only, and not in its own inode. -/
theorem MknodParent.ext2Dir (h : InodeTables v) (hp : MknodParent v g p blocks) {d : Bytes}
    (hsame : ∀ n, ¬ InodeMeta v (n / v.blockSize) → d n = v.disk n)
    (hread : readInode { v.toExt2FsInstance with disk := d } g p = readInode v.toExt2FsInstance g p) :
    Ext2Dir { v.toExt2FsInstance with disk := d } g p blocks := by
  have hformat : ∀ n < blocks.length, formatBlock { v.toExt2FsInstance with disk := d }
      (readInode v.toExt2FsInstance g p) n = parentBlock v g p n :=
    hp.pointers d fun i hi => hsame i fun hmeta => hi (.inl hmeta)
  refine ⟨hp.log, ⟨?_, fun n hn => ?_⟩, hp.aligned, fun m hm => ?_, ?_⟩
  · rw [hread]
    exact hp.holds.size
  · rw [hread, hformat n hn]
    refine (hp.holds.block n hn).congr fun i hle hlt => hsame i ?_
    obtain ⟨t, rfl⟩ := Nat.exists_eq_add_of_le hle
    have ht : t < v.blockSize := Nat.lt_of_add_lt_add_left hlt
    have hdiv : (formatBlock v.toExt2FsInstance (readInode v.toExt2FsInstance g p) n * v.blockSize + t) / v.blockSize =
      parentBlock v g p n := pos_div ht
    intro hmeta
    exact hp.apart n hn (hdiv ▸ hmeta)
  · rw [hread] at hm ⊢
    have hm : ∀ i, ¬ IsParentBlock v g p blocks (i / v.blockSize) → m i = d i := by
      intro i hi
      apply hm
      intro n hn heq
      exact hi ⟨n, hn, heq.trans (hformat n hn)⟩
    obtain ⟨j, hj, k, hk, rfl, -⟩ := hp.inode
    refine ⟨?_, fun n hn => ?_⟩
    · refine Eq.trans ?_ hread
      apply h.readInode_meta g hj hk
      intro i hmeta
      apply hm
      rintro ⟨n, hn, heq⟩
      exact hp.apart n hn (heq ▸ hmeta)
    · refine Eq.trans ?_ (hformat n hn).symm
      apply hp.pointers m _ n hn
      intro i hi
      rw [not_or] at hi
      exact (hm i hi.2).trans (hsame i hi.1)
  · rw [hread]
    intro n hn k hk heq
    rw [hformat n hn, hformat k hk] at heq
    exact hp.distinct n hn k hk heq

/-- The mode of the new inode. -/
theorem newExt2Inode_mode (g : Garbage) {mode : Nat} (hmode : mode < 2 ^ 16) (cdate : Nat) :
    (inodeOf g (newExt2Inode mode cdate)).iMode = mode := by
  show (UInt8.ofNat (mode / 256 ^ 0)).toNat + 256 * ((UInt8.ofNat (mode / 256 ^ 1)).toNat + 256 * 0) = mode
  rw [UInt8.toNat_ofNat', UInt8.toNat_ofNat']
  omega

/-- Where the tables and bitmaps stay as they are, so do the inodes and their bits. -/
theorem InodeTables.inodes_kept (h : InodeTables v) (g : Garbage) {v₁ v' : Ext2Volume}
    (hfs₁ : v₁.toExt2FsInstance = { v.toExt2FsInstance with disk := v₁.disk })
    (hfs' : v'.toExt2FsInstance = { v.toExt2FsInstance with disk := v'.disk })
    (hbitmap : v₁.bgInodeBitmap = v.bgInodeBitmap ∧ v'.bgInodeBitmap = v.bgInodeBitmap)
    (hmeta : ∀ n, InodeMeta v (n / v.blockSize) → v'.disk n = v₁.disk n) :
    ∀ j < v.nGroups, ∀ m < v.superblock.sInodesPerGroup,
      readInode v'.toExt2FsInstance g (inodeNumber v j m) = readInode v₁.toExt2FsInstance g (inodeNumber v j m) ∧
        diskInodeBit v' j m = diskInodeBit v₁ j m := by
  intro j hj m hm
  have hbs : ∀ w : Ext2Volume, w.toExt2FsInstance = { v.toExt2FsInstance with disk := w.disk } →
      w.blockSize = v.blockSize := by
    intro w hw
    rw [hw]
    rfl
  refine ⟨?_, h.diskInodeBit_meta hj hm ⟨hbs v' hfs', hbs v₁ hfs₁⟩ ⟨hbitmap.2, hbitmap.1⟩ hmeta⟩
  rw [hfs', hfs₁]
  exact h.readInode_meta g hj hm hmeta

/-- The inode of the parent is not the new one. -/
theorem MknodParent.read_new (hp : MknodParent v g p blocks) {x : Bytes} {v₁ : Ext2Volume}
    (hnew : NewInode v g x v₁ i k) : readInode v₁.toExt2FsInstance g p = readInode v.toExt2FsInstance g p := by
  obtain ⟨j, hj, m, hm, rfl, hused⟩ := hp.inode
  refine (hnew.others j hj m hm ?_).1
  intro heq
  obtain ⟨rfl, rfl⟩ := Prod.mk.inj heq
  rw [hnew.clear.1] at hused
  cases hused

/-- What is left to show once the entry is there. -/
theorem MknodParent.law (h : InodeTables v) (hp : MknodParent v g p blocks) {name : List UInt8} {mode cdate : Nat}
    {v₁ v' : Ext2Volume} {blocks' : List (List (Nat × DirRecord))}
    (hnew : NewInode v g (newExt2Inode mode cdate) v₁ i k) (hi : i < v.nGroups) (hk : k < v.superblock.sInodesPerGroup)
    (hmode : mode < 2 ^ 16) (hfs₁ : v₁.toExt2FsInstance = { v.toExt2FsInstance with disk := v₁.disk })
    (hfs' : v'.toExt2FsInstance = { v.toExt2FsInstance with disk := v'.disk })
    (hbitmap : v₁.bgInodeBitmap = v.bgInodeBitmap ∧ v'.bgInodeBitmap = v.bgInodeBitmap)
    (hmeta : ∀ n, InodeMeta v (n / v.blockSize) → v'.disk n = v₁.disk n)
    (hformat : ∀ n < blocks.length,
      formatBlock v'.toExt2FsInstance (readInode v.toExt2FsInstance g p) n = parentBlock v g p n)
    (hholds : DirHolds v'.toExt2FsInstance (readInode v.toExt2FsInstance g p) blocks')
    (hadded : EntryAdded blocks blocks' ⟨inodeNumber v i k, name, fileTypeOf mode⟩) :
    MknodLaw v g p blocks name mode v' (inodeNumber v i k) := by
  have hkept := h.inodes_kept g hfs₁ hfs' hbitmap hmeta
  have hparent : readInode v'.toExt2FsInstance g p = readInode v.toExt2FsInstance g p := by
    obtain ⟨j, hj, m, hm, rfl, -⟩ := hp.inode
    exact (hkept j hj m hm).1.trans (hp.read_new hnew)
  refine ⟨⟨hparent, hformat⟩, ⟨blocks', hparent ▸ hholds, hadded.aligned hp.aligned, hadded.perm⟩,
    ⟨i, hi, k, hk, rfl, hnew.clear.1, ?_⟩, ?_⟩
  · rw [(hkept i hi k hk).2]
    exact hnew.set.1
  · rw [(hkept i hi k hk).1, hnew.read]
    exact newExt2Inode_mode g hmode cdate

/-- What changes in the blocks of the parent only is no inode. -/
theorem MknodParent.kept_meta (hp : MknodParent v g p blocks) {d d' : Bytes}
    (hkept : ∀ n, ¬ IsParentBlock v g p blocks (n / v.blockSize) → d n = d' n) {n : Nat}
    (hn : InodeMeta v (n / v.blockSize)) : d n = d' n := by
  apply hkept
  rintro ⟨m, hm, heq⟩
  exact hp.apart m hm (heq ▸ hn)

/-- The blocks of the parent determine its records. -/
theorem MknodParent.holds_congr (hp : MknodParent v g p blocks) {d d' : Bytes}
    {blocks' : List (List (Nat × DirRecord))}
    (hlog : 0 < v.blockSize)
    (hformat : ∀ n < blocks.length, formatBlock { v.toExt2FsInstance with disk := d }
      (readInode v.toExt2FsInstance g p) n = parentBlock v g p n)
    (hformat' : ∀ n < blocks.length, formatBlock { v.toExt2FsInstance with disk := d' }
      (readInode v.toExt2FsInstance g p) n = parentBlock v g p n)
    (hsame : ∀ n, IsParentBlock v g p blocks (n / v.blockSize) → d' n = d n)
    (h : DirHolds { v.toExt2FsInstance with disk := d } (readInode v.toExt2FsInstance g p) blocks') :
    DirHolds { v.toExt2FsInstance with disk := d' } (readInode v.toExt2FsInstance g p) blocks' := by
  have hlength : blocks'.length = blocks.length :=
    Nat.eq_of_mul_eq_mul_right hlog (h.size.symm.trans hp.holds.size)
  refine ⟨h.size, fun n hn => ?_⟩
  have hn' : n < blocks.length := hlength ▸ hn
  have hrecords := h.block n hn
  rw [hformat n hn'] at hrecords
  rw [hformat' n hn']
  refine hrecords.congr fun i hle hlt => hsame i ?_
  obtain ⟨t, rfl⟩ := Nat.exists_eq_add_of_le hle
  have ht : t < v.blockSize := Nat.lt_of_add_lt_add_left hlt
  exact ⟨n, hn', pos_div ht⟩

section

variable (h : InodeTables v) (hp : MknodParent v g p blocks) (hslot : NextSlot v i k)

include h hslot

theorem NextSlot.allocInode_fst (x : Bytes) : toWord (allocInode v x).1 = inodeNumber v i k ∧ (allocInode v x).1 ≠ 0 := by
  have hlt := h.inodeNumber_lt hslot.1.group.1 hslot.1.bit.1
  have hpos : 0 < inodeNumber v i k := Nat.succ_pos _
  rw [(allocInode_next hslot.1 x).1, Nat.mod_eq_of_lt hlt]
  refine ⟨toWord_toInt hlt, ?_⟩
  unfold toInt
  split_ifs <;> omega

include hp

theorem MknodParent.read_allocInode (x : Bytes) :
    readInode (allocInode v x).2.toExt2FsInstance g p = readInode v.toExt2FsInstance g p := by
  obtain ⟨hwrite, hbitmap⟩ := hslot.positions h
  exact hp.read_new (h.newInode hslot.1 hwrite hbitmap x g)

/-- The parent once the inode is allocated. -/
theorem MknodParent.allocated (x : Bytes) :
    Ext2Dir { v.toExt2FsInstance with disk := (allocInode v x).2.disk } g p blocks := by
  refine hp.ext2Dir h (fun n hn => h.allocInode_outside hslot x hn) ?_
  rw [← allocInode_fs hslot.1 x]
  exact hp.read_allocInode h hslot x

/-- The entry of the new inode, in a parent with room. -/
theorem MknodParent.entered {name : List UInt8} {type : Nat} (x : Bytes) (hname : name.length < 256)
    (htype : type < 256) (hroom : AddFits v.toExt2FsInstance g p blocks name) : ∃ d blocks',
      (∃ N, ∀ fuel ≥ N, addDirEntry (allocInode v x).2.toExt2FsInstance g fuel p name type
        (toWord (allocInode v x).1) = some { v.toExt2FsInstance with disk := d }) ∧
      (∀ n, ¬ IsParentBlock v g p blocks (n / v.blockSize) → d n = (allocInode v x).2.disk n) ∧
      DirHolds { v.toExt2FsInstance with disk := d } (readInode v.toExt2FsInstance g p) blocks' ∧
      EntryAdded blocks blocks' ⟨inodeNumber v i k, name, type⟩ := by
  have hdir := hp.allocated h hslot x
  have hread := hp.read_allocInode h hslot x
  have hfs := allocInode_fs hslot.1 x
  rw [hfs] at hread ⊢
  have hnumber := (hslot.allocInode_fst h x).1
  have hlt := h.inodeNumber_lt hslot.1.group.1 hslot.1.bit.1
  have hfits : AddFits { v.toExt2FsInstance with disk := (allocInode v x).2.disk } g p blocks name := by
    refine ⟨?_, ?_⟩
    · rw [hread]
      exact hroom.low
    · rw [hread]
      exact hroom.room
  obtain ⟨fs', blocks', ⟨N, hrun⟩, hafter, hadded, houtside⟩ :=
    added_of_fits hdir hname (hnumber ▸ hlt) htype hfits
  have hfs' := addDirEntry_disk (hrun N le_rfl)
  have hplace := hdir.layout fs'.disk houtside
  rw [hread] at hplace houtside
  refine ⟨fs'.disk, blocks', ⟨N, fun fuel hfuel => (hrun fuel hfuel).trans (congrArg some hfs')⟩, fun n hn => ?_, ?_,
    hnumber ▸ hadded⟩
  · apply houtside
    intro m hm heq
    refine hn ⟨m, hm, heq.trans ?_⟩
    exact hp.pointers _ (fun i hi => h.allocInode_outside hslot x fun hmeta => hi (.inl hmeta)) m hm
  · rw [hfs', hplace.1] at hafter
    exact hafter

end

end

/-! ## The law -/

section

variable {v : Ext2Volume} {g : Garbage} {i k : Nat} {blocks : List (List (Nat × DirRecord))} {name : List UInt8}
  {mode cdate : Nat} {dir : Inode}

/-- `init_dir` of the new inode, which has no blocks, writes elsewhere. -/
theorem initDir_kept (hbs : 0 < v.blockSize) {w : Ext2Volume}
    (hw : w.toExt2FsInstance = { v.toExt2FsInstance with disk := w.disk }) {n : Nat} (hn : n < 2 ^ 32)
    (hsize : (readInode w.toExt2FsInstance g n).iSize = 0) :
    (initDir w g (toInt n) dir.iIno).toExt2FsInstance =
        { v.toExt2FsInstance with disk := (initDir w g (toInt n) dir.iIno).disk } ∧
      (initDir w g (toInt n) dir.iIno).bgInodeBitmap = w.bgInodeBitmap ∧
      ∀ m, ¬ Outside v.blockSize (m / v.blockSize) → (initDir w g (toInt n) dir.iIno).disk m = w.disk m := by
  have hsame : w.blockSize = v.blockSize := by
    rw [hw]
    rfl
  rw [initDir_empty hsize hn]
  refine ⟨?_, rfl, fun m hm => ?_⟩
  · show { w.toExt2FsInstance with disk := (initDirAt w g n dir.iIno (2 ^ 32 - 1)).disk } = _
    rw [hw]
  · apply initDirAt_empty (hsame ▸ hbs)
    rw [hsame]
    exact hm

theorem mknodRight_of_fits (h : InodeTables v) (hp : MknodParent v g dir.iIno blocks)
    (hfits : MknodFits v g dir.iIno blocks name mode) : MknodRight v g blocks name mode dir cdate := by
  obtain ⟨i, k, hslot⟩ := hfits.next
  have hi := hslot.1.group.1
  have hk := hslot.1.bit.1
  have hbs := h.blockSize_pos
  have hlt := h.inodeNumber_lt hi hk
  have htype : mknodType mode = fileTypeOf mode := ((fileTypeOf_eq_iff mode).mpr hfits.type).symm
  obtain ⟨hwrite, hbitmap⟩ := hslot.positions h
  have hnew := h.newInode hslot.1 hwrite hbitmap (newExt2Inode mode cdate) g
  have hfs := allocInode_fs hslot.1 (newExt2Inode mode cdate)
  have hframe := allocInode_next hslot.1 (newExt2Inode mode cdate)
  have houtside := fun n => @InodeTables.allocInode_outside v i k n h hslot (newExt2Inode mode cdate)
  obtain ⟨hnumber, hne⟩ := hslot.allocInode_fst h (newExt2Inode mode cdate)
  obtain ⟨d, blocks', ⟨N, hrun⟩, hkept, hholds, hadded⟩ :=
    hp.entered h hslot (newExt2Inode mode cdate) hfits.length (mknodType_lt mode) hfits.room
  have hcall := fun fuel => mknodInode_eq v g fuel dir.iIno name mode cdate
  have hfst : (allocInode v (newExt2Inode mode cdate)).1 = toInt (inodeNumber v i k) := by
    rw [hframe.1, Nat.mod_eq_of_lt hlt]
  generalize allocInode v (newExt2Inode mode cdate) = r at *
  obtain ⟨ino, v₁⟩ := r
  dsimp only at *
  have hmeta : ∀ n, InodeMeta v (n / v.blockSize) → d n = v₁.disk n := fun n hn => hp.kept_meta hkept hn
  have hd : ∀ n, ¬ (InodeMeta v (n / v.blockSize) ∨ IsParentBlock v g dir.iIno blocks (n / v.blockSize)) →
      d n = v.disk n := by
    intro n hn
    rw [not_or] at hn
    exact (hkept n hn.2).trans (houtside n hn.1)
  rw [htype] at hadded
  -- The volume at the end, which has the parent and the inodes of `d`.
  have hlaw : ∀ v' : Ext2Volume, v'.toExt2FsInstance = { v.toExt2FsInstance with disk := v'.disk } →
      v'.bgInodeBitmap = v.bgInodeBitmap → (∀ n, InodeMeta v (n / v.blockSize) ∨
        IsParentBlock v g dir.iIno blocks (n / v.blockSize) → v'.disk n = d n) →
      (∀ n < blocks.length, formatBlock v'.toExt2FsInstance (readInode v.toExt2FsInstance g dir.iIno) n =
        parentBlock v g dir.iIno n) →
      (∀ fuel ≥ N, mknodInode v g fuel dir.iIno name mode cdate = some (ino, v')) →
      MknodRight v g blocks name mode dir cdate := by
    intro v' hfs' hbit hsame hformat hreturns
    refine ⟨0, v', some (ext2inode2Inode (toWord ino) (readInode v'.toExt2FsInstance g (toWord ino))),
      ⟨N, fun fuel hfuel => ?_⟩, fun hret => absurd rfl hret, fun _ => ⟨_, rfl, ?_⟩⟩
    · unfold ext2Mknod
      rw [hreturns fuel hfuel, Option.map_some]
      dsimp only
      rw [if_neg hne]
    · show MknodLaw v g dir.iIno blocks name mode v' (toWord ino)
      rw [hnumber]
      refine hp.law h hnew hi hk hfits.bits hfs hfs' ⟨hframe.2.2.2.1, hbit⟩
        (fun n hn => (hsame n (.inl hn)).trans (hmeta n hn)) hformat ?_ hadded
      rw [hfs'] at hformat ⊢
      exact hp.holds_congr hbs (hp.pointers d hd) hformat (fun n hn => hsame n (.inr hn)) hholds
  by_cases hmode : mode &&& ext2SIfdir ≠ 0
  · have hin := hfits.directory hmode
    have hsize : (readInode (v₁.withFs { v.toExt2FsInstance with disk := d }).toExt2FsInstance g
        (inodeNumber v i k)).iSize = 0 := by
      have hread := hnew.read
      rw [hfs, ← h.readInode_meta g hi hk hmeta] at hread
      exact (congrArg Ext2Inode.iSize hread).trans (newExt2Inode_size g mode cdate)
    obtain ⟨hfs', hbit', hdisk⟩ := @initDir_kept v g dir hbs (v₁.withFs { v.toExt2FsInstance with disk := d }) rfl
      (inodeNumber v i k) hlt hsize
    refine hlaw _ hfs' (hbit'.trans hframe.2.2.2.1) (fun n hn => hdisk n ?_) ?_ fun fuel hfuel => ?_
    · rcases hn with hn | ⟨m, hm, heq⟩
      · exact hin.inodes _ hn
      · rw [heq]
        exact hin.parent m hm
    · rw [hfs']
      apply hin.pointers
      intro n hn
      rw [not_or, not_or] at hn
      exact (hdisk n hn.2.2).trans (hd n (not_or.mpr ⟨hn.1, hn.2.1⟩))
    · rw [hcall, hrun fuel hfuel, Option.map_some, if_pos hmode, hfst]
  · refine hlaw (v₁.withFs { v.toExt2FsInstance with disk := d }) rfl hframe.2.2.2.1 (fun n _ => rfl)
      (hp.pointers d hd) fun fuel hfuel => ?_
    rw [hcall, hrun fuel hfuel, Option.map_some, if_neg hmode]

/-- In a directory the entries of which a new one joins, it is the only one that does. -/
theorem perm_cons_head {a b : DirRecord} {l : List DirRecord} (h : (a :: l).Perm (b :: l)) : a = b := by
  by_contra hne
  have hcount := h.count_eq a
  rw [List.count_cons_self, List.count_cons_of_ne (Ne.symm hne)] at hcount
  omega

/-- A call that has an inode and makes no directory. -/
theorem ext2Mknod_slot {ret : Int} {v' : Ext2Volume} {d : Option Inode} (h : InodeTables v) (hslot : NextSlot v i k)
    (hmode : mode &&& ext2SIfdir = 0) (hcall : ext2Mknod v g fuel dir name mode cdate = some (ret, v', d)) :
    ∃ fs, addDirEntry (allocInode v (newExt2Inode mode cdate)).2.toExt2FsInstance g fuel dir.iIno name (mknodType mode)
        (inodeNumber v i k) = some fs ∧ ret = 0 ∧ v' = (allocInode v (newExt2Inode mode cdate)).2.withFs fs ∧
      d = some (ext2inode2Inode (inodeNumber v i k) (readInode fs g (inodeNumber v i k))) := by
  obtain ⟨hnumber, hne⟩ := hslot.allocInode_fst h (newExt2Inode mode cdate)
  unfold ext2Mknod at hcall
  rw [mknodInode_eq] at hcall
  dsimp only at hcall
  rw [hnumber, Option.map_map] at hcall
  obtain ⟨fs, hadd, heq⟩ := Option.map_eq_some_iff.mp hcall
  rw [Function.comp_apply, if_neg (not_not.mpr hmode), if_neg hne, hnumber] at heq
  obtain ⟨hret, heq⟩ := Prod.mk.inj heq
  obtain ⟨hv', hd⟩ := Prod.mk.inj heq
  exact ⟨fs, hadd, hret.symm, hv'.symm, hd.symm⟩

/-- Only bytes of the disk change. -/
theorem ext2Mknod_fs {ret : Int} {v' : Ext2Volume} {d : Option Inode} (h : InodeTables v) (hslot : NextSlot v i k)
    (hmode : mode &&& ext2SIfdir = 0) (hcall : ext2Mknod v g fuel dir name mode cdate = some (ret, v', d)) :
    v'.toExt2FsInstance = { v.toExt2FsInstance with disk := v'.disk } := by
  obtain ⟨fs, hadd, -, rfl, -⟩ := ext2Mknod_slot h hslot hmode hcall
  have hfs := addDirEntry_disk hadd
  rw [allocInode_fs hslot.1] at hfs
  exact hfs

/-- A call that has no inode, and makes an entry for inode 0. -/
theorem ext2Mknod_none {ret : Int} {v' : Ext2Volume} {d : Option Inode} (hnone : ∀ i k, ¬ NextInode v i k)
    (hmode : mode &&& ext2SIfdir = 0) (hcall : ext2Mknod v g fuel dir name mode cdate = some (ret, v', d)) :
    ∃ fs, addDirEntry v.toExt2FsInstance g fuel dir.iIno name (mknodType mode) 0 = some fs ∧ ret = -enotdir ∧
      v' = v.withFs fs ∧ d = none := by
  have halloc : allocInode v (newExt2Inode mode cdate) = (0, v) := by
    have hat : allocInodeAt v = none := by
      cases hat : allocInodeAt v with
      | none => rfl
      | some r => exact absurd (allocInodeAt_eq_some.mp hat) (hnone r.1 r.2)
    unfold allocInode
    rw [hat]
  unfold ext2Mknod at hcall
  rw [mknodInode_eq, halloc] at hcall
  dsimp only at hcall
  rw [Option.map_map] at hcall
  obtain ⟨fs, hadd, heq⟩ := Option.map_eq_some_iff.mp hcall
  rw [Function.comp_apply, if_neg (not_not.mpr hmode), if_pos rfl] at heq
  obtain ⟨hret, heq⟩ := Prod.mk.inj heq
  obtain ⟨hv', hd⟩ := Prod.mk.inj heq
  exact ⟨fs, hadd, hret.symm, hv'.symm, hd.symm⟩

theorem mknodRight_entry (h : InodeTables v) (hslot : NextSlot v i k) (hmode : mode &&& ext2SIfdir = 0)
    (hright : MknodRight v g blocks name mode dir cdate) : ∃ v' N,
      (∀ fuel ≥ N, addDirEntry (allocInode v (newExt2Inode mode cdate)).2.toExt2FsInstance g fuel dir.iIno name
        (mknodType mode) (inodeNumber v i k) = some v'.toExt2FsInstance) ∧
      MknodLaw v g dir.iIno blocks name mode v' (inodeNumber v i k) := by
  obtain ⟨ret, v', d, ⟨N, hrun⟩, -, hok⟩ := hright
  refine ⟨v', N, fun fuel hfuel => ?_, ?_⟩
  · obtain ⟨fs, hadd, -, rfl, -⟩ := ext2Mknod_slot h hslot hmode (hrun fuel hfuel)
    exact hadd
  · obtain ⟨fs, -, hret, -, hd⟩ := ext2Mknod_slot h hslot hmode (hrun N le_rfl)
    obtain ⟨inode, hinode, hlaw⟩ := hok hret
    obtain rfl := Option.some.inj (hinode.symm.trans hd)
    exact hlaw

/-- The entry that `add_dir_entry` makes for an allocated inode is one of the parent only if it fits. -/
theorem MknodParent.room_of_added {p type N : Nat} {v' : Ext2Volume} {x : Bytes}
    {blocks' : List (List (Nat × DirRecord))} (h : InodeTables v) (hp : MknodParent v g p blocks)
    (hslot : NextSlot v i k) (hlow : parentBlock v g p 0 * v.blockSize < 2 ^ 32) (hname : name.length < 256)
    (htype : type < 256) (hrun : ∀ fuel ≥ N, addDirEntry (allocInode v x).2.toExt2FsInstance g fuel p name type
      (inodeNumber v i k) = some v'.toExt2FsInstance)
    (hsize : (readInode v'.toExt2FsInstance g p).iSize = (readInode v.toExt2FsInstance g p).iSize)
    (hformat : ∀ n < blocks.length,
      formatBlock v'.toExt2FsInstance (readInode v'.toExt2FsInstance g p) n = parentBlock v g p n)
    (hholds : DirHolds v'.toExt2FsInstance (readInode v'.toExt2FsInstance g p) blocks')
    (haligned : ∀ rs ∈ blocks', ∀ x ∈ rs, 4 ∣ x.1) (hcount : blocks'.flatten.length = blocks.flatten.length + 1) :
    AddFits v.toExt2FsInstance g p blocks name := by
  have hdir := hp.allocated h hslot x
  have hread := hp.read_allocInode h hslot x
  have hfs := allocInode_fs hslot.1 x
  have hlt := h.inodeNumber_lt hslot.1.group.1 hslot.1.bit.1
  have hfs' := addDirEntry_disk (hrun N le_rfl)
  rw [hfs] at hread hfs'
  have hroom : AddFits { v.toExt2FsInstance with disk := (allocInode v x).2.disk } g p blocks name := by
    refine fits_of_added hdir hname hlt htype ?_ (fun fuel hfuel => hfs ▸ hrun fuel hfuel) ⟨?_, ?_⟩ hholds haligned
      hcount
    · rw [hread]
      exact hlow
    · rw [hread]
      exact hfs' ▸ hsize
    · rw [hread]
      intro n hn
      have hblock := hformat n hn
      rw [hfs'] at hblock
      refine hblock.trans (hp.pointers _ (fun i hi => ?_) n hn).symm
      exact h.allocInode_outside hslot _ fun hmeta => hi (.inl hmeta)
  obtain ⟨hlow, hroom⟩ := hroom
  rw [hread] at hlow hroom
  exact ⟨hlow, hroom⟩

theorem fits_of_slot (h : InodeTables v) (hp : MknodParent v g dir.iIno blocks) (hslot : NextSlot v i k)
    (hmode : mode &&& ext2SIfdir = 0) (hlow : parentBlock v g dir.iIno 0 * v.blockSize < 2 ^ 32)
    (hright : MknodRight v g blocks name mode dir cdate) : MknodFits v g dir.iIno blocks name mode := by
  obtain ⟨v', N, hrun, hlaw⟩ := mknodRight_entry h hslot hmode hright
  obtain ⟨blocks', hholds, haligned, hperm⟩ := hlaw.entry
  have hlength : name.length < 256 := hholds.name_length (hperm.mem_iff.mpr List.mem_cons_self)
  have hroom : AddFits v.toExt2FsInstance g dir.iIno blocks name := by
    refine hp.room_of_added h hslot hlow hlength (mknodType_lt mode) hrun (congrArg Ext2Inode.iSize hlaw.parent.1)
      (fun n hn => ?_) hholds haligned (length_of_perm hperm)
    rw [hlaw.parent.1]
    exact hlaw.parent.2 n hn
  refine ⟨⟨i, k, hslot⟩, ?_, ?_, hlength, hroom, fun hdirectory => absurd hmode hdirectory⟩
  · rw [← hlaw.mode]
    exact le16_lt (bufInode v'.toExt2FsInstance g (inodeNumber v i k)) 0
  · -- The entry has the type that the code gives to it.
    obtain ⟨d, blocks'', ⟨N', hrun'⟩, -, hholds'', hadded⟩ :=
      hp.entered h hslot (newExt2Inode mode cdate) hlength (mknodType_lt mode) hroom
    have hsame := (hrun (max N N') (Nat.le_max_left _ _)).symm.trans
      ((hslot.allocInode_fst h (newExt2Inode mode cdate)).1 ▸ hrun' (max N N') (Nat.le_max_right _ _))
    rw [hlaw.parent.1, Option.some.inj hsame] at hholds
    obtain rfl : blocks'' = blocks' := hholds''.unique (by exact h.blockSize_pos) hholds
    have hhead := perm_cons_head (hperm.symm.trans hadded.perm)
    exact (fileTypeOf_eq_iff mode).mp (congrArg DirRecord.fileType hhead)

/-- Without an inode, the last record of the parent becomes shorter. -/
theorem not_mknodRight_of_none (h : InodeTables v) (hp : MknodParent v g dir.iIno blocks)
    (hnone : ∀ i k, ¬ NextInode v i k) (hmode : mode &&& ext2SIfdir = 0) (hname : name.length < 256)
    (hslack : Slack v g dir.iIno blocks) : ¬ MknodRight v g blocks name mode dir cdate := by
  rintro ⟨ret, v', d, ⟨N, hrun⟩, hfail, -⟩
  obtain ⟨hend, init, len, r, rest, rfl, hlen⟩ := hslack
  have hadd : ∀ fuel ≥ N, addDirEntry v.toExt2FsInstance g fuel dir.iIno name (mknodType mode) 0 =
      some v.toExt2FsInstance := by
    intro fuel hfuel
    obtain ⟨fs, hadd, hret, hv', -⟩ := ext2Mknod_none hnone hmode (hrun fuel hfuel)
    have hsame := hfail (by rw [hret]; decide)
    rw [hv'] at hsame
    have hfs : fs = v.toExt2FsInstance := congrArg Ext2Volume.toExt2FsInstance hsame
    rw [hfs] at hadd
    exact hadd
  have hdir : Ext2Dir v.toExt2FsInstance g dir.iIno _ := hp.ext2Dir h (fun _ _ => rfl) rfl
  have hbs := blockSize_of_log hp.log
  obtain ⟨haddr, htop, hrecords⟩ := hdir.first (show _ < 2 ^ 32 by
    have hend' : (readInode v.toExt2FsInstance g dir.iIno).iBlock 0 * v.blockSize + v.blockSize < 2 ^ 32 := hend
    omega)
  have hend : (readInode v.toExt2FsInstance g dir.iIno).iBlock 0 * v.blockSize + v.blockSize < 2 ^ 32 := hend
  generalize (readInode v.toExt2FsInstance g dir.iIno).iBlock 0 * v.blockSize = addr at *
  obtain ⟨block, hloop, hblock⟩ := @addDirEntryLoop_stops v.toExt2FsInstance g addr init [] (len, r) hrecords
    (.inl ⟨rfl, hend⟩) (N + init.length + 1) (by omega)
  obtain ⟨-, -, -, hlong, hstop⟩ := recordsAt_append.mp hrecords
  have hstop : addr + v.blockSize = addr + recordBytes init + len := hstop.stop_eq
  have hlong : 8 + r.name.length ≤ len := hlong
  have hlen4 : 4 ∣ len := hp.aligned _ List.mem_cons_self (len, r) (by simp)
  have hs := dirEntrySize_le_of_dvd hlen4 hlong
  obtain ⟨m, hwrites, -, hfirst, -⟩ := addDirEntry_writes_at haddr hrecords rfl
    (Nat.mod_eq_of_lt (show addr + recordBytes init + dirEntrySize r.name.length < 2 ^ 32 by omega)) hloop hblock htop
    (by omega) (.inl rfl) hname hs (show 0 < 2 ^ 32 by decide) (mknodType_lt mode)
  have hm : m = v.disk := congrArg Ext2FsInstance.disk
    (Option.some.inj (hwrites.symm.trans (hadd (N + init.length + 1) (by omega))))
  rw [hm] at hfirst
  obtain ⟨added, heq, -⟩ := hfirst.starts hrecords (by omega)
  rw [List.append_assoc] at heq
  have hhead := List.head_eq_of_cons_eq (List.append_cancel_left heq)
  exact hlen (Prod.mk.inj hhead).1

end

/-! ## A group of sixteen inodes -/

/-- Blocks of 1024 bytes and inodes of 128: the inode bitmap in block 2, with twelve inodes in use, the table in blocks 5
and 6, and the directory inode 2 with the entry `a` in block 10. The group counts `free` inodes. -/
def nodeFs (free : Nat) : Ext2Volume :=
  { smallTables 128 with
    superblock := ⟨0, 16, 128⟩
    groupDescTable := fun _ => ⟨5⟩
    bgFreeInodesCount := fun _ => free
    inodeBitmap := fun _ n => if n = 0 then 255 else if n = 1 then 15 else 0
    disk := fun n => ([(2048, 255), (2049, 15), (5253, 4), (5288, 10), (10240, 12), (10245, 4), (10246, 1), (10247, 1),
      (10248, 97)].lookup n).getD 0 }

def nodeDir (free : Nat) : Inode := ext2inode2Inode 2 (readInode (nodeFs free).toExt2FsInstance noGarbage 2)

def nodeBlocks : List (List (Nat × DirRecord)) := [[(1024, ⟨12, [97], 1⟩)]]

section

variable (free : Nat)

theorem nodeFs_tableEnd (i : Nat) : tableEnd (nodeFs free) i = 7 := by
  show tableEnd (nodeFs 0) 0 = 7
  decide

theorem nodeFs_tables : InodeTables (nodeFs free) := by
  have hgroup : ∀ i < (nodeFs free).nGroups, i = 0 := fun i hi => Nat.lt_one_iff.mp hi
  have hcopy : ∀ k < 16, memInodeBit (nodeFs 0) 0 k = diskInodeBit (nodeFs 0) 0 k := by decide
  refine ⟨show 0 < 16 by decide, ⟨le_rfl, show 128 ≤ 1024 by decide⟩, show 16 ≤ 8 * 1024 by decide,
    show 1 * 16 < 2 ^ 32 by decide, fun i _ => (nodeFs_tableEnd free i).trans_le (by decide),
    fun i hi j hj hne => ?_, fun i hi j hj _ => ?_, fun i _ j _ => .inl (show 2 < 5 by decide), fun i hi k hk => ?_⟩
  · exact absurd ((hgroup i hi).trans (hgroup j hj).symm) hne
  · exact (hgroup i hi).trans (hgroup j hj).symm
  · rw [hgroup i hi]
    exact hcopy k hk

theorem nodeFs_inode : (readInode (nodeFs free).toExt2FsInstance noGarbage 2).iSize = 1024 ∧
    (readInode (nodeFs free).toExt2FsInstance noGarbage 2).iBlock 0 = 10 := by
  show (readInode (nodeFs 0).toExt2FsInstance noGarbage 2).iSize = 1024 ∧
    (readInode (nodeFs 0).toExt2FsInstance noGarbage 2).iBlock 0 = 10
  decide

theorem nodeFs_parent : MknodParent (nodeFs free) noGarbage (nodeDir free).iIno nodeBlocks := by
  have hinode := nodeFs_inode free
  have hblock : parentBlock (nodeFs free) noGarbage 2 0 = 10 := hinode.2
  have hused : diskInodeBit (nodeFs free) 0 1 = true := by
    show diskInodeBit (nodeFs 0) 0 1 = true
    decide
  have hone : ∀ n < nodeBlocks.length, n = 0 := fun n hn => Nat.lt_one_iff.mp hn
  refine ⟨Nat.zero_le 2, ⟨0, Nat.one_pos, 1, show 1 < 16 by decide, rfl, hused⟩, ⟨hinode.1, fun n hn => ?_⟩, by decide,
    fun n hn k hk _ => (hone n hn).trans (hone k hk).symm, fun n hn => ?_, fun m _ n hn => ?_⟩
  · obtain rfl := hone n hn
    show RecordsAt (nodeFs 0).disk (parentBlock (nodeFs free) noGarbage 2 0 * 1024)
      (parentBlock (nodeFs free) noGarbage 2 0 * 1024 + 1024) [(1024, ⟨12, [97], 1⟩)]
    rw [hblock]
    exact ⟨by decide, by decide, by decide, rfl⟩
  · obtain rfl := hone n hn
    rintro ⟨i, -, hbitmap | htable⟩
    · exact absurd (hblock.symm.trans hbitmap) (show ¬ 10 = 2 by decide)
    · have hend : parentBlock (nodeFs free) noGarbage 2 0 < tableEnd (nodeFs free) i := htable.2
      rw [hblock, nodeFs_tableEnd] at hend
      exact absurd hend (by decide)
  · obtain rfl := hone n hn
    have hfirst : ∀ (fs : Ext2FsInstance) (inode : Ext2Inode), formatBlock fs inode 0 = inode.iBlock 0 :=
      fun _ _ => rfl
    exact (hfirst _ _).trans (hfirst _ _).symm

end

end Desiros.Fs
