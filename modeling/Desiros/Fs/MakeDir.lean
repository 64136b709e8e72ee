import Desiros.Fs.Directory
import Desiros.Fs.InodeSlot

/-!
# Making a directory (`ext2_mkdir`, `mknod_inode`, `init_dir`)

`mknod_inode` allocates an inode of size 0, enters it in its parent and calls `init_dir` for the first block.
`get_data_block` answers -1 for a file without blocks, which `init_dir` takes for an address: no block is allocated,
and the entries `.` and `..` go to the end and the start of the first 4 GiB of the disk (`ext2Mkdir_never`).
-/

namespace Desiros.Fs

open Desiros.Library

/-! ## The functions -/

def ext2SIfsock : Nat := 0xC000
def ext2SIflnk : Nat := 0xA000
def ext2SIfblk : Nat := 0x6000
def ext2SIfdir : Nat := 0x4000
def ext2SIfchr : Nat := 0x2000
def ext2SIfifo : Nat := 0x1000

def ext2FtDir : Nat := 2
def ext2FtChrdev : Nat := 3
def ext2FtBlkdev : Nat := 4
def ext2FtFifo : Nat := 5
def ext2FtSock : Nat := 6
def ext2FtSymlink : Nat := 7

/-- An `int` as an unsigned word. -/
def toWord (n : Int) : Nat := (n % 2 ^ 32).toNat

def Ext2Volume.withFs (v : Ext2Volume) (fs : Ext2FsInstance) : Ext2Volume := { v with toExt2FsInstance := fs }

section

variable (v : Ext2Volume) (g : Garbage) (fuel : Nat)

/-- The buffer that `read_inode` returns. -/
def bufInode (fs : Ext2FsInstance) (g : Garbage) (inum : Nat) : Bytes :=
  let inodePerBlock := fs.blockSize / fs.superblock.sInodeSize
  let inum := (inum + (2 ^ 32 - 1)) % 2 ^ 32
  let inodeInGroup := inum % fs.superblock.sInodesPerGroup
  let bnum := ((fs.groupDescTable (inum / fs.superblock.sInodesPerGroup)).bgInodeTable +
    inodeInGroup / inodePerBlock) % 2 ^ 32
  fun i => if i < min fs.superblock.sInodeSize 128 then
    getBlock fs g bnum (inodeInGroup % inodePerBlock * fs.superblock.sInodeSize + i) else g.bufInode i

/-- `einode->i_block[i] = blk` -/
def setIBlock (buf : Bytes) (i blk : Nat) : Bytes :=
  fun t => if 40 + 4 * i ≤ t ∧ t < 44 + 4 * i then UInt8.ofNat (blk / 256 ^ (t - (40 + 4 * i))) else buf t

def writeInode (inum : Int) (einode : Bytes) : Ext2Volume :=
  if 0 < inum then
    let inodePerBlock := v.blockSize / v.superblock.sInodeSize
    let k := toWord (inum - 1)
    let inodeInGroup := k % v.superblock.sInodesPerGroup
    let bnum := ((v.groupDescTable (k / v.superblock.sInodesPerGroup)).bgInodeTable +
      inodeInGroup / inodePerBlock) % 2 ^ 32
    v.writeBytes einode sizeofExt2Inode
      (bnum * v.blockSize + inodeInGroup % inodePerBlock * v.superblock.sInodeSize)
  else v

def allocBlockInode (inode : Int) : Int × Ext2Volume :=
  let einode := bufInode v.toExt2FsInstance g (toWord inode)
  match (List.range 12).find? fun i => (ext2InodeAt einode).iBlock i = 0 with
  | some i =>
    let (blk, v) := allocBlock v g.behindBlock
    (toInt blk, writeInode v inode (setIBlock einode i blk))
  | none => (0, v)

/-- The entries `.` and `..`, in one buffer on the stack. -/
def initDirAt (inode parentInode addr : Nat) : Ext2Volume :=
  let dot := newDirectory g.dep inode 12 ext2FtDir [46]
  let v := v.writeBytes dot sizeofExt2Directory addr
  let addr := (addr + 12) % 2 ^ 32
  let dotdot := newDirectory dot parentInode ((v.blockSize + 2 ^ 32 - addr) % 2 ^ 16) ext2FtDir [46, 46]
  v.writeBytes dotdot sizeofExt2Directory addr

def initDir (inode : Int) (parentInode : Nat) : Ext2Volume :=
  let addr := addrInodeData v.toExt2FsInstance g (toWord inode) 0
  if addr = 0 then
    let (retval, v) := allocBlockInode v g inode
    if 0 ≤ retval then
      initDirAt v g (toWord inode) parentInode (addrInodeData v.toExt2FsInstance g (toWord inode) 0)
    else v
  else initDirAt v g (toWord inode) parentInode addr

/-- The `struct ext2_inode` of `mknod_inode`, where `cdate` is what `get_date` returned. -/
def newExt2Inode (mode cdate : Nat) : Bytes := fun t =>
  if t < 2 then UInt8.ofNat (mode / 256 ^ t)
  else if 8 ≤ t ∧ t < 20 then UInt8.ofNat (cdate / 256 ^ (t % 4))
  else if t = 26 then 1
  else 0

def mknodInode (inode : Nat) (name : List UInt8) (mode cdate : Nat) : Option (Int × Ext2Volume) :=
  let (i, v) := allocInode v (newExt2Inode mode cdate)
  let add (type : Nat) : Option Ext2Volume :=
    (addDirEntry v.toExt2FsInstance g fuel inode name type (toWord i)).map v.withFs
  if mode &&& ext2SIfdir ≠ 0 then (add ext2FtDir).map fun v => (i, initDir v g i inode)
  else if mode &&& ext2SIfifo ≠ 0 then (add ext2FtFifo).map fun v => (i, v)
  else if mode &&& ext2SIfchr ≠ 0 then (add ext2FtChrdev).map fun v => (i, v)
  else if mode &&& ext2SIfblk ≠ 0 then (add ext2FtBlkdev).map fun v => (i, v)
  else if mode &&& ext2SIfsock ≠ 0 then (add ext2FtSock).map fun v => (i, v)
  else if mode &&& ext2SIflnk ≠ 0 then (add ext2FtSymlink).map fun v => (i, v)
  else (add ext2FtRegFile).map fun v => (i, v)

/-- Returns the return value, the volume and `dentry->d_inode` if it is set. -/
def ext2Mknod (dir : Inode) (name : List UInt8) (mode cdate : Nat) : Option (Int × Ext2Volume × Option Inode) :=
  (mknodInode v g fuel dir.iIno name mode cdate).map fun (ino, v) =>
    if ino = 0 then (-enotdir, v, none)
    else (0, v, some (ext2inode2Inode (toWord ino) (readInode v.toExt2FsInstance g (toWord ino))))

def ext2Mkdir (dir : Inode) (name : List UInt8) (mode cdate : Nat) : Option (Int × Ext2Volume × Option Inode) :=
  ext2Mknod v g fuel dir name (mode ||| ext2SIfdir) cdate

end

/-! ## Well-formed images -/

/-- An inode that is not in use: it has no links, and the first block it had if it still has a size. -/
structure UnusedInode (fs : Ext2FsInstance) (inode : Ext2Inode) : Prop where
  links : inode.iLinksCount = 0
  block : inode.iSize ≠ 0 → inode.iBlock 0 ≠ 0 ∧ inode.iBlock 0 * fs.blockSize < 2 ^ 32

/-- An ext2 file system with its inode tables and bitmaps in the first 4 GiB of the disk, behind the superblock. -/
structure Ext2Image (v : Ext2Volume) : Prop extends InodeTables v where
  inodeSize_dvd : sizeofExt2Inode ∣ v.superblock.sInodeSize
  blocksPerGroup_pos : 0 < v.sBlocksPerGroup
  blockBitmap_fits : v.sBlocksPerGroup ≤ 8 * v.blockSize
  reserved : ∀ i < v.nGroups, 2 ≤ (v.groupDescTable i).bgInodeTable ∧ 2 ≤ v.bgBlockBitmap i
  low : ∀ i < v.nGroups, tableEnd v i * v.blockSize < 2 ^ 32 ∧ (v.bgInodeBitmap i + 1) * v.blockSize < 2 ^ 32 ∧
    (v.bgBlockBitmap i + 1) * v.blockSize < 2 ^ 32
  blockBitmaps : ∀ i < v.nGroups, ∀ j < v.nGroups, v.bgBlockBitmap i ≠ v.bgInodeBitmap j ∧
    (v.bgBlockBitmap i < (v.groupDescTable j).bgInodeTable ∨ tableEnd v j ≤ v.bgBlockBitmap i)
  unused : ∀ g, ∀ i < v.nGroups, ∀ k < v.superblock.sInodesPerGroup, diskInodeBit v i k = false →
    UnusedInode v.toExt2FsInstance (readInode v.toExt2FsInstance g (inodeNumber v i k))

/-- A directory in use whose first block, in the first 4 GiB and none of the tables and bitmaps, has room for the name. -/
structure MkdirParent (v : Ext2Volume) (g : Garbage) (p : Nat) (name : List UInt8) : Prop where
  inode : ∃ j < v.nGroups, ∃ m < v.superblock.sInodesPerGroup, p = inodeNumber v j m ∧ diskInodeBit v j m = true
  name_length : name.length < 256
  room : ∃ init len r rest,
    DirHolds v.toExt2FsInstance (readInode v.toExt2FsInstance g p) ((init ++ [(len, r)]) :: rest) ∧
      dirEntrySize r.name.length + dirEntrySize name.length ≤ len
  low : ((readInode v.toExt2FsInstance g p).iBlock 0 + 1) * v.blockSize < 2 ^ 32
  apart : ∀ i < v.nGroups, (readInode v.toExt2FsInstance g p).iBlock 0 ≠ v.bgBlockBitmap i ∧
    (readInode v.toExt2FsInstance g p).iBlock 0 ≠ v.bgInodeBitmap i ∧
    ((readInode v.toExt2FsInstance g p).iBlock 0 < (v.groupDescTable i).bgInodeTable ∨
      tableEnd v i ≤ (readInode v.toExt2FsInstance g p).iBlock 0)

/-- `p` has the new directory `name` with inode `i`, and nothing else changes. -/
structure MkdirLaw (v : Ext2Volume) (g : Garbage) (p : Nat) (name : List UInt8) (v' : Ext2Volume) (i : Nat) : Prop where
  /-- The entries of the parent. -/
  parent : ∃ old new, DirHolds v.toExt2FsInstance (readInode v.toExt2FsInstance g p) old ∧
    DirHolds v'.toExt2FsInstance (readInode v'.toExt2FsInstance g p) new ∧
    (usedRecords new).Perm (⟨i, name, ext2FtDir⟩ :: usedRecords old)
  /-- The inode is a directory in use. -/
  inode : ∃ j < v.nGroups, ∃ m < v.superblock.sInodesPerGroup, i = inodeNumber v j m ∧ diskInodeBit v j m = false ∧
    diskInodeBit v' j m = true
  links : (readInode v'.toExt2FsInstance g i).iLinksCount ≠ 0
  mode : (readInode v'.toExt2FsInstance g i).iMode &&& sIfmt = sIfdir
  /-- Its block was free. -/
  block : BlockFree v ((readInode v'.toExt2FsInstance g i).iBlock 0) ∧
    ¬ BlockFree v' ((readInode v'.toExt2FsInstance g i).iBlock 0)
  entries : ∃ len len', DirHolds v'.toExt2FsInstance (readInode v'.toExt2FsInstance g i)
    [[(len, ⟨i, [46], ext2FtDir⟩), (len', ⟨p, [46, 46], ext2FtDir⟩)]]
  /-- The other inodes in use and their data. -/
  others : ∀ j < v.nGroups, ∀ m < v.superblock.sInodesPerGroup, diskInodeBit v j m = true → inodeNumber v j m ≠ p →
    readInode v'.toExt2FsInstance g (inodeNumber v j m) = readInode v.toExt2FsInstance g (inodeNumber v j m) ∧
      ∀ n t, n * v.blockSize < (readInode v.toExt2FsInstance g (inodeNumber v j m)).iSize → t < v.blockSize →
        formatData v'.toExt2FsInstance (readInode v.toExt2FsInstance g (inodeNumber v j m)) n t =
          formatData v.toExt2FsInstance (readInode v.toExt2FsInstance g (inodeNumber v j m)) n t

/-! ## Blocks and positions -/

section

variable {fs : Ext2FsInstance} {v : Ext2Volume} {g : Garbage} {i k n : Nat}

/-- A block at the start of the disk, or one that reaches to the end of the first 4 GiB or lies behind it. -/
def Outside (bs b : Nat) : Prop := b < 2 ∨ 2 ^ 32 ≤ (b + 1) * bs

theorem outside_of_lt {bs : Nat} (hn : n < 2 * bs) : Outside bs (n / bs) := by
  left
  exact Nat.div_lt_of_lt_mul (by rwa [Nat.mul_comm] at hn)

theorem outside_of_top {bs : Nat} (hbs : 0 < bs) (hn : 2 ^ 32 - 1 ≤ n) : Outside bs (n / bs) := by
  right
  have hlt := Nat.lt_div_mul_add (a := n) hbs
  rw [Nat.add_mul, Nat.one_mul]
  omega

end

/-! ## The writes -/

section

variable {fs fs' : Ext2FsInstance} {g : Garbage} {fuel addrDebut : Nat}

/-- The loop stays where it is or below the end of the block, as 32-bit words. -/
theorem addDirEntryLoop_pos : ∀ {fuel : Nat} {dir : Bytes} {curPos : Nat} {r : Bytes × Nat},
    addDirEntryLoop fs addrDebut fuel dir curPos = some r →
      r.2 = curPos ∨ r.2 < (addrDebut + fs.blockSize) % 2 ^ 32 := by
  intro fuel
  induction fuel with
  | zero => exact fun h => absurd h (by simp [addDirEntryLoop])
  | succ fuel ih =>
    intro dir curPos r h
    rw [addDirEntryLoop] at h
    split_ifs at h with hbefore
    · right
      rcases ih h with heq | hlt
      · rw [heq, Nat.add_comm curPos]
        exact hbefore
      · exact hlt
    · left
      rw [← Option.some.inj h]

/-- An entry in a directory without blocks goes to the blocks outside. -/
theorem addDirEntry_empty {inode type nInode : Nat} {name : List UInt8} (hbs : 0 < fs.blockSize)
    (haddr : addrInodeData fs g inode 0 = 2 ^ 32 - 1)
    (h : addDirEntry fs g fuel inode name type nInode = some fs') :
    fs'.superblock = fs.superblock ∧ fs'.groupDescTable = fs.groupDescTable ∧
      ∀ n, ¬ Outside fs.blockSize (n / fs.blockSize) → fs'.disk n = fs.disk n := by
  unfold addDirEntry at h
  rw [haddr] at h
  obtain ⟨⟨dir, curPos⟩, hloop, heq⟩ := Option.map_eq_some_iff.mp h
  have hpos := addDirEntryLoop_pos hloop
  have hsize := le_blockSize hbs
  obtain ⟨e, -, he, hpow⟩ := blockSize_pow hbs
  have hlt : fs.blockSize < 2 ^ 32 := by
    rw [hpow]
    exact Nat.pow_lt_pow_right (by decide) he
  have hs := dirEntrySize_le (nameLen_lt dir 0)
  have hs' := dirEntrySize_le (Nat.mod_lt name.length (show 256 > 0 by decide))
  have hpos8 := le_dirEntrySize (dirAt dir 0).nameLen
  unfold sizeofExt2Directory at hs hs'
  dsimp only at heq hpos
  rw [← heq]
  refine ⟨rfl, rfl, ?_⟩
  intro n hn
  have hlow : 2 * fs.blockSize ≤ n := by
    by_contra hlt
    exact hn (outside_of_lt (by omega))
  have htop : n < 2 ^ 32 - 1 := by
    by_contra hge
    exact hn (outside_of_top hbs (by omega))
  rw [writeData_disk_of_ne, writeData_disk_of_ne]
  · omega
  · omega

/-- An entry in a directory with room goes to its first block. -/
theorem addDirEntry_first {inode type nInode b : Nat} {name : List UInt8} {init : List (Nat × DirRecord)} {len : Nat}
    {r : DirRecord} (haddr : addrInodeData fs g inode 0 = b * fs.blockSize)
    (hrecords : RecordsAt fs.disk (b * fs.blockSize) (b * fs.blockSize + fs.blockSize) (init ++ [(len, r)]))
    (hlow : (b + 1) * fs.blockSize < 2 ^ 32) (hname : name.length < 256)
    (hroom : dirEntrySize r.name.length + dirEntrySize name.length ≤ len) (hinode : nInode < 2 ^ 32)
    (htype : type < 256) (h : addDirEntry fs g fuel inode name type nInode = some fs') :
    fs'.superblock = fs.superblock ∧ fs'.groupDescTable = fs.groupDescTable ∧
      ∀ n, n / fs.blockSize ≠ b → fs'.disk n = fs.disk n := by
  rw [Nat.add_mul, Nat.one_mul] at hlow
  have hfuel : init.length < fuel + (init.length + 1) := by omega
  obtain ⟨m, hm, hkept, -⟩ := addDirEntry_records haddr hrecords hlow hfuel hname hroom hinode htype
  rw [addDirEntry_mono h] at hm
  rw [Option.some.inj hm]
  refine ⟨rfl, rfl, ?_⟩
  intro n hn
  apply hkept
  by_contra hin
  rw [not_or, not_lt, not_le] at hin
  apply hn
  obtain ⟨t, rfl⟩ := Nat.exists_eq_add_of_le (show b * fs.blockSize ≤ n by omega)
  exact pos_div (by omega)

/-- The entries `.` and `..` of a directory without blocks go to the blocks outside. -/
theorem initDirAt_empty {v : Ext2Volume} {inode parentInode : Nat} (hbs : 0 < v.blockSize) {n : Nat}
    (hn : ¬ Outside v.blockSize (n / v.blockSize)) :
    (initDirAt v g inode parentInode (2 ^ 32 - 1)).disk n = v.disk n := by
  have hsize := le_blockSize hbs
  have hlow : 2 * v.blockSize ≤ n := by
    by_contra hlt
    exact hn (outside_of_lt (by omega))
  have htop : n < 2 ^ 32 - 1 := by
    by_contra hge
    exact hn (outside_of_top hbs (by omega))
  have haddr : (2 ^ 32 - 1 + 12) % 2 ^ 32 = 11 := by norm_num
  unfold initDirAt Ext2Volume.writeBytes sizeofExt2Directory
  dsimp only
  rw [haddr, if_neg (by omega), if_neg (by omega)]

/-- Those of a directory with a block stay in it. -/
theorem initDirAt_block {v : Ext2Volume} {inode parentInode b : Nat} (hbs : 0 < v.blockSize)
    (hlow : b * v.blockSize < 2 ^ 32) {n : Nat} (hn : n / v.blockSize ≠ b) :
    (initDirAt v g inode parentInode (b * v.blockSize)).disk n = v.disk n := by
  have hsize := le_blockSize hbs
  have hfits : b * v.blockSize + v.blockSize ≤ 2 ^ 32 := by
    obtain ⟨c, hc⟩ := blockSize_dvd_word hbs
    rw [hc, Nat.mul_comm] at hlow
    have hb : b + 1 ≤ c := Nat.lt_of_mul_lt_mul_left hlow
    calc b * v.blockSize + v.blockSize = v.blockSize * (b + 1) := by rw [Nat.mul_add, Nat.mul_one, Nat.mul_comm]
      _ ≤ v.blockSize * c := Nat.mul_le_mul_left _ hb
      _ = 2 ^ 32 := hc.symm
  have hout : n < b * v.blockSize ∨ b * v.blockSize + v.blockSize ≤ n := by
    by_contra hin
    rw [not_or, not_lt, not_le] at hin
    apply hn
    obtain ⟨t, rfl⟩ := Nat.exists_eq_add_of_le hin.1
    exact pos_div (by omega)
  have haddr : (b * v.blockSize + 12) % 2 ^ 32 = b * v.blockSize + 12 := Nat.mod_eq_of_lt (by omega)
  unfold initDirAt Ext2Volume.writeBytes sizeofExt2Directory
  dsimp only
  rw [haddr, if_neg (by omega), if_neg (by omega)]

end

/-! ## Images -/

section

variable {v : Ext2Volume} {g : Garbage} {i j k m n t : Nat}

/-- The blocks of the inode tables and of the block bitmaps. -/
def MetaBlock (v : Ext2Volume) (b : Nat) : Prop :=
  ∃ i < v.nGroups, b = v.bgBlockBitmap i ∨ (v.groupDescTable i).bgInodeTable ≤ b ∧ b < tableEnd v i

theorem Ext2Image.not_outside (h : Ext2Image v) {b : Nat} (hb : MetaBlock v b) : ¬ Outside v.blockSize b := by
  obtain ⟨i, hi, hb⟩ := hb
  obtain ⟨htable, hbitmap⟩ := h.reserved i hi
  obtain ⟨hend, -, hbitmapEnd⟩ := h.low i hi
  rintro (hlow | htop)
  · rcases hb with rfl | hin
    · omega
    · omega
  · rcases hb with rfl | hin
    · omega
    · have hmul := Nat.mul_le_mul_right v.blockSize (show b + 1 ≤ tableEnd v i by omega)
      omega

theorem Ext2Image.slot_block (h : Ext2Image v) (hk : k < v.superblock.sInodesPerGroup) (ht : t < sizeofExt2Inode) :
    (slotPos v i k + t) / v.blockSize = (v.groupDescTable i).bgInodeTable + k / inodesPerBlock v ∧
      (v.groupDescTable i).bgInodeTable + k / inodesPerBlock v < tableEnd v i := h.toInodeTables.slot_block hk ht

theorem Ext2Image.slot_meta (h : Ext2Image v) (hi : i < v.nGroups) (hk : k < v.superblock.sInodesPerGroup)
    (ht : t < sizeofExt2Inode) : MetaBlock v ((slotPos v i k + t) / v.blockSize) := by
  obtain ⟨heq, hlt⟩ := h.slot_block (i := i) hk ht
  rw [heq]
  exact ⟨i, hi, Or.inr ⟨Nat.le_add_right _ _, hlt⟩⟩

theorem Ext2Image.writePos_eq (h : Ext2Image v) (hi : i < v.nGroups) (hk : k < v.superblock.sInodesPerGroup) :
    writePos v i k = (v.groupDescTable i).bgInodeTable * v.blockSize + sizeofExt2Inode * k := by
  have hle := (h.writePos_le i k).2
  have hend := h.slotPos_add_le i hk
  have hlow := (h.low i hi).1
  unfold writePos Ext2Volume.addrOf
  rw [Nat.mod_eq_of_lt (show (v.groupDescTable i).bgInodeTable * v.blockSize < 2 ^ 32 by omega),
    Nat.mod_eq_of_lt (by omega)]

/-- So does what `alloc_inode` writes. -/
theorem Ext2Image.write_block (h : Ext2Image v) (hi : i < v.nGroups) (hk : k < v.superblock.sInodesPerGroup)
    (ht : t < sizeofExt2Inode) : (v.groupDescTable i).bgInodeTable ≤ (writePos v i k + t) / v.blockSize ∧
      (writePos v i k + t) / v.blockSize < tableEnd v i := by
  have hle := (h.writePos_le i k).2
  have hend := h.slotPos_add_le i hk
  have hsize := h.inodeSize.1
  have hbs := h.blockSize_pos
  rw [h.writePos_eq hi hk]
  constructor
  · rw [Nat.le_div_iff_mul_le hbs]
    omega
  · rw [Nat.div_lt_iff_lt_mul hbs]
    omega

theorem Ext2Image.bitmap_block (h : Ext2Image v) (hi : i < v.nGroups) (hk : k < v.superblock.sInodesPerGroup) :
    bitmapPos v i k / v.blockSize = v.bgInodeBitmap i := by
  have hfits := h.fits
  have hlow := (h.low i hi).2.1
  rw [Nat.add_mul, Nat.one_mul] at hlow
  rw [(bitmapPos_eq_iff v i k).mpr (by omega)]
  exact pos_div (by omega)

/-- The bytes that `alloc_inode` does not write. -/
theorem Ext2Image.allocInode_disk (h : Ext2Image v) (hnext : NextInode v i k) (x : Bytes)
    (hbitmap : n / v.blockSize ≠ v.bgInodeBitmap i)
    (htable : n / v.blockSize < (v.groupDescTable i).bgInodeTable ∨ tableEnd v i ≤ n / v.blockSize) :
    (allocInode v x).2.disk n = v.disk n := by
  have hi := hnext.group.1
  have hk := hnext.bit.1
  apply allocInode_disk_of_ne hnext x
  · intro heq
    exact hbitmap (heq ▸ h.bitmap_block hi hk)
  · by_contra hin
    rw [not_or, not_lt, not_le] at hin
    obtain ⟨t, rfl⟩ := Nat.exists_eq_add_of_le hin.1
    have := h.write_block hi hk (show t < sizeofExt2Inode by omega)
    omega

theorem Ext2Image.slotPos_dvd (h : Ext2Image v) (i k : Nat) : sizeofExt2Inode ∣ slotPos v i k :=
  Nat.dvd_add (Dvd.dvd.mul_left (blockSize_dvd v.toExt2FsInstance) _) (Dvd.dvd.mul_left h.inodeSize_dvd _)

/-- Inodes are written to a slot or apart from it. -/
theorem Ext2Image.write_or_apart (h : Ext2Image v) (i k j m : Nat) : writePos v i k = slotPos v j m ∨
    writePos v i k + sizeofExt2Inode ≤ slotPos v j m ∨ slotPos v j m + sizeofExt2Inode ≤ writePos v i k := by
  obtain ⟨a, ha⟩ := writePos_dvd v i k
  obtain ⟨b, hb⟩ := h.slotPos_dvd j m
  rw [ha, hb]
  unfold sizeofExt2Inode
  omega

/-- An inode is read from its slot. -/
theorem Ext2Image.readInode_congr (h : Ext2Image v) (hj : j < v.nGroups) (hm : m < v.superblock.sInodesPerGroup)
    {fs fs' : Ext2FsInstance} (hsuper : fs.superblock = v.superblock) (hdesc : fs.groupDescTable = v.groupDescTable)
    (hsuper' : fs'.superblock = v.superblock) (hdesc' : fs'.groupDescTable = v.groupDescTable)
    (hagree : ∀ t < sizeofExt2Inode, fs'.disk (slotPos v j m + t) = fs.disk (slotPos v j m + t)) :
    readInode fs' g (inodeNumber v j m) = readInode fs g (inodeNumber v j m) := by
  rw [h.readInode_eq g hj hm hsuper' hdesc', h.readInode_eq g hj hm hsuper hdesc]
  unfold inodeOf
  apply congrArg
  funext t
  split_ifs with ht
  · exact hagree t ht
  · rfl

/-- An inode after `alloc_inode`: the new one or what it was. -/
theorem Ext2Image.readInode_allocInode (h : Ext2Image v) (hnext : NextInode v i k) (x : Bytes) (hj : j < v.nGroups)
    (hm : m < v.superblock.sInodesPerGroup) :
    writePos v i k = slotPos v j m ∧
        readInode (allocInode v x).2.toExt2FsInstance g (inodeNumber v j m) = inodeOf g x ∨
      writePos v i k ≠ slotPos v j m ∧ readInode (allocInode v x).2.toExt2FsInstance g (inodeNumber v j m) =
        readInode v.toExt2FsInstance g (inodeNumber v j m) := by
  obtain ⟨-, hsuper, hdesc, -⟩ := allocInode_next hnext x
  have hbit := h.bitmap_apart hnext.group.1 hnext.bit.1 hj hm
  have hlow := (h.low i hnext.group.1).2.1
  have hfits := h.fits
  have hk := hnext.bit.1
  rw [Nat.add_mul, Nat.one_mul] at hlow
  rw [← (bitmapPos_eq_iff v i k).mpr (by omega)] at hbit
  by_cases heq : writePos v i k = slotPos v j m
  · left
    refine ⟨heq, ?_⟩
    rw [h.readInode_eq g hj hm hsuper hdesc]
    unfold inodeOf
    apply congrArg
    funext t
    split_ifs with ht
    · rw [← heq] at hbit ⊢
      exact allocInode_disk_slot hnext x ht (by omega)
    · rfl
  · right
    refine ⟨heq, h.readInode_congr hj hm rfl rfl hsuper hdesc ?_⟩
    intro t ht
    have hapart := (h.write_or_apart i k j m).resolve_left heq
    exact allocInode_disk_of_ne hnext x (by omega) (by omega)

theorem getDataBlock_empty {fs : Ext2FsInstance} {inode : Ext2Inode} (hsize : inode.iSize = 0) (n : Int) :
    getDataBlock fs g inode n = 2 ^ 32 - 1 := by
  unfold getDataBlock
  dsimp only
  rw [if_pos hsize, if_pos rfl]

/-- The new inode has no blocks. -/
theorem newExt2Inode_size (g : Garbage) (mode cdate : Nat) : (inodeOf g (newExt2Inode mode cdate)).iSize = 0 := rfl

/-- The entry of the new directory spares the tables and the block bitmaps, also where `alloc_inode` has overwritten
the inode of the parent. -/
theorem Ext2Image.addDirEntry_kept (h : Ext2Image v) {p fuel nInode mode cdate : Nat} {name : List UInt8}
    (hp : MkdirParent v g p name) (hnext : NextInode v i k) (hinode : nInode < 2 ^ 32) {fs : Ext2FsInstance}
    (hadd : addDirEntry (allocInode v (newExt2Inode mode cdate)).2.toExt2FsInstance g fuel p name ext2FtDir nInode =
      some fs) :
    fs.superblock = v.superblock ∧ fs.groupDescTable = v.groupDescTable ∧
      ∀ n, MetaBlock v (n / v.blockSize) → fs.disk n = (allocInode v (newExt2Inode mode cdate)).2.disk n := by
  obtain ⟨-, hsuper, hdesc, -⟩ := allocInode_next hnext (newExt2Inode mode cdate)
  obtain ⟨j, hj, m, hm, rfl, -⟩ := hp.inode
  obtain ⟨init, len, r, rest, hholds, hroom⟩ := hp.room
  have hbs : (allocInode v (newExt2Inode mode cdate)).2.blockSize = v.blockSize := by
    unfold Ext2FsInstance.blockSize
    rw [hsuper]
  have hpos := h.blockSize_pos
  rcases h.readInode_allocInode (g := g) hnext (newExt2Inode mode cdate) hj hm with ⟨-, hread⟩ | ⟨-, hread⟩
  · -- the parent has lost its blocks
    have haddr : addrInodeData (allocInode v (newExt2Inode mode cdate)).2.toExt2FsInstance g (inodeNumber v j m) 0 =
        2 ^ 32 - 1 := by
      unfold addrInodeData
      rw [hread]
      exact getDataBlock_empty (newExt2Inode_size g mode cdate) _
    obtain ⟨hsuper', hdesc', hkept⟩ := addDirEntry_empty (hbs ▸ hpos) haddr hadd
    refine ⟨hsuper'.trans hsuper, hdesc'.trans hdesc, ?_⟩
    intro n hn
    apply hkept
    rw [hbs]
    exact h.not_outside hn
  · have hsize : (readInode v.toExt2FsInstance g (inodeNumber v j m)).iSize ≠ 0 := by
      rw [hholds.size, List.length_cons, Nat.add_mul, Nat.one_mul]
      omega
    have hlow := hp.low
    have hblock : (readInode v.toExt2FsInstance g (inodeNumber v j m)).iBlock 0 * v.blockSize < 2 ^ 32 := by
      rw [Nat.add_mul, Nat.one_mul] at hlow
      omega
    have haddr : addrInodeData (allocInode v (newExt2Inode mode cdate)).2.toExt2FsInstance g (inodeNumber v j m) 0 =
        (readInode v.toExt2FsInstance g (inodeNumber v j m)).iBlock 0 *
          (allocInode v (newExt2Inode mode cdate)).2.blockSize := by
      unfold addrInodeData
      rw [hread, getDataBlock_zero hsize, hbs, Nat.mod_eq_of_lt hblock]
    have hrecords : RecordsAt v.disk _ _ (init ++ [(len, r)]) := hholds.block 0 (Nat.zero_lt_succ _)
    rw [show formatBlock v.toExt2FsInstance _ 0 = (readInode v.toExt2FsInstance g (inodeNumber v j m)).iBlock 0
      from rfl] at hrecords
    have hapart := hp.apart
    generalize (readInode v.toExt2FsInstance g (inodeNumber v j m)).iBlock 0 = b at *
    obtain ⟨-, hbitmap, htable⟩ := hapart i hnext.group.1
    have hrecords' : RecordsAt (allocInode v (newExt2Inode mode cdate)).2.disk (b * v.blockSize)
        (b * v.blockSize + v.blockSize) (init ++ [(len, r)]) := by
      refine RecordsAt.congr hrecords ?_
      intro n hn hlt
      have hdiv : n / v.blockSize = b := by
        obtain ⟨t, rfl⟩ := Nat.exists_eq_add_of_le hn
        refine pos_div ?_
        exact Nat.lt_of_add_lt_add_left hlt
      apply h.allocInode_disk hnext
      · rw [hdiv]
        exact hbitmap
      · rw [hdiv]
        exact htable
    obtain ⟨hsuper', hdesc', hkept⟩ := addDirEntry_first haddr (hbs.symm ▸ hrecords') (hbs ▸ hlow) hp.name_length hroom
      hinode (by decide) hadd
    refine ⟨hsuper'.trans hsuper, hdesc'.trans hdesc, ?_⟩
    intro n hn
    apply hkept
    rw [hbs]
    intro heq
    obtain ⟨l, hl, hmeta⟩ := hn
    obtain ⟨hblockBitmap, -, htable⟩ := hapart l hl
    rw [heq] at hmeta
    rcases hmeta with hmeta | hmeta
    · exact hblockBitmap hmeta
    · omega

theorem toWord_toInt (hn : n < 2 ^ 32) : toWord (toInt n) = n := by
  unfold toWord toInt
  split_ifs
  · omega
  · omega

theorem dirMode_ne_zero (mode : Nat) : (mode ||| ext2SIfdir) &&& ext2SIfdir ≠ 0 := by
  intro h
  have hbit := congrArg (fun n => Nat.testBit n 14) h
  simp only [Nat.testBit_and, Nat.testBit_or, Nat.zero_testBit] at hbit
  have hdir : ext2SIfdir.testBit 14 = true := by decide
  rw [hdir, Bool.or_true] at hbit
  exact absurd hbit (by decide)

/-- A call that returns 0 has allocated the next inode, entered it and called `init_dir`. -/
theorem Ext2Image.mkdir_steps (h : Ext2Image v) {fuel mode cdate : Nat} {dir d : Inode} {name : List UInt8}
    {v' : Ext2Volume} (hr : ext2Mkdir v g fuel dir name mode cdate = some (0, v', some d)) :
    ∃ i k fs, NextInode v i k ∧ d.iIno = inodeNumber v i k ∧
      addDirEntry (allocInode v (newExt2Inode (mode ||| ext2SIfdir) cdate)).2.toExt2FsInstance g fuel dir.iIno name
        ext2FtDir (inodeNumber v i k) = some fs ∧
      v' = initDir ((allocInode v (newExt2Inode (mode ||| ext2SIfdir) cdate)).2.withFs fs) g
        (toInt (inodeNumber v i k)) dir.iIno := by
  obtain ⟨⟨ino, v₁⟩, hmknod, heq⟩ := Option.map_eq_some_iff.mp hr
  dsimp only at heq
  unfold mknodInode at hmknod
  dsimp only at hmknod
  rw [if_pos (dirMode_ne_zero mode)] at hmknod
  obtain ⟨v₂, hadd, hinit⟩ := Option.map_eq_some_iff.mp hmknod
  obtain ⟨fs, hadd, hfs⟩ := Option.map_eq_some_iff.mp hadd
  obtain ⟨hino, hv₁⟩ := Prod.mk.inj hinit
  have hzero : ino ≠ 0 := by
    intro hzero
    rw [if_pos hzero] at heq
    cases heq
  rw [if_neg hzero] at heq
  obtain ⟨-, hrest⟩ := Prod.mk.inj heq
  obtain ⟨hv', hd⟩ := Prod.mk.inj hrest
  cases hat : allocInodeAt v with
  | none =>
    exfalso
    apply hzero
    rw [← hino]
    unfold allocInode
    rw [hat]
  | some r =>
    obtain ⟨i, k⟩ := r
    have hnext := allocInodeAt_eq_some.mp hat
    have hlt := h.inodeNumber_lt hnext.group.1 hnext.bit.1
    have hfst := (allocInode_next hnext (newExt2Inode (mode ||| ext2SIfdir) cdate)).1
    rw [Nat.mod_eq_of_lt hlt] at hfst
    rw [hfst] at hino hadd hv₁
    rw [toWord_toInt hlt] at hadd
    refine ⟨i, k, fs, hnext, ?_, hadd, ?_⟩
    · rw [← Option.some.inj hd, ← hino]
      exact toWord_toInt hlt
    · rw [← hv', ← hv₁, hfs]

/-- Which blocks are free is said by the block bitmaps. -/
theorem Ext2Image.blockFree_agree (h : Ext2Image v) {disk disk' : Bytes} (inodeBitmap : Nat → Bytes)
    (hagree : ∀ n, (∃ i < v.nGroups, n / v.blockSize = v.bgBlockBitmap i) → disk n = disk' n) (b : Nat) :
    BlockFree { v with disk := disk, inodeBitmap := inodeBitmap } b ↔ BlockFree { v with disk := disk' } b := by
  unfold BlockFree
  refine and_congr_right fun _ => and_congr_right fun hgroup => ?_
  have hgroup : blockGroup v b < v.nGroups := hgroup
  have hbit := Nat.mod_lt (b - v.sFirstDataBlock) h.blocksPerGroup_pos
  have hfits := h.blockBitmap_fits
  have hdiv : (v.bgBlockBitmap (blockGroup v b) * v.blockSize + blockBit v b / 8) / v.blockSize =
      v.bgBlockBitmap (blockGroup v b) := by
    apply pos_div
    unfold blockBit
    omega
  have hbyte : disk (v.bgBlockBitmap (blockGroup v b) * v.blockSize + blockBit v b / 8) =
      disk' (v.bgBlockBitmap (blockGroup v b) * v.blockSize + blockBit v b / 8) := hagree _ ⟨_, hgroup, hdiv⟩
  show bitAt disk (v.bgBlockBitmap (blockGroup v b) * v.blockSize) (blockBit v b) = false ↔
    bitAt disk' (v.bgBlockBitmap (blockGroup v b) * v.blockSize) (blockBit v b) = false
  unfold bitAt
  rw [hbyte]

theorem Ext2Image.blockFree_congr (h : Ext2Image v) {disk : Bytes} (inodeBitmap : Nat → Bytes)
    (hagree : ∀ n, (∃ i < v.nGroups, n / v.blockSize = v.bgBlockBitmap i) → disk n = v.disk n) (b : Nat) :
    BlockFree { v with disk := disk, inodeBitmap := inodeBitmap } b ↔ BlockFree v b :=
  h.blockFree_agree inodeBitmap hagree b

theorem withFs_allocInode (hnext : NextInode v i k) (x : Bytes) {fs : Ext2FsInstance}
    (hsuper : fs.superblock = v.superblock) (hdesc : fs.groupDescTable = v.groupDescTable) :
    (allocInode v x).2.withFs fs = { v with
      disk := fs.disk
      inodeBitmap := (allocInode v x).2.inodeBitmap } := by
  obtain ⟨superblock, groupDescTable, disk⟩ := fs
  dsimp only at hsuper hdesc
  rw [hsuper, hdesc]
  unfold allocInode
  rw [allocInodeAt_eq_some.mpr hnext]
  rfl

/-- `init_dir` of an inode without blocks. -/
theorem initDir_empty (hsize : (readInode v.toExt2FsInstance g n).iSize = 0) (hn : n < 2 ^ 32) (parentInode : Nat) :
    initDir v g (toInt n) parentInode = initDirAt v g n parentInode (2 ^ 32 - 1) := by
  have haddr : addrInodeData v.toExt2FsInstance g n 0 = 2 ^ 32 - 1 := getDataBlock_empty hsize _
  unfold initDir
  dsimp only
  rw [toWord_toInt hn, haddr, if_neg (by decide)]

/-- `init_dir` of an inode with a first block. -/
theorem initDir_block (hsize : (readInode v.toExt2FsInstance g n).iSize ≠ 0) (hbs : 0 < v.blockSize)
    (hblock : (readInode v.toExt2FsInstance g n).iBlock 0 ≠ 0)
    (hlow : (readInode v.toExt2FsInstance g n).iBlock 0 * v.blockSize < 2 ^ 32) (hn : n < 2 ^ 32) (parentInode : Nat) :
    initDir v g (toInt n) parentInode =
      initDirAt v g n parentInode ((readInode v.toExt2FsInstance g n).iBlock 0 * v.blockSize) := by
  have haddr : addrInodeData v.toExt2FsInstance g n 0 = (readInode v.toExt2FsInstance g n).iBlock 0 * v.blockSize := by
    unfold addrInodeData
    rw [getDataBlock_zero hsize, Nat.mod_eq_of_lt hlow]
  have hne := Nat.mul_ne_zero hblock (Nat.ne_of_gt hbs)
  unfold initDir
  dsimp only
  rw [toWord_toInt hn, haddr, if_neg hne]

/-- **Making a directory never works**: in no image does a directory that `ext2_mkdir` reports to have made satisfy the
law. The new inode has no blocks, or it is not the inode that the number means. -/
theorem ext2Mkdir_never (v : Ext2Volume) (h : Ext2Image v) (g : Garbage) (fuel : Nat) (dir : Inode)
    (name : List UInt8) (mode cdate : Nat) (hp : MkdirParent v g dir.iIno name) (v' : Ext2Volume) (d : Inode)
    (hr : ext2Mkdir v g fuel dir name mode cdate = some (0, v', some d)) :
    ¬ MkdirLaw v g dir.iIno name v' d.iIno := by
  intro hlaw
  obtain ⟨i, k, fs, hnext, hd, hadd, hv'⟩ := h.mkdir_steps hr
  have hi := hnext.group.1
  have hk := hnext.bit.1
  have hlt := h.inodeNumber_lt hi hk
  have hbs := h.blockSize_pos
  obtain ⟨hsuper, hdesc, hkept⟩ := h.addDirEntry_kept hp hnext hlt hadd
  rw [hd] at hlaw
  rw [withFs_allocInode hnext _ hsuper hdesc] at hv'
  generalize hinodeBitmap : (allocInode v (newExt2Inode (mode ||| ext2SIfdir) cdate)).2.inodeBitmap = inodeBitmap at hv'
  obtain ⟨v₂, hv₂⟩ : ∃ v₂ : Ext2Volume, v₂ = { v with disk := fs.disk, inodeBitmap := inodeBitmap } := ⟨_, rfl⟩
  rw [← hv₂] at hv'
  have hsuper₂ : v₂.superblock = v.superblock := by rw [hv₂]
  have hdesc₂ : v₂.groupDescTable = v.groupDescTable := by rw [hv₂]
  have hbs₂ : v₂.blockSize = v.blockSize := by
    rw [hv₂]
    rfl
  have hdisk₂ : v₂.disk = fs.disk := by rw [hv₂]
  -- the inode as `init_dir` reads it
  have hread₂ : readInode v₂.toExt2FsInstance g (inodeNumber v i k) =
      readInode (allocInode v (newExt2Inode (mode ||| ext2SIfdir) cdate)).2.toExt2FsInstance g (inodeNumber v i k) := by
    obtain ⟨-, hsuper₁, hdesc₁, -⟩ := allocInode_next hnext (newExt2Inode (mode ||| ext2SIfdir) cdate)
    apply h.readInode_congr hi hk hsuper₁ hdesc₁ hsuper₂ hdesc₂
    intro t ht
    rw [hdisk₂]
    exact hkept _ (h.slot_meta hi hk ht)
  by_cases hsize : (readInode v₂.toExt2FsInstance g (inodeNumber v i k)).iSize = 0
  · -- it still has no blocks
    rw [initDir_empty hsize hlt] at hv'
    have hsuper' : v'.superblock = v.superblock := by
      rw [hv']
      exact hsuper₂
    have hdesc' : v'.groupDescTable = v.groupDescTable := by
      rw [hv']
      exact hdesc₂
    have hread : readInode v'.toExt2FsInstance g (inodeNumber v i k) =
        readInode v₂.toExt2FsInstance g (inodeNumber v i k) := by
      apply h.readInode_congr hi hk hsuper₂ hdesc₂ hsuper' hdesc'
      intro t ht
      rw [hv']
      apply initDirAt_empty (hbs₂.symm ▸ hbs)
      rw [hbs₂]
      exact h.not_outside (h.slot_meta hi hk ht)
    obtain ⟨len, len', hholds⟩ := hlaw.entries
    have hbs' : v'.blockSize = v.blockSize := by
      rw [hv']
      exact hbs₂
    have hone := hholds.size
    rw [hread, hsize, hbs', List.length_singleton, Nat.one_mul] at hone
    omega
  · -- the slot was not written: it is that of an unused inode
    obtain ⟨-, hread₁⟩ := (h.readInode_allocInode hnext (newExt2Inode (mode ||| ext2SIfdir) cdate) hi hk).resolve_left
      fun hnew => hsize (by
        rw [hread₂, hnew.2]
        exact newExt2Inode_size g _ _)
    have hclear : diskInodeBit v i k = false := by
      rw [← h.copy i hi k hk]
      exact hnext.bit.2
    have hunused := h.unused g i hi k hk hclear
    rw [← hread₁, ← hread₂] at hunused
    obtain ⟨hblock, hlow⟩ := hunused.block hsize
    have hlow : _ * v₂.blockSize < 2 ^ 32 := hbs₂.symm ▸ hlow
    rw [initDir_block hsize (hbs₂.symm ▸ hbs) hblock hlow hlt] at hv'
    generalize hc : (readInode v₂.toExt2FsInstance g (inodeNumber v i k)).iBlock 0 = c at hv' hlow
    have hinit : ∀ n, n / v.blockSize ≠ c → v'.disk n = v₂.disk n := by
      intro n hn
      rw [hv']
      exact initDirAt_block (hbs₂.symm ▸ hbs) hlow (hbs₂.symm ▸ hn)
    by_cases hslot : c = (v.groupDescTable i).bgInodeTable + k / inodesPerBlock v
    · -- the entries overwrite the inode, and no block was allocated
      have hin := (h.slot_block (i := i) hk (show 0 < sizeofExt2Inode by decide)).2
      have hsame : ∀ n, (∃ j < v.nGroups, n / v.blockSize = v.bgBlockBitmap j) → v'.disk n = v.disk n := by
        rintro n ⟨j, hj, hn⟩
        obtain ⟨hbitmap, htable⟩ := h.blockBitmaps j hj i hi
        have hne : n / v.blockSize ≠ c := by
          rw [hn, hslot]
          generalize k / inodesPerBlock v = t at hin
          omega
        rw [hinit n hne, hdisk₂, hkept n ⟨j, hj, Or.inl hn⟩]
        apply h.allocInode_disk hnext
        · rw [hn]
          exact hbitmap
        · rw [hn]
          exact htable
      have hfields : v' = { v with disk := v'.disk, inodeBitmap := inodeBitmap } := by
        rw [hv', hv₂]
        rfl
      have hfree := h.blockFree_congr inodeBitmap hsame
        ((readInode v'.toExt2FsInstance g (inodeNumber v i k)).iBlock 0)
      rw [← hfields] at hfree
      exact hlaw.block.2 (hfree.mpr hlaw.block.1)
    · -- the inode has no links
      have hread : readInode v'.toExt2FsInstance g (inodeNumber v i k) =
          readInode v₂.toExt2FsInstance g (inodeNumber v i k) := by
        have hsuper' : v'.superblock = v.superblock := by
          rw [hv']
          exact hsuper₂
        have hdesc' : v'.groupDescTable = v.groupDescTable := by
          rw [hv']
          exact hdesc₂
        apply h.readInode_congr hi hk hsuper₂ hdesc₂ hsuper' hdesc'
        intro t ht
        apply hinit
        rw [(h.slot_block hk ht).1]
        exact Ne.symm hslot
      apply hlaw.links
      rw [hread]
      exact hunused.links

end

/-! ## A group of eight inodes with a root directory -/

/-- The disk of `rootImage`: the bitmaps in blocks 2 and 3, the inode table in block 4, where the second inode is the
root directory, and its entries `.` and `..` in block 5. -/
def rootDisk : Bytes := fun n =>
  match n with
  | 2048 => 31
  | 3072 => 3
  | 4225 => 0x40
  | 4229 => 4
  | 4250 => 2
  | 4264 => 5
  | 5120 => 2
  | 5124 => 12
  | 5126 => 1
  | 5127 => 2
  | 5128 => 46
  | 5132 => 2
  | 5136 => 0xF4
  | 5137 => 3
  | 5138 => 2
  | 5139 => 2
  | 5140 => 46
  | 5141 => 46
  | _ => 0

def rootImage : Ext2Volume where
  superblock := ⟨0, 8, 128⟩
  groupDescTable := fun _ => ⟨4⟩
  disk := rootDisk
  sFirstDataBlock := 1
  sBlocksPerGroup := 8
  nGroups := 1
  bgBlockBitmap := fun _ => 2
  bgFreeBlocksCount := fun _ => 3
  bgInodeBitmap := fun _ => 3
  bgFreeInodesCount := fun _ => 6
  inodeBitmap := fun _ n => if n = 0 then 3 else 0

theorem rootImage_tables : InodeTables rootImage := by
  have hgroup : ∀ i < rootImage.nGroups, i = 0 := fun i hi => Nat.lt_one_iff.mp hi
  refine ⟨show 0 < 8 by decide, by decide, show 8 ≤ 8 * 1024 by decide, show 1 * 8 < 2 ^ 32 by decide, fun i hi => ?_,
    fun i hi j hj hne => ?_, fun i hi j hj _ => ?_, fun i _ j _ => Or.inl (show 3 < 4 by decide), fun i hi k hk => ?_⟩
  · rw [hgroup i hi]
    decide
  · exact absurd ((hgroup i hi).trans (hgroup j hj).symm) hne
  · exact (hgroup i hi).trans (hgroup j hj).symm
  · rw [hgroup i hi]
    have hcopy : ∀ k < 8, memInodeBit rootImage 0 k = diskInodeBit rootImage 0 k := by decide
    exact hcopy k hk

theorem rootImage_slotPos {k : Nat} (hk : k < 8) : slotPos rootImage 0 k = 4096 + 128 * k := by
  unfold slotPos
  rw [show inodesPerBlock rootImage = 8 from by decide, Nat.div_eq_of_lt hk, Nat.mod_eq_of_lt hk]
  show 4096 + k * 128 = 4096 + 128 * k
  omega

/-- The slots behind the first two hold zeros. -/
theorem rootDisk_unused {k t : Nat} (hk : 2 ≤ k ∧ k < 8) (ht : t < sizeofExt2Inode) :
    rootImage.disk (slotPos rootImage 0 k + t) = 0 := by
  unfold sizeofExt2Inode at ht
  rw [rootImage_slotPos hk.2]
  show rootDisk _ = 0
  unfold rootDisk
  split <;> first | omega | rfl

/-- A slot that holds zeros, on any disk in the place of that of `rootImage`. -/
theorem rootImage_readInode_zero (g : Garbage) {k : Nat} (hk : k < 8) {fs : Ext2FsInstance}
    (hsuper : fs.superblock = rootImage.superblock) (hdesc : fs.groupDescTable = rootImage.groupDescTable)
    (hzero : ∀ t < sizeofExt2Inode, fs.disk (slotPos rootImage 0 k + t) = 0) :
    readInode fs g (inodeNumber rootImage 0 k) = inodeOf g fun _ => 0 := by
  rw [rootImage_tables.readInode_eq g Nat.zero_lt_one hk hsuper hdesc]
  unfold inodeOf
  apply congrArg
  funext t
  split_ifs with ht
  · exact hzero t ht
  · rfl

theorem rootImage_image : Ext2Image rootImage where
  toInodeTables := rootImage_tables
  inodeSize_dvd := by decide
  blocksPerGroup_pos := by decide
  blockBitmap_fits := by decide
  reserved := fun _ _ => show 2 ≤ 4 ∧ 2 ≤ 2 by decide
  low := fun _ _ => show tableEnd rootImage 0 * 1024 < 2 ^ 32 ∧ (3 + 1) * 1024 < 2 ^ 32 ∧ (2 + 1) * 1024 < 2 ^ 32 by
    decide
  blockBitmaps := fun _ _ _ _ => show 2 ≠ 3 ∧ (2 < 4 ∨ tableEnd rootImage 0 ≤ 2) by decide
  unused := by
    intro g i hi k hk hclear
    obtain rfl : i = 0 := Nat.lt_one_iff.mp hi
    have hk8 : k < 8 := hk
    have hlate : 2 ≤ k := by
      by_contra hlt
      have hset : ∀ k < 2, diskInodeBit rootImage 0 k = true := by decide
      rw [hset k (by omega)] at hclear
      cases hclear
    rw [rootImage_readInode_zero g hk8 rfl rfl fun t => rootDisk_unused ⟨hlate, hk8⟩]
    exact ⟨rfl, fun hsize => absurd rfl hsize⟩

theorem rootImage_holds : DirHolds rootImage.toExt2FsInstance (readInode rootImage.toExt2FsInstance noGarbage 2)
    (([(12, ⟨2, [46], ext2FtDir⟩)] ++ [(1012, ⟨2, [46, 46], ext2FtDir⟩)]) :: []) where
  size := by decide +kernel
  block := by
    intro n hn
    obtain rfl : n = 0 := Nat.lt_one_iff.mp hn
    refine ⟨?_, ?_, ?_, ?_, ?_, ?_, show _ = _ from ?_⟩ <;> decide +kernel

theorem rootImage_parent : MkdirParent rootImage noGarbage 2 [120] where
  inode := ⟨0, by decide, 1, by decide, by decide, by decide⟩
  name_length := by decide
  room := ⟨_, 1012, _, [], rootImage_holds, by decide⟩
  low := by decide +kernel
  apart := by
    have hblock : (readInode rootImage.toExt2FsInstance noGarbage 2).iBlock 0 = 5 := by decide +kernel
    intro i _
    rw [hblock]
    exact show 5 ≠ 2 ∧ 5 ≠ 3 ∧ (5 < 4 ∨ tableEnd rootImage 0 ≤ 5) by decide

/-- The root directory as `ext2_lookup` returns it. -/
def rootInode : Inode := ext2inode2Inode 2 (readInode rootImage.toExt2FsInstance noGarbage 2)

theorem rootImage_mkdir : ∃ v' d, ext2Mkdir rootImage noGarbage 3 rootInode [120] 0 0 = some (0, v', some d) ∧
    d.iIno = 3 ∧ (readInode v'.toExt2FsInstance noGarbage 3).iSize = 0 ∧ v'.blockSize = 1024 := by
  have hrun : (ext2Mkdir rootImage noGarbage 3 rootInode [120] 0 0).map (fun r => (r.1, r.2.2.map (·.iIno),
      (readInode r.2.1.toExt2FsInstance noGarbage 3).iSize, r.2.1.blockSize)) = some (0, some 3, 0, 1024) := by
    decide +kernel
  obtain ⟨⟨r, v', d⟩, heq, hfields⟩ := Option.map_eq_some_iff.mp hrun
  obtain ⟨hr, hrest⟩ := Prod.mk.inj hfields
  obtain ⟨hd, hrest⟩ := Prod.mk.inj hrest
  obtain ⟨hsize, hbs⟩ := Prod.mk.inj hrest
  obtain ⟨d, hsome, hino⟩ := Option.map_eq_some_iff.mp hd
  dsimp only at hr hsome
  rw [hr, hsome] at heq
  exact ⟨v', d, heq, hino, hsize, hbs⟩

/-- The directory `x` in the root directory: the call returns 0, and the new inode has no blocks. -/
theorem ext2_mkdir_empty : Ext2Image rootImage ∧ MkdirParent rootImage noGarbage rootInode.iIno [120] ∧
    ∃ v' d, ext2Mkdir rootImage noGarbage 3 rootInode [120] 0 0 = some (0, v', some d) ∧
      (readInode v'.toExt2FsInstance noGarbage d.iIno).iSize = 0 ∧
      ¬ MkdirLaw rootImage noGarbage rootInode.iIno [120] v' d.iIno := by
  obtain ⟨v', d, heq, hino, hsize, hbs⟩ := rootImage_mkdir
  refine ⟨rootImage_image, rootImage_parent, v', d, heq, hino.symm ▸ hsize, ?_⟩
  intro hlaw
  obtain ⟨len, len', hholds⟩ := hlaw.entries
  have hone := hholds.size
  rw [hino, hsize, hbs] at hone
  cases hone

theorem ext2_mkdir_root : ∃ v' d, ext2Mkdir rootImage noGarbage 3 rootInode [120] 0 0 = some (0, v', some d) ∧
    ¬ MkdirLaw rootImage noGarbage rootInode.iIno [120] v' d.iIno := by
  obtain ⟨v', d, heq, -⟩ := rootImage_mkdir
  exact ⟨v', d, heq, ext2Mkdir_never rootImage rootImage_image noGarbage 3 rootInode [120] 0 0 rootImage_parent v' d heq⟩

end Desiros.Fs
