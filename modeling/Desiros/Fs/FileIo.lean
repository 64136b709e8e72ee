import Desiros.Block.BlockDev
import Desiros.Fs.InodeSlot

/-!
# Reading and writing files (`ext2_functions.c`)

`ext2_read`, `ext2_write` and `ext2_lookup` as they go through the device and the kernel heap. A heap is the list
of the blocks that `kmalloc` returned and nobody freed; a transfer of the device allocates a buffer for every block
it meets. The device is a parameter, and `blockdevOf` is the one of `block_dev.c`. Loops take fuel.
-/

namespace Desiros.Fs

open Desiros.Library

/-! ## The heap and the device -/

structure Kheap where
  live : List Nat
  next : Nat

/-- `kmalloc`, which finds memory. -/
def Kheap.kmalloc (h : Kheap) : Kheap := ⟨h.next :: h.live, h.next + 1⟩

/-- `blkdev_interfaces`: what a transfer of `count` bytes at an offset leaves in the buffer, on the disk and in
the heap. -/
structure Blkdev where
  read : (disk buf : Bytes) → (count pos : Nat) → Bytes
  write : (disk buf : Bytes) → (count pos : Nat) → Bytes
  heap : (count pos : Nat) → Kheap → Kheap

section

open Block

/-- The loop of `blockdev_generic_read` on the bytes of the device. -/
def readLoop (b : Blockdev) (disk : Bytes) (len : UInt32) : Nat → UInt32 → UInt64 → Bytes → Bytes
  | 0, _, _, buf => buf
  | fuel + 1, rdbytes, offsetInDevice, buf =>
    if ¬ rdbytes < len then buf
    else
      let blockId := offsetInDevice / b.blockSize.toUInt64
      if blockId ≥ b.numberOfBlocks then buf
      else
        let offsetInBlock := (offsetInDevice % b.blockSize.toUInt64).toUInt32
        let wrbytes := b.blockSize - offsetInBlock
        let wrbytes := if len - rdbytes < wrbytes then len - rdbytes else wrbytes
        let start := blockId.toNat * b.blockSize.toNat + offsetInBlock.toNat
        readLoop b disk len fuel (rdbytes + wrbytes) (offsetInDevice + wrbytes.toUInt64) fun i =>
          if rdbytes.toNat ≤ i ∧ i < rdbytes.toNat + wrbytes.toNat then disk (start + (i - rdbytes.toNat)) else buf i

/-- The buffers that `blockdev_generic_read` and `blockdev_generic_write` allocate: one in each turn of their
loops, which advance alike. -/
def transferLoop (b : Blockdev) (len : UInt32) : Nat → UInt32 → UInt64 → Kheap → Kheap
  | 0, _, _, h => h
  | fuel + 1, done, offsetInDevice, h =>
    if ¬ done < len then h
    else if offsetInDevice / b.blockSize.toUInt64 ≥ b.numberOfBlocks then h
    else
      let offsetInBlock := (offsetInDevice % b.blockSize.toUInt64).toUInt32
      let bytes := b.blockSize - offsetInBlock
      let bytes := if len - done < bytes then len - done else bytes
      transferLoop b len fuel (done + bytes) (offsetInDevice + bytes.toUInt64) h.kmalloc

/-- `blockdev_wrap_read` and `blockdev_wrap_write`, with the content of the buffers they allocate. -/
def blockdevOf (b : Blockdev) (garbage : Nat → Nat → UInt8) : Blkdev where
  read disk buf count pos :=
    readLoop b disk (UInt32.ofNat count) (UInt32.ofNat count).toNat 0 (UInt64.ofNat pos) buf
  write disk buf count pos :=
    let first := b.indexOfFirstBlock.toNat
    let d := (blockdevGenericWrite b garbage (fun id i => disk ((id - first) * b.blockSize.toNat + i))
      (UInt64.ofNat pos) buf (UInt32.ofNat count)).2
    fun n => d (first + n / b.blockSize.toNat) (n % b.blockSize.toNat)
  heap count pos := transferLoop b (UInt32.ofNat count) (UInt32.ofNat count).toNat 0 (UInt64.ofNat pos)

end

/-! ## The functions of `ext2_internal.c` -/

structure Ext2Kernel where
  volume : Ext2Volume
  heap : Kheap

/-- What the memory holds that a call reads without having written it. -/
structure FileGarbage extends Garbage where
  /-- The words from the local variables `dind_block` and `tind_block` of `get_data_block` on. -/
  dindBlock : Nat → Nat
  tindBlock : Nat → Nat

def Ext2Kernel.kmalloc (w : Ext2Kernel) : Ext2Kernel := { w with heap := w.heap.kmalloc }

def Ext2Kernel.blockSize (w : Ext2Kernel) : Nat := w.volume.blockSize

/-- The word `v` at `pos` of a buffer. -/
def storeLe32 (m : Bytes) (pos v : Nat) : Bytes :=
  fun i => if pos ≤ i ∧ i < pos + 4 then UInt8.ofNat (v / 256 ^ (i - pos)) else m i

section

variable (dev : Blkdev) (g : FileGarbage)

def Ext2Kernel.readData (w : Ext2Kernel) (buf : Bytes) (count pos : Nat) : Bytes × Ext2Kernel :=
  (dev.read w.volume.disk buf count pos, { w with heap := dev.heap count pos w.heap })

def Ext2Kernel.writeData (w : Ext2Kernel) (buf : Bytes) (count pos : Nat) : Ext2Kernel :=
  { volume := { w.volume with disk := dev.write w.volume.disk buf count pos }
    heap := dev.heap count pos w.heap }

def Ext2Kernel.getBlock (w : Ext2Kernel) (bnum : Nat) : Bytes × Ext2Kernel :=
  w.readData dev g.behindBlock w.blockSize (bnum * w.blockSize)

/-- The indirect blocks that `get_data_block` reads. -/
def indirectReads (w : Ext2Kernel) (inode : Ext2Inode) (n : Int) : Ext2Kernel :=
  let ptrsPerBlock1 : Int := 2 ^ (w.volume.superblock.sLogBlockSize + 8)
  let ptrsPerBlock2 : Int := 2 ^ ((w.volume.superblock.sLogBlockSize + 8) * 2)
  let ptrsPerBlock3 : Int := 2 ^ ((w.volume.superblock.sLogBlockSize + 8) * 3)
  let size := if inode.iSize = 0 then 0 else 1 + (inode.iSize - 1) / w.blockSize
  if size = 0 ∨ n < 0 ∨ size ≤ n ∨ n < 12 then w
  else
    let n := n - 12
    if n < ptrsPerBlock1 then (w.getBlock dev g (inode.iBlock 12)).2
    else
      let n := n - ptrsPerBlock1
      if n < ptrsPerBlock2 then
        ((w.getBlock dev g (inode.iBlock 13)).2.getBlock dev g (g.dindBlock (n / ptrsPerBlock1).toNat)).2
      else
        let n := n - ptrsPerBlock2
        if n < ptrsPerBlock3 then
          (((w.getBlock dev g (inode.iBlock 14)).2.getBlock dev g (g.tindBlock (n / ptrsPerBlock2).toNat)).2.getBlock
            dev g (g.dindBlock (n % ptrsPerBlock2).toNat)).2
        else w

/-- `get_data_block`: the value is `getDataBlock`, the three buffers are never freed. -/
def Ext2Kernel.getDataBlock (w : Ext2Kernel) (inode : Ext2Inode) (n : Int) : Nat × Ext2Kernel :=
  (Fs.getDataBlock w.volume.toExt2FsInstance g.toGarbage inode n,
    indirectReads dev g w.kmalloc.kmalloc.kmalloc inode n)

/-- `read_inode`: the bytes of `buf_inode`. -/
def Ext2Kernel.readInode (w : Ext2Kernel) (inum : Nat) : Bytes × Ext2Kernel :=
  let super := w.volume.superblock
  let inodePerBlock := w.blockSize / super.sInodeSize
  let inum := (inum + (2 ^ 32 - 1)) % 2 ^ 32
  let group := inum / super.sInodesPerGroup
  let inodeInGroup := inum % super.sInodesPerGroup
  let blockInGroup := inodeInGroup / inodePerBlock
  let inodeInBlock := inodeInGroup % inodePerBlock
  let bnum := ((w.volume.groupDescTable group).bgInodeTable + blockInGroup) % 2 ^ 32
  let r := w.kmalloc.kmalloc.getBlock dev g bnum
  let n := min super.sInodeSize sizeofExt2Inode
  (fun i => if i < n then r.1 (inodeInBlock * super.sInodeSize + i) else g.bufInode i, r.2)

/-- `write_inode` of a positive inode number. -/
def Ext2Kernel.writeInode (w : Ext2Kernel) (inum : Nat) (einode : Bytes) : Ext2Kernel :=
  let super := w.volume.superblock
  let inodePerBlock := w.blockSize / super.sInodeSize
  let inum := (inum + (2 ^ 32 - 1)) % 2 ^ 32
  let group := inum / super.sInodesPerGroup
  let inodeInGroup := inum % super.sInodesPerGroup
  let bnum := ((w.volume.groupDescTable group).bgInodeTable + inodeInGroup / inodePerBlock) % 2 ^ 32
  let offset := inodeInGroup % inodePerBlock * super.sInodeSize % 2 ^ 32
  w.writeData dev einode sizeofExt2Inode (bnum * w.blockSize + offset)

/-- The loop of `alloc_block` over the groups. -/
def allocBlockGroups : List Nat → Ext2Kernel → Nat × Ext2Kernel
  | [], w => (0, w)
  | i :: is, w =>
    if w.volume.bgFreeBlocksCount i ≠ 0 then
      let addrBitmap := w.volume.addrOf (w.volume.bgBlockBitmap i)
      let r := w.kmalloc.readData dev g.behindBlock w.blockSize addrBitmap
      match firstClear r.1 w.volume.sBlocksPerGroup with
      | some ib =>
        let byte := setBit (r.1 (ib / 8)) (ib % 8)
        ((ib + i * w.volume.sBlocksPerGroup) % 2 ^ 32,
          r.2.writeData dev (fun _ => byte) 1 ((addrBitmap + ib / 8) % 2 ^ 32))
      | none => allocBlockGroups is r.2
    else allocBlockGroups is w

def Ext2Kernel.allocBlock (w : Ext2Kernel) : Nat × Ext2Kernel :=
  allocBlockGroups dev g (List.range w.volume.nGroups) w

/-- `set_block_inode_data`: the inode in memory, and the pointer written to the indirect block. -/
def Ext2Kernel.setBlockInodeData (w : Ext2Kernel) (einode : Bytes) (blkN blk : Nat) : Bytes × Ext2Kernel :=
  if blkN < 12 then (storeLe32 einode (40 + 4 * blkN) blk, w)
  else if blkN < 12 + w.blockSize / 4 then
    let r := if le32 einode 88 = 0 then
        let a := w.allocBlock dev g
        (storeLe32 einode 88 a.1, a.2)
      else (einode, w)
    (r.1, r.2.writeData dev (storeLe32 (fun _ => 0) 0 blk) 4
      ((le32 r.1 88 * w.blockSize + 4 * (blkN - 12)) % 2 ^ 32))
  else (einode, w)

/-! ## Files -/

/-- A descriptor of a file. -/
structure Ext2File where
  flags : Nat
  currentOctet : Nat
  /-- `ofd->inode->i_ino` -/
  iIno : Nat

def oAccmode : Nat := 3
def oRdonly : Nat := 0
def oWronly : Nat := 1
def oAppend : Nat := 0o2000

/-- The loop of `ext2_read`: the buffer and `count`. -/
def ext2ReadLoop (einode : Ext2Inode) :
    Nat → Ext2Kernel → (size nBlk offset : Nat) → Bytes → Nat → Option (Bytes × Nat × Ext2Kernel)
  | 0, _, _, _, _, _, _ => none
  | fuel + 1, w, size, nBlk, offset, buf, count =>
    if size = 0 then some (buf, count, w)
    else
      let a := w.getDataBlock dev g einode nBlk
      if a.1 = 0 then some (buf, count, a.2)
      else
        let size2 := min (w.blockSize - offset) size
        let r := a.2.readData dev (fun i => buf (count + i)) size2 (a.1 + offset)
        ext2ReadLoop einode fuel r.2 (size - size2) (nBlk + 1) 0
          (fun i => if count ≤ i then r.1 (i - count) else buf i) (count + size2)

/-- What `ext2_read` returns, the buffer, and the descriptor. -/
def ext2Read (fuel : Nat) (w : Ext2Kernel) (ofd : Ext2File) (buf : Bytes) (size : Nat) :
    Option (Int × Bytes × Ext2File × Ext2Kernel) :=
  if ofd.flags &&& oAccmode = oWronly then some (0, buf, ofd, w)
  else if 0 ≤ toInt ofd.iIno then
    let r := w.readInode dev g ofd.iIno
    let einode := ext2InodeAt r.1
    if einode.iSize ≤ ofd.currentOctet then some (0, buf, ofd, r.2)
    else
      let size := min size (einode.iSize - ofd.currentOctet)
      (ext2ReadLoop dev g einode fuel r.2 size (ofd.currentOctet / w.blockSize) (ofd.currentOctet % w.blockSize)
        buf 0).map fun (buf, count, w) =>
          (toInt count, buf, { ofd with currentOctet := (ofd.currentOctet + count) % 2 ^ 32 }, w)
  else some (toInt ofd.iIno, buf, ofd, w)

/-- The first loop of `ext2_write`, which allocates the blocks in front of the position; `off` is an `int`. -/
def ext2WriteSkip : Nat → Ext2Kernel → Bytes → Int → Nat → Option (Bytes × Int × Nat × Ext2Kernel)
  | 0, _, _, _, _ => none
  | fuel + 1, w, einode, off, nBlk =>
    if off < w.blockSize then some (einode, off, nBlk, w)
    else
      let a := w.getDataBlock dev g (ext2InodeAt einode) nBlk
      let r := if a.1 = 0 then
          let b := a.2.allocBlock dev g
          b.2.setBlockInodeData dev g einode nBlk b.1
        else (einode, a.2)
      ext2WriteSkip fuel r.2 r.1 (off - w.blockSize) (nBlk + 1)

/-- The second loop of `ext2_write`: the inode and `count`. -/
def ext2WriteLoop (buf : Bytes) :
    Nat → Ext2Kernel → Bytes → Nat → Int → (nBlk count : Nat) → Option (Bytes × Nat × Ext2Kernel)
  | 0, _, _, _, _, _, _ => none
  | fuel + 1, w, einode, size, off, nBlk, count =>
    if size = 0 then some (einode, count, w)
    else
      let a := w.getDataBlock dev g (ext2InodeAt einode) nBlk
      let r := if a.1 = 0 then
          let b := a.2.allocBlock dev g
          let e := b.2.setBlockInodeData dev g einode nBlk b.1
          (b.1 * w.blockSize % 2 ^ 32, e.1, e.2)
        else (a.1, einode, a.2)
      let addr := ((r.1 + off) % 2 ^ 32).toNat
      let size2 := min ((w.blockSize - off) % 2 ^ 32).toNat size
      let w := r.2.2.writeData dev (fun i => buf (count + i)) size2 addr
      ext2WriteLoop buf fuel w r.2.1 (size - size2) 0 (nBlk + 1) (count + size2)

/-- What `ext2_write` returns. The cursor of the descriptor stays where it is. -/
def ext2Write (fuel : Nat) (w : Ext2Kernel) (ofd : Ext2File) (buf : Bytes) (size : Nat) : Option (Int × Ext2Kernel) :=
  if ofd.flags &&& oAccmode = oRdonly then some (0, w)
  else if 0 ≤ toInt ofd.iIno then
    let r := w.readInode dev g ofd.iIno
    let offset := if ofd.flags &&& oAppend ≠ 0 then (ext2InodeAt r.1).iSize else ofd.currentOctet
    (ext2WriteSkip dev g fuel r.2 r.1 (toInt offset) 0).bind fun (einode, off, nBlk, w) =>
      (ext2WriteLoop dev g buf fuel w einode size off nBlk 0).map fun (einode, count, w) =>
        let einode := storeLe32 einode 4 (max (ext2InodeAt einode).iSize ((offset + count) % 2 ^ 32))
        (toInt count, if ofd.iIno = 0 then w else w.writeInode dev ofd.iIno einode)
  else some (toInt ofd.iIno, w)

/-! ## Lookup -/

/-- `find_dir_entry` behind its first block. -/
def findDirEntryFrom (dirInode : Ext2Inode) (name : List UInt8) :
    Nat → Ext2Kernel → Bytes → Nat → Nat → Nat → Option (Option Ext2Directory × Ext2Kernel)
  | 0, _, _, _, _, _ => none
  | fuel + 1, w, block, i, count, logical =>
    let dep := dirAt block i
    if strcmp (cString dep.chars) name = 0 then some (some dep, w)
    else
      let i := i + dep.recLen
      let count := (count + dep.recLen) % 2 ^ 32
      if dirInode.iSize ≤ count then some (none, w)
      else if w.blockSize ≤ i then
        let a := w.getDataBlock dev g dirInode (logical + 1 : Nat)
        let r := a.2.readData dev block w.blockSize a.1
        findDirEntryFrom dirInode name fuel r.2 r.1 (i % w.blockSize) count (logical + 1)
      else findDirEntryFrom dirInode name fuel w block i count logical

/-- `getinode_from_name`, with the buffers of `readdir_inode` and `find_dir_entry`. -/
def Ext2Kernel.getinodeFromName (fuel : Nat) (w : Ext2Kernel) (inode : Nat) (name : List UInt8) :
    Option (Int × Ext2Kernel) :=
  let r := w.kmalloc.readInode dev g inode
  let dirInode := ext2InodeAt r.1
  let a := r.2.kmalloc.getDataBlock dev g dirInode 0
  let b := a.2.readData dev g.behindBlock w.blockSize a.1
  (findDirEntryFrom dev g dirInode name fuel b.2 b.1 0 0 0).map fun (found, w) =>
    let dir := found.getD (dirAt g.dep 0)
    (if strcmp name (cString dir.chars) = 0 then toInt dir.inode else -enotdir, w)

/-- `ext2_lookup`: the dentry returned, with the blocks of the dentry, its name and its inode. -/
def Ext2Kernel.ext2Lookup (fuel : Nat) (w : Ext2Kernel) (dentry : Dentry) (name : List UInt8) :
    Option (Option (Dentry × List Nat) × Ext2Kernel) :=
  (w.getinodeFromName dev g fuel dentry.dInode.iIno name).map fun (inode, w) =>
    if inode ≤ 0 then (none, w)
    else
      let r := w.readInode dev g inode.toNat
      let d : Dentry :=
        { dName := name, dInode := ext2inode2Inode inode.toNat (ext2InodeAt r.1), dPdentry := some dentry }
      let next := r.2.heap.next
      (some (d, [next, next + 1, next + 2]), r.2.kmalloc.kmalloc.kmalloc)

end

end Desiros.Fs
