import Desiros.Block.BlockErrors
import Desiros.Fs.FileIo

/-!
# What a read of a file returns (`ext2_functions.c`)

`ext2ReadCall` is `ext2_read` with both of its loops. It reads block by block, from the position to the end of the
request or of the file. `ext2Read_correct` says that it returns the bytes of the blocks, one after the other, over
every device that reads what it contains; `blockdevOf_reads` says that those of `block_dev.c` do.
-/

namespace Desiros.Fs

open Desiros.Library Block

/-! ## The device -/

/-- A transfer of bytes that lie on the device fills the buffer with them. -/
def ReadsDevice (dev : Blkdev) (size : Nat) : Prop :=
  ∀ (disk buf : Bytes) (count pos : Nat), count < 2 ^ 32 → pos + count ≤ size →
    dev.read disk buf count pos = fun i => if i < count then disk (pos + i) else buf i

section

variable {b : Blockdev} {disk : Bytes} {len : UInt32}

/-- The loop of `blockdev_generic_read` on the bytes of the device. -/
theorem readLoop_bytes : ∀ (fuel : Nat) (rd : UInt32) (o : UInt64) (buf : Bytes), rd.toNat ≤ len.toNat →
    len.toNat - rd.toNat ≤ fuel → o.toNat + (len.toNat - rd.toNat) ≤ b.size →
      readLoop b disk len fuel rd o buf =
        fun i => if rd.toNat ≤ i ∧ i < len.toNat then disk (o.toNat + (i - rd.toNat)) else buf i := by
  intro fuel
  induction fuel with
  | zero =>
    intro rd o buf hle hfuel _
    unfold readLoop
    funext i
    exact (if_neg (by omega)).symm
  | succ fuel ih =>
    intro rd o buf hle hfuel hsize
    unfold readLoop
    by_cases hlen : rd < len
    swap
    · rw [if_pos hlen]
      rw [word_lt_iff] at hlen
      funext i
      exact (if_neg (by omega)).symm
    rw [if_neg (not_not.mpr hlen)]
    dsimp only
    have hmore := word_lt_iff.mp hlen
    have hpos := b.blockSize_pos
    have hbytes : b.size < 18446744073709551616 := b.size_lt
    have hdiv := Nat.div_add_mod o.toNat b.blockSize.toNat
    have hend : ¬ o / b.blockSize.toUInt64 ≥ b.numberOfBlocks := by
      rw [ge_iff_le, UInt64.le_iff_toNat_le, toNat_div, not_le]
      apply Nat.div_lt_of_lt_mul
      have hmul : b.size = b.numberOfBlocks.toNat * b.blockSize.toNat := rfl
      rw [Nat.mul_comm, ← hmul]
      omega
    rw [if_neg hend]
    obtain ⟨c, hc⟩ : ∃ c, c = if len - rd < b.blockSize - (o % b.blockSize.toUInt64).toUInt32 then len - rd
        else b.blockSize - (o % b.blockSize.toUInt64).toUInt32 := ⟨_, rfl⟩
    obtain ⟨hn, hsum, hcpos⟩ := @wrbytes_spec b.toInstance len hpos rd hmore o c hc
    rw [← hc]
    have hposition : (o + c.toUInt64).toNat = o.toNat + c.toNat := by
      rw [UInt64.toNat_add, UInt32.toNat_toUInt64]
      omega
    have hstart : (o / b.blockSize.toUInt64).toNat * b.blockSize.toNat +
        (o % b.blockSize.toUInt64).toUInt32.toNat = o.toNat := by
      rw [toNat_div, toNat_mod o hpos, Nat.mul_comm]
      exact hdiv
    rw [hstart, ih _ _ _ (by omega) (by omega) (by omega), hsum, hposition]
    funext i
    by_cases hlow : rd.toNat ≤ i ∧ i < rd.toNat + c.toNat
    · rw [if_neg (by omega), if_pos hlow, if_pos ⟨hlow.1, by omega⟩]
    · rw [if_neg hlow]
      by_cases hhigh : rd.toNat + c.toNat ≤ i ∧ i < len.toNat
      · have hbyte : o.toNat + c.toNat + (i - (rd.toNat + c.toNat)) = o.toNat + (i - rd.toNat) := by omega
        rw [if_pos hhigh, if_pos ⟨by omega, hhigh.2⟩, hbyte]
      · rw [if_neg hhigh, if_neg (by omega)]

end

/-- The devices of `block_dev.c` read what they contain. -/
theorem blockdevOf_reads (b : Blockdev) (garbage : Nat → Nat → UInt8) : ReadsDevice (blockdevOf b garbage) b.size := by
  intro disk buf count pos hcount hpos
  have hlen : (UInt32.ofNat count).toNat = count := by
    rw [UInt32.toNat_ofNat']
    exact Nat.mod_eq_of_lt hcount
  have hbytes : b.size < 18446744073709551616 := b.size_lt
  have ho : (UInt64.ofNat pos).toNat = pos := by
    rw [UInt64.toNat_ofNat']
    exact Nat.mod_eq_of_lt (by omega)
  have hread := @readLoop_bytes b disk (UInt32.ofNat count) _ 0 (UInt64.ofNat pos) buf
    (Nat.zero_le _) (Nat.sub_le _ _) (by rw [hlen, ho]; exact hpos)
  rw [hlen, ho] at hread
  show readLoop b disk (UInt32.ofNat count) (UInt32.ofNat count).toNat 0 (UInt64.ofNat pos) buf = _
  rw [hlen, hread]
  funext i
  have hzero : (0 : UInt32).toNat = 0 := rfl
  rw [hzero, Nat.sub_zero]
  by_cases hi : i < count
  · rw [if_pos ⟨Nat.zero_le _, hi⟩, if_pos hi]
  · rw [if_neg fun h => hi h.2, if_neg hi]

/-! ## `ext2_read` -/

/-- The loop that looks for the block of the position. -/
def ext2ReadSeek (blockSize : Nat) : Nat → (offset nBlk : Nat) → Option (Nat × Nat)
  | 0, _, _ => none
  | fuel + 1, offset, nBlk =>
    if blockSize ≤ offset then ext2ReadSeek blockSize fuel (offset - blockSize) (nBlk + 1) else some (offset, nBlk)

section

variable (dev : Blkdev) (g : FileGarbage)

/-- `ext2_read`. -/
def ext2ReadCall (fuel : Nat) (w : Ext2Kernel) (ofd : Ext2File) (buf : Bytes) (size : Nat) :
    Option (Int × Bytes × Ext2File × Ext2Kernel) :=
  if ofd.flags &&& oAccmode = oWronly then some (0, buf, ofd, w)
  else if 0 ≤ toInt ofd.iIno then
    let offset := ofd.currentOctet
    let r := w.readInode dev g ofd.iIno
    let einode := ext2InodeAt r.1
    if einode.iSize ≤ offset then some (0, buf, ofd, r.2)
    else
      let size := if einode.iSize < size + offset then einode.iSize - offset else size
      (ext2ReadSeek w.blockSize fuel offset 0).bind fun (offset, nBlk) =>
        (ext2ReadLoop dev g einode fuel r.2 size nBlk offset buf 0).map fun (buf, count, w) =>
          (toInt count, buf, { ofd with currentOctet := (ofd.currentOctet + count) % 2 ^ 32 }, w)
  else some (toInt ofd.iIno, buf, ofd, w)

/-- Byte `x` of a file: its blocks one after the other, where `get_data_block` finds them. -/
def fileData (w : Ext2Kernel) (einode : Ext2Inode) (x : Nat) : UInt8 :=
  w.volume.disk
    (Fs.getDataBlock w.volume.toExt2FsInstance g.toGarbage einode ((x / w.blockSize : Nat) : Int) + x % w.blockSize)

/-- `get_data_block` finds every block of the file on the device. -/
def BlocksMapped (devSize : Nat) (w : Ext2Kernel) (einode : Ext2Inode) : Prop :=
  ∀ n : Nat, n < (einode.iSize + w.blockSize - 1) / w.blockSize →
    let addr := Fs.getDataBlock w.volume.toExt2FsInstance g.toGarbage einode n
    addr ≠ 0 ∧ addr + w.blockSize ≤ devSize

end

section

variable {dev : Blkdev} {g : FileGarbage} {w : Ext2Kernel} {einode : Ext2Inode} {devSize : Nat}

theorem ext2ReadSeek_eq {bs : Nat} (hbs : 0 < bs) : ∀ (fuel offset nBlk : Nat), offset / bs < fuel →
    ext2ReadSeek bs fuel offset nBlk = some (offset % bs, nBlk + offset / bs) := by
  intro fuel
  induction fuel with
  | zero => exact fun _ _ h => absurd h (Nat.not_lt_zero _)
  | succ fuel ih =>
    intro offset nBlk hfuel
    unfold ext2ReadSeek
    by_cases hge : bs ≤ offset
    · have hdiv := Nat.div_eq_sub_div hbs hge
      rw [if_pos hge, ih _ _ (by omega), Nat.mod_eq_sub_mod hge, hdiv, Nat.add_assoc, Nat.add_comm 1]
    · rw [if_neg hge, Nat.mod_eq_of_lt (Nat.lt_of_not_le hge), Nat.div_eq_of_lt (Nat.lt_of_not_le hge), Nat.add_zero]

/-- The first loop divides. -/
theorem ext2ReadCall_eq (dev : Blkdev) (g : FileGarbage) (hbs : 0 < w.blockSize) {ofd : Ext2File} {fuel : Nat}
    (hfuel : ofd.currentOctet < fuel) (buf : Bytes) (size : Nat) :
    ext2ReadCall dev g fuel w ofd buf size = ext2Read dev g fuel w ofd buf size := by
  have hdiv := Nat.div_le_self ofd.currentOctet w.blockSize
  unfold ext2ReadCall ext2Read
  dsimp only
  rw [ext2ReadSeek_eq hbs fuel _ 0 (by omega), Nat.zero_add, Option.bind_some]
  have hmin : ∀ iSize, ¬ iSize ≤ ofd.currentOctet →
      (if iSize < size + ofd.currentOctet then iSize - ofd.currentOctet else size) =
        min size (iSize - ofd.currentOctet) := by
    intro iSize hlt
    by_cases hclip : iSize < size + ofd.currentOctet
    · rw [if_pos hclip]
      omega
    · rw [if_neg hclip]
      omega
  split_ifs with hflags hino hend hclip
  · rfl
  · rfl
  · rw [← hmin _ hend, if_pos hclip]
  · rw [← hmin _ hend, if_neg hclip]
  · rfl

/-! ## Reading changes no data -/

theorem indirectReads_volume (dev : Blkdev) (g : FileGarbage) (w : Ext2Kernel) (einode : Ext2Inode) (n : Int) :
    (indirectReads dev g w einode n).volume = w.volume := by
  unfold indirectReads
  dsimp only
  split_ifs <;> rfl

theorem getDataBlock_volume (dev : Blkdev) (g : FileGarbage) (w : Ext2Kernel) (einode : Ext2Inode) (n : Int) :
    (w.getDataBlock dev g einode n).2.volume = w.volume :=
  indirectReads_volume dev g w.kmalloc.kmalloc.kmalloc einode n

/-- The bytes of one block. -/
theorem fileData_block (hbs : 0 < w.blockSize) (n : Nat) {i : Nat} (hi : i < w.blockSize) :
    fileData g w einode (n * w.blockSize + i) =
      w.volume.disk (Fs.getDataBlock w.volume.toExt2FsInstance g.toGarbage einode n + i) := by
  unfold fileData
  rw [Nat.add_comm (n * w.blockSize), Nat.add_mul_div_right _ _ hbs, Nat.add_mul_mod_self_right, Nat.div_eq_of_lt hi,
    Nat.mod_eq_of_lt hi, Nat.zero_add]

/-- **The second loop**: `size` bytes from byte `offset` of block `nBlk` on, behind the `count` bytes that are there. -/
theorem ext2ReadLoop_spec (hdev : ReadsDevice dev devSize) (hbs : 0 < w.blockSize)
    (hblocks : BlocksMapped g devSize w einode) :
    ∀ (fuel : Nat) (w' : Ext2Kernel) (size nBlk offset : Nat) (buf : Bytes) (count : Nat), w'.volume = w.volume →
      offset < w.blockSize → (0 < size → nBlk * w.blockSize + offset + size ≤ einode.iSize) → size < fuel →
      ∃ w'', ext2ReadLoop dev g einode fuel w' size nBlk offset buf count =
          some (fun i => if count ≤ i ∧ i < count + size then
            fileData g w einode (nBlk * w.blockSize + offset + (i - count)) else buf i, count + size, w'') ∧
        w''.volume = w.volume := by
  intro fuel
  induction fuel with
  | zero =>
    intro w' size nBlk offset buf count _ _ _ h
    exact absurd h (Nat.not_lt_zero _)
  | succ fuel ih =>
    intro w' size nBlk offset buf count hvolume hoffset hsize hfuel
    unfold ext2ReadLoop
    by_cases hzero : size = 0
    · subst hzero
      refine ⟨w', ?_, hvolume⟩
      rw [if_pos rfl]
      have hbuf : buf = fun i => if count ≤ i ∧ i < count + 0 then
          fileData g w einode (nBlk * w.blockSize + offset + (i - count)) else buf i := by
        funext i
        exact (if_neg (by omega)).symm
      rw [← hbuf, Nat.add_zero]
    have hend := hsize (Nat.pos_of_ne_zero hzero)
    have hblock : nBlk < (einode.iSize + w.blockSize - 1) / w.blockSize := by
      apply (Nat.le_div_iff_mul_le hbs).mpr
      rw [Nat.succ_mul]
      omega
    obtain ⟨haddr, hdevSize⟩ := hblocks nBlk hblock
    obtain ⟨addr, haddrEq⟩ : ∃ addr, addr = Fs.getDataBlock w.volume.toExt2FsInstance g.toGarbage einode nBlk :=
      ⟨_, rfl⟩
    rw [← haddrEq] at haddr hdevSize
    have hvalue : (w'.getDataBlock dev g einode nBlk).1 = addr := by
      rw [haddrEq, ← hvolume]
      rfl
    have hkept : (w'.getDataBlock dev g einode nBlk).2.volume = w.volume :=
      (getDataBlock_volume dev g w' einode nBlk).trans hvolume
    have hbs' : w'.blockSize = w.blockSize := by
      unfold Ext2Kernel.blockSize
      rw [hvolume]
    have hword : w.blockSize < 2 ^ 32 := Nat.mod_lt _ (by decide)
    rw [if_neg hzero]
    dsimp only
    rw [hvalue, if_neg haddr, hbs']
    obtain ⟨size2, hsize2⟩ : ∃ size2, size2 = min (w.blockSize - offset) size := ⟨_, rfl⟩
    rw [← hsize2]
    obtain ⟨a, ha⟩ : ∃ a, a = (w'.getDataBlock dev g einode nBlk).2 := ⟨_, rfl⟩
    rw [← ha] at hkept ⊢
    have hread : (a.readData dev (fun i => buf (count + i)) size2 (addr + offset)).1 =
        fun i => if i < size2 then w.volume.disk (addr + offset + i) else buf (count + i) := by
      unfold Ext2Kernel.readData
      dsimp only
      rw [hkept, hdev _ _ _ _ (by omega) (by omega)]
    rw [hread]
    obtain ⟨w'', hloop, hend'⟩ := ih (a.readData dev (fun i => buf (count + i)) size2 (addr + offset)).2 (size - size2)
      (nBlk + 1) 0 (fun i => if count ≤ i then
        if i - count < size2 then w.volume.disk (addr + offset + (i - count)) else buf (count + (i - count))
      else buf i) (count + size2) hkept hbs (fun hleft => by rw [Nat.succ_mul]; omega) (by omega)
    refine ⟨w'', ?_, hend'⟩
    have hcount : count + size2 + (size - size2) = count + size := by omega
    rw [hloop, hcount]
    congr 2
    funext i
    by_cases hfirst : count ≤ i ∧ i < count + size2
    · have hbyte := @fileData_block g w einode hbs nBlk (offset + (i - count)) (by omega)
      rw [← Nat.add_assoc, ← haddrEq, ← Nat.add_assoc] at hbyte
      rw [if_neg (by omega), if_pos hfirst.1, if_pos (by omega), if_pos ⟨hfirst.1, by omega⟩, hbyte]
    · by_cases hrest : count + size2 ≤ i ∧ i < count + size
      · have hbyte : (nBlk + 1) * w.blockSize + 0 + (i - (count + size2)) =
            nBlk * w.blockSize + offset + (i - count) := by
          rw [Nat.succ_mul]
          omega
        rw [if_pos hrest, if_pos ⟨by omega, hrest.2⟩, hbyte]
      · have hout : ¬ (count ≤ i ∧ i < count + size) := by omega
        rw [if_neg hrest, if_neg hout]
        by_cases hlow : count ≤ i
        · have hback : count + (i - count) = i := by omega
          rw [if_pos hlow, if_neg (by omega), hback]
        · rw [if_neg hlow]

end

/-- **Reading a file**: `ext2_read` returns as many bytes as there are from the position on, those of the blocks one
after the other, advances the position by them, and leaves the rest of the buffer alone. -/
theorem ext2Read_correct (dev : Blkdev) (devSize : Nat) (hdev : ReadsDevice dev devSize) (g : FileGarbage)
    (w : Ext2Kernel) (hbs : 0 < w.blockSize) (ofd : Ext2File) (hflags : ofd.flags &&& oAccmode ≠ oWronly)
    (hino : 0 ≤ toInt ofd.iIno) (buf : Bytes) (size : Nat) (hsize : size < 2 ^ 31) (fuel : Nat)
    (hfuel : size < fuel ∧ ofd.currentOctet < fuel)
    (hblocks : BlocksMapped g devSize w (ext2InodeAt (w.readInode dev g ofd.iIno).1)) :
    let einode := ext2InodeAt (w.readInode dev g ofd.iIno).1
    let n := min size (einode.iSize - ofd.currentOctet)
    ∃ w', ext2ReadCall dev g fuel w ofd buf size =
      some ((n : Int), fun i => if i < n then fileData g w einode (ofd.currentOctet + i) else buf i,
        { ofd with currentOctet := ofd.currentOctet + n }, w') ∧ w'.volume = w.volume := by
  intro einode n
  have hisize : einode.iSize < 2 ^ 32 := le32_lt _ _
  rw [ext2ReadCall_eq dev g hbs hfuel.2]
  unfold ext2Read
  rw [if_neg hflags, if_pos hino]
  dsimp only
  by_cases hend : einode.iSize ≤ ofd.currentOctet
  · have hzero : n = 0 := by omega
    refine ⟨(w.readInode dev g ofd.iIno).2, ?_, rfl⟩
    rw [if_pos hend, hzero]
    have hbuf : buf = fun i => if i < 0 then fileData g w einode (ofd.currentOctet + i) else buf i := by
      funext i
      exact (if_neg (Nat.not_lt_zero i)).symm
    rw [← hbuf]
    rfl
  · rw [if_neg hend]
    have hstart := Nat.div_add_mod' ofd.currentOctet w.blockSize
    have hn : ofd.currentOctet + n ≤ einode.iSize := by omega
    obtain ⟨w', hloop, hvolume⟩ := ext2ReadLoop_spec hdev hbs hblocks fuel (w.readInode dev g ofd.iIno).2 n
      (ofd.currentOctet / w.blockSize) (ofd.currentOctet % w.blockSize) buf 0 rfl (Nat.mod_lt _ hbs)
      (fun _ => hstart.symm ▸ hn) (by omega)
    refine ⟨w', ?_, hvolume⟩
    rw [hloop, hstart]
    simp only [Option.map_some, Nat.zero_add, Nat.zero_le, true_and, Nat.sub_zero]
    have hcursor : (ofd.currentOctet + n) % 2 ^ 32 = ofd.currentOctet + n := Nat.mod_eq_of_lt (by omega)
    have hint : toInt n = n := if_pos (by omega)
    rw [hcursor, hint]

/-! ## A file of three bytes -/

/-- Inode 2 of `smallTables`, in its slot at 3200: three bytes in block 4. -/
def threeBytes : Ext2Kernel where
  volume :=
    { smallTables 128 with
      disk := fun n =>
        if n = 3204 then 3 else if n = 3240 then 4 else if 4096 ≤ n ∧ n < 4099 then UInt8.ofNat (n - 4096 + 97) else 0 }
  heap := ⟨[], 0⟩

theorem sector_pos : 0 < (512 : UInt32).toNat := by decide

/-- Ten blocks of 512 bytes. -/
def tenBlocks : Blockdev where
  blockSize := 512
  numberOfBlocks := 10
  indexOfFirstBlock := 0
  blockSize_pos := sector_pos
  size_lt := by decide
  last_lt := by decide

def noFileGarbage : FileGarbage := { noGarbage with dindBlock := fun _ => 0, tindBlock := fun _ => 0 }

theorem threeBytes_size :
    (ext2InodeAt (threeBytes.readInode (blockdevOf tenBlocks fun _ _ => 0) noFileGarbage 2).1).iSize = 3 := by
  decide +kernel

theorem threeBytes_mapped : BlocksMapped noFileGarbage 5120 threeBytes
    (ext2InodeAt (threeBytes.readInode (blockdevOf tenBlocks fun _ _ => 0) noFileGarbage 2).1) := by
  intro n hn
  rw [threeBytes_size] at hn
  obtain rfl : n = 0 := Nat.lt_one_iff.mp hn
  decide +kernel

/-- Five bytes from the second one on: there are two. -/
theorem ext2Read_two_bytes : ∃ w', ext2ReadCall (blockdevOf tenBlocks fun _ _ => 0) noFileGarbage 6 threeBytes
    ⟨0, 1, 2⟩ (fun _ => 0) 5 = some (2, fun i => if i < 2 then
      fileData noFileGarbage threeBytes
        (ext2InodeAt (threeBytes.readInode (blockdevOf tenBlocks fun _ _ => 0) noFileGarbage 2).1) (1 + i) else 0,
      ⟨0, 3, 2⟩, w') := by
  obtain ⟨w', hread, -⟩ := ext2Read_correct (blockdevOf tenBlocks fun _ _ => 0) 5120 (blockdevOf_reads tenBlocks _)
    noFileGarbage threeBytes (by decide) ⟨0, 1, 2⟩ (by decide) (by decide) (fun _ => 0) 5 (by decide) 6 (by decide)
    threeBytes_mapped
  dsimp only at hread
  rw [threeBytes_size] at hread
  exact ⟨w', hread⟩

end Desiros.Fs
