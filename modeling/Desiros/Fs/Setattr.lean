import Desiros.Fs.Truncate

/-!
# Setting attributes (`ext2_setattr`)

`ext2_setattr` reads the attributes of an inode, replaces those that the mask names and writes all of them back, with
the date as the time of the change. Without `ATTR_SIZE` this changes the fields of that inode (`setattrInode_changes`).
-/

namespace Desiros.Fs

open Desiros.Library

/-! ## The functions -/

def attrUid : Nat := 1
def attrGid : Nat := 2
def attrMode : Nat := 4
def attrAtime : Nat := 8
def attrMtime : Nat := 16
def attrCtime : Nat := 32
def attrSize : Nat := 64

/-- `struct stat`; the times are words. -/
structure Stat where
  stIno : Nat
  stMode : Nat
  stNlink : Nat
  stUid : Nat
  stGid : Nat
  stSize : Nat
  stBlksize : Nat
  stBlocks : Nat
  stAtime : Nat
  stMtime : Nat
  stCtime : Nat

/-- `file_attributes_t` -/
structure FileAttributes where
  mask : Nat
  stbuf : Stat
  iaSize : Int

section

variable (v : Ext2Volume) (g : Garbage)

/-- `read_inode` always has an inode, so that the call returns 0. -/
def getattrInode (inode : Nat) : Stat :=
  let einode := readInode v.toExt2FsInstance g inode
  { stIno := inode + 1
    stMode := einode.iMode
    stNlink := einode.iLinksCount
    stUid := einode.iUid
    stGid := einode.iGid
    stSize := einode.iSize
    stBlksize := v.blockSize
    stBlocks := einode.iSize / 512
    stAtime := einode.iAtime
    stMtime := einode.iMtime
    stCtime := einode.iCtime }

/-- The fields of an inode in memory that `setattr_inode` stores. -/
def storeStat (einode : Bytes) (stbuf : Stat) (date : Nat) : Bytes :=
  let einode := storeLe einode 0 2 stbuf.stMode
  let einode := storeLe einode 2 2 stbuf.stUid
  let einode := storeLe einode 24 2 stbuf.stGid
  let einode := storeLe einode 8 4 stbuf.stAtime
  let einode := storeLe einode 16 4 stbuf.stMtime
  storeLe einode 12 4 date

/-- `date` is what `get_date` returns. -/
def setattrInode (inode : Nat) (stbuf : Stat) (date : Nat) : Ext2Volume :=
  writeInode v (toInt inode) (storeStat (bufInode v.toExt2FsInstance g inode) stbuf date)

/-- The attributes that the mask names. -/
def FileAttributes.replace (attr : FileAttributes) (s : Stat) : Stat :=
  let s := if attr.mask &&& attrUid ≠ 0 then { s with stUid := attr.stbuf.stUid } else s
  let s := if attr.mask &&& attrGid ≠ 0 then { s with stGid := attr.stbuf.stGid } else s
  let s := if attr.mask &&& attrMode ≠ 0 then { s with stMode := attr.stbuf.stMode } else s
  let s := if attr.mask &&& attrAtime ≠ 0 then { s with stAtime := attr.stbuf.stAtime } else s
  let s := if attr.mask &&& attrMtime ≠ 0 then { s with stMtime := attr.stbuf.stMtime } else s
  if attr.mask &&& attrCtime ≠ 0 then { s with stCtime := attr.stbuf.stCtime } else s

/-- The inode in memory changes where it is truncated. -/
def ext2Setattr (fuel : Nat) (inode : Inode) (attr : FileAttributes) (date : Nat) :
    Option (Int × Ext2Volume × Inode) :=
  let s := attr.replace (getattrInode v g inode.iIno)
  let truncated :=
    if attr.mask &&& attrSize ≠ 0 ∧ attr.iaSize % 2 ^ 64 ≠ inode.iSize then
      (ext2Truncate v g fuel inode (attr.iaSize % 2 ^ 64).toNat).map Prod.snd
    else some (v, inode)
  truncated.map fun (v, inode) => (0, setattrInode v g inode.iIno s date, inode)

end

/-! ## The inode changed -/

/-- The attributes, as the fields of an inode hold them. -/
def Ext2Inode.withStat (einode : Ext2Inode) (stbuf : Stat) (date : Nat) : Ext2Inode :=
  { einode with
    iMode := stbuf.stMode % 2 ^ 16
    iUid := stbuf.stUid % 2 ^ 16
    iGid := stbuf.stGid % 2 ^ 16
    iAtime := stbuf.stAtime % 2 ^ 32
    iMtime := stbuf.stMtime % 2 ^ 32
    iCtime := date % 2 ^ 32 }

/-- Inode `n` has become `changed`, behind the fields of its attributes nothing changes, and neither does any other
inode. -/
structure InodeChanged (v v' : Ext2Volume) (g : Garbage) (count n : Nat) (changed : Ext2Inode) : Prop where
  read : readInode v'.toExt2FsInstance g n = changed
  behind : ∀ t, 28 ≤ t → bufInode v'.toExt2FsInstance g n t = bufInode v.toExt2FsInstance g n t
  others : ∀ j, 1 ≤ j ∧ j ≤ count → j ≠ n →
    bufInode v'.toExt2FsInstance g j = bufInode v.toExt2FsInstance g j
  disk : ∀ p, p < inodeSlot v n ∨ inodeSlot v n + sizeofExt2Inode ≤ p → v'.disk p = v.disk p
  rest : v' = { v with disk := v'.disk }

section

variable {v v' : Ext2Volume} {g : Garbage} {count n : Nat} {stbuf : Stat} {date : Nat}

theorem storeStat_inode (einode : Bytes) (stbuf : Stat) (date : Nat) :
    ext2InodeAt (storeStat einode stbuf date) = (ext2InodeAt einode).withStat stbuf date := by
  unfold ext2InodeAt storeStat Ext2Inode.withStat le16 le32
  simp (disch := omega) [leWord_storeLe_of_ne, leWord_storeLe]

theorem storeStat_behind (einode : Bytes) (stbuf : Stat) (date : Nat) {t : Nat} (ht : 28 ≤ t) :
    storeStat einode stbuf date t = einode t := by
  unfold storeStat
  simp (disch := omega) only [storeLe_of_ne]

theorem bufInode_behind {fs : Ext2FsInstance} (g : Garbage) (inum : Nat) {t : Nat} (ht : sizeofExt2Inode ≤ t) :
    bufInode fs g inum t = g.bufInode t := by
  have hmin : ¬ t < min fs.superblock.sInodeSize 128 := by
    unfold sizeofExt2Inode at ht
    omega
  exact if_neg hmin

/-- The attributes of the inode change, and nothing else. -/
theorem setattrInode_changes (h : InodeGeometry v count) (g : Garbage) (hn : 1 ≤ n ∧ n ≤ count) (hint : n < 2 ^ 31)
    (stbuf : Stat) (date : Nat) : InodeChanged v (setattrInode v g n stbuf date) g count n
      ((readInode v.toExt2FsInstance g n).withStat stbuf date) := by
  have hbuf : bufInode (setattrInode v g n stbuf date).toExt2FsInstance g n =
      storeStat (bufInode v.toExt2FsInstance g n) stbuf date := by
    unfold setattrInode
    rw [h.bufInode_written hn hint]
    funext t
    by_cases ht : t < sizeofExt2Inode
    · exact if_pos ht
    · rw [if_neg ht, storeStat_behind _ _ _ (show 28 ≤ t by unfold sizeofExt2Inode at ht; omega),
        bufInode_behind g n (Nat.not_lt.mp ht)]
  refine ⟨?_, fun t ht => ?_, fun j hj hne => h.bufInode_other hn hint g _ hj hne,
    fun p hp => h.writeInode_disk hn hint _ hp, ?_⟩
  · exact (congrArg ext2InodeAt hbuf).trans (storeStat_inode _ stbuf date)
  · rw [hbuf, storeStat_behind _ _ _ ht]
  · unfold setattrInode
    rw [h.writeInode_slot hn hint]
    rfl

theorem ext2Setattr_eq {attr : FileAttributes} (hmask : attr.mask &&& attrSize = 0) (fuel : Nat) (inode : Inode) :
    ext2Setattr v g fuel inode attr date =
      some (0, setattrInode v g inode.iIno (attr.replace (getattrInode v g inode.iIno)) date, inode) := by
  unfold ext2Setattr
  dsimp only
  rw [if_neg fun hand => hand.1 hmask]
  rfl

/-- Only bytes of the disk change. -/
theorem ext2Setattr_disk {fuel : Nat} {inode inode' : Inode} {attr : FileAttributes} {ret : Int}
    (hcall : ext2Setattr v g fuel inode attr date = some (ret, v', inode')) : ∃ d, v' = { v with disk := d } := by
  have hwrite : ∀ w (inum : Nat), (∃ d, w = { v with disk := d }) →
      ∃ d, setattrInode w g inum (attr.replace (getattrInode v g inode.iIno)) date = { v with disk := d } := by
    rintro w inum ⟨d, rfl⟩
    exact writeInode_volume { v with disk := d } (toInt inum) _
  unfold ext2Setattr at hcall
  dsimp only at hcall
  split_ifs at hcall
  · rw [Option.map_map] at hcall
    obtain ⟨⟨r, w, inode₂⟩, htruncate, hend⟩ := Option.map_eq_some_iff.mp hcall
    obtain ⟨-, hend⟩ := Prod.mk.inj hend
    obtain ⟨rfl, -⟩ := Prod.mk.inj hend
    obtain ⟨-, d, einode, rfl⟩ := ext2Truncate_volume htruncate
    exact hwrite _ _ (writeInode_volume { v with disk := d } _ _)
  · obtain ⟨-, hend⟩ := Prod.mk.inj (Option.some.inj hcall)
    obtain ⟨rfl, -⟩ := Prod.mk.inj hend
    exact hwrite _ _ ⟨v.disk, rfl⟩

/-- A call that returns and had the size to change leaves the new one in the inode. -/
theorem ext2Setattr_size {count fuel : Nat} {inode inode' : Inode} {attr : FileAttributes} {ret : Int}
    (h : InodeGeometry v count) (hn : 1 ≤ inode.iIno ∧ inode.iIno ≤ count)
    (hint : inode.iIno < 2 ^ 31) (hmask : attr.mask &&& attrSize ≠ 0) (hsize : attr.iaSize % 2 ^ 64 ≠ inode.iSize)
    (hcall : ext2Setattr v g fuel inode attr date = some (ret, v', inode')) :
    (readInode v'.toExt2FsInstance g inode.iIno).iSize = (attr.iaSize % 2 ^ 64).toNat % 2 ^ 32 := by
  unfold ext2Setattr at hcall
  dsimp only at hcall
  rw [if_pos ⟨hmask, hsize⟩, Option.map_map] at hcall
  obtain ⟨⟨r, w, inode₂⟩, htruncate, hend⟩ := Option.map_eq_some_iff.mp hcall
  obtain ⟨hino, d, einode, rfl⟩ := ext2Truncate_volume htruncate
  obtain ⟨-, hend⟩ := Prod.mk.inj hend
  obtain ⟨rfl, rfl⟩ := Prod.mk.inj hend
  dsimp only
  rw [hino]
  obtain ⟨d', hd'⟩ := writeInode_volume { v with disk := d } (toInt inode.iIno)
    (setISize einode ((attr.iaSize % 2 ^ 64).toNat % 2 ^ 32))
  have hread := @InodeGeometry.writeInode_size { v with disk := d } g count inode.iIno
    ((attr.iaSize % 2 ^ 64).toNat % 2 ^ 32) (h.disk d) hn hint (Nat.mod_lt _ (by norm_num)) einode
  rw [hd'] at hread ⊢
  have hchanged := setattrInode_changes (h.disk d') g hn hint (attr.replace (getattrInode v g inode.iIno)) date
  rw [hchanged.read]
  exact hread

end

end Desiros.Fs
