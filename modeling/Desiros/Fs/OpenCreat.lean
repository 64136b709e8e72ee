import Desiros.Fs.Attributes
import Desiros.Fs.Mknod

/-!
# Opening a file that is not there (`vfs_open` with `O_CREAT`)

`vfs_open` creates the file with `mknod`, whose result it does not look at: where no inode was free, the inode of the new
dentry is whatever the memory held. Behind the label `ok` it truncates `nb.dentry`, which is the file if the path was
found, and the directory if the file has been created. `vfs_open_creat` says when the file is made and nothing else
changes.
-/

namespace Desiros.Fs

open Desiros.Library

/-! ## The functions -/

def oCreat : UInt32 := 0o100
def oTrunc : UInt32 := 0o1000

structure OpenFileDescriptor where
  flags : UInt32
  /-- Its inode is the one of the descriptor. -/
  dentry : Dentry
  mnt : Option MountedFs
  pathname : List UInt8
  currentOctet : Nat

inductive OpenResult
  | null
  | file (ofd : OpenFileDescriptor)
  /-- A pointer that nobody has set is followed. -/
  | wild

/-- The counts of the inodes that stay in memory are not kept. -/
def dentryOpen (dentry : Dentry) (mnt : Option MountedFs) (flags : UInt32) (pathname : List UInt8) :
    OpenFileDescriptor where
  flags := flags
  dentry := { dentry with dInode := { dentry.dInode with iCount := dentry.dInode.iCount + 1 } }
  mnt := mnt
  pathname := pathname
  currentOctet := 0

section

variable (s : VfsState) (g : Garbage) (fuel : Nat)

def VfsState.withExt2 (i : Nat) (v : Ext2Volume) (root : Dentry) : VfsState :=
  { s with instances := Function.update s.instances i (.ext2 v root) }

/-- `lookup`; a path that ends above the mounted file systems has no other component. -/
def VfsState.lookup (nb : Nameidata Dentry) : Option (Int × Nameidata Dentry) :=
  match nb.mnt with
  | none => some (0, nb)
  | some mnt => Fs.lookup ((s.instances mnt.inst).ops g fuel).lookup nb

/-- The call of `setattr` for `O_TRUNC`, with the inode that it leaves in memory; a root has one dentry for all calls. The
other file systems have no `setattr`. -/
def VfsState.openTrunc (nb : Nameidata Dentry) (flags : UInt32) (attr : FileAttributes) (date : Nat) :
    Option (Inode × VfsState) :=
  if flags &&& oTrunc ≠ 0 then
    match nb.mnt with
    | none => some (nb.dentry.dInode, s)
    | some mnt =>
      match s.instances mnt.inst with
      | .other _ => some (nb.dentry.dInode, s)
      | .ext2 v root =>
        (ext2Setattr v g fuel nb.dentry.dInode { attr with mask := attrSize, iaSize := 0 } date).map
          fun (_, v, inode) => (inode, s.withExt2 mnt.inst v
            (if nb.dentry.dPdentry.isNone then { root with dInode := inode } else root))
  else some (nb.dentry.dInode, s)

/-- The path has been found. -/
def VfsState.openFound (nb : Nameidata Dentry) (pathname : List UInt8) (flags : UInt32) (attr : FileAttributes)
    (date : Nat) : Option (OpenResult × VfsState) :=
  let ofd := dentryOpen nb.dentry nb.mnt flags pathname
  (s.openTrunc g fuel { nb with dentry := ofd.dentry } flags attr date).map fun (inode, s) =>
    (.file { ofd with dentry := { ofd.dentry with dInode := inode } }, s)

/-- The file is created; the other file systems have no `mknod`. -/
def VfsState.openNew (nb : Nameidata Dentry) (pathname : List UInt8) (flags : UInt32) (attr : FileAttributes)
    (cdate date : Nat) : Option (OpenResult × VfsState) :=
  match nb.mnt with
  | none => some (.wild, s)
  | some mnt =>
    match s.instances mnt.inst with
    | .other _ => some (.wild, s)
    | .ext2 v root =>
      match ext2Mknod v g fuel nb.dentry.dInode nb.last 0 cdate with
      | none => none
      | some (_, v, none) => some (.wild, s.withExt2 mnt.inst v root)
      | some (_, v, some inode) =>
        ((s.withExt2 mnt.inst v root).openTrunc g fuel nb flags attr date).map fun (_, s) =>
          (.file (dentryOpen ⟨nb.last, inode, some nb.dentry⟩ nb.mnt flags pathname), s)

/-- `attr` is what the stack holds, `cdate` and `date` are what `get_date` returns. The callbacks `open`, which ext2 does
not have, are left out. -/
def vfsOpen (pathname : List UInt8) (flags : UInt32) (attr : FileAttributes) (cdate date : Nat) :
    Option (OpenResult × VfsState) :=
  match s.openNamei g fuel lookupParent pathname with
  | none => none
  | some (.error _) => some (.null, s)
  | some (.ok nb) =>
    match s.lookup g fuel { nb with parent := false } with
    | none => none
    | some (r, nbLast) =>
      if r = 0 then s.openFound g fuel nbLast pathname flags attr date
      else if flags &&& oCreat ≠ 0 then s.openNew g fuel nb pathname flags attr cdate date
      else some (.null, s)

end

/-! ## The property -/

section

variable (v : Ext2Volume) (g : Garbage) (p : Nat) (blocks : List (List (Nat × DirRecord))) (name : List UInt8)

/-- A disk on which the parent has one more entry, of the name and inode `i`, and the inodes in use are as before. -/
structure CreatDisk (i : Nat) (d : Bytes) : Prop where
  outside : ∀ n, ¬ InodeMeta v (n / v.blockSize) → ¬ IsParentBlock v g p blocks (n / v.blockSize) → d n = v.disk n
  inodes : ∀ j < v.nGroups, ∀ m < v.superblock.sInodesPerGroup, diskInodeBit v j m = true →
    readInode { v.toExt2FsInstance with disk := d } g (inodeNumber v j m) =
      readInode v.toExt2FsInstance g (inodeNumber v j m)
  entry : ∃ blocks', DirHolds { v.toExt2FsInstance with disk := d } (readInode v.toExt2FsInstance g p) blocks' ∧
    EntryAdded blocks blocks' ⟨i, name, ext2FtRegFile⟩

/-- Inode `i` was free and is an empty file, the parent has one more entry, for it, in the same blocks, and the other
inodes are as before. -/
structure CreatLaw (v' : Ext2Volume) (i : Nat) : Prop where
  parent : (readInode v'.toExt2FsInstance g p).iSize = (readInode v.toExt2FsInstance g p).iSize ∧
    ∀ n < blocks.length, formatBlock v'.toExt2FsInstance (readInode v'.toExt2FsInstance g p) n = parentBlock v g p n
  entry : ∃ blocks', DirHolds v'.toExt2FsInstance (readInode v'.toExt2FsInstance g p) blocks' ∧
    (∀ rs ∈ blocks', ∀ x ∈ rs, 4 ∣ x.1) ∧
    (blocks'.flatten.map Prod.snd).Perm (⟨i, name, ext2FtRegFile⟩ :: blocks.flatten.map Prod.snd)
  inode : ∃ j < v.nGroups, ∃ m < v.superblock.sInodesPerGroup, i = inodeNumber v j m ∧ diskInodeBit v j m = false ∧
    diskInodeBit v' j m = true
  empty : (readInode v'.toExt2FsInstance g i).iSize = 0
  others : ∀ j < v.nGroups, ∀ m < v.superblock.sInodesPerGroup, inodeNumber v j m ≠ i →
    (inodeNumber v j m ≠ p → readInode v'.toExt2FsInstance g (inodeNumber v j m) =
      readInode v.toExt2FsInstance g (inodeNumber v j m)) ∧ diskInodeBit v' j m = diskInodeBit v j m

end

section

variable (s : VfsState) (g : Garbage) (pathname : List UInt8) (mnt : MountedFs) (v : Ext2Volume) (root : Dentry)
  (nb : Nameidata Dentry) (blocks : List (List (Nat × DirRecord)))

/-- A path on a mounted ext2 file system: its parent is the directory `nb.dentry`, in which no entry in use has the name
`nb.last`. What changes where a file is created there is not what `open_namei` finds the directory by. -/
structure CreatPath : Prop where
  volume : s.instances mnt.inst = .ext2 v root
  mounted : nb.mnt = some mnt
  tables : InodeTables v
  parent : ∃ N, ∀ fuel ≥ N, s.openNamei g fuel lookupParent pathname = some (.ok nb)
  directory : MknodParent v g nb.dentry.dInode.iIno blocks
  component : nb.last ≠ [] ∧ 0 ∉ nb.last
  absent : ∀ rs ∈ blocks, ∀ x ∈ rs, x.2.inode ≠ 0 → cString x.2.name ≠ nb.last
  stable : ∀ i d, CreatDisk v g nb.dentry.dInode.iIno blocks nb.last i d → ∃ N, ∀ fuel ≥ N,
    (s.withExt2 mnt.inst { v with disk := d } root).openNamei g fuel lookupParent pathname = some (.ok nb)

variable (flags : UInt32) (attr : FileAttributes) (cdate date : Nat)

/-- `vfs_open` returns: `NULL`, and nothing has changed, or a descriptor on a new empty file, to which the path leads. -/
def CreatRight : Prop :=
  ∃ result s', (∃ N, ∀ fuel ≥ N, vfsOpen s g fuel pathname flags attr cdate date = some (result, s')) ∧
    (result = .null ∧ s' = s ∨ ∃ ofd v' root', result = .file ofd ∧ s' = s.withExt2 mnt.inst v' root' ∧
      ofd.flags = flags ∧ ofd.mnt = some mnt ∧ ofd.pathname = pathname ∧ ofd.currentOctet = 0 ∧
      ofd.dentry.dInode.iSize = 0 ∧ CreatLaw v g nb.dentry.dInode.iIno blocks nb.last v' ofd.dentry.dInode.iIno ∧
      s'.ResolvesTo g 0 pathname (some mnt.inst) ofd.dentry.dInode.iIno)

/-- The file is not to be truncated, `ext2_lookup` does not find the name, there is a free inode with a number below 2³¹,
the last record of the first block has room, and no unused one in this block has the name. -/
structure CreatFits : Prop where
  noTrunc : flags &&& oTrunc = 0
  notFound : ∃ N, ∀ fuel ≥ N, ext2Lookup v.toExt2FsInstance g fuel nb.dentry nb.last = some none
  node : MknodFits v g nb.dentry.dInode.iIno blocks nb.last 0
  number : ∀ i k, NextInode v i k → inodeNumber v i k < 2 ^ 31
  fresh : ∀ rs rest, blocks = rs :: rest → ∀ x ∈ rs, x.2.inode = 0 → cString x.2.name ≠ nb.last

/-- The first block of the parent lies below 4 GiB, its inode in memory has the size of that on the disk, and the new
inode, if there is one, is written where it is read; a name that is found is not truncated. -/
structure CreatKind : Prop where
  low : parentBlock v g nb.dentry.dInode.iIno 0 * v.blockSize < 2 ^ 32
  size : nb.dentry.dInode.iSize = (readInode v.toExt2FsInstance g nb.dentry.dInode.iIno).iSize
  number : nb.dentry.dInode.iIno < 2 ^ 31
  inode : (∃ i k, NextSlot v i k) ∨ ∀ i k, ¬ NextInode v i k
  found : flags &&& oTrunc ≠ 0 → ∃ N, ∀ fuel ≥ N, ext2Lookup v.toExt2FsInstance g fuel nb.dentry nb.last = some none

end

/-! ## Looking a record up -/

section

variable {m : Bytes} {p stop : Nat} {rs : List (Nat × DirRecord)} {name : List UInt8}

theorem RecordsAt.inode_lt (h : RecordsAt m p stop rs) {x : Nat × DirRecord} (hx : x ∈ rs) : x.2.inode < 2 ^ 32 := by
  induction rs generalizing p with
  | nil => exact absurd hx List.not_mem_nil
  | cons y rs ih =>
    obtain ⟨-, hrecord, -, hrest⟩ := h
    rcases List.mem_cons.mp hx with rfl | hin
    · rw [← hrecord]
      exact le32_lt m p
    · exact ih hrest hin

/-- The positions of records. -/
theorem RecordsAt.chain (h : RecordsAt m p stop rs) : ∃ ps, Chain (fun q => (dirAt m q).recLen) p stop ps ∧
    (∀ q ∈ ps, 8 + (dirAt m q).nameLen ≤ (dirAt m q).recLen) ∧
    ps.map (fun q => (dirAt m q).entry) = rs.map fun x => ⟨x.2.inode, x.2.name⟩ := by
  induction rs generalizing p with
  | nil =>
    obtain rfl : p = stop := h
    exact ⟨[], Chain.nil p, by simp, rfl⟩
  | cons x rs ih =>
    obtain ⟨hlen, hrecord, hfits, hrest⟩ := h
    obtain ⟨ps, hchain, hfit, hmap⟩ := ih hrest
    have hname := record_name_length m p
    rw [hrecord] at hname
    refine ⟨p :: ps, Chain.cons ?_ ?_, fun q hq => ?_, ?_⟩
    · show 0 < (dirAt m p).recLen
      omega
    · show Chain _ (p + (dirAt m p).recLen) stop ps
      rw [hlen]
      exact hchain
    · rcases List.mem_cons.mp hq with rfl | hin
      · omega
      · exact hfit q hin
    · rw [List.map_cons, List.map_cons, hmap, ← hrecord]
      rfl

/-- The first record of a name. -/
def recordOf (name : List UInt8) (rs : List (Nat × DirRecord)) : Option DirRecord :=
  (rs.map Prod.snd).find? fun r => cString r.name = name

/-- The lookup of a name that the first block of a directory has. -/
theorem DirHolds.lookup_first {fs : Ext2FsInstance} {g : Garbage} {dentry : Dentry}
    {rest : List (List (Nat × DirRecord))} {r : DirRecord} (hbs : 0 < fs.blockSize)
    (h : DirHolds fs (readInode fs g dentry.dInode.iIno) (rs :: rest))
    (hlow : (readInode fs g dentry.dInode.iIno).iBlock 0 * fs.blockSize < 2 ^ 32) (hfind : recordOf name rs = some r) :
    ∃ N, ∀ fuel ≥ N, ext2Lookup fs g fuel dentry name = some (foundDentry fs g dentry name r.inode) := by
  have hrecords := h.block 0 (Nat.succ_pos _)
  have hmoved : RecordsAt (formatData fs (readInode fs g dentry.dInode.iIno) 0) 0 fs.blockSize rs := by
    refine hrecords.shift (by omega) fun i hi => ?_
    rw [Nat.zero_add]
    rfl
  obtain ⟨ps, hchain, hfit, hmap⟩ := hmoved.chain
  have hfound : (ps.map fun q => (dirAt (formatData fs (readInode fs g dentry.dInode.iIno) 0) q).entry).find?
      (named name) = some ⟨r.inode, r.name⟩ := by
    have hcomp : rs.map (fun x => (⟨x.2.inode, x.2.name⟩ : DirEntry)) =
        (rs.map Prod.snd).map fun r => ⟨r.inode, r.name⟩ := by rw [List.map_map]; rfl
    rw [hmap, hcomp, List.find?_map]
    exact congrArg (Option.map fun r : DirRecord => (⟨r.inode, r.name⟩ : DirEntry)) hfind
  have hps : ps ≠ [] := by
    rintro rfl
    cases hfound
  have hnamed : named name ⟨r.inode, r.name⟩ = true := List.find?_some hfound
  have hlt : r.inode < 2 ^ 32 := by
    obtain ⟨x, hx, rfl⟩ := List.mem_map.mp (List.mem_of_find?_eq_some hfind)
    exact hrecords.inode_lt hx
  refine ⟨ps.length, fun fuel hfuel => ?_⟩
  obtain ⟨d, rfl⟩ := Nat.exists_eq_add_of_le hfuel
  have hbuffer : ∀ i < fs.blockSize, readData fs g (getDataBlock fs g (readInode fs g dentry.dInode.iIno) (0 : Nat)) i =
      formatData fs (readInode fs g dentry.dInode.iIno) 0 i :=
    fun i hi => readData_direct ⟨by decide, hlow⟩ h.size hbs (Nat.succ_pos _) hi
  have hscan := @findDirEntryLoop_block fs g (readInode fs g dentry.dInode.iIno) name _ _ 0 (rest.length + 1) h.size
    (readInode_size_lt fs g _) (Nat.succ_pos _) hbuffer d ps 0 hps hchain hfit
  rw [hfound, Nat.zero_mul] at hscan
  exact ext2Lookup_found (e := ⟨r.inode, r.name⟩) hscan hnamed hlt

/-- Behind the records of the first block there is a new one. -/
theorem EntryAdded.first {blocks blocks' : List (List (Nat × DirRecord))} {new : DirRecord}
    (h : EntryAdded blocks blocks' new) : ∃ rs rs' rest, blocks = rs :: rest ∧ blocks' = rs' :: rest ∧
      rs'.map Prod.snd = rs.map Prod.snd ++ [new] := by
  obtain ⟨init, len, r, rest, rfl, rfl⟩ := h
  exact ⟨_, _, rest, rfl, rfl, by simp⟩

end

/-! ## The file created -/

section

variable {v : Ext2Volume} {g : Garbage} {i k : Nat} {blocks : List (List (Nat × DirRecord))} {name : List UInt8}
  {dir : Inode}

/-- `mknod` where the file fits. -/
theorem MknodParent.created (h : InodeTables v) (hp : MknodParent v g dir.iIno blocks) (hslot : NextSlot v i k)
    (hfits : MknodFits v g dir.iIno blocks name 0) (cdate : Nat) : ∃ v' N,
      (∀ fuel ≥ N, ext2Mknod v g fuel dir name 0 cdate = some (0, v', some (ext2inode2Inode (inodeNumber v i k)
        (readInode v'.toExt2FsInstance g (inodeNumber v i k))))) ∧
      v'.toExt2FsInstance = { v.toExt2FsInstance with disk := v'.disk } ∧
      CreatDisk v g dir.iIno blocks name (inodeNumber v i k) v'.disk ∧
      CreatLaw v g dir.iIno blocks name v' (inodeNumber v i k) := by
  have hi := hslot.1.group.1
  have hk := hslot.1.bit.1
  obtain ⟨hwrite, hbitmap⟩ := hslot.positions h
  have hnew := h.newInode hslot.1 hwrite hbitmap (newExt2Inode 0 cdate) g
  have hfs := allocInode_fs hslot.1 (newExt2Inode 0 cdate)
  have hframe := allocInode_next hslot.1 (newExt2Inode 0 cdate)
  have houtside := fun n => @InodeTables.allocInode_outside v i k n h hslot (newExt2Inode 0 cdate)
  obtain ⟨hnumber, hne⟩ := hslot.allocInode_fst h (newExt2Inode 0 cdate)
  obtain ⟨d, blocks', ⟨N, hrun⟩, hkept, hholds, hadded⟩ :=
    hp.entered h hslot (newExt2Inode 0 cdate) hfits.length (mknodType_lt 0) hfits.room
  have hcall := fun fuel => mknodInode_eq v g fuel dir.iIno name 0 cdate
  generalize allocInode v (newExt2Inode 0 cdate) = r at *
  obtain ⟨ino, v₁⟩ := r
  dsimp only at *
  have hkeep := @InodeTables.inodes_kept v h g v₁ (v₁.withFs { v.toExt2FsInstance with disk := d }) hfs rfl
    ⟨hframe.2.2.2.1, hframe.2.2.2.1⟩ fun n hn => hp.kept_meta hkept hn
  have hothers : ∀ j < v.nGroups, ∀ m < v.superblock.sInodesPerGroup, (j, m) ≠ (i, k) →
      readInode { v.toExt2FsInstance with disk := d } g (inodeNumber v j m) =
          readInode v.toExt2FsInstance g (inodeNumber v j m) ∧
        diskInodeBit (v₁.withFs { v.toExt2FsInstance with disk := d }) j m = diskInodeBit v j m :=
    fun j hj m hm hother => ⟨(hkeep j hj m hm).1.trans (hnew.others j hj m hm hother).1,
      (hkeep j hj m hm).2.trans (hnew.others j hj m hm hother).2.1⟩
  have hparent : readInode { v.toExt2FsInstance with disk := d } g dir.iIno =
      readInode v.toExt2FsInstance g dir.iIno := by
    obtain ⟨j, hj, m, hm, heq, -⟩ := hp.inode
    have hread := hp.read_new hnew
    rw [heq] at hread ⊢
    exact (hkeep j hj m hm).1.trans hread
  refine ⟨v₁.withFs { v.toExt2FsInstance with disk := d }, N, fun fuel hfuel => ?_, rfl,
    ⟨fun n hmeta hblock => ?_, fun j hj m hm hused => ?_, blocks', hholds, hadded⟩,
    ⟨⟨congrArg Ext2Inode.iSize hparent, fun n hn => ?_⟩,
      ⟨blocks', ?_, hadded.aligned hp.aligned, hadded.perm⟩, ⟨i, hi, k, hk, rfl, hnew.clear.1, ?_⟩, ?_,
      fun j hj m hm hother => ?_⟩⟩
  · unfold ext2Mknod
    rw [hcall, hrun fuel hfuel, Option.map_some, Option.map_some, if_neg (by decide)]
    dsimp only
    rw [if_neg hne, hnumber]
  · exact (hkept n hblock).trans (houtside n hmeta)
  · refine (hothers j hj m hm ?_).1
    rintro heq
    obtain ⟨rfl, rfl⟩ := Prod.mk.inj heq
    rw [hnew.clear.1] at hused
    cases hused
  · show formatBlock { v.toExt2FsInstance with disk := d } (readInode { v.toExt2FsInstance with disk := d } g dir.iIno)
      n = _
    rw [hparent]
    refine hp.pointers d (fun n hn => ?_) n hn
    rw [not_or] at hn
    exact (hkept n hn.2).trans (houtside n hn.1)
  · show DirHolds { v.toExt2FsInstance with disk := d } (readInode { v.toExt2FsInstance with disk := d } g dir.iIno) _
    rw [hparent]
    exact hholds
  · exact (hkeep i hi k hk).2.trans hnew.set.1
  · refine (congrArg Ext2Inode.iSize ((hkeep i hi k hk).1.trans hnew.read)).trans ?_
    exact newExt2Inode_size g 0 cdate
  · have hpair : (j, m) ≠ (i, k) := by
      intro heq
      obtain ⟨rfl, rfl⟩ := Prod.mk.inj heq
      exact hother rfl
    exact ⟨fun _ => (hothers j hj m hm hpair).1, (hothers j hj m hm hpair).2⟩

end

/-! ## Where the path leads -/

section

variable {s : VfsState} {g : Garbage} {fuel : Nat} {pathname : List UInt8} {mnt : MountedFs} {v w : Ext2Volume}
  {root : Dentry} {nb : Nameidata Dentry} {blocks : List (List (Nat × DirRecord))}

@[simp] theorem VfsState.withExt2_instances (s : VfsState) (i : Nat) (v : Ext2Volume) (root : Dentry) :
    (s.withExt2 i v root).instances i = .ext2 v root := Function.update_self _ _ _

/-- The instance of an ext2 volume has the callbacks of what `lookup` reads. -/
theorem VfsState.withExt2_openNamei (hfs : v.toExt2FsInstance = w.toExt2FsInstance) (i : Nat) (flags : UInt32) :
    (s.withExt2 i v root).openNamei g fuel flags pathname = (s.withExt2 i w root).openNamei g fuel flags pathname := by
  have hops : (fun j => ((s.withExt2 i v root).instances j).ops g fuel) =
      fun j => ((s.withExt2 i w root).instances j).ops g fuel := by
    funext j
    by_cases hj : j = i
    · rw [hj, VfsState.withExt2_instances, VfsState.withExt2_instances]
      show (⟨root, ext2Lookup v.toExt2FsInstance g fuel⟩ : FsOps Dentry) =
        ⟨root, ext2Lookup w.toExt2FsInstance g fuel⟩
      rw [hfs]
    · unfold VfsState.withExt2
      dsimp only
      rw [Function.update_of_ne hj, Function.update_of_ne hj]
  unfold VfsState.openNamei
  rw [hops]
  rfl

/-- The path is what its last component is in the directory. -/
theorem VfsState.openNamei_ext2 (hnb : s.openNamei g fuel lookupParent pathname = some (.ok nb))
    (hmnt : nb.mnt = some mnt) (hinst : s.instances mnt.inst = .ext2 v root) (hlast : nb.last ≠ []) :
    s.lookup g fuel { nb with parent := false } =
        lookupLast (ext2Lookup v.toExt2FsInstance g fuel) { nb with parent := false } ∧
      s.openNamei g fuel 0 pathname = (lookupLast (ext2Lookup v.toExt2FsInstance g fuel)
        { nb with parent := false }).map fun r => if r.1 = 0 then .ok r.2 else .error r.1 := by
  unfold VfsState.openNamei at hnb ⊢
  rw [decide_eq_true (by decide)] at hnb
  rw [decide_eq_false (by decide)]
  obtain ⟨hcomponent, hwhole⟩ := openNamei_last hnb hmnt hlast
  rw [hinst] at hwhole
  refine ⟨?_, hwhole⟩
  unfold VfsState.lookup
  dsimp only
  rw [hmnt]
  dsimp only
  rw [hinst]
  exact lookup_component rfl hcomponent

/-- After the creation the path leads to the first record of the name in the first block, which is the new one unless an
old one has the name. -/
theorem CreatPath.leads (h : CreatPath s g pathname mnt v root nb blocks) {i ino : Nat}
    (hfs : w.toExt2FsInstance = { v.toExt2FsInstance with disk := w.disk })
    (hdisk : CreatDisk v g nb.dentry.dInode.iIno blocks nb.last i w.disk)
    (hlow : parentBlock v g nb.dentry.dInode.iIno 0 * v.blockSize < 2 ^ 32) : ∃ rs rest, blocks = rs :: rest ∧
    ((s.withExt2 mnt.inst w root).ResolvesTo g 0 pathname (some mnt.inst) ino ↔
      let r := (recordOf nb.last rs).getD ⟨i, nb.last, ext2FtRegFile⟩
      0 < r.inode ∧ r.inode < 2 ^ 31 ∧ r.inode = ino) := by
  obtain ⟨blocks', hholds, hadded⟩ := hdisk.entry
  obtain ⟨rs, rs', rest, rfl, rfl, hrecords⟩ := hadded.first
  refine ⟨rs, rest, rfl, ?_⟩
  have hfound : recordOf nb.last rs' = some ((recordOf nb.last rs).getD ⟨i, nb.last, ext2FtRegFile⟩) := by
    unfold recordOf
    rw [hrecords, List.find?_append, List.find?_cons_of_pos (by simp [cString_of_not_mem h.component.2])]
    cases (rs.map Prod.snd).find? fun r => cString r.name = nb.last <;> rfl
  have hread : readInode w.toExt2FsInstance g nb.dentry.dInode.iIno =
      readInode v.toExt2FsInstance g nb.dentry.dInode.iIno := by
    obtain ⟨j, hj, m, hm, heq, hused⟩ := h.directory.inode
    rw [hfs, heq]
    exact hdisk.inodes j hj m hm hused
  have hbs : w.blockSize = v.blockSize := by
    rw [hfs]
    rfl
  rw [← hfs, ← hread] at hholds
  obtain ⟨N, hlook⟩ := hholds.lookup_first (by rw [hbs]; exact h.tables.blockSize_pos)
    (by rw [hread, hbs]; exact hlow) hfound
  obtain ⟨N', hstable⟩ := h.stable i w.disk hdisk
  have hopen : ∀ fuel ≥ max N N', (s.withExt2 mnt.inst w root).openNamei g fuel 0 pathname =
      (lookupLast (fun _ _ => some (foundDentry w.toExt2FsInstance g nb.dentry nb.last
        ((recordOf nb.last rs).getD ⟨i, nb.last, ext2FtRegFile⟩).inode)) { nb with parent := false }).map
          fun r => if r.1 = 0 then .ok r.2 else .error r.1 := by
    intro fuel hfuel
    have hparent := hstable fuel (le_trans (Nat.le_max_right _ _) hfuel)
    have hsame := @VfsState.withExt2_openNamei s g fuel pathname { v with disk := w.disk } w root hfs.symm mnt.inst
      lookupParent
    rw [hsame] at hparent
    have hwhole := (VfsState.openNamei_ext2 hparent h.mounted (VfsState.withExt2_instances s mnt.inst w root)
      h.component.1).2
    unfold lookupLast at hwhole ⊢
    dsimp only at hwhole ⊢
    rw [hlook fuel (le_trans (Nat.le_max_left _ _) hfuel)] at hwhole
    exact hwhole
  rw [← @foundDentry_iff w.toExt2FsInstance g nb.last nb.dentry]
  constructor
  · rintro ⟨N'', hres⟩
    obtain ⟨nb', hnb', -, hino⟩ := hres (max (max N N') N'') (Nat.le_max_right _ _)
    rw [hopen _ (Nat.le_max_left _ _)] at hnb'
    unfold lookupLast at hnb'
    cases hfind : foundDentry w.toExt2FsInstance g nb.dentry nb.last
        ((recordOf nb.last rs).getD ⟨i, nb.last, ext2FtRegFile⟩).inode with
    | none =>
      rw [hfind] at hnb'
      cases hnb'
    | some d =>
      rw [hfind] at hnb'
      cases hnb'
      exact ⟨d, rfl, hino⟩
  · rintro ⟨d, hd, hino⟩
    refine ⟨max N N', fun fuel hfuel => ⟨{ nb with parent := false, last := [], dentry := d }, ?_, ?_, hino⟩⟩
    · rw [hopen fuel hfuel, hd]
      rfl
    · show nb.mnt.map _ = _
      rw [h.mounted]
      rfl

end

/-! ## The call -/

section

variable {s s' : VfsState} {g : Garbage} {fuel : Nat} {pathname : List UInt8} {mnt : MountedFs} {v v' : Ext2Volume}
  {root root' : Dentry} {nb : Nameidata Dentry} {blocks : List (List (Nat × DirRecord))} {flags : UInt32}
  {attr : FileAttributes} {cdate date : Nat} {result : OpenResult}

theorem VfsState.withExt2_inj {t : VfsState} {i : Nat} (h : s.withExt2 i v root = t.withExt2 i v' root') :
    v = v' ∧ root = root' := by
  have hinst : (s.withExt2 i v root).instances i = (t.withExt2 i v' root').instances i := by rw [h]
  rw [VfsState.withExt2_instances, VfsState.withExt2_instances] at hinst
  exact VfsInstance.ext2.inj hinst

theorem CreatPath.vfsOpen_eq (h : CreatPath s g pathname mnt v root nb blocks) (hcreat : flags &&& oCreat ≠ 0)
    (hnb : s.openNamei g fuel lookupParent pathname = some (.ok nb)) :
    vfsOpen s g fuel pathname flags attr cdate date =
      match ext2Lookup v.toExt2FsInstance g fuel nb.dentry nb.last with
      | none => none
      | some none => s.openNew g fuel nb pathname flags attr cdate date
      | some (some d) =>
        s.openFound g fuel { nb with parent := false, last := [], dentry := d } pathname flags attr date := by
  unfold vfsOpen
  rw [hnb]
  dsimp only
  rw [(VfsState.openNamei_ext2 hnb h.mounted h.volume h.component.1).1]
  unfold lookupLast
  dsimp only
  cases ext2Lookup v.toExt2FsInstance g fuel nb.dentry nb.last with
  | none => rfl
  | some found =>
    cases found with
    | none =>
      dsimp only
      rw [if_neg (by decide), if_pos hcreat]
    | some d => rfl

theorem CreatPath.openNew_eq (h : CreatPath s g pathname mnt v root nb blocks) :
    s.openNew g fuel nb pathname flags attr cdate date =
      match ext2Mknod v g fuel nb.dentry.dInode nb.last 0 cdate with
      | none => none
      | some (_, w, none) => some (.wild, s.withExt2 mnt.inst w root)
      | some (_, w, some inode) => ((s.withExt2 mnt.inst w root).openTrunc g fuel nb flags attr date).map fun (_, s) =>
          (.file (dentryOpen ⟨nb.last, inode, some nb.dentry⟩ (some mnt) flags pathname), s) := by
  unfold VfsState.openNew
  rw [h.mounted]
  dsimp only
  rw [h.volume]

theorem VfsState.openTrunc_without (hflag : flags &&& oTrunc = 0) :
    s.openTrunc g fuel nb flags attr date = some (nb.dentry.dInode, s) := by
  unfold VfsState.openTrunc
  rw [if_neg (not_not.mpr hflag)]

/-- Without `O_TRUNC`, what is found is opened as it is. -/
theorem VfsState.openFound_without (hflag : flags &&& oTrunc = 0)
    (hcall : s.openFound g fuel nb pathname flags attr date = some (result, s')) :
    s' = s ∧ ∃ ofd, result = .file ofd := by
  unfold VfsState.openFound at hcall
  dsimp only at hcall
  rw [VfsState.openTrunc_without hflag] at hcall
  obtain ⟨rfl, rfl⟩ := Prod.mk.inj (Option.some.inj hcall)
  exact ⟨rfl, _, rfl⟩

/-- The name is that of the new record only. -/
theorem CreatPath.recordOf_eq_none (h : CreatPath s g pathname mnt v root nb blocks) {rs : List (Nat × DirRecord)}
    {rest : List (List (Nat × DirRecord))} (hblocks : blocks = rs :: rest) :
    recordOf nb.last rs = none ↔ ∀ x ∈ rs, x.2.inode = 0 → cString x.2.name ≠ nb.last := by
  unfold recordOf
  rw [List.find?_eq_none]
  constructor
  · intro hnone x hx _ heq
    exact hnone x.2 (List.mem_map_of_mem hx) (decide_eq_true heq)
  · intro hfresh r hr heq
    obtain ⟨x, hx, rfl⟩ := List.mem_map.mp hr
    by_cases hused : x.2.inode = 0
    · exact hfresh x hx hused (of_decide_eq_true heq)
    · exact h.absent rs (hblocks ▸ List.mem_cons_self) x hx hused (of_decide_eq_true heq)

/-- Where the file fits, it is made and opened. -/
theorem creatRight_of_fits (h : CreatPath s g pathname mnt v root nb blocks) (hcreat : flags &&& oCreat ≠ 0)
    (hfits : CreatFits g v nb blocks flags) :
    CreatRight s g pathname mnt v nb blocks flags attr cdate date := by
  obtain ⟨i, k, hslot⟩ := hfits.node.next
  obtain ⟨v', N, hrun, hfs, hdisk, hlaw⟩ := h.directory.created h.tables hslot hfits.node cdate
  obtain ⟨N₁, hparent⟩ := h.parent
  obtain ⟨N₂, hlook⟩ := hfits.notFound
  obtain ⟨rs, rest, hblocks, hleads⟩ := @CreatPath.leads s g pathname mnt v v' root nb blocks h (inodeNumber v i k)
    (inodeNumber v i k) hfs hdisk hfits.node.room.low
  have hnew : recordOf nb.last rs = none := (h.recordOf_eq_none hblocks).mpr (hfits.fresh rs rest hblocks)
  refine ⟨_, _, ⟨max N (max N₁ N₂), fun fuel hfuel => ?_⟩, .inr ⟨dentryOpen ⟨nb.last, ext2inode2Inode (inodeNumber v i k)
    (readInode v'.toExt2FsInstance g (inodeNumber v i k)), some nb.dentry⟩ (some mnt) flags pathname, v', root, rfl, rfl,
    rfl, rfl, rfl, rfl, hlaw.empty, hlaw, ?_⟩⟩
  · have hN : N ≤ fuel := le_trans (Nat.le_max_left _ _) hfuel
    have hN₁ : N₁ ≤ fuel := le_trans (le_trans (Nat.le_max_left _ _) (Nat.le_max_right _ _)) hfuel
    have hN₂ : N₂ ≤ fuel := le_trans (le_trans (Nat.le_max_right _ _) (Nat.le_max_right _ _)) hfuel
    rw [h.vfsOpen_eq hcreat (hparent fuel hN₁), hlook fuel hN₂]
    dsimp only
    rw [h.openNew_eq, hrun fuel hN]
    dsimp only
    rw [VfsState.openTrunc_without hfits.noTrunc]
    rfl
  · apply hleads.mpr
    rw [hnew]
    exact ⟨Nat.succ_pos _, hfits.number i k hslot.1, rfl⟩

end

/-! ## What goes wrong -/

section

variable {s s' : VfsState} {g : Garbage} {fuel : Nat} {pathname : List UInt8} {mnt : MountedFs} {v v' w : Ext2Volume}
  {root root' : Dentry} {nb : Nameidata Dentry} {blocks : List (List (Nat × DirRecord))} {flags : UInt32}
  {attr : FileAttributes} {cdate date p i : Nat} {result : OpenResult} {name : List UInt8}

/-- A volume in which nothing has been created. -/
theorem CreatLaw.changed : ¬ CreatLaw v g p blocks name v i := by
  intro hlaw
  obtain ⟨j, -, m, -, -, hclear, hset⟩ := hlaw.inode
  rw [hclear] at hset
  cases hset

/-- A directory with an entry is not empty. -/
theorem CreatLaw.size_ne (h : CreatLaw v g p blocks name v' i) (hbs : 0 < v'.blockSize) :
    (readInode v.toExt2FsInstance g p).iSize ≠ 0 := by
  obtain ⟨blocks', hholds, -, hperm⟩ := h.entry
  intro hzero
  have hsize := hholds.size
  rw [h.parent.1, hzero] at hsize
  have hnone : blocks'.length = 0 := (Nat.mul_eq_zero.mp hsize.symm).resolve_right (Nat.ne_of_gt hbs)
  rw [List.length_eq_zero_iff.mp hnone] at hperm
  exact List.not_perm_nil_cons _ _ hperm

theorem CreatPath.openNew_cases (h : CreatPath s g pathname mnt v root nb blocks)
    (hcall : s.openNew g fuel nb pathname flags attr cdate date = some (result, s')) : result = .wild ∨
    ∃ ret w inode x, ext2Mknod v g fuel nb.dentry.dInode nb.last 0 cdate = some (ret, w, some inode) ∧
      (s.withExt2 mnt.inst w root).openTrunc g fuel nb flags attr date = some (x, s') ∧
      result = .file (dentryOpen ⟨nb.last, inode, some nb.dentry⟩ (some mnt) flags pathname) := by
  rw [h.openNew_eq] at hcall
  cases hmknod : ext2Mknod v g fuel nb.dentry.dInode nb.last 0 cdate with
  | none =>
    rw [hmknod] at hcall
    cases hcall
  | some r =>
    obtain ⟨ret, w, d⟩ := r
    rw [hmknod] at hcall
    cases d with
    | none =>
      obtain ⟨rfl, -⟩ := Prod.mk.inj (Option.some.inj hcall)
      exact .inl rfl
    | some inode =>
      obtain ⟨⟨x, t⟩, htrunc, heq⟩ := Option.map_eq_some_iff.mp hcall
      obtain ⟨rfl, rfl⟩ := Prod.mk.inj heq
      exact .inr ⟨ret, w, inode, x, rfl, htrunc, rfl⟩

theorem VfsState.openTrunc_ext2 {x : Inode} (hflag : flags &&& oTrunc ≠ 0) (hmnt : nb.mnt = some mnt)
    (hinst : s.instances mnt.inst = .ext2 w root)
    (hcall : s.openTrunc g fuel nb flags attr date = some (x, s')) : ∃ ret w' root',
      ext2Setattr w g fuel nb.dentry.dInode { attr with mask := attrSize, iaSize := 0 } date = some (ret, w', x) ∧
      s' = s.withExt2 mnt.inst w' root' := by
  unfold VfsState.openTrunc at hcall
  rw [if_pos hflag, hmnt] at hcall
  dsimp only at hcall
  rw [hinst] at hcall
  obtain ⟨⟨ret, w', inode⟩, hset, heq⟩ := Option.map_eq_some_iff.mp hcall
  obtain ⟨rfl, rfl⟩ := Prod.mk.inj heq
  exact ⟨ret, w', _, hset, rfl⟩

/-- A call that is right has not found the name, and has come to a descriptor on a new file. -/
theorem CreatRight.new (h : CreatPath s g pathname mnt v root nb blocks) (hcreat : flags &&& oCreat ≠ 0)
    (hkind : CreatKind g v nb flags) (hright : CreatRight s g pathname mnt v nb blocks flags attr cdate date) :
    ∃ N ofd w root', (∀ fuel ≥ N, ext2Lookup v.toExt2FsInstance g fuel nb.dentry nb.last = some none ∧
        s.openNew g fuel nb pathname flags attr cdate date = some (.file ofd, s.withExt2 mnt.inst w root')) ∧
      CreatLaw v g nb.dentry.dInode.iIno blocks nb.last w ofd.dentry.dInode.iIno ∧
      (s.withExt2 mnt.inst w root').ResolvesTo g 0 pathname (some mnt.inst) ofd.dentry.dInode.iIno := by
  obtain ⟨result, s', ⟨N, hrun⟩, hcase⟩ := hright
  obtain ⟨N₁, hparent⟩ := h.parent
  have hcall : ∀ fuel ≥ max N N₁, _ = some (result, s') := fun fuel hfuel =>
    (h.vfsOpen_eq hcreat (hparent fuel (le_trans (Nat.le_max_right _ _) hfuel))).symm.trans
      (hrun fuel (le_trans (Nat.le_max_left _ _) hfuel))
  obtain ⟨N₂, hlook⟩ : ∃ N₂, ∀ fuel ≥ N₂, ext2Lookup v.toExt2FsInstance g fuel nb.dentry nb.last = some none := by
    by_cases hflag : flags &&& oTrunc = 0
    · refine ⟨max N N₁, fun fuel hfuel => ?_⟩
      have hturn := hcall fuel hfuel
      cases hfound : ext2Lookup v.toExt2FsInstance g fuel nb.dentry nb.last with
      | none =>
        rw [hfound] at hturn
        cases hturn
      | some found =>
        cases found with
        | none => rfl
        | some d =>
          -- A file that was there already is not a new one.
          rw [hfound] at hturn
          obtain ⟨hsame, ofd, rfl⟩ := VfsState.openFound_without hflag hturn
          rcases hcase with ⟨hnull, -⟩ | ⟨ofd', w, root', -, hs', -, -, -, -, -, hlaw, -⟩
          · cases hnull
          · have hinst : s.instances mnt.inst = .ext2 w root' :=
              (congrArg (fun t : VfsState => t.instances mnt.inst) (hsame.symm.trans hs')).trans
                (VfsState.withExt2_instances s mnt.inst w root')
            obtain ⟨rfl, -⟩ := VfsInstance.ext2.inj (h.volume.symm.trans hinst)
            exact (hlaw.changed).elim
    · exact hkind.found hflag
  have hnew : ∀ fuel ≥ max (max N N₁) N₂, s.openNew g fuel nb pathname flags attr cdate date = some (result, s') := by
    intro fuel hfuel
    have hturn := hcall fuel (le_trans (Nat.le_max_left _ _) hfuel)
    rw [hlook fuel (le_trans (Nat.le_max_right _ _) hfuel)] at hturn
    exact hturn
  rcases hcase with ⟨rfl, -⟩ | ⟨ofd, w, root', rfl, rfl, -, -, -, -, -, hlaw, hres⟩
  · rcases h.openNew_cases (hnew _ le_rfl) with hwild | ⟨_, _, _, _, -, -, hfile⟩
    · cases hwild
    · cases hfile
  · exact ⟨_, ofd, w, root', fun fuel hfuel => ⟨hlook fuel (le_trans (Nat.le_max_right _ _) hfuel), hnew fuel hfuel⟩,
      hlaw, hres⟩

/-- Where the file is to be truncated, the directory is. -/
theorem CreatRight.noTrunc {j k : Nat} {ofd : OpenFileDescriptor} (h : CreatPath s g pathname mnt v root nb blocks)
    (hkind : CreatKind g v nb flags) (hslot : NextSlot v j k)
    (hcall : s.openNew g fuel nb pathname flags attr cdate date = some (.file ofd, s.withExt2 mnt.inst w root'))
    (hlaw : CreatLaw v g nb.dentry.dInode.iIno blocks nb.last w ofd.dentry.dInode.iIno) : flags &&& oTrunc = 0 := by
  by_contra hflag
  rcases h.openNew_cases hcall with hwild | ⟨ret, v₂, inode, x, hmknod, htrunc, -⟩
  · cases hwild
  obtain ⟨ret', w', root'', hset, hs'⟩ := VfsState.openTrunc_ext2 hflag h.mounted
    (VfsState.withExt2_instances s mnt.inst v₂ root) htrunc
  have hinst := (congrArg (fun t : VfsState => t.instances mnt.inst) hs').trans
    (VfsState.withExt2_instances _ mnt.inst w' root'')
  rw [VfsState.withExt2_instances] at hinst
  obtain ⟨rfl, -⟩ := VfsInstance.ext2.inj hinst
  have hfs := ext2Mknod_fs h.tables hslot (by decide) hmknod
  have hbs : 0 < w.blockSize := by
    obtain ⟨d, rfl⟩ := ext2Setattr_disk hset
    have hsame : v₂.blockSize = v.blockSize := by
      rw [hfs]
      rfl
    exact hsame ▸ h.tables.blockSize_pos
  have hold := hlaw.size_ne hbs
  have hin : 1 ≤ nb.dentry.dInode.iIno ∧ nb.dentry.dInode.iIno ≤ v.nGroups * v.superblock.sInodesPerGroup := by
    obtain ⟨j, hj, m, hm, heq, -⟩ := h.directory.inode
    rw [heq]
    exact ⟨Nat.succ_pos _, inodeNumber_le hj hm⟩
  have hnew := ext2Setattr_size (h.tables.geometry.of_fs hfs) hin hkind.number
    (show attrSize &&& attrSize ≠ 0 by decide) (by rw [hkind.size]; exact fun heq => hold (Int.natCast_eq_zero.mp heq.symm)) hset
  rw [hlaw.parent.1] at hnew
  exact hold hnew

/-- A call that is right has come to a file that fits. -/
theorem fits_of_creatRight (h : CreatPath s g pathname mnt v root nb blocks) (hcreat : flags &&& oCreat ≠ 0)
    (hkind : CreatKind g v nb flags) (hright : CreatRight s g pathname mnt v nb blocks flags attr cdate date) :
    CreatFits g v nb blocks flags := by
  obtain ⟨N, ofd, w, root', hturn, hlaw, hres⟩ := hright.new h hcreat hkind
  rcases hkind.inode with ⟨i, k, hslot⟩ | hnone
  · have hflag := CreatRight.noTrunc h hkind hslot (hturn N le_rfl).2 hlaw
    -- Every call has made the same file.
    have hmknod : ∀ fuel ≥ N, ext2Mknod v g fuel nb.dentry.dInode nb.last 0 cdate = some (0, w,
        some (ext2inode2Inode (inodeNumber v i k) (readInode w.toExt2FsInstance g (inodeNumber v i k)))) ∧
        root = root' ∧ ofd.dentry.dInode.iIno = inodeNumber v i k := by
      intro fuel hfuel
      rcases h.openNew_cases (hturn fuel hfuel).2 with hwild | ⟨ret, w', inode, x, hmknod, htrunc, hfile⟩
      · cases hwild
      · rw [VfsState.openTrunc_without hflag] at htrunc
        obtain ⟨rfl, rfl⟩ := VfsState.withExt2_inj (Prod.mk.inj (Option.some.inj htrunc)).2
        obtain ⟨fs, -, rfl, rfl, hinode⟩ := ext2Mknod_slot h.tables hslot (by decide) hmknod
        obtain rfl := Option.some.inj hinode
        cases hfile
        exact ⟨hmknod, rfl, rfl⟩
    obtain ⟨-, rfl, hino⟩ := hmknod N le_rfl
    rw [hino] at hlaw hres
    obtain ⟨blocks', hholds, haligned, hperm⟩ := hlaw.entry
    have hlength : nb.last.length < 256 := hholds.name_length (hperm.mem_iff.mpr List.mem_cons_self)
    have hroom : AddFits v.toExt2FsInstance g nb.dentry.dInode.iIno blocks nb.last := by
      refine h.directory.room_of_added (N := N) (x := newExt2Inode 0 cdate) h.tables hslot hkind.low hlength
        (mknodType_lt 0) (fun fuel hfuel => ?_) hlaw.parent.1 hlaw.parent.2 hholds haligned (length_of_perm hperm)
      obtain ⟨fs, hadd, -, rfl, -⟩ := ext2Mknod_slot h.tables hslot (by decide) (hmknod fuel hfuel).1
      exact hadd
    have hnode : MknodFits v g nb.dentry.dInode.iIno blocks nb.last 0 :=
      ⟨⟨i, k, hslot⟩, by decide, .inl (by decide), hlength, hroom, fun hdirectory => absurd rfl hdirectory⟩
    obtain ⟨w', N', hrun, hfs, hdisk, -⟩ := h.directory.created h.tables hslot hnode cdate
    obtain rfl : w' = w := by
      have hsame := (hrun (max N N') (Nat.le_max_right _ _)).symm.trans (hmknod (max N N') (Nat.le_max_left _ _)).1
      exact (Prod.mk.inj (Prod.mk.inj (Option.some.inj hsame)).2).1
    obtain ⟨rs, rest, hblocks, hleads⟩ := @CreatPath.leads s g pathname mnt v w' root nb blocks h (inodeNumber v i k)
      (inodeNumber v i k) hfs hdisk hkind.low
    obtain ⟨hpos, hlt, -⟩ := hleads.mp hres
    have hnew : recordOf nb.last rs = none := by
      cases hfound : recordOf nb.last rs with
      | none => rfl
      | some r =>
        rw [hfound] at hpos
        unfold recordOf at hfound
        obtain ⟨x, hx, rfl⟩ := List.mem_map.mp (List.mem_of_find?_eq_some hfound)
        have hname := List.find?_some hfound
        exact absurd (of_decide_eq_true hname)
          (h.absent rs (hblocks ▸ List.mem_cons_self) x hx (Nat.ne_of_gt hpos))
    rw [hnew] at hlt
    refine ⟨hflag, ⟨N, fun fuel hfuel => (hturn fuel hfuel).1⟩, hnode, fun i' k' hnext => ?_, fun rs' rest' heq => ?_⟩
    · obtain ⟨rfl, rfl⟩ := hslot.1.unique hnext
      exact hlt
    · obtain ⟨rfl, -⟩ := List.cons.inj (hblocks.symm.trans heq)
      exact (h.recordOf_eq_none hblocks).mp hnew
  · rcases h.openNew_cases (hturn N le_rfl).2 with hwild | ⟨ret, v₂, inode, x, hmknod, -, -⟩
    · cases hwild
    · obtain ⟨fs, -, -, -, hinode⟩ := ext2Mknod_none hnone (by decide) hmknod
      cases hinode

end

/-! ## The group of sixteen inodes, mounted -/

def nodeRoot (free : Nat) : Dentry := ⟨[], nodeDir free, none⟩

/-- The file system is mounted as `m`. -/
def nodeState (free : Nat) : VfsState where
  mountList := [⟨0, [109]⟩]
  instances := fun _ => .ext2 (nodeFs free) (nodeRoot free)
  rootVfs := ⟨[], ext2inode2Inode 0 (ext2InodeAt fun _ => 0), none⟩

/-- `/m/p` without its last component. -/
def nodeParent (free : Nat) : Nameidata Dentry := ⟨true, nodeRoot free, some ⟨0, [109]⟩, [112]⟩

section

variable (free : Nat)

theorem nodeState_path : CreatPath (nodeState free) noGarbage [47, 109, 47, 112] ⟨0, [109]⟩ (nodeFs free)
    (nodeRoot free) (nodeParent free) nodeBlocks := by
  have hopen : ∀ s : VfsState, s.mountList = [⟨0, [109]⟩] → (∃ v, s.instances 0 = .ext2 v (nodeRoot free)) →
      ∀ fuel, s.openNamei noGarbage fuel lookupParent [47, 109, 47, 112] = some (.ok (nodeParent free)) := by
    rintro s hmounts ⟨v, hinst⟩ fuel
    have hmnt : getMntFromPath s.mountList [109] = some ⟨0, [109]⟩ := by
      rw [hmounts]
      rfl
    have hops : (s.instances 0).ops noGarbage fuel =
        ⟨nodeRoot free, ext2Lookup v.toExt2FsInstance noGarbage fuel⟩ := by
      rw [hinst]
      rfl
    unfold VfsState.openNamei Fs.openNamei
    rw [decide_eq_true (by decide), show getNextPartPath [47, 109, 47, 112] = ([109], [47, 112]) from rfl]
    dsimp only
    rw [hmnt]
    dsimp only
    rw [hops]
    rfl
  refine ⟨rfl, rfl, nodeFs_tables free, ⟨0, fun fuel _ => hopen _ rfl ⟨_, rfl⟩ fuel⟩, nodeFs_parent free,
    ⟨List.cons_ne_nil _ _, show 0 ∉ ([112] : List UInt8) by decide⟩,
    show ∀ rs ∈ nodeBlocks, ∀ x ∈ rs, x.2.inode ≠ 0 → cString x.2.name ≠ [112] by decide,
    fun _ d _ => ⟨0, fun fuel _ => hopen _ rfl ⟨{ nodeFs free with disk := d }, ?_⟩ fuel⟩⟩
  exact VfsState.withExt2_instances (nodeState free) 0 _ (nodeRoot free)

/-- `p` is not there. -/
theorem nodeFs_lookup (fuel : Nat) :
    ext2Lookup (nodeFs free).toExt2FsInstance noGarbage (fuel + 1) (nodeRoot free) [112] = some none := by
  show ext2Lookup (nodeFs 0).toExt2FsInstance noGarbage (fuel + 1) (nodeRoot 0) [112] = some none
  have hfind : findDirEntry (nodeFs 0).toExt2FsInstance noGarbage (fuel + 1)
      (readInode (nodeFs 0).toExt2FsInstance noGarbage 2) [112] = some none := by
    unfold findDirEntry
    rw [findDirEntryLoop_succ, if_neg (by decide +kernel), if_pos (by decide +kernel)]
  unfold ext2Lookup getinodeFromName readdirInode
  show ((findDirEntry (nodeFs 0).toExt2FsInstance noGarbage (fuel + 1)
    (readInode (nodeFs 0).toExt2FsInstance noGarbage 2) [112]).map _ |>.map _ |>.map _) = _
  rw [hfind]
  rfl

theorem nodeFs_kind (hinode : (∃ i k, NextSlot (nodeFs free) i k) ∨ ∀ i k, ¬ NextInode (nodeFs free) i k)
    (flags : UInt32) : CreatKind noGarbage (nodeFs free) (nodeParent free) flags := by
  refine ⟨?_, rfl, show 2 < 2 ^ 31 by decide, hinode, fun _ => ⟨1, fun fuel hfuel => ?_⟩⟩
  · show (readInode (nodeFs free).toExt2FsInstance noGarbage 2).iBlock 0 * 1024 < 2 ^ 32
    rw [(nodeFs_inode free).2]
    decide
  · obtain ⟨fuel, rfl⟩ := Nat.exists_eq_add_one.mpr hfuel
    exact nodeFs_lookup free fuel

end

theorem nodeFs_slot : NextSlot (nodeFs 4) 0 12 :=
  ⟨⟨by decide, by decide, by decide, by decide⟩, .inl rfl, by decide, by decide⟩

end Desiros.Fs
