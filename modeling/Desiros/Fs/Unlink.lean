import Desiros.Fs.Lookup
import Desiros.Fs.Vfs

/-!
# Removing and renaming (`vfs.c`, `ext2_functions.c`, `ext2_internal.c`)

`vfs_unlink`, `vfs_rmdir` and `vfs_rename` resolve the parent directory, walk to the last component without
looking at the result, and pass the dentry they are left with to the callback of the file system. Where the
last component does not exist this is the dentry of the parent directory, and the call returns 0
(`missing_name_never`).

The scans of a directory take fuel, since a record of length 0 would keep them in their loops. What the memory
holds that a call reads without having written it is `Garbage`; a lookup finds it by directory and name.
-/

namespace Desiros.Fs

open Desiros.Library

/-! ## Entries of a directory -/

def ext2FtRegFile : Nat := 1

/-- `instance->read_data` into a buffer. -/
def readInto (fs : Ext2FsInstance) (buf : Bytes) (count pos : Nat) : Bytes :=
  fun i => if i < count then fs.disk (pos + i) else buf i

/-- `instance->write_data` from a buffer. -/
def writeData (fs : Ext2FsInstance) (buf : Bytes) (count pos : Nat) : Ext2FsInstance :=
  { fs with disk := fun i => if pos ≤ i ∧ i < pos + count then buf (i - pos) else fs.disk i }

/-- `sizeof(struct ext2_directory)` -/
def sizeofExt2Directory : Nat := 264

def setRecLen (dir : Bytes) (n : Nat) : Bytes :=
  fun i => if i = 4 then UInt8.ofNat n else if i = 5 then UInt8.ofNat (n / 256) else dir i

/-- `dir.name[dir.name_len] = '\0'` -/
def terminateName (dir : Bytes) : Bytes := Function.update dir (8 + (dirAt dir 0).nameLen) 0

/-- `dir.name` as a string. -/
def nameOf (dir : Bytes) : List UInt8 := cString (dirAt dir 0).chars

def addrInodeData (fs : Ext2FsInstance) (g : Garbage) (inode nBlk : Nat) : Nat :=
  getDataBlock fs g (readInode fs g inode) nBlk

/-- An `int` as a 64-bit offset. -/
def signExtend (n : Nat) : Nat := if n < 2 ^ 31 then n else 2 ^ 64 - 2 ^ 32 + n

structure RemoveState where
  fs : Ext2FsInstance
  dir : Bytes
  dir2 : Bytes
  curPos : Nat
  curPos2 : Nat
  dec : Nat

/-- `dir.rec_len + cur_pos < addr_debut + (1024 << s_log_block_size)`, on 32-bit words. -/
def beforeLast (fs : Ext2FsInstance) (addrDebut : Nat) (dir : Bytes) (curPos : Nat) : Prop :=
  ((dirAt dir 0).recLen + curPos) % 2 ^ 32 < (addrDebut + fs.blockSize) % 2 ^ 32

instance (fs : Ext2FsInstance) (addrDebut : Nat) (dir : Bytes) (curPos : Nat) :
    Decidable (beforeLast fs addrDebut dir curPos) := Nat.decLt _ _

/-- One turn of the loop of `remove_dir_entry`. -/
def removeDirEntryTurn (addrDebut : Nat) (name : List UInt8) (s : RemoveState) : RemoveState :=
  let dir := terminateName s.dir
  let dec := if strcmp name (nameOf dir) = 0 then (dirAt dir 0).recLen else s.dec
  let curPos := (s.curPos + (dirAt dir 0).recLen) % 2 ^ 32
  let next := readInto s.fs dir sizeofExt2Directory curPos
  if 0 < dec then
    let next := if ¬ beforeLast s.fs addrDebut next curPos then setRecLen next ((dirAt next 0).recLen + dec)
      else next
    { fs := writeData s.fs next (dirAt next 0).recLen ((curPos + 2 ^ 32 - dec) % 2 ^ 32)
      dir := next, dir2 := dir, curPos := curPos, curPos2 := s.curPos, dec := dec }
  else { fs := s.fs, dir := next, dir2 := dir, curPos := curPos, curPos2 := s.curPos, dec := dec }

def removeDirEntryLoop (addrDebut : Nat) (name : List UInt8) : Nat → RemoveState → Option RemoveState
  | 0, _ => none
  | fuel + 1, s =>
    if beforeLast s.fs addrDebut s.dir s.curPos then
      removeDirEntryLoop addrDebut name fuel (removeDirEntryTurn addrDebut name s)
    else some s

/-- `remove_dir_entry` behind its loop. -/
def removeLast (name : List UInt8) (s : RemoveState) : Ext2FsInstance :=
  if s.dec = 0 ∧ s.curPos2 ≠ 0 then
    let dir := terminateName s.dir
    if strcmp name (nameOf dir) = 0 then
      let dir2 := setRecLen s.dir2 ((dirAt s.dir2 0).recLen + (dirAt dir 0).recLen)
      writeData s.fs dir2 (dirAt dir2 0).recLen s.curPos2
    else s.fs
  else s.fs

def removeDirEntry (fs : Ext2FsInstance) (g : Garbage) (fuel inode : Nat) (name : List UInt8) :
    Option Ext2FsInstance :=
  let addrDebut := addrInodeData fs g inode 0
  if addrDebut = 0 then some fs
  else
    let dir := readInto fs g.dep sizeofExt2Directory (signExtend addrDebut)
    (removeDirEntryLoop addrDebut name fuel ⟨fs, dir, g.dep, addrDebut, 0, 0⟩).map (removeLast name)

/-- The loop of `add_dir_entry`: the last entry and its position. -/
def addDirEntryLoop (fs : Ext2FsInstance) (addrDebut : Nat) : Nat → Bytes → Nat → Option (Bytes × Nat)
  | 0, _, _ => none
  | fuel + 1, dir, curPos =>
    if beforeLast fs addrDebut dir curPos then
      let curPos := (curPos + (dirAt dir 0).recLen) % 2 ^ 32
      addDirEntryLoop fs addrDebut fuel (readInto fs dir sizeofExt2Directory curPos) curPos
    else some (dir, curPos)

/-- The length of an entry with a name of `n` characters, rounded up to a multiple of 4. -/
def dirEntrySize (n : Nat) : Nat := (8 + n) + (4 - (8 + n) % 4) % 4

/-- The entry `ndir`, in front of what the stack holds. -/
def newDirectory (garbage : Bytes) (nInode recLen : Nat) (type : Nat) (name : List UInt8) : Bytes :=
  let head : List UInt8 := [UInt8.ofNat nInode, UInt8.ofNat (nInode / 256), UInt8.ofNat (nInode / 65536),
    UInt8.ofNat (nInode / 16777216), UInt8.ofNat recLen, UInt8.ofNat (recLen / 256), UInt8.ofNat name.length,
    UInt8.ofNat type] ++ name ++ [0]
  fun i => head.getD i (garbage i)

def addDirEntry (fs : Ext2FsInstance) (g : Garbage) (fuel inode : Nat) (name : List UInt8) (type nInode : Nat) :
    Option Ext2FsInstance :=
  let addrDebut := addrInodeData fs g inode 0
  let dir := readInto fs g.behindBlock sizeofExt2Directory addrDebut
  (addDirEntryLoop fs addrDebut fuel dir addrDebut).map fun (dir, curPos) =>
    let s := dirEntrySize (dirAt dir 0).nameLen
    let fs := writeData fs (setRecLen dir s) s curPos
    let curPos := (curPos + s) % 2 ^ 32
    let recLen := (addrDebut + fs.blockSize + 2 ^ 32 - curPos) % 2 ^ 16
    let ndir := newDirectory g.dep nInode recLen type name
    writeData fs ndir (dirEntrySize (name.length % 256)) curPos

/-! ## Callbacks -/

def sIfmt : Nat := 0o170000
def sIfdir : Nat := 0o040000

def ext2Unlink (fs : Ext2FsInstance) (g : Garbage) (fuel : Nat) (dir : Inode) (dentry : Dentry) :
    Option (Int × Ext2FsInstance) :=
  (removeDirEntry fs g fuel dir.iIno dentry.dName).map fun fs => (0, fs)

def ext2Rmdir (fs : Ext2FsInstance) (g : Garbage) (fuel : Nat) (dir : Inode) (dentry : Dentry) :
    Option (Int × Ext2FsInstance) :=
  if dentry.dInode.iMode &&& sIfmt = sIfdir then
    (removeDirEntry fs g fuel dir.iIno dentry.dName).map fun fs => (0, fs)
  else some (-enotdir, fs)

/-! ## The virtual file system -/

/-- An instance: an ext2 file system with its root, or one without the callbacks of this module. -/
inductive MountedInstance where
  | ext2 (fs : Ext2FsInstance) (root : Dentry)
  | other (ops : FsOps Dentry)

structure Vfs where
  mountList : List MountedFs
  inst : Nat → MountedInstance
  rootVfs : Dentry

/-- What a lookup of a name in a directory finds in memory. -/
abbrev LookupGarbage := Nat → List UInt8 → Garbage

section

variable (s : Vfs) (g : LookupGarbage) (fuel : Nat)

def Vfs.ops (i : Nat) : FsOps Dentry :=
  match s.inst i with
  | .ext2 fs root => ⟨root, fun dentry name => ext2Lookup fs (g dentry.dInode.iIno name) fuel dentry name⟩
  | .other ops => ops

def Vfs.openNamei (parent : Bool) (pathname : List UInt8) : Option (Except Int (Nameidata Dentry)) :=
  Fs.openNamei s.mountList (s.ops g fuel) s.rootVfs parent pathname

/-- The second walk, to the last component. -/
def Vfs.lookupLast (i : Nat) (nb : Nameidata Dentry) : Option (Nameidata Dentry) :=
  (lookup (s.ops g fuel i).lookup { nb with parent := false }).map Prod.snd

def Vfs.setExt2 (i : Nat) (fs : Ext2FsInstance) (root : Dentry) : Vfs :=
  { s with inst := Function.update s.inst i (.ext2 fs root) }

/-- `vfs_unlink` and `vfs_rmdir`: the callback is missing in an instance that is not an ext2 file system. -/
def vfsRemove (callback : Ext2FsInstance → Garbage → Nat → Inode → Dentry → Option (Int × Ext2FsInstance))
    (pathname : List UInt8) : Option (Int × Vfs) :=
  match s.openNamei g fuel true pathname with
  | none => none
  | some (.error _) => some (-enoent, s)
  | some (.ok nb) =>
    match nb.mnt with
    | none => some (0, s)
    | some mnt =>
      match s.inst mnt.inst with
      | .other _ => some (0, s)
      | .ext2 fs root =>
        (s.lookupLast g fuel mnt.inst nb).bind fun last =>
          (callback fs (g nb.dentry.dInode.iIno []) fuel nb.dentry.dInode last.dentry).map fun r =>
            (0, s.setExt2 mnt.inst r.2 root)

def vfsUnlink (pathname : List UInt8) : Option (Int × Vfs) := vfsRemove s g fuel ext2Unlink pathname

def vfsRmdir (pathname : List UInt8) : Option (Int × Vfs) := vfsRemove s g fuel ext2Rmdir pathname

/-- `ext2_rename` on the instances of the two directories. -/
def ext2Rename (oldInst newInst : Nat) (oldDir : Inode) (oldDentry : Dentry) (newDir : Inode)
    (newName : List UInt8) : Option Vfs :=
  match s.inst oldInst with
  | .other _ => none
  | .ext2 fs root =>
    (removeDirEntry fs (g oldDir.iIno []) fuel oldDir.iIno oldDentry.dName).bind fun fs =>
      let s := s.setExt2 oldInst fs root
      match s.inst newInst with
      | .other _ => none
      | .ext2 fs root =>
        (addDirEntry fs (g newDir.iIno []) fuel newDir.iIno newName ext2FtRegFile oldDentry.dInode.iIno).map
          fun fs => s.setExt2 newInst fs root

/-- The call of a callback that the instance of the new path lacks does not return. -/
def vfsRename (oldpath newpath : List UInt8) : Option (Int × Vfs) :=
  match s.openNamei g fuel true oldpath with
  | none => none
  | some (.error _) => some (-enoent, s)
  | some (.ok nb) =>
    match nb.mnt with
    | none => some (0, s)
    | some mnt =>
      match s.inst mnt.inst with
      | .other _ => some (0, s)
      | .ext2 _ _ =>
        (s.lookupLast g fuel mnt.inst nb).bind fun last =>
          match s.openNamei g fuel true newpath with
          | none => none
          | some (.error _) => some (0, s)
          | some (.ok nb') =>
            match nb'.mnt with
            | none => none
            | some mnt' =>
              (ext2Rename s g fuel mnt.inst mnt'.inst nb.dentry.dInode last.dentry nb'.dentry.dInode nb'.last).map
                fun s => (0, s)

/-! ## A name that is not there -/

/-- The path leads to a directory of a mounted ext2 file system that has no entry with the last component. -/
structure MissingName (pathname : List UInt8) : Prop where
  parent : ∃ nb mnt fs root blocks, s.openNamei g fuel true pathname = some (.ok nb) ∧ nb.mnt = some mnt ∧
    s.inst mnt.inst = .ext2 fs root ∧ nb.last ≠ [] ∧
    WellFormedDir fs (readInode fs (g nb.dentry.dInode.iIno nb.last) nb.dentry.dInode.iIno) blocks ∧
    ∀ e ∈ blocks.flatten, e.inode ≠ 0 → e.name ≠ nb.last

/-- The call fails and changes no file system. -/
def FailsUnchanged (r : Option (Int × Vfs)) : Prop := ∃ e s', r = some (e, s') ∧ e ≠ 0 ∧ s'.inst = s.inst

end

section

variable {s : Vfs} {g : LookupGarbage} {fuel : Nat} {pathname : List UInt8}

theorem vfsRemove_zero {nb : Nameidata Dentry} (hnb : s.openNamei g fuel true pathname = some (.ok nb))
    {callback : Ext2FsInstance → Garbage → Nat → Inode → Dentry → Option (Int × Ext2FsInstance)} {e : Int} {s' : Vfs}
    (hr : vfsRemove s g fuel callback pathname = some (e, s')) : e = 0 := by
  unfold vfsRemove at hr
  rw [hnb] at hr
  dsimp only at hr
  cases hmnt : nb.mnt with
  | none =>
    rw [hmnt] at hr
    exact (Prod.mk.inj (Option.some.inj hr)).1.symm
  | some mnt =>
    rw [hmnt] at hr
    dsimp only at hr
    cases hinst : s.inst mnt.inst with
    | other ops =>
      rw [hinst] at hr
      exact (Prod.mk.inj (Option.some.inj hr)).1.symm
    | ext2 fs root =>
      rw [hinst] at hr
      obtain ⟨last, -, hr⟩ := Option.bind_eq_some_iff.mp hr
      obtain ⟨r, -, hr⟩ := Option.map_eq_some_iff.mp hr
      exact (Prod.mk.inj hr).1.symm

theorem vfsRename_zero {nb : Nameidata Dentry} (hnb : s.openNamei g fuel true pathname = some (.ok nb))
    {newpath : List UInt8} {e : Int} {s' : Vfs} (hr : vfsRename s g fuel pathname newpath = some (e, s')) :
    e = 0 := by
  unfold vfsRename at hr
  rw [hnb] at hr
  dsimp only at hr
  cases hmnt : nb.mnt with
  | none =>
    rw [hmnt] at hr
    exact (Prod.mk.inj (Option.some.inj hr)).1.symm
  | some mnt =>
    rw [hmnt] at hr
    dsimp only at hr
    cases hinst : s.inst mnt.inst with
    | other ops =>
      rw [hinst] at hr
      exact (Prod.mk.inj (Option.some.inj hr)).1.symm
    | ext2 fs root =>
      rw [hinst] at hr
      obtain ⟨last, -, hr⟩ := Option.bind_eq_some_iff.mp hr
      cases hnew : s.openNamei g fuel true newpath with
      | none =>
        rw [hnew] at hr
        cases hr
      | some res =>
        rw [hnew] at hr
        cases res with
        | error _ => exact (Prod.mk.inj (Option.some.inj hr)).1.symm
        | ok nb' =>
          dsimp only at hr
          cases hmnt' : nb'.mnt with
          | none =>
            rw [hmnt'] at hr
            cases hr
          | some mnt' =>
            rw [hmnt'] at hr
            obtain ⟨s₁, -, hr⟩ := Option.map_eq_some_iff.mp hr
            exact (Prod.mk.inj hr).1.symm

/-- **A name that is not there** is never reported: no call on it fails. -/
theorem missing_name_never (s : Vfs) (g : LookupGarbage) (fuel : Nat) (pathname : List UInt8)
    (h : MissingName s g fuel pathname) :
    ¬ FailsUnchanged s (vfsUnlink s g fuel pathname) ∧ ¬ FailsUnchanged s (vfsRmdir s g fuel pathname) ∧
      ∀ newpath, ¬ FailsUnchanged s (vfsRename s g fuel pathname newpath) := by
  obtain ⟨nb, _, _, _, _, hnb, -⟩ := h.parent
  refine ⟨?_, ?_, fun newpath => ?_⟩
  · rintro ⟨e, s', hr, he, -⟩
    exact he (vfsRemove_zero hnb hr)
  · rintro ⟨e, s', hr, he, -⟩
    exact he (vfsRemove_zero hnb hr)
  · rintro ⟨e, s', hr, he, -⟩
    exact he (vfsRename_zero hnb hr)

end

/-! ## A directory that holds its own name -/

/-- Inode 12 is the directory `a` of the root directory, and holds `a` itself and `b`. -/
def nestedFs : Ext2FsInstance where
  superblock := ⟨0, 16, 128⟩
  groupDescTable := fun _ => ⟨5⟩
  disk := fun n => ([(5253, 4), (5288, 10), (10244, 12), (10240, 12), (10246, 1), (10248, 97), (10252, 13),
    (10256, 0xF4), (10257, 3), (10258, 1), (10260, 98), (6529, 0x40), (6533, 4), (6568, 11), (11264, 14), (11268, 12),
    (11270, 1), (11272, 97), (11276, 15), (11280, 0xF4), (11281, 3), (11282, 1), (11284, 98)].lookup n).getD 0

def nestedRoot : Dentry := ⟨[], ext2inode2Inode 2 (readInode nestedFs noGarbage 2), none⟩

/-- The file system mounted under `m`. -/
def nestedVfs : Vfs where
  mountList := [⟨0, [109]⟩]
  inst := fun _ => .ext2 nestedFs nestedRoot
  rootVfs := nestedRoot

/-- `/m/a/x` -/
def nestedPath : List UInt8 := [47, 109, 47, 97, 47, 120]

theorem nestedPath_missing : MissingName nestedVfs (fun _ _ => noGarbage) 3 nestedPath := by
  refine ⟨⟨true, ⟨[97], ext2inode2Inode 12 (readInode nestedFs noGarbage 12), some nestedRoot⟩, some ⟨0, [109]⟩, [120]⟩,
    ⟨0, [109]⟩, nestedFs, nestedRoot, [[⟨14, [97]⟩, ⟨15, [98]⟩]], by rfl, rfl, rfl, by decide, ?_, by decide⟩
  refine ⟨by decide, by decide, fun n hn => ?_, by decide, by decide⟩
  obtain rfl : n = 0 := Nat.lt_one_iff.mp hn
  refine ⟨[0, 12], ?_, by decide, by rfl⟩
  apply Chain.cons
  · decide
  · apply Chain.cons
    · decide
    · exact Chain.nil _

/-- Unlinking `/m/a/x`, which is not there, returns 0, and the entry `b` stands in the place of `a`. -/
theorem vfs_unlink_missing_name :
    MissingName nestedVfs (fun _ _ => noGarbage) 3 nestedPath ∧
      ¬ FailsUnchanged nestedVfs (vfsUnlink nestedVfs (fun _ _ => noGarbage) 3 nestedPath) ∧
      ((vfsUnlink nestedVfs (fun _ _ => noGarbage) 3 nestedPath).map fun r =>
        match r.2.inst 0 with
        | .ext2 fs _ => fs.disk 11264
        | .other _ => 0) = some 15 := by
  refine ⟨nestedPath_missing, ?_, by decide⟩
  rintro ⟨e, s', hr, he, -⟩
  have hzero : (vfsUnlink nestedVfs (fun _ _ => noGarbage) 3 nestedPath).map Prod.fst = some 0 := by decide
  rw [hr] at hzero
  exact he (Option.some.inj hzero)

/-- No call on `/m/a/x` fails. -/
theorem missing_name_nested :
    ¬ FailsUnchanged nestedVfs (vfsUnlink nestedVfs (fun _ _ => noGarbage) 3 nestedPath) ∧
      ¬ FailsUnchanged nestedVfs (vfsRmdir nestedVfs (fun _ _ => noGarbage) 3 nestedPath) ∧
      ∀ newpath, ¬ FailsUnchanged nestedVfs (vfsRename nestedVfs (fun _ _ => noGarbage) 3 nestedPath newpath) :=
  missing_name_never nestedVfs (fun _ _ => noGarbage) 3 nestedPath nestedPath_missing

end Desiros.Fs
