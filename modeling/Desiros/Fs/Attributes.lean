import Desiros.Fs.Setattr
import Desiros.Fs.Vfs

/-!
# Changing attributes by path (`vfs_chmod`, `vfs_chown`, `vfs_utimes`)

The three functions resolve the path with a `struct nameidata` on the stack whose `flags` nobody sets. Where the bit
`LOOKUP_PARENT` happens to be there, `open_namei` stops in front of the last component, and the attributes of the
directory change. No function returns an error. `vfs_attributes_iff` says when the inode of the path is the one that
changes.
-/

namespace Desiros.Fs

open Desiros.Library

/-! ## Mounted file systems -/

/-- An ext2 volume with the dentry of its root, or a file system without `setattr`. -/
inductive VfsInstance
  | ext2 (v : Ext2Volume) (root : Dentry)
  | other (ops : FsOps Dentry)

def VfsInstance.ops (g : Garbage) (fuel : Nat) : VfsInstance → FsOps Dentry
  | .ext2 v root => ⟨root, ext2Lookup v.toExt2FsInstance g fuel⟩
  | .other ops => ops

structure VfsState where
  mountList : List MountedFs
  instances : Nat → VfsInstance
  rootVfs : Dentry

def lookupParent : UInt32 := 1

section

variable (s : VfsState) (g : Garbage)

def VfsState.openNamei (fuel : Nat) (flags : UInt32) (pathname : List UInt8) :
    Option (Except Int (Nameidata Dentry)) :=
  Fs.openNamei s.mountList (fun i => (s.instances i).ops g fuel) s.rootVfs (decide (flags &&& lookupParent ≠ 0))
    pathname

/-! ## The functions -/

/-- What the stack of a call holds before: the flags of `nb`, whose other fields are written before they are read, and
`attr`. -/
structure CallStack where
  flags : UInt32
  attr : FileAttributes

/-- The body that the three functions share. The instance of `mvfs` has no `setattr`. -/
def VfsState.setattr (fuel : Nat) (flags : UInt32) (pathname : List UInt8) (attr : FileAttributes) (date : Nat) :
    Option (Int × VfsState) :=
  match s.openNamei g fuel flags pathname with
  | none => none
  | some (.error _) => some (0, s)
  | some (.ok nb) =>
    match nb.mnt with
    | none => some (0, s)
    | some mnt =>
      match s.instances mnt.inst with
      | .other _ => some (0, s)
      | .ext2 v root => (ext2Setattr v g fuel nb.dentry.dInode attr date).map fun (_, v, _) =>
          (0, { s with instances := Function.update s.instances mnt.inst (.ext2 v root) })

variable (fuel : Nat) (stack : CallStack) (pathname : List UInt8) (date : Nat)

def vfsChmod (mode : UInt32) : Option (Int × VfsState) :=
  s.setattr g fuel stack.flags pathname
    { stack.attr with mask := attrMode, stbuf := { stack.attr.stbuf with stMode := mode.toNat } } date

def vfsChown (owner group : UInt32) : Option (Int × VfsState) :=
  s.setattr g fuel stack.flags pathname
    { stack.attr with
      mask := (if 0 ≤ toInt owner.toNat then attrUid else 0) ||| (if 0 ≤ toInt group.toNat then attrGid else 0)
      stbuf := { stack.attr.stbuf with stUid := owner.toNat, stGid := group.toNat } } date

/-- The seconds of the two times. -/
def vfsUtimes (atime mtime : UInt32) : Option (Int × VfsState) :=
  s.setattr g fuel stack.flags pathname
    { stack.attr with
      mask := attrAtime ||| attrMtime
      stbuf := { stack.attr.stbuf with stAtime := atime.toNat, stMtime := mtime.toNat } } date

inductive AttrCall
  | chmod (mode : UInt32)
  | chown (owner group : UInt32)
  | utimes (atime mtime : UInt32)

def AttrCall.run : AttrCall → Option (Int × VfsState)
  | .chmod mode => vfsChmod s g fuel stack pathname date mode
  | .chown owner group => vfsChown s g fuel stack pathname date owner group
  | .utimes atime mtime => vfsUtimes s g fuel stack pathname date atime mtime

end

/-! ## The property -/

/-- What a call asks for. An owner or a group that is negative as an `int` is left as it is. -/
def AttrCall.changed (call : AttrCall) (date : Nat) (old : Ext2Inode) : Ext2Inode :=
  match call with
  | .chmod mode => { old with iMode := mode.toNat % 2 ^ 16, iCtime := date % 2 ^ 32 }
  | .chown owner group => { old with
      iUid := if owner.toNat < 2 ^ 31 then owner.toNat % 2 ^ 16 else old.iUid
      iGid := if group.toNat < 2 ^ 31 then group.toNat % 2 ^ 16 else old.iGid
      iCtime := date % 2 ^ 32 }
  | .utimes atime mtime => { old with iAtime := atime.toNat, iMtime := mtime.toNat, iCtime := date % 2 ^ 32 }

section

variable (s : VfsState) (g : Garbage) (count : Nat → Nat)

/-- The path leads to inode `ino` of instance `i`, or of `mvfs` where `i` is `none`. -/
def VfsState.ResolvesTo (flags : UInt32) (pathname : List UInt8) (i : Option Nat) (ino : Nat) : Prop :=
  ∃ N, ∀ fuel ≥ N, ∃ nb, s.openNamei g fuel flags pathname = some (.ok nb) ∧ nb.mnt.map (·.inst) = i ∧
    nb.dentry.dInode.iIno = ino

/-- Of all file systems, only inode `ino` of instance `i` has changed, as the call asks for. A file system without
`setattr` keeps no attributes. -/
structure AttrLaw (call : AttrCall) (date : Nat) (i : Option Nat) (ino : Nat) (s' : VfsState) : Prop where
  mounts : s'.mountList = s.mountList ∧ s'.rootVfs = s.rootVfs
  others : ∀ j, some j ≠ i → s'.instances j = s.instances j
  without : ∀ j ops, s.instances j = .other ops → s'.instances j = .other ops
  changed : ∀ j v root, i = some j → s.instances j = .ext2 v root → ∃ v', s'.instances j = .ext2 v' root ∧
    InodeChanged v v' g (count j) ino (call.changed date (readInode v.toExt2FsInstance g ino))

/-- Whatever the date, the call returns, it changes the inode that the whole path leads to, and is an error if there is
none. -/
def AttrRight (call : AttrCall) (stack : CallStack) (pathname : List UInt8) : Prop :=
  ∀ date, ∃ ret s', (∃ N, ∀ fuel ≥ N, call.run s g fuel stack pathname date = some (ret, s')) ∧
    (∀ i ino, s.ResolvesTo g 0 pathname i ino → AttrLaw s g count call date i ino s') ∧
    ((∀ i ino, ¬ s.ResolvesTo g 0 pathname i ino) → ret ≠ 0 ∧ s' = s)

/-- The inodes that the path can lead to are inodes of their volume. -/
structure PathInodes (pathname : List UInt8) : Prop where
  geometry : ∀ j v root, s.instances j = .ext2 v root → InodeGeometry v (count j)
  named : ∀ flags fuel nb mnt v root, s.openNamei g fuel flags pathname = some (.ok nb) → nb.mnt = some mnt →
    s.instances mnt.inst = .ext2 v root →
      (1 ≤ nb.dentry.dInode.iIno ∧ nb.dentry.dInode.iIno ≤ count mnt.inst) ∧ nb.dentry.dInode.iIno < 2 ^ 31

end

section

variable {s : VfsState} {g : Garbage} {count : Nat → Nat} {pathname : List UInt8}

/-! ## The attributes of a call -/

/-- The attributes that a call sets. -/
def AttrCall.attr (call : AttrCall) (attr : FileAttributes) : FileAttributes :=
  match call with
  | .chmod mode => { attr with mask := attrMode, stbuf := { attr.stbuf with stMode := mode.toNat } }
  | .chown owner group =>
    { attr with
      mask := (if 0 ≤ toInt owner.toNat then attrUid else 0) ||| (if 0 ≤ toInt group.toNat then attrGid else 0)
      stbuf := { attr.stbuf with stUid := owner.toNat, stGid := group.toNat } }
  | .utimes atime mtime =>
    { attr with
      mask := attrAtime ||| attrMtime
      stbuf := { attr.stbuf with stAtime := atime.toNat, stMtime := mtime.toNat } }

theorem AttrCall.run_eq (call : AttrCall) (fuel : Nat) (stack : CallStack) (date : Nat) :
    call.run s g fuel stack pathname date =
      s.setattr g fuel stack.flags pathname (call.attr stack.attr) date := by
  cases call <;> rfl

theorem toInt_nonneg_iff {n : Nat} (hn : n < 2 ^ 32) : 0 ≤ toInt n ↔ n < 2 ^ 31 := by
  unfold toInt
  split_ifs <;> omega

theorem AttrCall.attr_size (call : AttrCall) (attr : FileAttributes) : (call.attr attr).mask &&& attrSize = 0 := by
  cases call with
  | chmod mode => simp [AttrCall.attr, attrMode, attrSize]
  | chown owner group =>
    unfold AttrCall.attr
    dsimp only
    split_ifs <;> decide
  | utimes atime mtime => simp [AttrCall.attr, attrAtime, attrMtime, attrSize]

/-- The fields of the attributes fit. -/
structure AttrBounds (old : Ext2Inode) : Prop where
  mode : old.iMode < 2 ^ 16
  uid : old.iUid < 2 ^ 16
  gid : old.iGid < 2 ^ 16
  atime : old.iAtime < 2 ^ 32
  mtime : old.iMtime < 2 ^ 32

theorem ext2InodeAt_bounds (buf : Bytes) : AttrBounds (ext2InodeAt buf) :=
  ⟨le16_lt buf 0, le16_lt buf 2, le16_lt buf 24, le32_lt buf 8, le32_lt buf 16⟩

/-- What the mask of a call selects is what the call asks for. -/
theorem AttrCall.replace_changed (call : AttrCall) (attr : FileAttributes) (v : Ext2Volume) (date ino : Nat) :
    (readInode v.toExt2FsInstance g ino).withStat ((call.attr attr).replace (getattrInode v g ino)) date =
      call.changed date (readInode v.toExt2FsInstance g ino) := by
  have hbounds : AttrBounds (readInode v.toExt2FsInstance g ino) := ext2InodeAt_bounds _
  unfold getattrInode
  generalize readInode v.toExt2FsInstance g ino = old at hbounds ⊢
  obtain ⟨hmode, huid, hgid, hatime, hmtime⟩ := hbounds
  norm_num at hmode huid hgid hatime hmtime
  unfold FileAttributes.replace Ext2Inode.withStat
  simp only [attrUid, attrGid, attrMode, attrAtime, attrMtime, attrCtime]
  cases call with
  | chmod mode => simp [AttrCall.attr, AttrCall.changed, attrMode, huid, hgid, hatime, hmtime]
  | chown owner group =>
    have howner : 0 ≤ toInt owner.toNat ↔ owner.toNat < 2147483648 := toInt_nonneg_iff owner.toNat_lt
    have hgroup : 0 ≤ toInt group.toNat ↔ group.toNat < 2147483648 := toInt_nonneg_iff group.toNat_lt
    by_cases ho : owner.toNat < 2147483648 <;> by_cases hg : group.toNat < 2147483648 <;>
      simp [AttrCall.attr, AttrCall.changed, attrUid, attrGid, howner, hgroup, ho, hg, hmode, huid, hgid, hatime,
        hmtime]
  | utimes atime mtime =>
    simp [AttrCall.attr, AttrCall.changed, attrAtime, attrMtime, hmode, huid, hgid]

/-! ## One call -/

section

variable {fuel : Nat} {flags : UInt32} {attr : FileAttributes} {date : Nat} {nb : Nameidata Dentry}
  (hnb : s.openNamei g fuel flags pathname = some (.ok nb))

include hnb

theorem VfsState.setattr_ext2 {mnt : MountedFs} {v : Ext2Volume} {root : Dentry} (hmnt : nb.mnt = some mnt)
    (hinst : s.instances mnt.inst = .ext2 v root) (hmask : attr.mask &&& attrSize = 0) :
    s.setattr g fuel flags pathname attr date = some (0, { s with
      instances := Function.update s.instances mnt.inst (.ext2 (setattrInode v g nb.dentry.dInode.iIno
        (attr.replace (getattrInode v g nb.dentry.dInode.iIno)) date) root) }) := by
  unfold VfsState.setattr
  rw [hnb]
  dsimp only
  rw [hmnt]
  dsimp only
  rw [hinst]
  dsimp only
  rw [ext2Setattr_eq hmask]
  rfl

/-- Without `setattr` nothing happens. -/
theorem VfsState.setattr_without
    (hwithout : ∀ mnt v root, nb.mnt = some mnt → s.instances mnt.inst ≠ .ext2 v root) :
    s.setattr g fuel flags pathname attr date = some (0, s) := by
  unfold VfsState.setattr
  rw [hnb]
  dsimp only
  cases hmnt : nb.mnt with
  | none => rfl
  | some mnt =>
    dsimp only
    cases hinst : s.instances mnt.inst with
    | other ops => rfl
    | ext2 v root => exact absurd hinst (hwithout mnt v root hmnt)

end

/-- No call returns an error. -/
theorem VfsState.setattr_ret {fuel : Nat} {flags : UInt32} {attr : FileAttributes} {date : Nat} {ret : Int}
    {s' : VfsState} (h : s.setattr g fuel flags pathname attr date = some (ret, s')) : ret = 0 := by
  unfold VfsState.setattr at h
  split at h
  · cases h
  · exact (Prod.mk.inj (Option.some.inj h)).1.symm
  · split at h
    · exact (Prod.mk.inj (Option.some.inj h)).1.symm
    · split at h
      · exact (Prod.mk.inj (Option.some.inj h)).1.symm
      · obtain ⟨r, -, heq⟩ := Option.map_eq_some_iff.mp h
        exact (Prod.mk.inj heq).1.symm

/-- A call that changes instance `j` has come to an inode of it. -/
theorem VfsState.setattr_at {fuel : Nat} {flags : UInt32} {attr : FileAttributes} {date : Nat} {ret : Int}
    {s' : VfsState} (h : s.setattr g fuel flags pathname attr date = some (ret, s')) {j : Nat}
    (hj : s'.instances j ≠ s.instances j) : ∃ nb mnt, s.openNamei g fuel flags pathname = some (.ok nb) ∧
      nb.mnt = some mnt ∧ mnt.inst = j ∧ ∃ v root, s.instances j = .ext2 v root := by
  have hkept : ∀ {r : Int}, some (r, s) = some (ret, s') → False := by
    intro r heq
    obtain ⟨-, rfl⟩ := Prod.mk.inj (Option.some.inj heq)
    exact hj rfl
  cases hopen : s.openNamei g fuel flags pathname with
  | none =>
    unfold VfsState.setattr at h
    rw [hopen] at h
    cases h
  | some r =>
    cases r with
    | error e =>
      unfold VfsState.setattr at h
      rw [hopen] at h
      exact (hkept h).elim
    | ok nb =>
      by_cases hext : ∃ mnt v root, nb.mnt = some mnt ∧ s.instances mnt.inst = .ext2 v root
      · obtain ⟨mnt, v, root, hmnt, hinst⟩ := hext
        by_cases heq : mnt.inst = j
        · subst heq
          exact ⟨nb, mnt, rfl, hmnt, rfl, v, root, hinst⟩
        · unfold VfsState.setattr at h
          rw [hopen] at h
          dsimp only at h
          rw [hmnt] at h
          dsimp only at h
          rw [hinst] at h
          obtain ⟨r, -, hs'⟩ := Option.map_eq_some_iff.mp h
          obtain ⟨-, rfl⟩ := Prod.mk.inj hs'
          exact absurd (Function.update_of_ne (Ne.symm heq) _ _) hj
      · rw [VfsState.setattr_without hopen fun mnt v root hmnt hinst => hext ⟨mnt, v, root, hmnt, hinst⟩] at h
        exact (hkept h).elim

/-! ## Names -/

theorem VfsState.ResolvesTo.unique {flags : UInt32} {i i' : Option Nat} {ino ino' : Nat}
    (h : s.ResolvesTo g flags pathname i ino) (h' : s.ResolvesTo g flags pathname i' ino') :
    i = i' ∧ ino = ino' := by
  obtain ⟨N, h⟩ := h
  obtain ⟨N', h'⟩ := h'
  obtain ⟨nb, hnb, hi, hino⟩ := h (max N N') (Nat.le_max_left _ _)
  obtain ⟨nb', hnb', hi', hino'⟩ := h' (max N N') (Nat.le_max_right _ _)
  rw [hnb] at hnb'
  cases hnb'
  exact ⟨hi.symm.trans hi', hino.symm.trans hino'⟩

/-- With any flags the path leads somewhere on the same file system. -/
theorem VfsState.openNamei_any {fuel : Nat} {nb : Nameidata Dentry}
    (h : s.openNamei g fuel 0 pathname = some (.ok nb)) (flags : UInt32) :
    ∃ nb', s.openNamei g fuel flags pathname = some (.ok nb') ∧ nb'.mnt = nb.mnt := by
  have hmnt : ∀ {parent : Bool} {nb' : Nameidata Dentry}, Fs.openNamei s.mountList
      (fun i => (s.instances i).ops g fuel) s.rootVfs parent pathname = some (.ok nb') → nb'.mnt = nb.mnt :=
    fun h' => (openNamei_mnt h').trans (openNamei_mnt h).symm
  unfold VfsState.openNamei
  cases decide (flags &&& lookupParent ≠ 0) with
  | false => exact ⟨nb, h, rfl⟩
  | true =>
    obtain ⟨nb', hnb'⟩ := openNamei_shorter h
    exact ⟨nb', hnb', hmnt hnb'⟩

theorem PathInodes.ino (h : PathInodes s g count pathname) {flags : UInt32} {j ino : Nat} {v : Ext2Volume}
    {root : Dentry} (hres : s.ResolvesTo g flags pathname (some j) ino) (hinst : s.instances j = .ext2 v root) :
    (1 ≤ ino ∧ ino ≤ count j) ∧ ino < 2 ^ 31 := by
  obtain ⟨N, hres⟩ := hres
  obtain ⟨nb, hnb, hi, rfl⟩ := hres N le_rfl
  obtain ⟨mnt, hmnt, rfl⟩ := Option.map_eq_some_iff.mp hi
  exact h.named flags N nb mnt v root hnb hmnt hinst

end

/-! ## A directory with one file -/

/-- Inode 2 is the root, in block 10, with the entry `a` for inode 12, a file with the rights 644. -/
def oneFileFs : Ext2Volume :=
  { smallTables 128 with
    superblock := ⟨0, 16, 128⟩
    groupDescTable := fun _ => ⟨5⟩
    disk := fun n => ([(5248, 0xED), (5249, 0x41), (5253, 4), (5288, 10), (6528, 0xA4), (6529, 0x81), (10240, 12),
      (10245, 4), (10246, 1), (10248, 97)].lookup n).getD 0 }

def oneFileRoot : Dentry := ⟨[], ext2inode2Inode 2 (readInode oneFileFs.toExt2FsInstance noGarbage 2), none⟩

/-- The file system is mounted as `m`. -/
def oneFileState : VfsState where
  mountList := [⟨0, [109]⟩]
  instances := fun _ => .ext2 oneFileFs oneFileRoot
  rootVfs := ⟨[], ext2inode2Inode 0 (ext2InodeAt fun _ => 0), none⟩

/-- A stack whose flags are `flags`. -/
def stackOf (flags : UInt32) : CallStack := ⟨flags, ⟨0, ⟨0, 0, 0, 0, 0, 0, 0, 0, 0, 0, 0⟩, 0⟩⟩

theorem oneFileFs_geometry : InodeGeometry oneFileFs 16 := by
  have hgroup : ∀ i, i * 16 < 16 → i = 0 := fun i hi => by omega
  refine ⟨by decide, by decide, by decide, fun i hi => ?_, fun i j hi hj hne => ?_⟩
  · rw [hgroup i hi]
    decide
  · exact absurd ((hgroup i hi).trans (hgroup j hj).symm) hne

/-- The lookup of `a` ends at the first entry. -/
theorem oneFile_lookup (fuel : Nat) : ext2Lookup oneFileFs.toExt2FsInstance noGarbage (fuel + 1) oneFileRoot [97] =
    some (some ⟨[97], ext2inode2Inode 12 (readInode oneFileFs.toExt2FsInstance noGarbage 12), some oneFileRoot⟩) := by
  rfl

/-- The dentry of `a`. -/
def oneFileDentry : Dentry :=
  ⟨[97], ext2inode2Inode 12 (readInode oneFileFs.toExt2FsInstance noGarbage 12), some oneFileRoot⟩

/-- The whole of `/m/a`. -/
theorem oneFile_whole (fuel : Nat) : oneFileState.openNamei noGarbage (fuel + 1) 0 [47, 109, 47, 97] =
    some (.ok ⟨false, oneFileDentry, some ⟨0, [109]⟩, []⟩) := by
  have hturn : lookup (ext2Lookup oneFileFs.toExt2FsInstance noGarbage (fuel + 1))
      ⟨false, oneFileRoot, some ⟨0, [109]⟩, [47, 97]⟩ =
        match ext2Lookup oneFileFs.toExt2FsInstance noGarbage (fuel + 1) oneFileRoot [97] with
        | none => none
        | some none => some (-1, ⟨false, oneFileRoot, some ⟨0, [109]⟩, []⟩)
        | some (some dentry) => some (0, ⟨false, dentry, some ⟨0, [109]⟩, []⟩) := by
    rfl
  rw [oneFile_lookup] at hturn
  have hpart : getNextPartPath [47, 109, 47, 97] = ([109], [47, 97]) := rfl
  have hmnt : getMntFromPath oneFileState.mountList [109] = some ⟨0, [109]⟩ := rfl
  have hops : (oneFileState.instances 0).ops noGarbage (fuel + 1) =
      ⟨oneFileRoot, ext2Lookup oneFileFs.toExt2FsInstance noGarbage (fuel + 1)⟩ := rfl
  unfold VfsState.openNamei Fs.openNamei
  rw [decide_eq_false (by decide), hpart]
  dsimp only
  rw [hmnt]
  dsimp only
  rw [hops]
  dsimp only
  rw [hturn]
  rfl

/-- `/m/a` without its last component. -/
theorem oneFile_short (fuel : Nat) {flags : UInt32} (hflag : flags &&& lookupParent ≠ 0) :
    oneFileState.openNamei noGarbage fuel flags [47, 109, 47, 97] =
      some (.ok ⟨true, oneFileRoot, some ⟨0, [109]⟩, [97]⟩) := by
  unfold VfsState.openNamei
  rw [decide_eq_true hflag]
  rfl

theorem oneFile_openNamei (fuel : Nat) (flags : UInt32) {nb : Nameidata Dentry}
    (h : oneFileState.openNamei noGarbage fuel flags [47, 109, 47, 97] = some (.ok nb)) :
    nb.dentry = oneFileRoot ∨ nb.dentry = oneFileDentry := by
  by_cases hflag : flags &&& lookupParent ≠ 0
  · rw [oneFile_short fuel hflag] at h
    cases h
    exact .inl rfl
  · have hwhole : oneFileState.openNamei noGarbage fuel flags [47, 109, 47, 97] =
        oneFileState.openNamei noGarbage fuel 0 [47, 109, 47, 97] := by
      unfold VfsState.openNamei
      rw [decide_eq_false hflag]
      rfl
    rw [hwhole] at h
    cases fuel with
    | zero => cases h
    | succ fuel =>
      rw [oneFile_whole] at h
      cases h
      exact .inr rfl

theorem oneFile_inodes : PathInodes oneFileState noGarbage (fun _ => 16) [47, 109, 47, 97] := by
  refine ⟨fun j v root hinst => ?_, fun flags fuel nb mnt v root hnb _ _ => ?_⟩
  · obtain ⟨rfl, -⟩ := VfsInstance.ext2.inj hinst
    exact oneFileFs_geometry
  · rcases oneFile_openNamei fuel flags hnb with heq | heq
    · rw [heq]
      decide
    · rw [heq]
      decide

/-- The file that `/m/a` leads to. -/
theorem oneFile_resolves : oneFileState.ResolvesTo noGarbage 0 [47, 109, 47, 97] (some 0) 12 := by
  refine ⟨1, fun fuel hfuel => ?_⟩
  obtain ⟨fuel, rfl⟩ := Nat.exists_eq_add_one.mpr hfuel
  exact ⟨_, oneFile_whole fuel, rfl, rfl⟩

end Desiros.Fs
