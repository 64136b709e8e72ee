import Desiros.Fs.RemoveEntry

/-!
# Renaming (`vfs_rename`, `ext2_rename`)

`ext2_rename` removes the old name from the first block of its directory and adds the new name, as a regular file, at
the end of the first block of the other one. It looks neither at whether the first step has found the name, nor at
whether the new name is there already, nor at the room left in the block. `vfs_rename_law` says when one name moves.
-/

namespace Desiros.Fs

open Desiros.Library

/-! ## Directories -/

/-- The inode of a directory. -/
def dirInode (fs : Ext2FsInstance) (d : Nat) : Ext2Inode := readInode fs noGarbage d

def firstBlock (fs : Ext2FsInstance) (d : Nat) : Nat := (dirInode fs d).iBlock 0

abbrev DirBlocks := List (List (Nat × DirRecord))

/-- The records of the first block. -/
def firstRecords (blocks : DirBlocks) : List (Nat × DirRecord) := blocks.headD []

theorem getElem_zero_firstRecords {blocks : DirBlocks} (h : 0 < blocks.length) : blocks[0] = firstRecords blocks := by
  cases blocks with
  | nil => exact absurd h (lt_irrefl 0)
  | cons b rest => rfl

/-- Inode `d` is `inode`, and its size and first block do not depend on what the memory holds. -/
structure InodeRead (fs : Ext2FsInstance) (d : Nat) (inode : Ext2Inode) : Prop where
  eq : dirInode fs d = inode
  size : ∀ g, (readInode fs g d).iSize = inode.iSize
  block : ∀ g, (readInode fs g d).iBlock 0 = inode.iBlock 0

/-- The directories `dirs` have the blocks `recs`. -/
def DirsHold (fs : Ext2FsInstance) (dirs : List Nat) (recs : Nat → DirBlocks) : Prop :=
  ∀ d ∈ dirs, InodeRead fs d (dirInode fs d) ∧ DirHolds fs (dirInode fs d) (recs d)

/-- The blocks `B` hold no inode of a directory and no pointer to its blocks. -/
def MapsApart (fs : Ext2FsInstance) (dirs : List Nat) (recs : Nat → DirBlocks) (B : Nat → Prop) : Prop :=
  ∀ m : Bytes, (∀ n, ¬ B (n / fs.blockSize) → m n = fs.disk n) → ∀ d ∈ dirs,
    InodeRead { fs with disk := m } d (dirInode fs d) ∧
      ∀ n < (recs d).length, formatBlock { fs with disk := m } (dirInode fs d) n = formatBlock fs (dirInode fs d) n

/-- The directories of an ext2 file system in the first 2 GiB of the disk. -/
structure DirTree (fs : Ext2FsInstance) (dirs : List Nat) (recs : Nat → DirBlocks) : Prop where
  blockSize : 0 < fs.blockSize ∧ fs.blockSize < 65536
  holds : DirsHold fs dirs recs
  nonempty : ∀ d ∈ dirs, recs d ≠ []
  first : ∀ d ∈ dirs, 0 < firstBlock fs d ∧ (firstBlock fs d + 1) * fs.blockSize ≤ 2 ^ 31
  /-- The first block of a directory is no other block of it, and none of another directory. -/
  once : ∀ d ∈ dirs, ∀ e ∈ dirs, ∀ n < (recs e).length, formatBlock fs (dirInode fs e) n = firstBlock fs d → e = d ∧ n = 0
  apart : MapsApart fs dirs recs fun b => ∃ d ∈ dirs, b = firstBlock fs d
  strings : ∀ d ∈ dirs, ∀ x ∈ firstRecords (recs d), 0 ∉ x.2.name
  aligned : ∀ d ∈ dirs, ∀ x ∈ firstRecords (recs d), 4 ∣ x.1
  distinctFirst : ∀ d ∈ dirs, (firstRecords (recs d)).Pairwise fun x y => x.2.name ≠ y.2.name
  distinct : ∀ d ∈ dirs, ((usedRecords (recs d)).map DirRecord.name).Nodup

/-! ## The law -/

/-- The entries in use of directory `d` without entry `r` of `p`. -/
def withoutEntry (recs : Nat → DirBlocks) (p : Nat) (r : DirRecord) (d : Nat) : List DirRecord :=
  if d = p then (usedRecords (recs d)).erase r else usedRecords (recs d)

/-- The first block of directory `d` when the name of entry `r` is removed from `p`. -/
def firstWithout (recs : Nat → DirBlocks) (p : Nat) (r : DirRecord) (d : Nat) : List (Nat × DirRecord) :=
  if d = p then withoutName r.name (firstRecords (recs d)) else firstRecords (recs d)

/-- The entries of directory `d` when entry `r` of `p` has become the entry `name` of `q`, of type `t`. -/
def renamedRecords (recs : Nat → DirBlocks) (p : Nat) (r : DirRecord) (q : Nat) (name : List UInt8) (t d : Nat) :
    List DirRecord :=
  if d = q then ⟨r.inode, name, t⟩ :: (withoutEntry recs p r d).filter (·.name ≠ name) else withoutEntry recs p r d

/-- The last record has room for a name behind its own. -/
def HasRoom (rs : List (Nat × DirRecord)) (name : List UInt8) : Prop :=
  ∃ init len x, rs = init ++ [(len, x)] ∧ dirEntrySize x.name.length + dirEntrySize name.length ≤ len

/-- The entry shares the first block with another one. -/
def Removable (blocks : DirBlocks) (r : DirRecord) : Prop :=
  ∃ pre len post rest, blocks = (pre ++ (len, r) :: post) :: rest ∧ pre ++ post ≠ []

/-- The entry shares the first block of `p` with another one and becomes a name that is not there, of a regular file,
with room in the first block of `q`. -/
structure RenameOk (recs : Nat → DirBlocks) (p : Nat) (r : DirRecord) (q : Nat) (name : List UInt8) : Prop where
  last : name ≠ [] ∧ name.length < 256
  removable : Removable (recs p) r
  free : ∀ x ∈ withoutEntry recs p r q, x.name ≠ name
  /-- A directory keeps its type only if it keeps its name. -/
  type : r.fileType = ext2FtRegFile ∨ q = p ∧ name = r.name
  room : HasRoom (firstWithout recs p r q) name

/-- The new name is there, as a name of the same inode, and the last record of the block has no byte to give. -/
structure FullLink (recs : Nat → DirBlocks) (p : Nat) (r : DirRecord) (q : Nat) (name : List UInt8) : Prop where
  linked : ∃ t, ⟨r.inode, name, t⟩ ∈ usedRecords (recs q)
  full : ∃ init x, firstWithout recs p r q = init ++ [(dirEntrySize x.name.length, x)]

section

variable (s : Vfs) (g : LookupGarbage) (fuel : Nat) (oldpath newpath : List UInt8) (nb : Nameidata Dentry)
  (mnt : MountedFs) (fs : Ext2FsInstance) (root : Dentry) (r : DirRecord) (dirs : List Nat) (recs : Nat → DirBlocks)

/-- The path leads to a directory of the mounted file system and a name in it. -/
structure LeadsTo (path : List UInt8) (nb : Nameidata Dentry) : Prop where
  path : s.openNamei g fuel true path = some (.ok nb)
  mnt : ∃ mnt', nb.mnt = some mnt' ∧ mnt'.inst = mnt.inst
  dir : nb.dentry.dInode.iIno ∈ dirs

/-- The old path leads to the entry `r`, and the new one to a directory of the same file system or nowhere. -/
structure RenameSetting : Prop where
  inst : s.inst mnt.inst = .ext2 fs root
  tree : DirTree fs dirs recs
  enough : ∀ d ∈ dirs, (firstRecords (recs d)).length < fuel
  old : LeadsTo s g fuel mnt dirs oldpath nb
  record : r ∈ usedRecords (recs nb.dentry.dInode.iIno) ∧ r.name = nb.last
  resolves : ∃ last, s.lookupLast g fuel mnt.inst nb = some last ∧ last.dentry.dName = r.name ∧
    last.dentry.dInode.iIno = r.inode
  new : (∃ e, s.openNamei g fuel true newpath = some (.error e)) ∨ ∃ nb', LeadsTo s g fuel mnt dirs newpath nb'

/-- The call returns 0 and the one entry `r` has become the new name, or it fails and `r` is still there. Where the new
name was there, its entry may keep a type of its own. -/
def RenameLaw : Prop :=
  ∃ e s' fs' recs', vfsRename s g fuel oldpath newpath = some (e, s') ∧ s'.inst mnt.inst = .ext2 fs' root ∧
    DirsHold fs' dirs recs' ∧
    (e = 0 ∧ (∃ nb' t, LeadsTo s g fuel mnt dirs newpath nb' ∧ nb'.last ≠ [] ∧
        (∀ d ∈ dirs, (usedRecords (recs' d)).Perm
          (renamedRecords recs nb.dentry.dInode.iIno r nb'.dentry.dInode.iIno nb'.last t d)) ∧
        ((∀ x ∈ usedRecords (recs nb'.dentry.dInode.iIno), x.name ≠ nb'.last) → t = r.fileType)) ∨
      e ≠ 0 ∧ r ∈ usedRecords (recs' nb.dentry.dInode.iIno))

end

/-! ## Records -/

section

theorem DirsHold.unique {fs : Ext2FsInstance} {dirs : List Nat} {recs recs' : Nat → DirBlocks} (hbs : 0 < fs.blockSize)
    (h : DirsHold fs dirs recs) (h' : DirsHold fs dirs recs') {d : Nat} (hd : d ∈ dirs) : recs d = recs' d :=
  (h d hd).2.unique hbs (h' d hd).2

end

/-! ## Writing the first block of a directory -/

/-- The directory `d` has `rs` in its first block. -/
def setFirst (recs : Nat → DirBlocks) (d : Nat) (rs : List (Nat × DirRecord)) : Nat → DirBlocks :=
  Function.update recs d (rs :: (recs d).tail)

section

variable {fs : Ext2FsInstance} {dirs : List Nat} {recs : Nat → DirBlocks} {d e : Nat} {m : Bytes}
  {rs : List (Nat × DirRecord)}

@[simp] theorem setFirst_self (recs : Nat → DirBlocks) (d : Nat) (rs : List (Nat × DirRecord)) :
    setFirst recs d rs d = rs :: (recs d).tail := Function.update_self _ _ _

theorem setFirst_of_ne (h : e ≠ d) : setFirst recs d rs e = recs e := Function.update_of_ne h _ _

theorem DirTree.recs_eq (h : DirTree fs dirs recs) (hd : d ∈ dirs) : recs d = firstRecords (recs d) :: (recs d).tail := by
  unfold firstRecords
  cases hblocks : recs d with
  | nil => exact absurd hblocks (h.nonempty d hd)
  | cons b rest => rfl

theorem DirTree.setFirst_length (h : DirTree fs dirs recs) (hd : d ∈ dirs) (e : Nat) :
    (setFirst recs d rs e).length = (recs e).length := by
  by_cases he : e = d
  · subst he
    rw [setFirst_self, h.recs_eq hd]
    rfl
  · rw [setFirst_of_ne he]

theorem DirTree.first_at (h : DirTree fs dirs recs) (hd : d ∈ dirs) : RecordsAt fs.disk (firstBlock fs d * fs.blockSize)
    (firstBlock fs d * fs.blockSize + fs.blockSize) (firstRecords (recs d)) := by
  obtain ⟨-, hholds⟩ := h.holds d hd
  rw [h.recs_eq hd] at hholds
  exact hholds.block 0 (Nat.zero_lt_succ _)

theorem DirTree.addr (h : DirTree fs dirs recs) (hd : d ∈ dirs) (g : Garbage) :
    addrInodeData fs g d 0 = firstBlock fs d * fs.blockSize := by
  obtain ⟨hread, hholds⟩ := h.holds d hd
  have hbs := h.blockSize.1
  have hlow := (h.first d hd).2
  have hsize : (dirInode fs d).iSize ≠ 0 := by
    rw [hholds.size]
    exact Nat.mul_ne_zero (mt List.length_eq_zero_iff.mp (h.nonempty d hd)) hbs.ne'
  rw [Nat.add_mul] at hlow
  unfold addrInodeData
  rw [getDataBlock_zero ((hread.size g).symm ▸ hsize), hread.block g]
  exact Nat.mod_eq_of_lt (by unfold firstBlock at hlow; omega)

/-- What is written to the first block of a directory becomes its records, and the other blocks stay. -/
theorem DirTree.write (h : DirTree fs dirs recs) (hd : d ∈ dirs)
    (hm : ∀ n, n / fs.blockSize ≠ firstBlock fs d → m n = fs.disk n)
    (hrs : RecordsAt m (firstBlock fs d * fs.blockSize) (firstBlock fs d * fs.blockSize + fs.blockSize) rs) :
    (∀ e ∈ dirs, dirInode { fs with disk := m } e = dirInode fs e) ∧
      DirsHold { fs with disk := m } dirs (setFirst recs d rs) := by
  have hmaps := h.apart m fun n hn => hm n fun heq => hn ⟨d, hd, heq⟩
  have hinode : ∀ e ∈ dirs, dirInode { fs with disk := m } e = dirInode fs e := fun e he => (hmaps e he).1.eq
  refine ⟨hinode, fun e he => ⟨?_, ?_⟩⟩
  · rw [hinode e he]
    exact (hmaps e he).1
  · obtain ⟨-, hholds⟩ := h.holds e he
    rw [hinode e he]
    refine ⟨hholds.size.trans (by rw [h.setFirst_length hd]; rfl), ?_⟩
    intro n hn
    have hn' : n < (recs e).length := h.setFirst_length hd e ▸ hn
    rw [(hmaps e he).2 n hn']
    by_cases hsame : formatBlock fs (dirInode fs e) n = firstBlock fs d
    · obtain ⟨rfl, rfl⟩ := h.once d hd e he n hn' hsame
      simp only [setFirst_self, List.getElem_cons_zero]
      rw [hsame]
      exact hrs
    · have hblock : (setFirst recs d rs e)[n] = (recs e)[n] := by
        by_cases hed : e = d
        · subst hed
          obtain ⟨n, rfl⟩ := Nat.exists_eq_succ_of_ne_zero fun h0 : n = 0 => hsame (by rw [h0]; rfl)
          simp only [setFirst_self, List.getElem_cons_succ, List.getElem_tail]
        · simp only [setFirst_of_ne hed]
      rw [hblock]
      refine (hholds.block n hn').congr ?_
      intro i hi hlt
      apply hm
      obtain ⟨t, rfl⟩ := Nat.exists_eq_add_of_le hi
      rw [pos_div (Nat.lt_of_add_lt_add_left hlt)]
      exact hsame

/-- What is written to the blocks `B` does not change that they hold no inode and no pointer. -/
theorem MapsApart.write {B : Nat → Prop} (h : MapsApart fs dirs recs B)
    (hm : ∀ n, ¬ B (n / fs.blockSize) → m n = fs.disk n) {recs' : Nat → DirBlocks}
    (hlength : ∀ e, (recs' e).length = (recs e).length) : MapsApart { fs with disk := m } dirs recs' B := by
  have hmaps := h m hm
  intro m' hm' e he
  have hinode : dirInode { fs with disk := m } e = dirInode fs e := (hmaps e he).1.eq
  obtain ⟨hread, hformat⟩ := h m' (fun n hn => (hm' n hn).trans (hm n hn)) e he
  rw [hinode]
  refine ⟨hread, fun n hn => ?_⟩
  rw [hlength] at hn
  exact (hformat n hn).trans ((hmaps e he).2 n hn).symm

theorem MapsApart.mono {B C : Nat → Prop} (h : MapsApart fs dirs recs B) (hsub : ∀ b, C b → B b) :
    MapsApart fs dirs recs C := fun m hm => h m fun n hn => hm n fun hc => hn (hsub _ hc)

/-- The directories stay well-formed. -/
theorem DirTree.keeps (h : DirTree fs dirs recs) (hd : d ∈ dirs)
    (hm : ∀ n, n / fs.blockSize ≠ firstBlock fs d → m n = fs.disk n)
    (hrs : RecordsAt m (firstBlock fs d * fs.blockSize) (firstBlock fs d * fs.blockSize + fs.blockSize) rs)
    (hstrings : ∀ x ∈ rs, 0 ∉ x.2.name) (haligned : ∀ x ∈ rs, 4 ∣ x.1)
    (hfirst : rs.Pairwise fun x y => x.2.name ≠ y.2.name)
    (hdistinct : ((usedRecords (rs :: (recs d).tail)).map DirRecord.name).Nodup) :
    DirTree { fs with disk := m } dirs (setFirst recs d rs) := by
  obtain ⟨hinode, hholds⟩ := h.write hd hm hrs
  have hblock : ∀ e ∈ dirs, firstBlock { fs with disk := m } e = firstBlock fs e := fun e he =>
    congrArg (fun inode => Ext2Inode.iBlock inode 0) (hinode e he)
  have hmaps := h.apart m fun n hn => hm n fun heq => hn ⟨d, hd, heq⟩
  have hrecs : ∀ P : DirBlocks → Prop, P (rs :: (recs d).tail) → (∀ e ∈ dirs, P (recs e)) →
      ∀ e ∈ dirs, P (setFirst recs d rs e) := by
    intro P hself hothers e he
    by_cases hed : e = d
    · rw [hed, setFirst_self]
      exact hself
    · rw [setFirst_of_ne hed]
      exact hothers e he
  refine ⟨h.blockSize, hholds, hrecs (· ≠ []) (List.cons_ne_nil _ _) h.nonempty, ?_, ?_, ?_,
    hrecs (fun b => ∀ x ∈ firstRecords b, 0 ∉ x.2.name) hstrings h.strings,
    hrecs (fun b => ∀ x ∈ firstRecords b, 4 ∣ x.1) haligned h.aligned,
    hrecs (fun b => (firstRecords b).Pairwise fun x y => x.2.name ≠ y.2.name) hfirst h.distinctFirst,
    hrecs (fun b => ((usedRecords b).map DirRecord.name).Nodup) hdistinct h.distinct⟩
  · intro e he
    rw [hblock e he]
    exact h.first e he
  · intro d' hd' e he n hn heq
    rw [hblock d' hd', hinode e he] at heq
    have hn' : n < (recs e).length := h.setFirst_length hd e ▸ hn
    rw [(hmaps e he).2 n hn'] at heq
    exact h.once d' hd' e he n hn' heq
  · refine (h.apart.write (fun n hn => hm n fun heq => hn ⟨d, hd, heq⟩) (h.setFirst_length hd)).mono ?_
    rintro b ⟨d', hd', rfl⟩
    exact ⟨d', hd', hblock d' hd'⟩

end

/-! ## The two steps -/

section

variable {fs : Ext2FsInstance} {dirs : List Nat} {recs : Nat → DirBlocks} {d fuel : Nat} {name : List UInt8}
  {r : DirRecord} {rs rs' : List (Nat × DirRecord)} {rest : DirBlocks}

theorem usedRecords_cons (rs : List (Nat × DirRecord)) (rest : DirBlocks) :
    usedRecords (rs :: rest) = (rs.map Prod.snd).filter (·.inode ≠ 0) ++ usedRecords rest := by
  unfold usedRecords
  rw [List.flatten_cons, List.map_append, List.filter_append]

theorem usedRecords_sublist (h : (rs.map Prod.snd).Sublist (rs'.map Prod.snd)) :
    (usedRecords (rs :: rest)).Sublist (usedRecords (rs' :: rest)) := by
  rw [usedRecords_cons, usedRecords_cons]
  exact (h.filter _).append_right _

/-- An entry in use that shares the first block goes. -/
theorem usedRecords_withoutName {pre post : List (Nat × DirRecord)} {len : Nat} (hpre : ∀ x ∈ pre, x.2.name ≠ r.name)
    (hne : pre ++ post ≠ []) (hr : r.inode ≠ 0) :
    (usedRecords (withoutName r.name (pre ++ (len, r) :: post) :: rest)).Perm
      ((usedRecords ((pre ++ (len, r) :: post) :: rest)).erase r) := by
  have hperm : (usedRecords ((pre ++ (len, r) :: post) :: rest)).Perm (r :: usedRecords ((pre ++ post) :: rest)) := by
    rw [usedRecords_cons, usedRecords_cons]
    simp only [List.map_append, List.map_cons, List.filter_append, List.append_assoc]
    rw [List.filter_cons, if_pos (decide_eq_true hr), List.cons_append]
    exact List.perm_middle
  have hsame : usedRecords (withoutName r.name (pre ++ (len, r) :: post) :: rest) = usedRecords ((pre ++ post) :: rest) := by
    rw [withoutName_split hpre rfl, if_neg hne, usedRecords_cons, usedRecords_cons, extendLast_records]
  rw [hsame]
  have herase := hperm.erase r
  rw [List.erase_cons_head] at herase
  exact herase.symm

theorem DirTree.usedRecords_removed (h : DirTree fs dirs recs) (hd : d ∈ dirs) (hr : r ∈ usedRecords (recs d))
    (hremovable : Removable (recs d) r) :
    (usedRecords (withoutName r.name (firstRecords (recs d)) :: (recs d).tail)).Perm ((usedRecords (recs d)).erase r) := by
  obtain ⟨pre, len, post, rest, hrecs, hne⟩ := hremovable
  have hdistinct := h.distinctFirst d hd
  rw [hrecs] at hr hdistinct ⊢
  have hpre : ∀ x ∈ pre, x.2.name ≠ r.name := fun x hx =>
    (List.pairwise_append.mp hdistinct).2.2 x hx _ List.mem_cons_self
  exact usedRecords_withoutName hpre hne (of_decide_eq_true (List.mem_filter.mp hr).2)

/-- An entry that is alone in the first block, or stands in another block, stays. -/
theorem DirTree.usedRecords_kept (h : DirTree fs dirs recs) (hd : d ∈ dirs) (hr : r ∈ usedRecords (recs d))
    (hremovable : ¬ Removable (recs d) r) :
    usedRecords (withoutName r.name (firstRecords (recs d)) :: (recs d).tail) = usedRecords (recs d) := by
  have hrecs := h.recs_eq hd
  rcases withoutName_cases r.name (firstRecords (recs d)) with ⟨heq, -⟩ | ⟨pre, x, post, hfirst, hx, hne, heq⟩
  · rw [heq, ← hrecs]
  · -- an entry of the name that is not in use
    have hzero : x.2.inode = 0 := by
      by_contra hused
      apply hremovable
      have hmem : x.2 ∈ usedRecords (recs d) := by
        rw [hrecs, hfirst, usedRecords_cons]
        apply List.mem_append_left
        exact List.mem_filter.mpr ⟨by simp, decide_eq_true hused⟩
      have hsame : x.2 = r := List.inj_on_of_nodup_map (h.distinct d hd) hmem hr hx
      refine ⟨pre, x.1, post, (recs d).tail, ?_, hne⟩
      rw [← hsame, ← hfirst]
      exact hrecs
    conv_rhs => rw [hrecs, hfirst]
    rw [heq, usedRecords_cons, usedRecords_cons, extendLast_records]
    simp [hzero]

/-- `remove_dir_entry` keeps the directories well-formed. -/
theorem DirTree.remove (h : DirTree fs dirs recs) (hd : d ∈ dirs) (hfuel : (firstRecords (recs d)).length < fuel)
    (g : Garbage) (name : List UInt8) : ∃ m, removeDirEntry fs g fuel d name = some { fs with disk := m } ∧
      (∀ n, n / fs.blockSize ≠ firstBlock fs d → m n = fs.disk n) ∧
      (∀ e ∈ dirs, dirInode { fs with disk := m } e = dirInode fs e) ∧
      DirTree { fs with disk := m } dirs (setFirst recs d (withoutName name (firstRecords (recs d)))) := by
  obtain ⟨hpos, hlow⟩ := h.first d hd
  rw [Nat.add_mul, Nat.one_mul] at hlow
  have hne : firstBlock fs d * fs.blockSize ≠ 0 := Nat.mul_ne_zero hpos.ne' h.blockSize.1.ne'
  obtain ⟨m, hrun, hkept, hrecords⟩ := @removeDirEntry_records fs g fuel d _ name _ (h.addr hd g) hne (h.first_at hd)
    hlow h.blockSize hfuel (h.strings d hd) (h.distinctFirst d hd)
  have hm : ∀ n, n / fs.blockSize ≠ firstBlock fs d → m n = fs.disk n := fun n hn => hkept n (outside_block hn)
  have hsub := withoutName_sublist name (firstRecords (recs d))
  refine ⟨m, hrun, hm, (h.write hd hm hrecords).1, h.keeps hd hm hrecords ?_ ?_ ?_ ?_⟩
  · intro x hx
    obtain ⟨y, hy, heq⟩ := List.mem_map.mp (hsub.subset (List.mem_map_of_mem hx))
    rw [← heq]
    exact h.strings d hd y hy
  · exact withoutName_aligned name (h.aligned d hd)
  · have hpairwise : ((firstRecords (recs d)).map Prod.snd).Pairwise fun x y => x.name ≠ y.name :=
      List.pairwise_map.mpr (h.distinctFirst d hd)
    exact (List.pairwise_map (f := Prod.snd) (R := fun x y : DirRecord => x.name ≠ y.name)).mp (hpairwise.sublist hsub)
  · have hdistinct := h.distinct d hd
    rw [h.recs_eq hd] at hdistinct
    exact hdistinct.sublist ((usedRecords_sublist hsub).map _)

/-- `add_dir_entry` where there is room. -/
theorem DirTree.add (h : DirTree fs dirs recs) (hd : d ∈ dirs) (hfuel : (firstRecords (recs d)).length < fuel)
    (g : Garbage) {type nInode len : Nat} {init : List (Nat × DirRecord)} {x : DirRecord} (hname : name.length < 256)
    (hinode : nInode < 2 ^ 32) (htype : type < 256) (hfirst : firstRecords (recs d) = init ++ [(len, x)])
    (hroom : dirEntrySize x.name.length + dirEntrySize name.length ≤ len) :
    ∃ m, addDirEntry fs g fuel d name type nInode = some { fs with disk := m } ∧
      DirsHold { fs with disk := m } dirs (setFirst recs d (init ++ [(dirEntrySize x.name.length, x),
        (len - dirEntrySize x.name.length, ⟨nInode, name, type⟩)])) := by
  have hlow := (h.first d hd).2
  rw [Nat.add_mul, Nat.one_mul] at hlow
  have hat := h.first_at hd
  rw [hfirst] at hat hfuel
  rw [List.length_append] at hfuel
  obtain ⟨m, hrun, hkept, hrecords⟩ := addDirEntry_records (h.addr hd g) hat (by omega) (Nat.lt_of_succ_lt hfuel) hname
    hroom hinode htype
  have hm : ∀ n, n / fs.blockSize ≠ firstBlock fs d → m n = fs.disk n := by
    intro n hn
    apply hkept
    rcases outside_block hn with hlt | hge
    · exact Or.inl (Nat.lt_of_lt_of_le hlt (Nat.le_add_right _ _))
    · exact Or.inr hge
  exact ⟨m, hrun, (h.write hd hm hrecords).2⟩

/-- `add_dir_entry` where there is no room: the directory stays as it was or is none any more. -/
theorem DirTree.add_full (h : DirTree fs dirs recs) (hd : d ∈ dirs) (hfuel : (firstRecords (recs d)).length < fuel)
    (hbehind : MapsApart fs dirs recs fun b => b = firstBlock fs d ∨ b = firstBlock fs d + 1) (g : Garbage)
    {type nInode len : Nat} {init : List (Nat × DirRecord)} {x : DirRecord} (hname : name.length < 256)
    (hinode : nInode < 2 ^ 32) (htype : type < 256) (hfirst : firstRecords (recs d) = init ++ [(len, x)])
    (hroom : ¬ dirEntrySize x.name.length + dirEntrySize name.length ≤ len) {fs' : Ext2FsInstance}
    (hrun : addDirEntry fs g fuel d name type nInode = some fs') {recs' : Nat → DirBlocks}
    (hholds : DirsHold fs' dirs recs') : len = dirEntrySize x.name.length ∧ recs' d = recs d := by
  have hlow := (h.first d hd).2
  have hbs := le_blockSize h.blockSize.1
  rw [Nat.add_mul, Nat.one_mul] at hlow
  have hat := h.first_at hd
  have haligned := h.aligned d hd (len, x) (by rw [hfirst]; simp)
  rw [hfirst] at hat hfuel
  rw [List.length_append] at hfuel
  obtain ⟨-, -, -, hfits, hend⟩ := recordsAt_append.mp hat
  have hfits : 8 + x.name.length ≤ len := hfits
  have hend : firstBlock fs d * fs.blockSize + recordBytes init + len = firstBlock fs d * fs.blockSize + fs.blockSize := hend
  have hlast : dirEntrySize x.name.length ≤ len := by
    obtain ⟨k, hk⟩ := haligned
    unfold dirEntrySize
    omega
  have hsize := dirEntrySize_le hname
  obtain ⟨m, hadd, hkept, hwritten, hlen, hrecord⟩ := addDirEntry_writes (h.addr hd g) hat (by omega)
    (Nat.lt_of_succ_lt hfuel) hname hlast hinode htype
  rw [hadd] at hrun
  obtain rfl := Option.some.inj hrun
  have hout : ∀ n, n / fs.blockSize ≠ firstBlock fs d → n / fs.blockSize ≠ firstBlock fs d + 1 → m n = fs.disk n := by
    intro n hn hn'
    apply hkept
    rcases outside_block hn with hlt | hge
    · exact Or.inl (Nat.lt_of_lt_of_le hlt (Nat.le_add_right _ _))
    · have hnext := outside_block hn'
      rw [Nat.succ_mul] at hnext
      unfold sizeofExt2Directory at hsize
      exact Or.inr (by omega)
  have hmaps := hbehind m (fun n hn => hout n (not_or.mp hn).1 (not_or.mp hn).2) d hd
  have hinode' : dirInode { fs with disk := m } d = dirInode fs d := hmaps.1.eq
  have hafter := (hholds d hd).2
  rw [hinode'] at hafter
  have hlength : (recs' d).length = (recs d).length :=
    Nat.eq_of_mul_eq_mul_right h.blockSize.1 (hafter.size.symm.trans (h.holds d hd).2.size)
  have hpos : 0 < (recs d).length := List.length_pos_of_ne_nil (h.nonempty d hd)
  -- in the first block
  have hpos' : 0 < (recs' d).length := hlength ▸ hpos
  have hzero : RecordsAt m (firstBlock fs d * fs.blockSize) (firstBlock fs d * fs.blockSize + fs.blockSize)
      (firstRecords (recs' d)) := by
    rw [← getElem_zero_firstRecords hpos']
    exact hafter.block 0 hpos'
  obtain ⟨rest, hrest, hatRest⟩ := hwritten.starts hzero (by omega)
  have hfull : len = dirEntrySize x.name.length ∧ rest = [] := by
    cases rest with
    | nil =>
      have hstop : firstBlock fs d * fs.blockSize + recordBytes init + dirEntrySize x.name.length =
        firstBlock fs d * fs.blockSize + fs.blockSize := hatRest
      exact ⟨by omega, rfl⟩
    | cons y rest =>
      exfalso
      obtain ⟨hylen, hyrecord, hyfits, -⟩ := hatRest
      rw [← hyrecord, hrecord, ← hylen, hlen] at hyfits
      have hyfits : 8 + name.length ≤ len - dirEntrySize x.name.length := hyfits
      obtain ⟨k, hk⟩ := haligned
      unfold dirEntrySize at hyfits hroom hlast
      omega
  obtain ⟨hlenEq, rfl⟩ := hfull
  refine ⟨hlenEq, List.ext_getElem hlength fun n hn hn' => ?_⟩
  by_cases hfirstBlock : n = 0
  · subst hfirstBlock
    rw [getElem_zero_firstRecords, getElem_zero_firstRecords, hrest, List.append_nil, ← hlenEq, hfirst]
  · have hblock := hafter.block n hn
    rw [hmaps.2 n hn'] at hblock
    have hother : formatBlock fs (dirInode fs d) n ≠ firstBlock fs d := fun heq =>
      hfirstBlock (h.once d hd d hd n hn' heq).2
    by_cases hbehindBlock : formatBlock fs (dirInode fs d) n = firstBlock fs d + 1
    · -- the new entry has length 0 there
      exfalso
      have hstart : formatBlock fs (dirInode fs d) n * fs.blockSize =
          firstBlock fs d * fs.blockSize + recordBytes init + dirEntrySize x.name.length := by
        rw [hbehindBlock, Nat.succ_mul]
        omega
      change RecordsAt m (formatBlock fs (dirInode fs d) n * fs.blockSize)
        (formatBlock fs (dirInode fs d) n * fs.blockSize + fs.blockSize) _ at hblock
      rw [hstart] at hblock
      cases hrecords : (recs' d)[n] with
      | nil =>
        rw [hrecords] at hblock
        have hnone : firstBlock fs d * fs.blockSize + recordBytes init + dirEntrySize x.name.length =
          firstBlock fs d * fs.blockSize + recordBytes init + dirEntrySize x.name.length + fs.blockSize := hblock
        omega
      | cons y rest =>
        rw [hrecords] at hblock
        obtain ⟨hylen, -, hyfits, -⟩ := hblock
        omega
    · refine hblock.unique (((h.holds d hd).2.block n hn').congr ?_)
      intro i hi hlt
      have hdiv : i / fs.blockSize = formatBlock fs (dirInode fs d) n := by
        obtain ⟨t, rfl⟩ := Nat.exists_eq_add_of_le hi
        exact pos_div (Nat.lt_of_add_lt_add_left hlt)
      exact hout i (hdiv ▸ hother) (hdiv ▸ hbehindBlock)

end

/-! ## The entries afterwards -/

section

variable {fs : Ext2FsInstance} {dirs : List Nat} {recs : Nat → DirBlocks} {d p q : Nat} {r new : DirRecord}
  {m : Bytes} {start stop : Nat} {rs : List (Nat × DirRecord)}

theorem RecordsAt.bounds (h : RecordsAt m start stop rs) :
    ∀ x ∈ rs.map Prod.snd, x.inode < 2 ^ 32 ∧ x.name.length < 256 := by
  induction rs generalizing start with
  | nil => exact fun x hx => absurd hx List.not_mem_nil
  | cons y rs ih =>
    obtain ⟨-, hrecord, -, hrest⟩ := h
    intro x hx
    rcases List.mem_cons.mp hx with rfl | hx
    · have hinode : (dirAt m start).inode < 2 ^ 32 := le32_lt m start
      have hname := nameLen_lt m start
      rw [← record_name_length, hrecord] at hname
      exact ⟨congrArg DirRecord.inode hrecord ▸ hinode, hname⟩
    · exact ih hrest x hx

theorem DirsHold.bounds (h : DirsHold fs dirs recs) (hd : d ∈ dirs) {x : DirRecord} (hx : x ∈ usedRecords (recs d)) :
    x.inode < 2 ^ 32 ∧ x.name.length < 256 := by
  obtain ⟨y, hy, rfl⟩ := List.mem_map.mp (List.mem_filter.mp hx).1
  obtain ⟨block, hblock, hy⟩ := List.mem_flatten.mp hy
  obtain ⟨n, hn, rfl⟩ := List.getElem_of_mem hblock
  exact ((h d hd).2.block n hn).bounds y.2 (List.mem_map_of_mem hy)

theorem firstRecords_setFirst (recs : Nat → DirBlocks) (p : Nat) (r : DirRecord) (d : Nat) :
    firstRecords (setFirst recs p (withoutName r.name (firstRecords (recs p))) d) = firstWithout recs p r d := by
  unfold firstWithout
  split_ifs with hd
  · rw [hd, setFirst_self]
    rfl
  · rw [setFirst_of_ne hd]

theorem firstWithout_length (recs : Nat → DirBlocks) (p : Nat) (r : DirRecord) (d : Nat) :
    (firstWithout recs p r d).length ≤ (firstRecords (recs d)).length := by
  unfold firstWithout
  split_ifs
  · exact withoutName_length _ _
  · exact le_rfl

/-- The entries behind the first step, if it has removed the entry. -/
theorem DirTree.used_removed (h : DirTree fs dirs recs) (hp : p ∈ dirs) (hr : r ∈ usedRecords (recs p))
    (hremovable : Removable (recs p) r) (d : Nat) :
    (usedRecords (setFirst recs p (withoutName r.name (firstRecords (recs p))) d)).Perm (withoutEntry recs p r d) := by
  unfold withoutEntry
  split_ifs with hd
  · rw [hd, setFirst_self]
    exact h.usedRecords_removed hp hr hremovable
  · rw [setFirst_of_ne hd]

/-- The entries behind the first step, if it has not. -/
theorem DirTree.used_kept (h : DirTree fs dirs recs) (hp : p ∈ dirs) (hr : r ∈ usedRecords (recs p))
    (hremovable : ¬ Removable (recs p) r) (d : Nat) :
    usedRecords (setFirst recs p (withoutName r.name (firstRecords (recs p))) d) = usedRecords (recs d) := by
  by_cases hd : d = p
  · rw [hd, setFirst_self]
    exact h.usedRecords_kept hp hr hremovable
  · rw [setFirst_of_ne hd]

/-- The entries behind the second step. -/
theorem used_added (h : DirTree fs dirs recs) (hq : q ∈ dirs) {init : List (Nat × DirRecord)} {len size rest : Nat}
    {x : DirRecord} (hfirst : firstRecords (recs q) = init ++ [(len, x)]) (hnew : new.inode ≠ 0) :
    (usedRecords (setFirst recs q (init ++ [(size, x), (rest, new)]) q)).Perm (new :: usedRecords (recs q)) := by
  rw [setFirst_self, h.recs_eq hq, usedRecords_cons, usedRecords_cons, hfirst]
  have hfilter : ∀ l : List DirRecord, (l ++ [x, new]).filter (fun y => decide (y.inode ≠ 0)) =
      (l ++ [x]).filter (fun y => decide (y.inode ≠ 0)) ++ [new] := by
    intro l
    rw [show l ++ [x, new] = l ++ [x] ++ [new] by simp, List.filter_append (l ++ [x]), List.filter_singleton,
      decide_eq_true hnew]
    rfl
  rw [List.map_append, List.map_append]
  show (List.filter _ (_ ++ [x, new]) ++ _).Perm _
  rw [hfilter, List.append_assoc]
  exact List.perm_middle

/-- A new entry in front of the others is the renamed one only if the name is not there and the types agree. -/
theorem perm_renamed {l : List DirRecord} {k t t' : Nat} {name : List UInt8}
    (h : (⟨k, name, t⟩ :: l).Perm (⟨k, name, t'⟩ :: l.filter (·.name ≠ name))) : (∀ x ∈ l, x.name ≠ name) ∧ t = t' := by
  have hlength := h.length_eq
  rw [List.length_cons, List.length_cons] at hlength
  have hall := List.length_filter_eq_length_iff.mp (Nat.succ.inj hlength).symm
  have hfree : ∀ x ∈ l, x.name ≠ name := fun x hx => of_decide_eq_true (hall x hx)
  refine ⟨hfree, ?_⟩
  have hmem := h.mem_iff.mp (List.mem_cons_self (a := (⟨k, name, t⟩ : DirRecord)))
  rcases List.mem_cons.mp hmem with heq | hin
  · exact congrArg DirRecord.fileType heq
  · exact absurd rfl (hfree _ (List.mem_of_mem_filter hin))

end

/-! ## The call -/

section

variable {s : Vfs} {g : LookupGarbage} {fuel : Nat} {oldpath newpath : List UInt8} {nb nb' : Nameidata Dentry}
  {mnt : MountedFs} {fs : Ext2FsInstance} {root : Dentry} {r : DirRecord} {dirs : List Nat} {recs : Nat → DirBlocks}

/-- The two steps of a call whose new path leads to a directory. -/
theorem RenameSetting.run (h : RenameSetting s g fuel oldpath newpath nb mnt fs root r dirs recs)
    (hnew : LeadsTo s g fuel mnt dirs newpath nb') : vfsRename s g fuel oldpath newpath =
      (removeDirEntry fs (g nb.dentry.dInode.iIno []) fuel nb.dentry.dInode.iIno r.name).bind fun fs₁ =>
        (addDirEntry fs₁ (g nb'.dentry.dInode.iIno []) fuel nb'.dentry.dInode.iIno nb'.last ext2FtRegFile r.inode).map
          fun fs₂ => (0, (s.setExt2 mnt.inst fs₁ root).setExt2 mnt.inst fs₂ root) := by
  obtain ⟨mnt₁, hmnt₁, hinst₁⟩ := h.old.mnt
  obtain ⟨mnt₂, hmnt₂, hinst₂⟩ := hnew.mnt
  obtain ⟨last, hlast, hname, hinode⟩ := h.resolves
  have hset : ∀ fs₁ : Ext2FsInstance, (s.setExt2 mnt.inst fs₁ root).inst mnt.inst = .ext2 fs₁ root := fun _ =>
    Function.update_self _ _ _
  unfold vfsRename
  rw [h.old.path]
  dsimp only
  rw [hmnt₁]
  dsimp only
  rw [hinst₁, h.inst]
  dsimp only
  rw [hlast, Option.bind_some, hnew.path]
  dsimp only
  rw [hmnt₂]
  dsimp only
  unfold ext2Rename
  rw [hinst₂, h.inst, hname, hinode]
  dsimp only
  simp only [hset, Option.map_bind, Option.map_map, Function.comp_def]

/-- The first step. -/
theorem RenameSetting.removed (h : RenameSetting s g fuel oldpath newpath nb mnt fs root r dirs recs) :
    ∃ m, removeDirEntry fs (g nb.dentry.dInode.iIno []) fuel nb.dentry.dInode.iIno r.name = some { fs with disk := m } ∧
      (∀ n, n / fs.blockSize ≠ firstBlock fs nb.dentry.dInode.iIno → m n = fs.disk n) ∧
      (∀ e ∈ dirs, dirInode { fs with disk := m } e = dirInode fs e) ∧
      DirTree { fs with disk := m } dirs (setFirst recs nb.dentry.dInode.iIno
        (withoutName r.name (firstRecords (recs nb.dentry.dInode.iIno)))) :=
  h.tree.remove h.old.dir (h.enough _ h.old.dir) (g nb.dentry.dInode.iIno []) r.name

/-- **One name moves** if the entry shares the first block of its directory with another one, its type is that of a
regular file, the new name is not there and the block has room for it. -/
theorem RenameSetting.law_of_ok (h : RenameSetting s g fuel oldpath newpath nb mnt fs root r dirs recs)
    (hnew : LeadsTo s g fuel mnt dirs newpath nb')
    (hok : RenameOk recs nb.dentry.dInode.iIno r nb'.dentry.dInode.iIno nb'.last) :
    RenameLaw s g fuel oldpath newpath nb mnt root r dirs recs := by
  have hr := h.record.1
  have hp := h.old.dir
  have hrun := h.run hnew
  obtain ⟨_, hremove, -, -, htree⟩ := h.removed
  rw [hremove, Option.bind_some] at hrun
  generalize hpdef : nb.dentry.dInode.iIno = p at *
  generalize hqdef : nb'.dentry.dInode.iIno = q at *
  have hq : q ∈ dirs := hqdef ▸ hnew.dir
  obtain ⟨init, len, x, hfirst, hroom⟩ := hok.room
  rw [← firstRecords_setFirst] at hfirst
  have hbounds := h.tree.holds.bounds hp hr
  have hzero : r.inode ≠ 0 := of_decide_eq_true (List.mem_filter.mp hr).2
  have hfuel : (firstRecords (setFirst recs p (withoutName r.name (firstRecords (recs p))) q)).length < fuel := by
    rw [firstRecords_setFirst]
    exact Nat.lt_of_le_of_lt (firstWithout_length recs p r q) (h.enough q hq)
  obtain ⟨m, hadd, hholds⟩ := htree.add hq hfuel (g q []) hok.last.2 hbounds.1 (show ext2FtRegFile < 256 by decide) hfirst
    hroom
  rw [hadd, Option.map_some] at hrun
  refine ⟨0, _, _, _, hrun, Function.update_self _ _ _, hholds, Or.inl ⟨rfl, nb', ext2FtRegFile, hnew, hok.last.1, ?_, ?_⟩⟩
  · intro d hd
    have hremoved := h.tree.used_removed hp hr hok.removable
    unfold renamedRecords
    rw [hpdef, hqdef]
    split_ifs with hdq
    · subst hdq
      have hfilter : (withoutEntry recs p r d).filter (·.name ≠ nb'.last) = withoutEntry recs p r d :=
        List.filter_eq_self.mpr fun x hx => decide_eq_true (hok.free x hx)
      rw [hfilter]
      have hadded : (⟨r.inode, nb'.last, ext2FtRegFile⟩ : DirRecord).inode ≠ 0 := hzero
      exact (used_added htree hd hfirst hadded).trans ((hremoved d).cons _)
    · rw [setFirst_of_ne hdq]
      exact hremoved d
  · intro hfree
    rcases hok.type with htype | ⟨hqp, hname⟩
    · exact htype.symm
    · rw [hqdef, hqp] at hfree
      exact absurd hname.symm (hfree r hr)

/-- The new name and the type of the entry, where the entries afterwards are those of the law. -/
theorem RenameSetting.ok_of_entries (h : RenameSetting s g fuel oldpath newpath nb mnt fs root r dirs recs) {p q t : Nat}
    (hp : p ∈ dirs) (hr : r ∈ usedRecords (recs p)) (hq : q ∈ dirs) {name : List UInt8} {recs' : Nat → DirBlocks}
    (hlaw : ∀ d ∈ dirs, (usedRecords (recs' d)).Perm (renamedRecords recs p r q name t d))
    (hadded : (usedRecords (recs' q)).Perm (⟨r.inode, name, ext2FtRegFile⟩ ::
      usedRecords (setFirst recs p (withoutName r.name (firstRecords (recs p))) q)))
    (hothers : ∀ d ∈ dirs, d ≠ q → usedRecords (recs' d) =
      usedRecords (setFirst recs p (withoutName r.name (firstRecords (recs p))) d)) :
    Removable (recs p) r ∧ (∀ x ∈ withoutEntry recs p r q, x.name ≠ name) ∧ t = ext2FtRegFile := by
  have hatQ := hadded.symm.trans (hlaw q hq)
  unfold renamedRecords at hatQ
  rw [if_pos rfl] at hatQ
  have herase : ((usedRecords (recs p)).erase r).length < (usedRecords (recs p)).length := by
    rw [List.length_erase_of_mem hr]
    exact Nat.sub_lt (List.length_pos_of_mem hr) Nat.one_pos
  have hremovable : Removable (recs p) r := by
    by_contra hkept
    have hused := h.tree.used_kept hp hr hkept
    by_cases hpq : p = q
    · subst hpq
      have hlength := hatQ.length_eq
      have hfilter := List.length_filter_le (fun x : DirRecord => decide (x.name ≠ name)) ((usedRecords (recs p)).erase r)
      rw [hused p] at hlength
      unfold withoutEntry at hlength
      rw [if_pos rfl, List.length_cons, List.length_cons] at hlength
      omega
    · have hatP := hlaw p hp
      unfold renamedRecords withoutEntry at hatP
      rw [hothers p hp hpq, hused p, if_neg hpq, if_pos rfl] at hatP
      exact absurd hatP.length_eq herase.ne'
  have hremoved := h.tree.used_removed hp hr hremovable q
  obtain ⟨hfree, htype⟩ := perm_renamed ((hremoved.symm.cons _).trans hatQ)
  exact ⟨hremovable, hfree, htype.symm⟩

/-- Where no inode of a directory and no pointer lies in or behind the first block of a directory, the law says that the
condition holds, or that nothing was to be done and the new entry lies behind the block. -/
theorem RenameSetting.ok_of_law (h : RenameSetting s g fuel oldpath newpath nb mnt fs root r dirs recs)
    (hbehind : MapsApart fs dirs recs fun b => ∃ d ∈ dirs, b = firstBlock fs d ∨ b = firstBlock fs d + 1)
    (hlaw : RenameLaw s g fuel oldpath newpath nb mnt root r dirs recs) :
    ∃ nb', LeadsTo s g fuel mnt dirs newpath nb' ∧
      (RenameOk recs nb.dentry.dInode.iIno r nb'.dentry.dInode.iIno nb'.last ∨
        FullLink recs nb.dentry.dInode.iIno r nb'.dentry.dInode.iIno nb'.last) := by
  obtain ⟨e, s', fs', recs', hcall, hinst, hholds, hcase⟩ := hlaw
  obtain rfl := vfsRename_zero h.old.path hcall
  obtain ⟨-, nb', t, hnew, hlast, hperm, htype⟩ := hcase.resolve_right fun herror => herror.1 rfl
  refine ⟨nb', hnew, ?_⟩
  have hr := h.record.1
  have hp := h.old.dir
  rw [h.run hnew] at hcall
  obtain ⟨m, hremove, hm, hinode, htree⟩ := h.removed
  rw [hremove, Option.bind_some] at hcall
  generalize nb.dentry.dInode.iIno = p at *
  have hq := hnew.dir
  generalize nb'.dentry.dInode.iIno = q at *
  obtain ⟨fs₂, hadd, hs'⟩ := Option.map_eq_some_iff.mp hcall
  obtain rfl : fs' = fs₂ := by
    rw [← (Prod.mk.inj hs').2] at hinst
    have hself : MountedInstance.ext2 fs₂ root = .ext2 fs' root := (Function.update_self _ _ _).symm.trans hinst
    cases hself
    rfl
  have hmem : (⟨r.inode, nb'.last, t⟩ : DirRecord) ∈ usedRecords (recs' q) := by
    rw [(hperm q hq).mem_iff]
    unfold renamedRecords
    rw [if_pos rfl]
    exact List.mem_cons_self
  have hname := (hholds.bounds hq hmem).2
  have hbounds := h.tree.holds.bounds hp hr
  have hzero : r.inode ≠ 0 := of_decide_eq_true (List.mem_filter.mp hr).2
  have hfuel : (firstRecords (setFirst recs p (withoutName r.name (firstRecords (recs p))) q)).length < fuel := by
    rw [firstRecords_setFirst]
    exact Nat.lt_of_le_of_lt (firstWithout_length recs p r q) (h.enough q hq)
  have hne : firstRecords (setFirst recs p (withoutName r.name (firstRecords (recs p))) q) ≠ [] := by
    intro hnil
    have hat := htree.first_at hq
    rw [hnil] at hat
    have hend := hat.stop_eq
    rw [recordBytes_nil] at hend
    have hbs := htree.blockSize.1
    omega
  obtain ⟨init, ⟨len, x⟩, hfirst⟩ := (List.eq_nil_or_concat' _).resolve_left hne
  by_cases hroom : dirEntrySize x.name.length + dirEntrySize nb'.last.length ≤ len
  · left
    obtain ⟨m₂, hadd', hholds₂⟩ := htree.add hq hfuel (g q []) hname hbounds.1 (show ext2FtRegFile < 256 by decide) hfirst
      hroom
    obtain rfl := Option.some.inj (hadd.symm.trans hadd')
    have hrecs : ∀ {d}, d ∈ dirs → recs' d = _ := fun hd => hholds.unique (by exact htree.blockSize.1) hholds₂ hd
    have hadded : (usedRecords (recs' q)).Perm (⟨r.inode, nb'.last, ext2FtRegFile⟩ ::
        usedRecords (setFirst recs p (withoutName r.name (firstRecords (recs p))) q)) := by
      rw [hrecs hq]
      exact used_added htree hq hfirst hzero
    obtain ⟨hremovable, hfree, ht⟩ := h.ok_of_entries hp hr hq hperm hadded fun d hd hdq => by
      rw [hrecs hd, setFirst_of_ne hdq]
    refine ⟨⟨hlast, hname⟩, hremovable, hfree, ?_, ?_⟩
    · by_cases habsent : ∀ y ∈ usedRecords (recs q), y.name ≠ nb'.last
      · exact Or.inl ((htype habsent).symm.trans ht)
      · -- the new name is the old one
        right
        push Not at habsent
        obtain ⟨y, hy, hyname⟩ := habsent
        have hgone : y ∉ withoutEntry recs p r q := fun hin => hfree y hin hyname
        unfold withoutEntry at hgone
        split_ifs at hgone with hqp
        · have hyr : y = r := by
            by_contra hyr
            exact hgone ((List.mem_erase_of_ne hyr).mpr hy)
          exact ⟨hqp, hyr ▸ hyname.symm⟩
        · exact absurd hy hgone
    · rw [firstRecords_setFirst] at hfirst
      exact ⟨init, len, x, hfirst, hroom⟩
  · right
    have hblock : firstBlock { fs with disk := m } q = firstBlock fs q :=
      congrArg (fun inode => Ext2Inode.iBlock inode 0) (hinode q hq)
    have hmaps : MapsApart { fs with disk := m } dirs (setFirst recs p (withoutName r.name (firstRecords (recs p))))
        fun b => b = firstBlock { fs with disk := m } q ∨ b = firstBlock { fs with disk := m } q + 1 := by
      rw [hblock]
      refine (hbehind.write ?_ (h.tree.setFirst_length hp)).mono fun b hb => ⟨q, hq, hb⟩
      exact fun n hn => hm n fun heq => hn ⟨p, hp, Or.inl heq⟩
    obtain ⟨hlen, hsame⟩ := htree.add_full hq hfuel hmaps (g q []) hname hbounds.1 (show ext2FtRegFile < 256 by decide)
      hfirst hroom hadd hholds
    rw [hlen, firstRecords_setFirst] at hfirst
    refine ⟨⟨t, ?_⟩, init, x, hfirst⟩
    rw [hsame] at hmem
    by_cases hqp : q = p
    · subst hqp
      rw [setFirst_self] at hmem
      rw [h.tree.recs_eq hq]
      exact (usedRecords_sublist (withoutName_sublist r.name (firstRecords (recs q)))).subset hmem
    · rwa [setFirst_of_ne hqp] at hmem

end

/-! ## A root directory with two files -/

/-- The disk of `fileFs`: the inode table in block 4, where the second inode is the root directory and the next ones are
files, and the entries `.`, `..`, `a` and `b` in block 5. -/
def fileDisk : Bytes := fun n =>
  match n with
  | 4225 => 0x40
  | 4229 => 4
  | 4250 => 2
  | 4264 => 5
  | 4353 => 0x80
  | 4378 => 1
  | 4481 => 0x80
  | 4506 => 1
  | 5120 => 2
  | 5124 => 12
  | 5126 => 1
  | 5127 => 2
  | 5128 => 46
  | 5132 => 2
  | 5136 => 12
  | 5138 => 2
  | 5139 => 2
  | 5140 => 46
  | 5141 => 46
  | 5144 => 3
  | 5148 => 12
  | 5150 => 1
  | 5151 => 1
  | 5152 => 97
  | 5156 => 4
  | 5160 => 0xDC
  | 5161 => 3
  | 5162 => 1
  | 5163 => 1
  | 5164 => 98
  | _ => 0

def fileFs : Ext2FsInstance := ⟨⟨0, 8, 128⟩, fun _ => ⟨4⟩, fileDisk⟩

def fileRoot : Dentry := ⟨[], ext2inode2Inode 2 (readInode fileFs noGarbage 2), none⟩

/-- The file system mounted under `m`. -/
def fileVfs : Vfs where
  mountList := [⟨0, [109]⟩]
  inst := fun _ => .ext2 fileFs fileRoot
  rootVfs := fileRoot

def fileRecs : Nat → DirBlocks := fun _ =>
  [[(12, ⟨2, [46], 2⟩), (12, ⟨2, [46, 46], 2⟩), (12, ⟨3, [97], 1⟩), (988, ⟨4, [98], 1⟩)]]

/-- `/m/` and a name. -/
def fileNb (name : List UInt8) : Nameidata Dentry := ⟨true, fileRoot, some ⟨0, [109]⟩, name⟩

/-- The root directory is read from block 4. -/
theorem readInode_fileFs (m : Bytes) (g : Garbage) : readInode { fileFs with disk := m } g 2 =
    ext2InodeAt fun i => if i < 128 then (if 128 + i < 1024 then m (4096 + (128 + i)) else g.behindBlock (128 + i))
      else g.bufInode i := by
  have hbs : Ext2FsInstance.blockSize { fileFs with disk := m } = 1024 := rfl
  unfold readInode getBlock readData
  rw [hbs]
  norm_num [fileFs]

theorem fileFs_readInode {m : Bytes} (hm : ∀ n, n / 1024 ≠ 5 → n / 1024 ≠ 6 → m n = fileDisk n) :
    InodeRead { fileFs with disk := m } 2 (dirInode fileFs 2) := by
  have hlow : ∀ i, i < 128 → m (4096 + (128 + i)) = fileDisk (4096 + (128 + i)) := fun i hi =>
    hm _ (by omega) (by omega)
  have hword : ∀ (g : Garbage) (pos : Nat), pos + 4 ≤ 128 →
      le32 (fun i => if i < 128 then (if 128 + i < 1024 then m (4096 + (128 + i)) else g.behindBlock (128 + i))
        else g.bufInode i) pos = le32 (fun i => fileDisk (4096 + (128 + i))) pos := by
    intro g pos hpos
    apply leWord_congr
    intro i hi
    rw [if_pos (by omega), if_pos (by omega), hlow _ (by omega)]
  have hread : ∀ g, (readInode { fileFs with disk := m } g 2).iSize = (dirInode fileFs 2).iSize ∧
      (readInode { fileFs with disk := m } g 2).iBlock 0 = (dirInode fileFs 2).iBlock 0 := by
    intro g
    rw [readInode_fileFs]
    exact ⟨hword g 4 (by decide), hword g 40 (by decide)⟩
  refine ⟨?_, fun g => (hread g).1, fun g => (hread g).2⟩
  unfold dirInode
  rw [readInode_fileFs, show readInode fileFs noGarbage 2 = _ from readInode_fileFs fileDisk noGarbage]
  apply congrArg
  funext i
  split_ifs with hi
  · exact hlow i hi
  · rfl
  · rfl

/-- Neither block 5 nor block 6 holds the inode of the root directory. -/
theorem fileFs_apart :
    MapsApart fileFs [2] fileRecs fun b => ∃ d ∈ [2], b = firstBlock fileFs d ∨ b = firstBlock fileFs d + 1 := by
  have hblock : firstBlock fileFs 2 = 5 := by decide +kernel
  intro m hm d hd
  rw [List.mem_singleton.mp hd]
  refine ⟨fileFs_readInode fun n hn hn' => hm n ?_, fun n hn => ?_⟩
  · rintro ⟨e, he, heq⟩
    rw [List.mem_singleton.mp he, hblock] at heq
    exact heq.elim hn hn'
  · obtain rfl : n = 0 := Nat.lt_one_iff.mp hn
    rfl

theorem fileFs_tree : DirTree fileFs [2] fileRecs where
  blockSize := by decide
  holds := by
    intro d hd
    rw [List.mem_singleton.mp hd]
    refine ⟨@fileFs_readInode fileDisk fun _ _ _ => rfl, by decide +kernel, ?_⟩
    intro n hn
    obtain rfl : n = 0 := Nat.lt_one_iff.mp hn
    refine ⟨?_, ?_, ?_, ?_, ?_, ?_, ?_, ?_, ?_, ?_, ?_, ?_, show _ = _ from ?_⟩ <;> decide +kernel
  nonempty := fun _ _ => List.cons_ne_nil _ _
  first := by
    have hblock : firstBlock fileFs 2 = 5 := by decide +kernel
    intro d hd
    rw [List.mem_singleton.mp hd, hblock]
    decide
  once := by
    intro d hd e he n hn _
    rw [List.mem_singleton.mp hd, List.mem_singleton.mp he]
    exact ⟨rfl, Nat.lt_one_iff.mp hn⟩
  apart := fileFs_apart.mono fun b ⟨d, hd, hb⟩ => ⟨d, hd, Or.inl hb⟩
  strings := fun _ _ => show ∀ x ∈ firstRecords (fileRecs 2), 0 ∉ x.2.name by decide
  aligned := fun _ _ => show ∀ x ∈ firstRecords (fileRecs 2), 4 ∣ x.1 by decide
  distinctFirst := fun _ _ => show (firstRecords (fileRecs 2)).Pairwise fun x y => x.2.name ≠ y.2.name by decide
  distinct := fun _ _ => show ((usedRecords (fileRecs 2)).map DirRecord.name).Nodup by decide

theorem fileVfs_setting {newpath : List UInt8} (hnew : (∃ e, fileVfs.openNamei (fun _ _ => noGarbage) 5 true newpath =
    some (.error e)) ∨ ∃ nb', LeadsTo fileVfs (fun _ _ => noGarbage) 5 ⟨0, [109]⟩ [2] newpath nb') :
    RenameSetting fileVfs (fun _ _ => noGarbage) 5 [47, 109, 47, 97] newpath (fileNb [97]) ⟨0, [109]⟩ fileFs fileRoot
      ⟨3, [97], 1⟩ [2] fileRecs where
  inst := rfl
  tree := fileFs_tree
  enough := fun _ _ => show (firstRecords (fileRecs 2)).length < 5 by decide
  old := ⟨rfl, ⟨_, rfl, rfl⟩, by decide⟩
  record := by decide
  resolves := ⟨_, rfl, rfl, rfl⟩
  new := hnew

end Desiros.Fs
