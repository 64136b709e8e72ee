import Desiros.Fs.Ext2

/-!
# Directory lookup (`find_dir_entry`, `ext2_lookup`)

`find_dir_entry` scans the entries of a directory for a name, used or not, and copies the first one it finds into
the buffer of `readdir_inode`; that it found none is dropped on the way, and the buffer is compared with the name
as it is. `ext2_lookup_law_iff` says for which directories, names and contents of the buffer a lookup is right.
The scan takes fuel, since a record of length 0 would keep it in its loop.
-/

namespace Desiros.Fs

open Desiros.Library

/-! ## The functions -/

structure Inode where
  iIno : Nat
  iMode : Nat
  iUid : Nat
  iGid : Nat
  iSize : Nat
  iAtime : Nat
  iCtime : Nat
  iMtime : Nat
  iDtime : Nat
  iNlink : Nat
  iBlocks : Nat
  iCount : Int

structure Dentry where
  dName : List UInt8
  dInode : Inode
  dPdentry : Option Dentry

structure Ext2Directory where
  inode : Nat
  recLen : Nat
  nameLen : Nat
  fileType : Nat
  name : Bytes

def enotdir : Int := 20

/-- The entry at byte `i` of a block. -/
def dirAt (block : Bytes) (i : Nat) : Ext2Directory where
  inode := le32 block i
  recLen := le16 block (i + 4)
  nameLen := (block (i + 6)).toNat
  fileType := (block (i + 7)).toNat
  name := fun j => block (i + 8 + j)

/-- The first `name_len` characters of the name. -/
def Ext2Directory.chars (d : Ext2Directory) : List UInt8 := slice d.name 0 d.nameLen

/-- `strcmp` on the characters before the zero. -/
def strcmp (dst src : List UInt8) : Int := if dst = src then 0 else 1

/-- A 32-bit word read as an `int`. -/
def toInt (n : Nat) : Int := if n < 2 ^ 31 then n else n - 2 ^ 32

section

variable (fs : Ext2FsInstance) (g : Garbage)

/-- The loop of `find_dir_entry`: `some none` is its result -1. -/
def findDirEntryLoop (dirInode : Ext2Inode) (name : List UInt8) :
    Nat → Bytes → Nat → Nat → Nat → Option (Option Ext2Directory)
  | 0, _, _, _, _ => none
  | fuel + 1, block, i, count, logical =>
    let dep := dirAt block i
    if strcmp (cString dep.chars) name = 0 then some (some dep)
    else
      let i := i + dep.recLen
      let count := (count + dep.recLen) % 2 ^ 32
      if dirInode.iSize ≤ count then some none
      else if fs.blockSize ≤ i then
        findDirEntryLoop dirInode name fuel (readData fs g (getDataBlock fs g dirInode (logical + 1 : Nat)))
          (i % fs.blockSize) count (logical + 1)
      else findDirEntryLoop dirInode name fuel block i count logical

def findDirEntry (fuel : Nat) (dirInode : Ext2Inode) (name : List UInt8) : Option (Option Ext2Directory) :=
  findDirEntryLoop fs g dirInode name fuel (readData fs g (getDataBlock fs g dirInode (0 : Nat))) 0 0 0

/-- The buffer `dep` behind the call of `find_dir_entry`, whose result is not looked at. -/
def readdirInode (fuel inode : Nat) (name : List UInt8) : Option Ext2Directory :=
  (findDirEntry fs g fuel (readInode fs g inode) name).map fun found => found.getD (dirAt g.dep 0)

def getinodeFromName (fuel inode : Nat) (name : List UInt8) : Option Int :=
  (readdirInode fs g fuel inode name).map fun dir =>
    if strcmp name (cString dir.chars) = 0 then toInt dir.inode else -enotdir

def ext2inode2Inode (ino : Nat) (einode : Ext2Inode) : Inode where
  iIno := ino
  iMode := einode.iMode
  iUid := einode.iUid
  iGid := einode.iGid
  iSize := einode.iSize
  iAtime := einode.iAtime
  iCtime := einode.iCtime
  iMtime := einode.iMtime
  iDtime := einode.iDtime
  iNlink := einode.iLinksCount % 256
  iBlocks := einode.iBlocks
  iCount := 0

/-- `ext2_lookup` behind `getinode_from_name`. `flags` is 0, so the branches for `O_CREAT`, `O_EXCL` and `O_TRUNC`
are never taken. -/
def ext2LookupEnd (dentry : Dentry) (name : List UInt8) (inode : Int) : Option Dentry :=
  if inode ≤ 0 then none
  else some
    { dName := name
      dInode := ext2inode2Inode inode.toNat (readInode fs g inode.toNat)
      dPdentry := some dentry }

def ext2Lookup (fuel : Nat) (dentry : Dentry) (name : List UInt8) : Option (Option Dentry) :=
  (getinodeFromName fs g fuel dentry.dInode.iIno name).map (ext2LookupEnd fs g dentry name)

end

/-! ## Well-formed directories -/

structure DirEntry where
  inode : Nat
  name : List UInt8
deriving DecidableEq, Repr

def Ext2Directory.entry (d : Ext2Directory) : DirEntry := ⟨d.inode, d.chars⟩

/-- The records of a block of `size` bytes, each of which holds its header and its name. -/
structure DirBlock (m : Bytes) (size : Nat) (entries : List DirEntry) : Prop where
  records : ∃ ps, Chain (fun p => (dirAt m p).recLen) 0 size ps ∧
    (∀ p ∈ ps, 8 + (dirAt m p).nameLen ≤ (dirAt m p).recLen) ∧ entries = ps.map fun p => (dirAt m p).entry

/-- A directory of the ext2 format with the entries of its blocks. -/
structure WellFormedDir (fs : Ext2FsInstance) (inode : Ext2Inode) (blocks : List (List DirEntry)) : Prop where
  blockSize : 0 < fs.blockSize
  size : inode.iSize = blocks.length * fs.blockSize
  block : ∀ n (h : n < blocks.length), DirBlock (formatData fs inode n) fs.blockSize blocks[n]
  /-- The name of an entry in use is a string. -/
  name : ∀ e ∈ blocks.flatten, e.inode ≠ 0 → 0 ∉ e.name
  distinct : blocks.flatten.Pairwise fun e f => e.inode ≠ 0 → f.inode ≠ 0 → e.name ≠ f.name

/-- The lookup returns, and returns a dentry for `k` exactly if an entry in use has the name and inode `k`. -/
def LookupLaw (fs : Ext2FsInstance) (g : Garbage) (dentry : Dentry) (name : List UInt8)
    (entries : List DirEntry) : Prop :=
  ∃ N r, (∀ fuel ≥ N, ext2Lookup fs g fuel dentry name = some r) ∧
    ∀ k, (∃ d, r = some d ∧ d.dInode.iIno = k) ↔ k ≠ 0 ∧ (⟨k, name⟩ : DirEntry) ∈ entries

/-- The scan finds the blocks: the ones it comes to before it meets the name are direct, and there is one. -/
structure ReachedBlocks (fs : Ext2FsInstance) (inode : Ext2Inode) (name : List UInt8)
    (blocks : List (List DirEntry)) : Prop where
  nonempty : blocks ≠ []
  direct : ∀ n < blocks.length, (∀ e ∈ (blocks.take n).flatten, cString e.name ≠ name) → DirectBlock fs inode n

/-- Where the scan and the buffer give the right answer. -/
structure NameDecided (g : Garbage) (name : List UInt8) (entries : List DirEntry) : Prop where
  /-- No unused entry of the name stands before the one in use. -/
  unused : ∀ pre e post, entries = pre ++ e :: post → e.inode ≠ 0 → e.name = name →
    ∀ d ∈ pre, d.inode = 0 → cString d.name ≠ name
  positive : ∀ e ∈ entries, e.name = name → e.inode < 2 ^ 31
  /-- Where no entry has the name, the buffer does not hold it with a positive inode. -/
  absent : (∀ e ∈ entries, cString e.name ≠ name) → cString (dirAt g.dep 0).chars = name →
    (dirAt g.dep 0).inode = 0 ∨ 2 ^ 31 ≤ (dirAt g.dep 0).inode

/-! ## The scan -/

theorem strcmp_eq_zero {a b : List UInt8} : strcmp a b = 0 ↔ a = b := by
  unfold strcmp
  split_ifs with h
  · exact iff_of_true rfl h
  · exact iff_of_false (by decide) h

section

variable {fs : Ext2FsInstance} {g : Garbage} {dirInode : Ext2Inode} {name : List UInt8} {m block : Bytes}
  {entries : List DirEntry}

/-- An entry that lies in the first `size` bytes is read from a copy of them. -/
theorem dirAt_congr {size p : Nat} (hblock : ∀ i < size, block i = m i)
    (hfit : 8 + (dirAt m p).nameLen ≤ (dirAt m p).recLen) (hend : p + (dirAt m p).recLen ≤ size) :
    (dirAt block p).recLen = (dirAt m p).recLen ∧ (dirAt block p).entry = (dirAt m p).entry := by
  have hlen : (dirAt block p).nameLen = (dirAt m p).nameLen := by
    show (block (p + 6)).toNat = (m (p + 6)).toNat
    rw [hblock (p + 6) (by omega)]
  have hinode : (dirAt block p).inode = (dirAt m p).inode := leWord_congr 4 p fun i hi => hblock _ (by omega)
  have hchars : (dirAt block p).chars = (dirAt m p).chars := by
    unfold Ext2Directory.chars
    rw [hlen]
    apply slice_congr
    intro i hi
    exact hblock (p + 8 + (0 + i)) (by omega)
  refine ⟨leWord_congr 2 (p + 4) fun i hi => hblock _ (by omega), ?_⟩
  unfold Ext2Directory.entry
  rw [hinode, hchars]

/-- Entries of the name, used or not. -/
def named (name : List UInt8) (e : DirEntry) : Bool := cString e.name = name

theorem findDirEntryLoop_succ (fuel i count logical : Nat) :
    findDirEntryLoop fs g dirInode name (fuel + 1) block i count logical =
      if strcmp (cString (dirAt block i).chars) name = 0 then some (some (dirAt block i))
      else if dirInode.iSize ≤ (count + (dirAt block i).recLen) % 2 ^ 32 then some none
      else if fs.blockSize ≤ i + (dirAt block i).recLen then
        findDirEntryLoop fs g dirInode name fuel (readData fs g (getDataBlock fs g dirInode (logical + 1 : Nat)))
          ((i + (dirAt block i).recLen) % fs.blockSize) ((count + (dirAt block i).recLen) % 2 ^ 32) (logical + 1)
      else findDirEntryLoop fs g dirInode name fuel block (i + (dirAt block i).recLen)
        ((count + (dirAt block i).recLen) % 2 ^ 32) logical := rfl

/-- The scan of the rest of a block: it finds the first entry of the name, or it goes on behind the block. -/
theorem findDirEntryLoop_block {logical nb : Nat} (hsize : dirInode.iSize = nb * fs.blockSize)
    (hsize_lt : dirInode.iSize < 2 ^ 32) (hlogical : logical < nb)
    (hblock : ∀ i < fs.blockSize, block i = m i) (fuel : Nat) : ∀ (ps : List Nat) (i : Nat), ps ≠ [] →
    Chain (fun p => (dirAt m p).recLen) i fs.blockSize ps →
    (∀ p ∈ ps, 8 + (dirAt m p).nameLen ≤ (dirAt m p).recLen) →
    (findDirEntryLoop fs g dirInode name (ps.length + fuel) block i (logical * fs.blockSize + i) logical).map
        (Option.map Ext2Directory.entry) =
      match (ps.map fun p => (dirAt m p).entry).find? (named name) with
      | some e => some (some e)
      | none =>
        if nb ≤ logical + 1 then some none
        else (findDirEntryLoop fs g dirInode name fuel
          (readData fs g (getDataBlock fs g dirInode (logical + 1 : Nat))) 0 ((logical + 1) * fs.blockSize)
          (logical + 1)).map (Option.map Ext2Directory.entry) := by
  intro ps
  induction ps with
  | nil => exact fun i hne => absurd rfl hne
  | cons p ps ih =>
    intro i _ hchain hfit
    cases hchain with
    | cons hpos hrest =>
      have hle := hrest.le
      obtain ⟨hrec, hentry⟩ := dirAt_congr hblock (hfit p List.mem_cons_self) hle
      have hchars : (dirAt block p).chars = (dirAt m p).chars := congrArg DirEntry.name hentry
      have hcount : logical * fs.blockSize + p + (dirAt m p).recLen ≤ dirInode.iSize := by
        have hmul : (logical + 1) * fs.blockSize ≤ nb * fs.blockSize := Nat.mul_le_mul_right _ hlogical
        rw [Nat.add_mul, Nat.one_mul] at hmul
        omega
      rw [List.length_cons, show ps.length + 1 + fuel = (ps.length + fuel) + 1 by omega, List.map_cons,
        findDirEntryLoop_succ]
      by_cases hname : named name (dirAt m p).entry = true
      · rw [List.find?_cons_of_pos hname, if_pos]
        · show some (some (dirAt block p).entry) = _
          rw [hentry]
        · rw [strcmp_eq_zero, hchars]
          exact of_decide_eq_true hname
      · have hother : ¬ strcmp (cString (dirAt block p).chars) name = 0 := by
          rw [strcmp_eq_zero, hchars]
          exact fun h => hname (decide_eq_true h)
        have hmod : (logical * fs.blockSize + p + (dirAt m p).recLen) % 2 ^ 32 =
            logical * fs.blockSize + (p + (dirAt m p).recLen) := by
          rw [Nat.mod_eq_of_lt (Nat.lt_of_le_of_lt hcount hsize_lt), Nat.add_assoc]
        rw [List.find?_cons_of_neg hname, if_neg hother, hrec, hmod]
        cases ps with
        | nil =>
          -- The record ends with the block.
          have hend : p + (dirAt m p).recLen = fs.blockSize := hrest.eq_of_nil
          have hnext : logical * fs.blockSize + fs.blockSize = (logical + 1) * fs.blockSize := by
            rw [Nat.add_mul, Nat.one_mul]
          have hlast : nb * fs.blockSize ≤ (logical + 1) * fs.blockSize ↔ nb ≤ logical + 1 :=
            Nat.mul_le_mul_right_iff (by omega)
          rw [hend, hnext, hsize, Nat.mod_self, List.length_nil, Nat.zero_add, if_pos (Nat.le_refl _),
            List.map_nil, List.find?_nil]
          dsimp only
          by_cases hnb : nb ≤ logical + 1
          · rw [if_pos hnb, if_pos (hlast.mpr hnb)]
            rfl
          · rw [if_neg hnb, if_neg fun h => hnb (hlast.mp h)]
        | cons q ps =>
          have hlt : p + (dirAt m p).recLen < fs.blockSize := hrest.lt_of_cons
          have hmore : ¬ dirInode.iSize ≤ logical * fs.blockSize + (p + (dirAt m p).recLen) := by
            have hmul : (logical + 1) * fs.blockSize ≤ nb * fs.blockSize := Nat.mul_le_mul_right _ hlogical
            rw [Nat.add_mul, Nat.one_mul] at hmul
            omega
          rw [if_neg hmore, if_neg (Nat.not_le_of_lt hlt)]
          exact ih _ (List.cons_ne_nil _ _) hrest fun r hr => hfit r (List.mem_cons_of_mem _ hr)

/-- The scan of the blocks from `logical` on, by induction on their number. -/
theorem findDirEntryLoop_blocks {nb : Nat} (hsize : dirInode.iSize = nb * fs.blockSize)
    (hsize_lt : dirInode.iSize < 2 ^ 32) (hbs : 0 < fs.blockSize) (fuel : Nat) (blocks : List (List DirEntry)) :
    ∀ logical, blocks ≠ [] → nb = logical + blocks.length →
    (∀ n (h : n < blocks.length), DirBlock (formatData fs dirInode (logical + n)) fs.blockSize blocks[n]) →
    (∀ n < blocks.length, (∀ e ∈ (blocks.take n).flatten, cString e.name ≠ name) →
      DirectBlock fs dirInode (logical + n)) →
    (findDirEntryLoop fs g dirInode name (blocks.flatten.length + fuel)
      (readData fs g (getDataBlock fs g dirInode logical)) 0 (logical * fs.blockSize) logical).map
        (Option.map Ext2Directory.entry) = some (blocks.flatten.find? (named name)) := by
  induction blocks with
  | nil => exact fun logical hne => absurd rfl hne
  | cons es rest ih =>
    intro logical _ hnb hblocks hdirect
    have hlen : (es :: rest).length = rest.length + 1 := List.length_cons
    have hlogical : logical < nb := by omega
    obtain ⟨ps, hchain, hfit, rfl⟩ := (hblocks 0 (by omega)).records
    have hdir : DirectBlock fs dirInode logical := hdirect 0 (by omega) fun e he => absurd he List.not_mem_nil
    have hbuffer : ∀ i < fs.blockSize,
        readData fs g (getDataBlock fs g dirInode logical) i = formatData fs dirInode logical i :=
      fun i hi => readData_direct hdir hsize hbs hlogical hi
    have hps : ps ≠ [] := by
      intro hnil
      rw [hnil] at hchain
      have := hchain.eq_of_nil
      omega
    have hscan := @findDirEntryLoop_block fs g dirInode name _ _ logical nb hsize hsize_lt hlogical hbuffer
      (rest.flatten.length + fuel) ps 0 hps hchain hfit
    rw [Nat.add_zero] at hscan
    rw [List.flatten_cons, List.length_append, List.length_map, Nat.add_assoc, hscan, List.find?_append]
    cases hfind : (ps.map fun p => (dirAt (formatData fs dirInode logical) p).entry).find? (named name) with
    | some e =>
      rfl
    | none =>
      dsimp only
      rw [Option.none_or]
      by_cases hrest : rest = []
      · have hlen0 : rest.length = 0 := List.length_eq_zero_iff.mpr hrest
        rw [if_pos (by omega), hrest]
        rfl
      · have hrest_pos := List.length_pos_of_ne_nil hrest
        rw [if_neg (by omega)]
        apply ih (logical + 1) hrest (by omega)
        · intro n hn
          have hblock := hblocks (n + 1) (by omega)
          rw [show logical + (n + 1) = logical + 1 + n by omega] at hblock
          exact hblock
        · intro n hn hnone
          rw [show logical + 1 + n = logical + (n + 1) by omega]
          apply hdirect (n + 1) (by omega)
          intro e he
          rw [List.take_succ_cons, List.flatten_cons] at he
          cases List.mem_append.mp he with
          | inl hin =>
            have hnot := List.find?_eq_none.mp hfind e hin
            exact fun heq => hnot (decide_eq_true heq)
          | inr hin => exact hnone e hin

theorem findDirEntry_eq {blocks : List (List DirEntry)} (h : WellFormedDir fs dirInode blocks)
    (hsize_lt : dirInode.iSize < 2 ^ 32) (hreached : ReachedBlocks fs dirInode name blocks) (fuel : Nat) :
    (findDirEntry fs g (blocks.flatten.length + fuel) dirInode name).map (Option.map Ext2Directory.entry) =
      some (blocks.flatten.find? (named name)) := by
  have hscan := @findDirEntryLoop_blocks fs g dirInode name blocks.length h.size hsize_lt h.blockSize fuel blocks 0
    hreached.nonempty (Nat.zero_add _).symm
  simp only [Nat.zero_add, Nat.zero_mul] at hscan
  exact hscan h.block hreached.direct

/-! ## The answer -/

/-- The inode that is found, or 0. -/
def foundInode (g : Garbage) (name : List UInt8) (entries : List DirEntry) : Nat :=
  match entries.find? (named name) with
  | some e => e.inode
  | none => if cString (dirAt g.dep 0).chars = name then (dirAt g.dep 0).inode else 0

def foundDentry (fs : Ext2FsInstance) (g : Garbage) (dentry : Dentry) (name : List UInt8) (inode : Nat) :
    Option Dentry :=
  if 0 < inode ∧ inode < 2 ^ 31 then
    some
      { dName := name
        dInode := ext2inode2Inode inode (readInode fs g inode)
        dPdentry := some dentry }
  else none

theorem foundDentry_iff {dentry : Dentry} {inode k : Nat} :
    (∃ d, foundDentry fs g dentry name inode = some d ∧ d.dInode.iIno = k) ↔
      0 < inode ∧ inode < 2 ^ 31 ∧ inode = k := by
  unfold foundDentry
  split_ifs with h
  · constructor
    · rintro ⟨d, hd, hk⟩
      rw [← Option.some.inj hd] at hk
      exact ⟨h.1, h.2, hk⟩
    · rintro ⟨-, -, hk⟩
      exact ⟨_, rfl, hk⟩
  · constructor
    · rintro ⟨d, hd, -⟩
      cases hd
    · rintro ⟨h0, hlt, -⟩
      exact absurd ⟨h0, hlt⟩ h

theorem ext2LookupEnd_toInt {dentry : Dentry} {inode : Nat} (hlt : inode < 2 ^ 32) :
    ext2LookupEnd fs g dentry name (toInt inode) = foundDentry fs g dentry name inode := by
  unfold ext2LookupEnd foundDentry toInt
  by_cases hsmall : inode < 2 ^ 31
  · rw [if_pos hsmall, Int.toNat_natCast]
    by_cases hpos : 0 < inode
    · rw [if_neg (by omega), if_pos ⟨hpos, hsmall⟩]
    · rw [if_pos (by omega), if_neg fun h => hpos h.1]
  · rw [if_neg hsmall, if_pos (by omega), if_neg fun h => hsmall h.2]

theorem WellFormedDir.inode_lt {blocks : List (List DirEntry)} (h : WellFormedDir fs dirInode blocks) {e : DirEntry}
    (he : e ∈ blocks.flatten) : e.inode < 2 ^ 32 := by
  obtain ⟨es, hes, he⟩ := List.mem_flatten.mp he
  obtain ⟨n, hn, rfl⟩ := List.getElem_of_mem hes
  obtain ⟨ps, -, -, heq⟩ := (h.block n hn).records
  rw [heq] at he
  obtain ⟨p, -, rfl⟩ := List.mem_map.mp he
  exact le32_lt _ p

/-- The entry that is found is in the buffer. -/
theorem ext2Lookup_found {dentry : Dentry} {fuel : Nat} {e : DirEntry}
    (hfind : (findDirEntry fs g fuel (readInode fs g dentry.dInode.iIno) name).map (Option.map Ext2Directory.entry) =
      some (some e)) (hnamed : named name e = true) (hlt : e.inode < 2 ^ 32) :
    ext2Lookup fs g fuel dentry name = some (foundDentry fs g dentry name e.inode) := by
  obtain ⟨found, hfound, hview⟩ := Option.map_eq_some_iff.mp hfind
  obtain ⟨dep, rfl, rfl⟩ := Option.map_eq_some_iff.mp hview
  have heq : strcmp name (cString dep.chars) = 0 := strcmp_eq_zero.mpr (of_decide_eq_true hnamed).symm
  have hlt : dep.inode < 2 ^ 32 := hlt
  unfold ext2Lookup getinodeFromName readdirInode
  rw [hfound]
  show some (ext2LookupEnd fs g dentry name
    (if strcmp name (cString dep.chars) = 0 then toInt dep.inode else -enotdir)) =
      some (foundDentry fs g dentry name dep.inode)
  rw [if_pos heq, ext2LookupEnd_toInt hlt]

/-- What a lookup returns, with enough fuel. -/
theorem ext2Lookup_eq {dentry : Dentry} {blocks : List (List DirEntry)}
    (h : WellFormedDir fs (readInode fs g dentry.dInode.iIno) blocks)
    (hreached : ReachedBlocks fs (readInode fs g dentry.dInode.iIno) name blocks) (fuel : Nat) :
    ext2Lookup fs g (blocks.flatten.length + fuel) dentry name =
      some (foundDentry fs g dentry name (foundInode g name blocks.flatten)) := by
  have hscan := @findDirEntry_eq fs g _ name blocks h (readInode_size_lt fs g _) hreached fuel
  unfold foundInode
  cases hfind : blocks.flatten.find? (named name) with
  | some e =>
    rw [hfind] at hscan
    exact ext2Lookup_found hscan (List.find?_some hfind) (h.inode_lt (List.mem_of_find?_eq_some hfind))
  | none =>
    -- The buffer is as it was.
    rw [hfind] at hscan
    obtain ⟨found, hfound, hview⟩ := Option.map_eq_some_iff.mp hscan
    obtain rfl := Option.map_eq_none_iff.mp hview
    unfold ext2Lookup getinodeFromName readdirInode
    rw [hfound]
    show some (ext2LookupEnd fs g dentry name
      (if strcmp name (cString (dirAt g.dep 0).chars) = 0 then toInt (dirAt g.dep 0).inode else -enotdir)) =
        some (foundDentry fs g dentry name
          (if cString (dirAt g.dep 0).chars = name then (dirAt g.dep 0).inode else 0))
    have hlt : (dirAt g.dep 0).inode < 2 ^ 32 := le32_lt g.dep 0
    by_cases heq : cString (dirAt g.dep 0).chars = name
    · rw [if_pos (strcmp_eq_zero.mpr heq.symm), if_pos heq, ext2LookupEnd_toInt hlt]
    · rw [if_neg fun h => heq (strcmp_eq_zero.mp h).symm, if_neg heq]
      rfl

/-- In front of the entry in use that has the name, no other entry in use has it. -/
theorem not_named_before (hname : ∀ e ∈ entries, e.inode ≠ 0 → 0 ∉ e.name)
    (hdistinct : entries.Pairwise fun e f => e.inode ≠ 0 → f.inode ≠ 0 → e.name ≠ f.name) {pre post : List DirEntry}
    {e d : DirEntry} (hsplit : entries = pre ++ e :: post) (hinode : e.inode ≠ 0) (heq : e.name = name)
    (hd : d ∈ pre) (hdname : named name d = true) : d.inode = 0 := by
  by_contra hd0
  have hmem : d ∈ entries := hsplit ▸ List.mem_append_left _ hd
  rw [hsplit, List.pairwise_append] at hdistinct
  apply hdistinct.2.2 d hd e List.mem_cons_self hd0 hinode
  rw [heq, ← of_decide_eq_true hdname, cString_of_not_mem (hname d hmem hd0)]

/-- The first entry of the name is the right answer. -/
theorem nameDecided_iff (hname : ∀ e ∈ entries, e.inode ≠ 0 → 0 ∉ e.name)
    (hdistinct : entries.Pairwise fun e f => e.inode ≠ 0 → f.inode ≠ 0 → e.name ≠ f.name) :
    (∀ k, (0 < foundInode g name entries ∧ foundInode g name entries < 2 ^ 31 ∧ foundInode g name entries = k) ↔
      k ≠ 0 ∧ (⟨k, name⟩ : DirEntry) ∈ entries) ↔ NameDecided g name entries := by
  have hfound : ∀ e, entries.find? (named name) = some e → foundInode g name entries = e.inode := by
    intro e he
    unfold foundInode
    rw [he]
  have hused : ∀ e ∈ entries, e.inode ≠ 0 → (named name e = true ↔ e.name = name) := by
    intro e he hinode
    unfold named
    rw [cString_of_not_mem (hname e he hinode), decide_eq_true_iff]
  constructor
  · intro hlaw
    refine ⟨fun pre e post hsplit hinode heq d hd hd0 hdname => ?_, fun e he heq => ?_, fun hnone hbuffer => ?_⟩
    · -- The scan stops at an unused entry.
      have hpre : (pre.find? (named name)).isSome := List.find?_isSome.mpr ⟨d, hd, decide_eq_true hdname⟩
      obtain ⟨f, hf⟩ := Option.isSome_iff_exists.mp hpre
      have hfirst : entries.find? (named name) = some f := by
        rw [hsplit, List.find?_append, hf, Option.some_or]
      have hf0 := not_named_before hname hdistinct hsplit hinode heq (List.mem_of_find?_eq_some hf)
        (List.find?_some hf)
      have hmem : e ∈ entries := hsplit ▸ List.mem_append_right _ List.mem_cons_self
      have hpos := ((hlaw e.inode).mpr ⟨hinode, heq ▸ hmem⟩).1
      rw [hfound f hfirst, hf0] at hpos
      exact Nat.lt_irrefl 0 hpos
    · by_cases hinode : e.inode = 0
      · omega
      · have := (hlaw e.inode).mpr ⟨hinode, heq ▸ he⟩
        omega
    · have hfind : entries.find? (named name) = none :=
        List.find?_eq_none.mpr fun e he h => hnone e he (of_decide_eq_true h)
      have hinode : foundInode g name entries = (dirAt g.dep 0).inode := by
        unfold foundInode
        rw [hfind]
        exact if_pos hbuffer
      by_contra hbad
      rw [not_or, Nat.not_le] at hbad
      obtain ⟨-, hmem⟩ := (hlaw (dirAt g.dep 0).inode).mp ⟨by omega, by omega, hinode⟩
      exact hnone _ hmem (cString_of_not_mem (hname _ hmem hbad.1))
  · intro hdecided k
    constructor
    · rintro ⟨hpos, hlt, rfl⟩
      refine ⟨Nat.ne_of_gt hpos, ?_⟩
      cases hfind : entries.find? (named name) with
      | some e =>
        have hmem := List.mem_of_find?_eq_some hfind
        rw [hfound e hfind] at hpos ⊢
        have heq := (hused e hmem (Nat.ne_of_gt hpos)).mp (List.find?_some hfind)
        rw [← heq]
        exact hmem
      | none =>
        have hnone : ∀ e ∈ entries, cString e.name ≠ name :=
          fun e he heq => List.find?_eq_none.mp hfind e he (decide_eq_true heq)
        unfold foundInode at hpos hlt
        rw [hfind] at hpos hlt
        dsimp only at hpos hlt
        split_ifs at hpos hlt with hbuffer
        · have := hdecided.absent hnone hbuffer
          omega
        · exact absurd hpos (Nat.lt_irrefl 0)
    · rintro ⟨hk, hmem⟩
      obtain ⟨pre, post, hsplit⟩ := List.append_of_mem hmem
      have hnamed : named name (⟨k, name⟩ : DirEntry) = true := (hused _ hmem hk).mpr rfl
      have hpre : pre.find? (named name) = none := by
        apply List.find?_eq_none.mpr
        intro d hd hdname
        have hd0 := not_named_before hname hdistinct hsplit hk rfl hd hdname
        exact hdecided.unused pre _ post hsplit hk rfl d hd hd0 (of_decide_eq_true hdname)
      have hfind : entries.find? (named name) = some ⟨k, name⟩ := by
        rw [hsplit, List.find?_append, hpre, Option.none_or, List.find?_cons_of_pos hnamed]
      rw [hfound _ hfind]
      exact ⟨Nat.pos_of_ne_zero hk, hdecided.positive _ hmem rfl, rfl⟩

/-- A lookup is right exactly if the inode it finds is. -/
theorem lookupLaw_iff {dentry : Dentry} {blocks : List (List DirEntry)}
    (h : WellFormedDir fs (readInode fs g dentry.dInode.iIno) blocks)
    (hreached : ReachedBlocks fs (readInode fs g dentry.dInode.iIno) name blocks) :
    LookupLaw fs g dentry name blocks.flatten ↔
      ∀ k, (0 < foundInode g name blocks.flatten ∧ foundInode g name blocks.flatten < 2 ^ 31 ∧
        foundInode g name blocks.flatten = k) ↔ k ≠ 0 ∧ (⟨k, name⟩ : DirEntry) ∈ blocks.flatten := by
  have hlookup : ∀ fuel ≥ blocks.flatten.length, ext2Lookup fs g fuel dentry name =
      some (foundDentry fs g dentry name (foundInode g name blocks.flatten)) := by
    intro fuel hfuel
    have heq := ext2Lookup_eq h hreached (fuel - blocks.flatten.length)
    rw [Nat.add_sub_cancel' hfuel] at heq
    exact heq
  constructor
  · rintro ⟨N, r, hr, hlaw⟩ k
    have hsame := (hr (max N blocks.flatten.length) (Nat.le_max_left _ _)).symm.trans
      (hlookup _ (Nat.le_max_right _ _))
    rw [← hlaw k, Option.some.inj hsame, foundDentry_iff]
  · intro hlaw
    refine ⟨blocks.flatten.length, _, hlookup, fun k => ?_⟩
    rw [foundDentry_iff, hlaw k]

/-- **A lookup is right**, in a directory whose blocks the scan finds, exactly if no unused entry of the name stands
before the one in use and the buffer does not hold a name that is not there. -/
theorem ext2_lookup_law_iff (fs : Ext2FsInstance) (g : Garbage) (dentry : Dentry) (name : List UInt8)
    (blocks : List (List DirEntry)) (h : WellFormedDir fs (readInode fs g dentry.dInode.iIno) blocks)
    (hreached : ReachedBlocks fs (readInode fs g dentry.dInode.iIno) name blocks) :
    LookupLaw fs g dentry name blocks.flatten ↔ NameDecided g name blocks.flatten :=
  (lookupLaw_iff h hreached).trans (nameDecided_iff h.name h.distinct)

end

/-! ## A directory with an unused entry -/

/-- Inode 2 is a directory of one block: an unused entry `a`, then `a` for inode 12 and `b` for inode 13. -/
def smallFs : Ext2FsInstance where
  superblock := ⟨0, 8, 128⟩
  groupDescTable := fun _ => ⟨5⟩
  disk := fun n => ([(5253, 4), (5288, 10), (10244, 12), (10246, 1), (10248, 97), (10252, 12), (10256, 12), (10258, 1),
    (10260, 97), (10264, 13), (10268, 0xE8), (10269, 3), (10270, 1), (10272, 98)].lookup n).getD 0

/-- The buffer of `readdir_inode` holds the name `c` with inode 7. -/
def smallGarbage : Garbage where
  dep := fun n => ([(0, 7), (6, 1), (8, 99)].lookup n).getD 0
  indBlock := fun _ => 0
  behindBlock := fun _ => 0
  bufInode := fun _ => 0

def smallRoot : Dentry := ⟨[], ext2inode2Inode 2 (readInode smallFs smallGarbage 2), none⟩

def smallBlocks : List (List DirEntry) := [[⟨0, [97]⟩, ⟨12, [97]⟩, ⟨13, [98]⟩]]

theorem smallRoot_wellFormed :
    WellFormedDir smallFs (readInode smallFs smallGarbage smallRoot.dInode.iIno) smallBlocks := by
  refine ⟨by decide, by decide, fun n hn => ?_, by decide, by decide⟩
  obtain rfl : n = 0 := Nat.lt_one_iff.mp hn
  refine ⟨[0, 12, 24], ?_, by decide, by rfl⟩
  apply Chain.cons
  · decide
  · apply Chain.cons
    · decide
    · apply Chain.cons
      · decide
      · exact Chain.nil _

theorem smallBlocks_reached (name : List UInt8) :
    ReachedBlocks smallFs (readInode smallFs smallGarbage smallRoot.dInode.iIno) name smallBlocks := by
  refine ⟨by decide, fun n hn _ => ?_⟩
  obtain rfl : n = 0 := Nat.lt_one_iff.mp hn
  exact ⟨by decide, by decide⟩

/-- The entry of `a` in use is not found, and `c` is found without an entry. -/
theorem ext2_lookup_unused_entry :
    WellFormedDir smallFs (readInode smallFs smallGarbage smallRoot.dInode.iIno) smallBlocks ∧
      ¬ LookupLaw smallFs smallGarbage smallRoot [97] smallBlocks.flatten ∧
      ¬ LookupLaw smallFs smallGarbage smallRoot [99] smallBlocks.flatten := by
  refine ⟨smallRoot_wellFormed, fun hlaw => ?_, fun hlaw => ?_⟩
  · have hfound := ((lookupLaw_iff smallRoot_wellFormed (smallBlocks_reached [97])).mp hlaw 12).mpr (by decide)
    exact absurd hfound (by decide)
  · have hfound := ((lookupLaw_iff smallRoot_wellFormed (smallBlocks_reached [99])).mp hlaw 7).mp (by decide)
    exact absurd hfound (by decide)

/-- The lookup of `b` finds inode 13. -/
theorem ext2_lookup_name_in_use : LookupLaw smallFs smallGarbage smallRoot [98] smallBlocks.flatten := by
  refine (ext2_lookup_law_iff smallFs smallGarbage smallRoot [98] smallBlocks smallRoot_wellFormed
    (smallBlocks_reached [98])).mpr ⟨fun pre e post hsplit _ _ d hd hd0 hdname => ?_, by decide, by decide⟩
  have hmem : d ∈ smallBlocks.flatten := hsplit ▸ List.mem_append_left _ hd
  have hunused : ∀ d ∈ smallBlocks.flatten, d.inode = 0 → cString d.name ≠ [98] := by decide
  exact hunused d hmem hd0 hdname

end Desiros.Fs
