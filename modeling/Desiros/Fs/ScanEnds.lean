import Desiros.Fs.AddRight
import Desiros.Library.Stalling

/-!
# Where the scans of a directory end (`find_dir_entry`, `add_dir_entry`, `remove_dir_entry`)

The three scans go on by the `rec_len` of the entries, which is whatever the disk holds. An entry of length 0 keeps
them where they are, and `find_dir_entry` reads the name, and the 264 bytes of a found entry, without asking whether
they lie in its buffer. `scansEnd_iff` says for which content of the disk the scans end and stay in the buffer.
-/

namespace Desiros.Fs

open Desiros.Library

/-! ## The property -/

section

variable (fs : Ext2FsInstance) (g : Garbage)

/-- The places in the buffer from which the loop of `find_dir_entry` reads, with the numbers of bytes. -/
def findDirEntryReads (dirInode : Ext2Inode) (name : List UInt8) : Nat → Bytes → Nat → Nat → Nat → List (Nat × Nat)
  | 0, _, _, _, _ => []
  | fuel + 1, block, i, count, logical =>
    let dep := dirAt block i
    -- `dep->name_len` and `dep->name`
    [(i + 6, 1), (i + 8, dep.nameLen)] ++
      if strcmp (cString dep.chars) name = 0 then [(i, sizeofExt2Directory)]
      else
        -- `dep->rec_len`
        (i + 4, 2) ::
          let i := i + dep.recLen
          let count := (count + dep.recLen) % 2 ^ 32
          if dirInode.iSize ≤ count then []
          else if fs.blockSize ≤ i then
            findDirEntryReads dirInode name fuel (readData fs g (getDataBlock fs g dirInode (logical + 1 : Nat)))
              (i % fs.blockSize) count (logical + 1)
          else findDirEntryReads dirInode name fuel block i count logical

/-- The scans for a name return, and `find_dir_entry` reads bytes of its buffer only. -/
structure ScansEnd (inode : Nat) (name : List UInt8) : Prop where
  find : ∃ fuel, (findDirEntry fs g fuel (readInode fs g inode) name).isSome
  add : ∀ type nInode, ∃ fuel, (addDirEntry fs g fuel inode name type nInode).isSome
  remove : ∃ fuel, (removeDirEntry fs g fuel inode name).isSome
  inside : ∀ fuel, ∀ x ∈ findDirEntryReads fs g (readInode fs g inode) name fuel
    (readData fs g (getDataBlock fs g (readInode fs g inode) (0 : Nat))) 0 0 0, 0 < x.2 → x.1 + x.2 ≤ fs.blockSize

end

/-! ## The scans on the bytes of the disk -/

/-- Where `find_dir_entry` is: the block that it has read, and how many bytes of the directory lie before the entry. -/
structure FindScan where
  logical : Nat
  count : Nat

/-- Where `remove_dir_entry` is: the bytes of the entry come from `src`, and its `rec_len` is `len` by now. -/
structure RemoveScan where
  src : Nat
  pos : Nat
  dec : Nat
  len : Nat

section

variable (fs : Ext2FsInstance) (g : Garbage) (inode : Ext2Inode) (name : List UInt8) (stop : Nat)

/-- The entry that `find_dir_entry` looks at. -/
def FindScan.entry (t : FindScan) : Ext2Directory :=
  dirAt (readData fs g (getDataBlock fs g inode (t.logical : Nat))) (t.count % fs.blockSize)

/-- The entry has the name. -/
def Ext2Directory.hasName (d : Ext2Directory) : Prop := cString d.chars = name

instance (d : Ext2Directory) : Decidable (d.hasName name) := inferInstanceAs (Decidable (_ = _))

/-- The next entry, in the same block or in the next one. -/
def FindScan.next (t : FindScan) : Option FindScan :=
  let d := t.entry fs g inode
  if d.hasName name ∨ inode.iSize ≤ t.count + d.recLen then none
  else some ⟨if fs.blockSize ≤ t.count % fs.blockSize + d.recLen then t.logical + 1 else t.logical, t.count + d.recLen⟩

/-- The next entry of the block that ends at `stop`. -/
def nextEntry (p : Nat) : Option Nat :=
  let len := (dirAt fs.disk p).recLen
  if p + len < stop then some (p + len) else none

/-- The `rec_len` of the entry at `p`, to which `dec` bytes are added if it is the last one. -/
def lengthWith (dec p : Nat) : Nat :=
  let len := (dirAt fs.disk p).recLen
  if 0 < dec ∧ stop ≤ p + len then (len + dec) % 65536 else len

/-- The bytes that are free in front of the next entry. -/
def RemoveScan.nextDec (t : RemoveScan) : Nat := if (dirAt fs.disk t.src).hasName name then t.len else t.dec

def RemoveScan.next (t : RemoveScan) : Option RemoveScan :=
  if t.pos + t.len < stop then
    some ⟨t.pos + t.len, t.pos + t.len, t.nextDec fs name, lengthWith fs stop (t.nextDec fs name) (t.pos + t.len)⟩
  else none

/-- An entry of length 0 and of another name. -/
def FindScan.Stalled (t : FindScan) : Prop :=
  ¬ (t.entry fs g inode).hasName name ∧ t.count < inode.iSize ∧ (t.entry fs g inode).recLen = 0

/-- The entry lies in its block: with its name, or with 264 bytes if it is the one to be found. -/
def FindScan.Inside (t : FindScan) : Prop :=
  if (t.entry fs g inode).hasName name then t.count % fs.blockSize + sizeofExt2Directory ≤ fs.blockSize
  else t.count % fs.blockSize + (if (t.entry fs g inode).nameLen = 0 then 7 else 8 + (t.entry fs g inode).nameLen) ≤
    fs.blockSize

/-- An entry of length 0, on the disk or by the sum of 16 bits, that has length 0 in the next turn again. -/
def RemoveScan.Stalled (t : RemoveScan) : Prop :=
  t.src = t.pos ∧ t.pos < stop ∧ t.len = 0 ∧ lengthWith fs stop (t.nextDec fs name) t.pos = 0

end

section

variable (fs : Ext2FsInstance) (g : Garbage) (inode : Nat) (name : List UInt8)

/-- The sums of positions and lengths are words. -/
structure NoWrap : Prop where
  blockSize : 0 < fs.blockSize
  addr : addrInodeData fs g inode 0 + fs.blockSize + 65536 ≤ 2 ^ 32
  size : (readInode fs g inode).iSize + 65536 ≤ 2 ^ 32

/-- Of the entries that the scans come to, none has length 0, and those that `find_dir_entry` looks at lie in their
blocks. -/
structure ScanFits : Prop where
  noWrap : NoWrap fs g inode
  find : ∀ t, ComesTo (FindScan.next fs g (readInode fs g inode) name) ⟨0, 0⟩ t →
    ¬ t.Stalled fs g (readInode fs g inode) name
  inside : ∀ t, ComesTo (FindScan.next fs g (readInode fs g inode) name) ⟨0, 0⟩ t →
    t.Inside fs g (readInode fs g inode) name
  add : ∀ p, ComesTo (nextEntry fs (addrInodeData fs g inode 0 + fs.blockSize)) (addrInodeData fs g inode 0) p →
    ¬ (p < addrInodeData fs g inode 0 + fs.blockSize ∧ (dirAt fs.disk p).recLen = 0)
  remove : addrInodeData fs g inode 0 ≠ 0 → ∀ t, ComesTo
    (RemoveScan.next fs name (addrInodeData fs g inode 0 + fs.blockSize))
    ⟨signExtend (addrInodeData fs g inode 0), addrInodeData fs g inode 0, 0,
      (dirAt fs.disk (signExtend (addrInodeData fs g inode 0))).recLen⟩ t →
    ¬ t.Stalled fs name (addrInodeData fs g inode 0 + fs.blockSize)

end

/-! ## `find_dir_entry` -/

section

variable {fs : Ext2FsInstance} {g : Garbage} {inode : Ext2Inode} {name : List UInt8} {t t' : FindScan} {fuel : Nat}

/-- The loop of `find_dir_entry` where the scan is at `t`. -/
def FindScan.loop (fs : Ext2FsInstance) (g : Garbage) (inode : Ext2Inode) (name : List UInt8) (fuel : Nat) (t : FindScan) :
    Option (Option Ext2Directory) :=
  findDirEntryLoop fs g inode name fuel (readData fs g (getDataBlock fs g inode (t.logical : Nat)))
    (t.count % fs.blockSize) t.count t.logical

def FindScan.reads (fs : Ext2FsInstance) (g : Garbage) (inode : Ext2Inode) (name : List UInt8) (fuel : Nat) (t : FindScan) :
    List (Nat × Nat) :=
  findDirEntryReads fs g inode name fuel (readData fs g (getDataBlock fs g inode (t.logical : Nat)))
    (t.count % fs.blockSize) t.count t.logical

theorem strcmp_chars (d : Ext2Directory) : strcmp (cString d.chars) name = 0 ↔ d.hasName name := strcmp_eq_zero

/-- The place of the next entry in the same block. -/
theorem add_mod_of_lt_mod {c len bs : Nat} (h : ¬ bs ≤ c % bs + len) : c % bs + len = (c + len) % bs := by
  rw [← Nat.mod_add_mod, Nat.mod_eq_of_lt (Nat.lt_of_not_le h)]

theorem FindScan.next_named (h : (t.entry fs g inode).hasName name) : t.next fs g inode name = none :=
  if_pos (.inl h)

theorem FindScan.next_last (h : inode.iSize ≤ t.count + (t.entry fs g inode).recLen) : t.next fs g inode name = none :=
  if_pos (.inr h)

section

variable (hsize : inode.iSize + 65536 ≤ 2 ^ 32) (hcount : t.count ≤ inode.iSize)

include hsize hcount

theorem FindScan.count_mod : (t.count + (t.entry fs g inode).recLen) % 2 ^ 32 = t.count + (t.entry fs g inode).recLen := by
  have hlt : (t.entry fs g inode).recLen < 65536 := leWord_lt _ 2 _
  exact Nat.mod_eq_of_lt (by omega)

/-- A turn of the loop. -/
theorem FindScan.loop_succ (fuel : Nat) : t.loop fs g inode name (fuel + 1) =
    if (t.entry fs g inode).hasName name then some (some (t.entry fs g inode))
    else (t.next fs g inode name).elim (some none) (FindScan.loop fs g inode name fuel) := by
  have hentry : dirAt (readData fs g (getDataBlock fs g inode (t.logical : Nat))) (t.count % fs.blockSize) =
    t.entry fs g inode := rfl
  unfold FindScan.loop
  rw [findDirEntryLoop_succ, hentry, FindScan.count_mod hsize hcount]
  simp only [strcmp_chars]
  split_ifs with hname hend hcross
  · rfl
  · rw [FindScan.next_last hend]
    rfl
  · rw [FindScan.next, if_neg (not_or.mpr ⟨hname, hend⟩), if_pos hcross]
    rw [Nat.mod_add_mod]
    rfl
  · rw [FindScan.next, if_neg (not_or.mpr ⟨hname, hend⟩), if_neg hcross]
    rw [add_mod_of_lt_mod hcross]
    rfl

theorem FindScan.reads_succ (fuel : Nat) : t.reads fs g inode name (fuel + 1) =
    [(t.count % fs.blockSize + 6, 1), (t.count % fs.blockSize + 8, (t.entry fs g inode).nameLen)] ++
      if (t.entry fs g inode).hasName name then [(t.count % fs.blockSize, sizeofExt2Directory)]
      else (t.count % fs.blockSize + 4, 2) ::
        (t.next fs g inode name).elim [] (FindScan.reads fs g inode name fuel) := by
  have hentry : dirAt (readData fs g (getDataBlock fs g inode (t.logical : Nat))) (t.count % fs.blockSize) =
    t.entry fs g inode := rfl
  unfold FindScan.reads
  rw [findDirEntryReads]
  dsimp only
  rw [hentry, FindScan.count_mod hsize hcount]
  simp only [strcmp_chars]
  congr 1
  split_ifs with hname hend hcross
  · rfl
  · rw [FindScan.next_last hend]
    rfl
  · rw [FindScan.next, if_neg (not_or.mpr ⟨hname, hend⟩), if_pos hcross]
    rw [Nat.mod_add_mod]
    rfl
  · rw [FindScan.next, if_neg (not_or.mpr ⟨hname, hend⟩), if_neg hcross]
    rw [add_mod_of_lt_mod hcross]
    rfl

end

theorem FindScan.next_eq_some (h : t.next fs g inode name = some t') :
    ¬ (t.entry fs g inode).hasName name ∧ t'.count = t.count + (t.entry fs g inode).recLen ∧ t'.count < inode.iSize := by
  unfold FindScan.next at h
  dsimp only at h
  by_cases hend : (t.entry fs g inode).hasName name ∨ inode.iSize ≤ t.count + (t.entry fs g inode).recLen
  · rw [if_pos hend] at h
    exact absurd h (by simp)
  · rw [if_neg hend] at h
    obtain rfl := Option.some.inj h
    exact ⟨fun hname => hend (.inl hname), rfl, Nat.lt_of_not_le fun hle => hend (.inr hle)⟩

/-- The loop as one of the library. -/
theorem FindScan.loop_isSome (hsize : inode.iSize + 65536 ≤ 2 ^ 32) : ∀ {fuel : Nat} {t : FindScan}, t.count ≤ inode.iSize →
    (t.loop fs g inode name fuel).isSome = (runLoop (FindScan.next fs g inode name) fuel t).isSome := by
  intro fuel
  induction fuel with
  | zero => exact fun _ => rfl
  | succ fuel ih =>
    intro t hcount
    rw [FindScan.loop_succ hsize hcount]
    split_ifs with hname
    · rw [runLoop_done (FindScan.next_named hname)]
      rfl
    · cases hturn : t.next fs g inode name with
      | none => rw [runLoop_done hturn]; rfl
      | some t' =>
        rw [runLoop_turn hturn]
        exact ih (FindScan.next_eq_some hturn).2.2.le

theorem FindScan.ends_iff (hbs : 0 < fs.blockSize) (t : FindScan) :
    (∃ fuel, (runLoop (FindScan.next fs g inode name) fuel t).isSome) ↔
      ∀ t', ComesTo (FindScan.next fs g inode name) t t' → ¬ t'.Stalled fs g inode name := by
  apply runLoop_ends_iff _ fun t => inode.iSize - t.count
  · intro t t' hturn hnot
    obtain ⟨hname, hcount, hlt⟩ := FindScan.next_eq_some hturn
    have hlen : (t.entry fs g inode).recLen ≠ 0 := fun h => hnot ⟨hname, by omega, h⟩
    show inode.iSize - t'.count < inode.iSize - t.count
    omega
  · intro t h
    obtain ⟨hname, hlt, hlen⟩ := h
    refine ⟨t, ?_, hname, hlt, hlen⟩
    have hplace := Nat.mod_lt t.count hbs
    unfold FindScan.next
    dsimp only
    rw [hlen, Nat.add_zero, if_neg (not_or.mpr ⟨hname, hlt.not_ge⟩), Nat.add_zero, if_neg hplace.not_ge]

/-- The reads of one turn. -/
theorem FindScan.inside_iff {t : FindScan} {rest : List (Nat × Nat)} :
    (∀ x ∈ [(t.count % fs.blockSize + 6, 1), (t.count % fs.blockSize + 8, (t.entry fs g inode).nameLen)] ++
      (if (t.entry fs g inode).hasName name then [(t.count % fs.blockSize, sizeofExt2Directory)]
      else (t.count % fs.blockSize + 4, 2) :: rest), 0 < x.2 → x.1 + x.2 ≤ fs.blockSize) ↔
    t.Inside fs g inode name ∧ (¬ (t.entry fs g inode).hasName name → ∀ x ∈ rest, 0 < x.2 → x.1 + x.2 ≤ fs.blockSize) := by
  have hlen : (t.entry fs g inode).nameLen < 256 := nameLen_lt _ _
  unfold FindScan.Inside
  by_cases hname : (t.entry fs g inode).hasName name
  · rw [if_pos hname, if_pos hname, and_iff_left (fun h => absurd hname h)]
    simp only [List.cons_append, List.nil_append, List.forall_mem_cons, List.not_mem_nil, false_imp_iff, implies_true,
      and_true]
    unfold sizeofExt2Directory
    omega
  · rw [if_neg hname, if_neg hname]
    simp only [List.cons_append, List.nil_append, List.forall_mem_cons]
    rw [← and_assoc, ← and_assoc, imp_iff_right hname]
    apply and_congr_left'
    split_ifs with hzero
    all_goals omega

theorem FindScan.reads_inside (hsize : inode.iSize + 65536 ≤ 2 ^ 32) {t : FindScan} (hcount : t.count ≤ inode.iSize) :
    (∀ fuel, ∀ x ∈ t.reads fs g inode name fuel, 0 < x.2 → x.1 + x.2 ≤ fs.blockSize) ↔
      ∀ t', ComesTo (FindScan.next fs g inode name) t t' → t'.Inside fs g inode name := by
  constructor
  · intro hreads t' hcomes
    induction hcomes using Relation.ReflTransGen.head_induction_on with
    | refl =>
      have hturn := hreads 1
      rw [FindScan.reads_succ hsize hcount, FindScan.inside_iff] at hturn
      exact hturn.1
    | head hturn _ ih =>
      obtain ⟨hname, -, hlt⟩ := FindScan.next_eq_some hturn
      apply ih hlt.le
      intro fuel
      have hnext := hreads (fuel + 1)
      rw [FindScan.reads_succ hsize hcount, FindScan.inside_iff, hturn] at hnext
      exact hnext.2 hname
  · intro hinside fuel
    induction fuel generalizing t with
    | zero => exact fun x hx => absurd hx List.not_mem_nil
    | succ fuel ih =>
      rw [FindScan.reads_succ hsize hcount, FindScan.inside_iff]
      refine ⟨hinside t ComesTo.refl, fun _ => ?_⟩
      cases hturn : t.next fs g inode name with
      | none => exact fun x hx => absurd hx List.not_mem_nil
      | some t' => exact ih (FindScan.next_eq_some hturn).2.2.le fun u hu => hinside u (ComesTo.head hturn hu)

end

/-! ## `add_dir_entry` -/

section

variable {fs : Ext2FsInstance} {g : Garbage} {addrDebut stop : Nat} {dir : Bytes} {p : Nat}

theorem beforeLast_lt (dir : Bytes) {fs' : Ext2FsInstance} (hsame : fs'.blockSize = fs.blockSize)
    (hlow : addrDebut + fs.blockSize + 65536 ≤ 2 ^ 32) (hp : p ≤ addrDebut + fs.blockSize) :
    beforeLast fs' addrDebut dir p ↔ p + (dirAt dir 0).recLen < addrDebut + fs.blockSize := by
  have hlt := recLen_lt dir 0
  unfold beforeLast
  rw [hsame, Nat.mod_eq_of_lt (show (dirAt dir 0).recLen + p < 2 ^ 32 by omega),
    Nat.mod_eq_of_lt (show addrDebut + fs.blockSize < 2 ^ 32 by omega), Nat.add_comm]

theorem nextEntry_of_lt (h : p + (dirAt fs.disk p).recLen < stop) :
    nextEntry fs stop p = some (p + (dirAt fs.disk p).recLen) := if_pos h

theorem nextEntry_of_not_lt (h : ¬ p + (dirAt fs.disk p).recLen < stop) : nextEntry fs stop p = none := if_neg h

theorem addDirEntryLoop_isSome (hlow : addrDebut + fs.blockSize + 65536 ≤ 2 ^ 32) : ∀ {fuel : Nat} {dir : Bytes} {p : Nat},
    Holds fs dir p → p ≤ addrDebut + fs.blockSize →
      (addDirEntryLoop fs addrDebut fuel dir p).isSome =
        (runLoop (nextEntry fs (addrDebut + fs.blockSize)) fuel p).isSome := by
  intro fuel
  induction fuel with
  | zero => exact fun _ _ => rfl
  | succ fuel ih =>
    intro dir p hdir hp
    have hlen := hdir.dirAt.1
    have hbefore := beforeLast_lt dir rfl hlow hp
    rw [hlen] at hbefore
    rw [addDirEntryLoop]
    by_cases hlt : p + (dirAt fs.disk p).recLen < addrDebut + fs.blockSize
    · rw [if_pos (hbefore.mpr hlt), runLoop_turn (nextEntry_of_lt hlt)]
      dsimp only
      rw [hlen, Nat.mod_eq_of_lt (show p + (dirAt fs.disk p).recLen < 2 ^ 32 by omega)]
      exact ih (holds_readInto fs dir _) hlt.le
    · rw [if_neg (hbefore.not.mpr hlt), runLoop_done (nextEntry_of_not_lt hlt)]
      rfl

theorem nextEntry_ends_iff (fs : Ext2FsInstance) (stop p : Nat) :
    (∃ fuel, (runLoop (nextEntry fs stop) fuel p).isSome) ↔
      ∀ q, ComesTo (nextEntry fs stop) p q → ¬ (q < stop ∧ (dirAt fs.disk q).recLen = 0) := by
  apply runLoop_ends_iff _ fun q => stop - q
  · intro q q' hturn hnot
    unfold nextEntry at hturn
    dsimp only at hturn
    split_ifs at hturn with hlt
    obtain rfl := Option.some.inj hturn
    have hlen : (dirAt fs.disk q).recLen ≠ 0 := fun h => hnot ⟨by omega, h⟩
    show stop - (q + _) < stop - q
    omega
  · intro q h
    refine ⟨q, ?_, h⟩
    unfold nextEntry
    dsimp only
    rw [h.2, Nat.add_zero, if_pos h.1]

theorem addDirEntry_isSome (inode type nInode fuel : Nat) (name : List UInt8) :
    (addDirEntry fs g fuel inode name type nInode).isSome = (addDirEntryLoop fs (addrInodeData fs g inode 0) fuel
      (readInto fs g.behindBlock sizeofExt2Directory (addrInodeData fs g inode 0)) (addrInodeData fs g inode 0)).isSome := by
  unfold addDirEntry
  exact Option.isSome_map

end

/-! ## `remove_dir_entry` -/

section

variable {fs : Ext2FsInstance} {g : Garbage} {addrDebut stop : Nat} {name : List UInt8} {s : RemoveState} {t : RemoveScan}

/-- The state of the loop where the scan is at `t`: from the next entry on the disk is as it was. -/
structure RemoveAt (fs : Ext2FsInstance) (s : RemoveState) (t : RemoveScan) : Prop where
  blockSize : s.fs.blockSize = fs.blockSize
  disk : ∀ n, t.pos + t.len ≤ n → s.fs.disk n = fs.disk n
  len : (dirAt s.dir 0).recLen = t.len
  record : (dirAt s.dir 0).record = (dirAt fs.disk t.src).record
  pos : s.curPos = t.pos
  dec : s.dec = t.dec
  dec_le : t.dec ≤ t.pos

/-- Before the first turn. -/
theorem RemoveAt.start (fs : Ext2FsInstance) (dep : Bytes) (src addr : Nat) :
    RemoveAt fs ⟨fs, readInto fs dep sizeofExt2Directory src, dep, addr, 0, 0⟩
      ⟨src, addr, 0, (dirAt fs.disk src).recLen⟩ := by
  have hdir := (holds_readInto fs dep src).dirAt
  exact ⟨rfl, fun _ _ => rfl, hdir.1, hdir.2.2, rfl, rfl, Nat.zero_le _⟩

/-- The length is kept in 16 bits. -/
theorem setRecLen_mod (dir : Bytes) (n : Nat) : setRecLen dir (n % 65536) = setRecLen dir n := by
  funext i
  unfold setRecLen
  congr 1
  · rw [← UInt8.toNat_inj, UInt8.toNat_ofNat', UInt8.toNat_ofNat']
    omega
  · congr 1
    rw [← UInt8.toNat_inj, UInt8.toNat_ofNat', UInt8.toNat_ofNat']
    omega

theorem RemoveAt.hasName (h : RemoveAt fs s t) :
    strcmp name (nameOf (terminateName s.dir)) = 0 ↔ (dirAt fs.disk t.src).hasName name := by
  have hchars : (dirAt (terminateName s.dir) 0).chars = (dirAt fs.disk t.src).chars :=
    congrArg DirRecord.name ((dirAt_terminateName s.dir).2.2.trans h.record)
  unfold nameOf
  rw [strcmp_eq_zero, hchars]
  exact eq_comm

theorem RemoveScan.next_of_lt (h : t.pos + t.len < stop) : t.next fs name stop = some ⟨t.pos + t.len, t.pos + t.len,
    t.nextDec fs name, lengthWith fs stop (t.nextDec fs name) (t.pos + t.len)⟩ := if_pos h

theorem RemoveScan.next_of_not_lt (h : ¬ t.pos + t.len < stop) : t.next fs name stop = none := if_neg h

/-- The next turn of the loop. -/
theorem RemoveAt.turn (hlow : addrDebut + fs.blockSize + 65536 ≤ 2 ^ 32) (h : RemoveAt fs s t)
    (hlt : t.pos + t.len < addrDebut + fs.blockSize) :
    RemoveAt fs (removeDirEntryTurn addrDebut name s) ⟨t.pos + t.len, t.pos + t.len, t.nextDec fs name,
      lengthWith fs (addrDebut + fs.blockSize) (t.nextDec fs name) (t.pos + t.len)⟩ := by
  have hdec : (if strcmp name (nameOf (terminateName s.dir)) = 0 then t.len else s.dec) = t.nextDec fs name := by
    simp only [h.hasName, h.dec]
    rfl
  have hpos : (s.curPos + t.len) % 2 ^ 32 = t.pos + t.len := by
    rw [h.pos]
    exact Nat.mod_eq_of_lt (by omega)
  have hle : t.nextDec fs name ≤ t.pos + t.len := by
    unfold RemoveScan.nextDec
    split_ifs
    · exact Nat.le_add_left _ _
    · exact h.dec_le.trans (Nat.le_add_right _ _)
  -- the entry that is read now is as it was
  have hsame := @dirAt_eq_of_agree fs.disk s.fs.disk (t.pos + t.len) (t.pos + t.len)
    fun i _ => h.disk _ (Nat.le_add_right _ _)
  have hnext := (holds_readInto s.fs (terminateName s.dir) (t.pos + t.len)).dirAt
  generalize hbuf : readInto s.fs (terminateName s.dir) sizeofExt2Directory (t.pos + t.len) = next at hnext
  rw [hsame.1, hsame.2.2] at hnext
  have hbefore := beforeLast_lt next h.blockSize hlow hlt.le
  rw [hnext.1] at hbefore
  unfold removeDirEntryTurn
  dsimp only
  rw [(dirAt_terminateName s.dir).1, h.len, hdec, hpos, hbuf]
  generalize hd : t.nextDec fs name = d at *
  by_cases hpositive : 0 < d
  · rw [if_pos hpositive]
    have hlast : (dirAt (if ¬ beforeLast s.fs addrDebut next (t.pos + t.len) then
          setRecLen next ((dirAt next 0).recLen + d) else next) 0).recLen =
        lengthWith fs (addrDebut + fs.blockSize) d (t.pos + t.len) ∧
        (dirAt (if ¬ beforeLast s.fs addrDebut next (t.pos + t.len) then
          setRecLen next ((dirAt next 0).recLen + d) else next) 0).record = (dirAt fs.disk (t.pos + t.len)).record := by
      unfold lengthWith
      dsimp only
      by_cases hmore : beforeLast s.fs addrDebut next (t.pos + t.len)
      · rw [if_neg (not_not.mpr hmore), if_neg fun hand => hand.2.not_gt (hbefore.mp hmore)]
        exact ⟨hnext.1, hnext.2.2⟩
      · obtain ⟨hlen, -, hrecord⟩ := dirAt_setRecLen next (Nat.mod_lt ((dirAt next 0).recLen + d) (show 65536 > 0 by decide))
        rw [setRecLen_mod] at hlen hrecord
        rw [if_pos hmore, if_pos ⟨hpositive, Nat.le_of_not_lt (hbefore.not.mp hmore)⟩, hlen, hrecord, hnext.1]
        exact ⟨rfl, hnext.2.2⟩
    generalize (if ¬ beforeLast s.fs addrDebut next (t.pos + t.len) then setRecLen next ((dirAt next 0).recLen + d)
      else next) = last at hlast ⊢
    have hback : (t.pos + t.len + 2 ^ 32 - d) % 2 ^ 32 = t.pos + t.len - d := by omega
    rw [hback, hlast.1]
    refine ⟨h.blockSize, fun n hn => ?_, hlast.1, hlast.2, rfl, rfl, hle⟩
    dsimp only at hn ⊢
    rw [writeData_disk_of_ne (.inr (by omega))]
    exact h.disk n (by omega)
  · rw [if_neg hpositive]
    refine ⟨h.blockSize, fun n hn => h.disk n (by dsimp only at hn; omega), ?_, hnext.2.2, rfl, rfl, hle⟩
    show (dirAt next 0).recLen = lengthWith fs _ d _
    unfold lengthWith
    dsimp only
    rw [if_neg fun hand => hpositive hand.1]
    exact hnext.1

theorem removeDirEntryLoop_isSome (hlow : addrDebut + fs.blockSize + 65536 ≤ 2 ^ 32) : ∀ {fuel : Nat} {s : RemoveState}
    {t : RemoveScan}, RemoveAt fs s t → t.pos ≤ addrDebut + fs.blockSize →
      (removeDirEntryLoop addrDebut name fuel s).isSome =
        (runLoop (RemoveScan.next fs name (addrDebut + fs.blockSize)) fuel t).isSome := by
  intro fuel
  induction fuel with
  | zero => exact fun _ _ => rfl
  | succ fuel ih =>
    intro s t h hp
    have hbefore := beforeLast_lt s.dir h.blockSize hlow hp
    rw [h.len] at hbefore
    rw [removeDirEntryLoop, h.pos]
    by_cases hlt : t.pos + t.len < addrDebut + fs.blockSize
    · rw [if_pos (hbefore.mpr hlt), runLoop_turn (RemoveScan.next_of_lt hlt)]
      exact ih (h.turn hlow hlt) hlt.le
    · rw [if_neg (hbefore.not.mpr hlt), runLoop_done (RemoveScan.next_of_not_lt hlt)]
      rfl

/-- Twice the bytes in front of `stop`, and something for an entry that is come to without a turn that goes on. -/
def RemoveScan.measure (stop : Nat) (t : RemoveScan) : Nat :=
  2 * (stop - t.pos) + if t.src ≠ t.pos then 2 else if t.len = 0 then 1 else 0

theorem RemoveScan.ends_iff (fs : Ext2FsInstance) (name : List UInt8) (stop : Nat) (t : RemoveScan) :
    (∃ fuel, (runLoop (RemoveScan.next fs name stop) fuel t).isSome) ↔
      ∀ t', ComesTo (RemoveScan.next fs name stop) t t' → ¬ t'.Stalled fs name stop := by
  apply runLoop_ends_iff _ (RemoveScan.measure stop)
  · intro t t' hturn hnot
    by_cases hlt : t.pos + t.len < stop
    · rw [RemoveScan.next_of_lt hlt] at hturn
      obtain rfl := Option.some.inj hturn
      unfold RemoveScan.measure
      dsimp only
      rw [if_neg (not_not.mpr rfl)]
      by_cases hzero : t.len = 0
      · rw [hzero, Nat.add_zero]
        by_cases hsrc : t.src = t.pos
        · have hnext : lengthWith fs stop (t.nextDec fs name) t.pos ≠ 0 := fun h => hnot ⟨hsrc, by omega, hzero, h⟩
          rw [if_neg hnext, if_neg (not_not.mpr hsrc), if_pos rfl]
          omega
        · rw [if_pos hsrc]
          split_ifs
          all_goals omega
      · split_ifs
        all_goals omega
    · rw [RemoveScan.next_of_not_lt hlt] at hturn
      exact absurd hturn (by simp)
  · intro t h
    obtain ⟨hsrc, hlt, hzero, hagain⟩ := h
    rw [RemoveScan.next_of_lt (by omega), hzero, Nat.add_zero, hagain]
    refine ⟨_, rfl, rfl, hlt, rfl, ?_⟩
    -- the bytes to add are the same, or there are none already
    have hdec : RemoveScan.nextDec fs name ⟨t.pos, t.pos, t.nextDec fs name, 0⟩ = t.nextDec fs name := by
      unfold RemoveScan.nextDec
      dsimp only
      rw [hsrc, hzero]
      split_ifs
      · rfl
      · rfl
    rw [hdec]
    exact hagain

theorem removeDirEntry_isSome (inode fuel : Nat) (name : List UInt8) (h : addrInodeData fs g inode 0 ≠ 0) :
    (removeDirEntry fs g fuel inode name).isSome = (removeDirEntryLoop (addrInodeData fs g inode 0) name fuel
      ⟨fs, readInto fs g.dep sizeofExt2Directory (signExtend (addrInodeData fs g inode 0)), g.dep,
        addrInodeData fs g inode 0, 0, 0⟩).isSome := by
  unfold removeDirEntry
  dsimp only
  rw [if_neg h]
  exact Option.isSome_map

end

/-! ## The law -/

section

variable {fs : Ext2FsInstance} {g : Garbage} {inode : Nat} {name : List UInt8}

theorem findDirEntry_ends_iff (h : NoWrap fs g inode) :
    (∃ fuel, (findDirEntry fs g fuel (readInode fs g inode) name).isSome) ↔
      ∀ t, ComesTo (FindScan.next fs g (readInode fs g inode) name) ⟨0, 0⟩ t →
        ¬ t.Stalled fs g (readInode fs g inode) name := by
  rw [← FindScan.ends_iff h.blockSize]
  apply exists_congr
  intro fuel
  rw [← FindScan.loop_isSome h.size (Nat.zero_le _)]
  unfold findDirEntry FindScan.loop
  dsimp only
  rw [Nat.zero_mod]

theorem addDirEntry_ends_iff (h : NoWrap fs g inode) (type nInode : Nat) :
    (∃ fuel, (addDirEntry fs g fuel inode name type nInode).isSome) ↔
      ∀ p, ComesTo (nextEntry fs (addrInodeData fs g inode 0 + fs.blockSize)) (addrInodeData fs g inode 0) p →
        ¬ (p < addrInodeData fs g inode 0 + fs.blockSize ∧ (dirAt fs.disk p).recLen = 0) := by
  rw [← nextEntry_ends_iff]
  apply exists_congr
  intro fuel
  rw [addDirEntry_isSome, addDirEntryLoop_isSome h.addr (holds_readInto fs g.behindBlock _) (Nat.le_add_right _ _)]

theorem removeDirEntry_ends_iff (h : NoWrap fs g inode) (haddr : addrInodeData fs g inode 0 ≠ 0) :
    (∃ fuel, (removeDirEntry fs g fuel inode name).isSome) ↔
      ∀ t, ComesTo (RemoveScan.next fs name (addrInodeData fs g inode 0 + fs.blockSize))
        ⟨signExtend (addrInodeData fs g inode 0), addrInodeData fs g inode 0, 0,
          (dirAt fs.disk (signExtend (addrInodeData fs g inode 0))).recLen⟩ t →
        ¬ t.Stalled fs name (addrInodeData fs g inode 0 + fs.blockSize) := by
  rw [← RemoveScan.ends_iff]
  apply exists_congr
  intro fuel
  rw [removeDirEntry_isSome inode fuel name haddr]
  apply Bool.eq_iff_iff.mp
  apply removeDirEntryLoop_isSome h.addr
  · exact RemoveAt.start fs g.dep _ _
  · dsimp only
    exact Nat.le_add_right _ _

theorem findDirEntry_inside_iff (h : NoWrap fs g inode) :
    (∀ fuel, ∀ x ∈ findDirEntryReads fs g (readInode fs g inode) name fuel
      (readData fs g (getDataBlock fs g (readInode fs g inode) (0 : Nat))) 0 0 0, 0 < x.2 → x.1 + x.2 ≤ fs.blockSize) ↔
      ∀ t, ComesTo (FindScan.next fs g (readInode fs g inode) name) ⟨0, 0⟩ t →
        t.Inside fs g (readInode fs g inode) name := by
  rw [← FindScan.reads_inside h.size (Nat.zero_le _)]
  unfold FindScan.reads
  dsimp only
  rw [Nat.zero_mod]

end

/-- One record without a name. -/
def oneRecord (len : Nat) : Bytes := fun t =>
  if t = 4 then UInt8.ofNat len else if t = 5 then UInt8.ofNat (len / 256) else 0

section

variable {len : Nat}

theorem oneRecord_addr (len : Nat) : addrInodeData (blockFs (oneRecord len)) noGarbage 2 0 = 9 * 1024 := by
  obtain ⟨hsize, hblock⟩ := blockFs_inode (oneRecord len) noGarbage
  have haddr := @getDataBlock_zero (blockFs (oneRecord len)) noGarbage _ (show (readInode _ _ 2).iSize ≠ 0 by rw [hsize]; decide)
  rw [hblock] at haddr
  exact haddr

theorem oneRecord_noWrap (len : Nat) : NoWrap (blockFs (oneRecord len)) noGarbage 2 := by
  refine ⟨show 0 < 1024 by decide, ?_, ?_⟩
  · rw [oneRecord_addr]
    show 9 * 1024 + 1024 + 65536 ≤ 2 ^ 32
    decide
  · rw [(blockFs_inode _ _).1]
    decide

/-- The record in any bytes. -/
theorem dirAt_oneRecord {m : Bytes} {p : Nat} (hlen : len < 65536) (hbytes : ∀ i < 8, m (p + i) = oneRecord len i) :
    (dirAt m p).recLen = len ∧ (dirAt m p).nameLen = 0 := by
  constructor
  · apply le16_bytes hlen
    · exact hbytes 4 (by decide)
    · exact hbytes 5 (by decide)
  · exact congrArg UInt8.toNat (hbytes 6 (by decide))

theorem oneRecord_disk (hlen : len < 65536) : (dirAt (blockFs (oneRecord len)).disk (9 * 1024)).recLen = len :=
  (dirAt_oneRecord hlen fun _ hi => blockFs_block _ (by omega)).1

/-- The record in the buffer of `find_dir_entry`. -/
theorem oneRecord_entry (hlen : len < 65536) :
    (FindScan.entry (blockFs (oneRecord len)) noGarbage (readInode (blockFs (oneRecord len)) noGarbage 2) ⟨0, 0⟩).recLen =
      len ∧
    (FindScan.entry (blockFs (oneRecord len)) noGarbage (readInode (blockFs (oneRecord len)) noGarbage 2) ⟨0, 0⟩).nameLen =
      0 := by
  have haddr := oneRecord_addr len
  unfold addrInodeData at haddr
  unfold FindScan.entry
  dsimp only
  rw [haddr, Nat.zero_mod]
  apply dirAt_oneRecord hlen
  intro i hi
  rw [Nat.zero_add]
  exact (if_pos (show i < 1024 by omega)).trans (blockFs_block _ (by omega))

end

end Desiros.Fs
