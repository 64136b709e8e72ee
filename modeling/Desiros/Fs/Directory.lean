import Desiros.Fs.Unlink

/-!
# Directories as lists of records (`add_dir_entry`)

`RecordsAt m p stop rs` says that the bytes from `p` up to `stop` are the directory records `rs`, one behind the
other, with their lengths. `addDirEntry_records` says what `add_dir_entry` makes of the first block of a directory:
the last record shrinks to what it needs, and the new one takes the rest.
-/

namespace Desiros.Fs

open Desiros.Library

/-- What an entry of a directory says. -/
structure DirRecord where
  inode : Nat
  name : List UInt8
  fileType : Nat
deriving DecidableEq, Repr

def Ext2Directory.record (d : Ext2Directory) : DirRecord := ⟨d.inode, d.chars, d.fileType⟩

/-- Records with their lengths, one behind the other from `p` up to `stop`. -/
def RecordsAt (m : Bytes) (p stop : Nat) : List (Nat × DirRecord) → Prop
  | [] => p = stop
  | x :: rs => (dirAt m p).recLen = x.1 ∧ (dirAt m p).record = x.2 ∧ 8 + x.2.name.length ≤ x.1 ∧
    RecordsAt m (p + x.1) stop rs

/-- The directory has the blocks `blocks`, given by their records. -/
structure DirHolds (fs : Ext2FsInstance) (inode : Ext2Inode) (blocks : List (List (Nat × DirRecord))) : Prop where
  size : inode.iSize = blocks.length * fs.blockSize
  block : ∀ n (h : n < blocks.length), RecordsAt fs.disk (formatBlock fs inode n * fs.blockSize)
    (formatBlock fs inode n * fs.blockSize + fs.blockSize) blocks[n]

/-- The entries in use. -/
def usedRecords (blocks : List (List (Nat × DirRecord))) : List DirRecord :=
  (blocks.flatten.map Prod.snd).filter (·.inode ≠ 0)

/-- The bytes that a list of records takes. -/
def recordBytes (rs : List (Nat × DirRecord)) : Nat := (rs.map Prod.fst).sum

/-! ## Records -/

section

variable {m m' : Bytes} {p stop : Nat} {rs rs' : List (Nat × DirRecord)}

@[simp] theorem recordBytes_nil : recordBytes [] = 0 := rfl

@[simp] theorem recordBytes_cons (x : Nat × DirRecord) (rs : List (Nat × DirRecord)) :
    recordBytes (x :: rs) = x.1 + recordBytes rs := List.sum_cons

@[simp] theorem recordBytes_append (rs rs' : List (Nat × DirRecord)) :
    recordBytes (rs ++ rs') = recordBytes rs + recordBytes rs' := by
  rw [recordBytes, List.map_append, List.sum_append]
  rfl

theorem nameLen_lt (m : Bytes) (p : Nat) : (dirAt m p).nameLen < 256 := UInt8.toNat_lt _

theorem record_name_length (m : Bytes) (p : Nat) : (dirAt m p).record.name.length = (dirAt m p).nameLen := by
  show (slice _ 0 (dirAt m p).nameLen).length = _
  rw [slice, List.length_map, List.length_range]

theorem recLen_lt (m : Bytes) (p : Nat) : (dirAt m p).recLen < 65536 := leWord_lt m 2 (p + 4)

theorem RecordsAt.stop_eq (h : RecordsAt m p stop rs) : stop = p + recordBytes rs := by
  induction rs generalizing p with
  | nil => exact h.symm
  | cons x rs ih =>
    rw [ih h.2.2.2, recordBytes_cons, Nat.add_assoc]

theorem recordsAt_append : RecordsAt m p stop (rs ++ rs') ↔
    RecordsAt m p (p + recordBytes rs) rs ∧ RecordsAt m (p + recordBytes rs) stop rs' := by
  induction rs generalizing p with
  | nil => exact (and_iff_right rfl).symm
  | cons x rs ih =>
    rw [List.cons_append, recordBytes_cons, ← Nat.add_assoc]
    constructor
    · rintro ⟨hlen, hrecord, hfits, hrest⟩
      obtain ⟨hfirst, hsecond⟩ := ih.mp hrest
      exact ⟨⟨hlen, hrecord, hfits, hfirst⟩, hsecond⟩
    · rintro ⟨⟨hlen, hrecord, hfits, hrest⟩, hsecond⟩
      exact ⟨hlen, hrecord, hfits, ih.mpr ⟨hrest, hsecond⟩⟩

/-- An entry whose header and name are the same bytes. -/
theorem dirAt_eq_of_agree {q : Nat} (hagree : ∀ i < 8 + (dirAt m p).nameLen, m' (q + i) = m (p + i)) :
    (dirAt m' q).recLen = (dirAt m p).recLen ∧ (dirAt m' q).nameLen = (dirAt m p).nameLen ∧
      (dirAt m' q).record = (dirAt m p).record := by
  have hshift : ∀ n k, (∀ i < n, m' (q + k + i) = m (p + k + i)) → leWord m' (q + k) n = leWord m (p + k) n := by
    intro n k hbytes
    have hmove : ∀ (x : Bytes) (a b n : Nat), leWord (fun i => x (a + i)) b n = leWord x (a + b) n := by
      intro x a b n
      induction n generalizing b with
      | zero => rfl
      | succ n ih =>
        unfold leWord
        rw [ih]
        rfl
    rw [← Nat.add_zero (q + k), ← Nat.add_zero (p + k), ← hmove, ← hmove]
    apply leWord_congr
    intro i hi
    rw [Nat.zero_add]
    exact hbytes i hi
  have hlen : (dirAt m' q).nameLen = (dirAt m p).nameLen := congrArg UInt8.toNat (hagree 6 (by omega))
  have htype : (dirAt m' q).fileType = (dirAt m p).fileType := congrArg UInt8.toNat (hagree 7 (by omega))
  have hinode : (dirAt m' q).inode = (dirAt m p).inode := by
    have h := hshift 4 0 fun i hi => hagree i (by omega)
    exact h
  have hchars : (dirAt m' q).chars = (dirAt m p).chars := by
    unfold Ext2Directory.chars
    rw [hlen]
    unfold slice
    apply List.map_congr_left
    intro i hi
    have hi := List.mem_range.mp hi
    have h := hagree (8 + i) (by omega)
    rw [Nat.zero_add]
    rw [← Nat.add_assoc, ← Nat.add_assoc] at h
    exact h
  refine ⟨?_, hlen, ?_⟩
  · apply hshift 2 4
    intro i hi
    rw [Nat.add_assoc, Nat.add_assoc]
    exact hagree (4 + i) (by omega)
  · unfold Ext2Directory.record
    rw [hinode, hchars, htype]

/-- Records in bytes that are the same. -/
theorem RecordsAt.congr (h : RecordsAt m p stop rs) (hagree : ∀ i, p ≤ i → i < stop → m' i = m i) :
    RecordsAt m' p stop rs := by
  induction rs generalizing p with
  | nil => exact h
  | cons x rs ih =>
    obtain ⟨hlen, hrecord, hfits, hrest⟩ := h
    have hstop := hrest.stop_eq
    have hname := record_name_length m p
    rw [hrecord] at hname
    obtain ⟨hlen', -, hrecord'⟩ := @dirAt_eq_of_agree m m' p p fun i hi => hagree (p + i) (by omega) (by omega)
    exact ⟨hlen'.trans hlen, hrecord'.trans hrecord, hfits, ih hrest fun i hi hlt => hagree i (by omega) hlt⟩

/-- The same records elsewhere. -/
theorem RecordsAt.shift {q stop' : Nat} (h : RecordsAt m p stop rs) (hstop : stop' + p = stop + q)
    (hagree : ∀ i, p + i < stop → m' (q + i) = m (p + i)) : RecordsAt m' q stop' rs := by
  induction rs generalizing p q with
  | nil =>
    have heq : p = stop := h
    show q = stop'
    omega
  | cons x rs ih =>
    obtain ⟨hlen, hrecord, hfits, hrest⟩ := h
    have hend := hrest.stop_eq
    have hname := record_name_length m p
    rw [hrecord] at hname
    obtain ⟨hlen', -, hrecord'⟩ := @dirAt_eq_of_agree m m' p q fun i hi => hagree i (by omega)
    refine ⟨hlen'.trans hlen, hrecord'.trans hrecord, hfits, ih hrest (by omega) fun i hi => ?_⟩
    rw [Nat.add_assoc, Nat.add_assoc]
    exact hagree (x.1 + i) (by omega)

/-- The bytes determine the records. -/
theorem RecordsAt.starts {q : Nat} (h : RecordsAt m p q rs) (h' : RecordsAt m p stop rs') (hle : q ≤ stop) :
    ∃ rest, rs' = rs ++ rest ∧ RecordsAt m q stop rest := by
  induction rs generalizing p rs' with
  | nil => exact ⟨rs', rfl, (show p = q from h) ▸ h'⟩
  | cons x rs ih =>
    obtain ⟨hlen, hrecord, hfits, hrest⟩ := h
    have hend := hrest.stop_eq
    cases rs' with
    | nil =>
      have hstop : p = stop := h'
      omega
    | cons y rs' =>
      obtain ⟨hlen', hrecord', -, hrest'⟩ := h'
      obtain rfl : x = y := Prod.ext (hlen.symm.trans hlen') (hrecord.symm.trans hrecord')
      obtain ⟨rest, rfl, hat⟩ := ih hrest hrest'
      exact ⟨rest, rfl, hat⟩

theorem RecordsAt.unique (h : RecordsAt m p stop rs) (h' : RecordsAt m p stop rs') : rs = rs' := by
  obtain ⟨rest, rfl, hat⟩ := h.starts h' le_rfl
  cases rest with
  | nil => exact (List.append_nil rs).symm
  | cons x rest =>
    have hfits := hat.2.2.1
    have hend := hat.2.2.2.stop_eq
    omega

theorem RecordsAt.name_length (h : RecordsAt m p stop rs) {x : Nat × DirRecord} (hx : x ∈ rs) :
    x.2.name.length < 256 := by
  induction rs generalizing p with
  | nil => exact absurd hx List.not_mem_nil
  | cons y rs ih =>
    obtain ⟨-, hrecord, -, hrest⟩ := h
    rcases List.mem_cons.mp hx with rfl | hin
    · rw [← hrecord, record_name_length]
      exact nameLen_lt m p
    · exact ih hrest hin

theorem RecordsAt.eq_nil (h : RecordsAt m p stop rs) (hstop : stop = p) : rs = [] :=
  h.unique (show RecordsAt m p stop [] from hstop.symm)

end

/-- A directory has one list of blocks. -/
theorem DirHolds.unique {fs : Ext2FsInstance} {inode : Ext2Inode} {blocks blocks' : List (List (Nat × DirRecord))}
    (hbs : 0 < fs.blockSize) (h : DirHolds fs inode blocks) (h' : DirHolds fs inode blocks') : blocks = blocks' := by
  apply List.ext_getElem (Nat.eq_of_mul_eq_mul_right hbs (h.size.symm.trans h'.size))
  intro n hn hn'
  exact (h.block n hn).unique (h'.block n hn')

section

variable {fs : Ext2FsInstance} {inode : Ext2Inode} {blocks blocks' : List (List (Nat × DirRecord))}

/-- The name of an entry has a length of one byte. -/
theorem DirHolds.name_length (h : DirHolds fs inode blocks) {record : DirRecord}
    (hmem : record ∈ blocks.flatten.map Prod.snd) : record.name.length < 256 := by
  obtain ⟨x, hx, rfl⟩ := List.mem_map.mp hmem
  obtain ⟨rs, hrs, hin⟩ := List.mem_flatten.mp hx
  obtain ⟨n, hn, rfl⟩ := List.getElem_of_mem hrs
  exact (h.block n hn).name_length hin

/-- The directory has one more record. -/
theorem length_of_perm {new : DirRecord}
    (hperm : (blocks'.flatten.map Prod.snd).Perm (new :: blocks.flatten.map Prod.snd)) :
    blocks'.flatten.length = blocks.flatten.length + 1 := by
  have hcount := hperm.length_eq
  rwa [List.length_map, List.length_cons, List.length_map] at hcount

end

/-! ## Buffers -/

section

variable {fs : Ext2FsInstance} {pos : Nat} {dir : Bytes}

theorem le_dirEntrySize (n : Nat) : 8 + n ≤ dirEntrySize n := Nat.le_add_right _ _

theorem dirEntrySize_le {n : Nat} (h : n < 256) : dirEntrySize n ≤ sizeofExt2Directory := by
  unfold dirEntrySize sizeofExt2Directory
  omega

theorem writeData_disk_of_ne {buf : Bytes} {count n : Nat} (hn : n < pos ∨ pos + count ≤ n) :
    (writeData fs buf count pos).disk n = fs.disk n := if_neg (by omega)

theorem writeData_disk_of_lt {buf : Bytes} {count i : Nat} (hi : i < count) :
    (writeData fs buf count pos).disk (pos + i) = buf i := by
  show (if _ then _ else _) = _
  rw [if_pos (by omega), Nat.add_sub_cancel_left]

/-- A buffer that holds the entry at `pos`. -/
def Holds (fs : Ext2FsInstance) (dir : Bytes) (pos : Nat) : Prop :=
  ∀ i < sizeofExt2Directory, dir i = fs.disk (pos + i)

theorem holds_readInto (fs : Ext2FsInstance) (buf : Bytes) (pos : Nat) :
    Holds fs (readInto fs buf sizeofExt2Directory pos) pos := fun _ hi => if_pos hi

theorem Holds.dirAt (h : Holds fs dir pos) : (dirAt dir 0).recLen = (dirAt fs.disk pos).recLen ∧
    (dirAt dir 0).nameLen = (dirAt fs.disk pos).nameLen ∧ (dirAt dir 0).record = (dirAt fs.disk pos).record := by
  have hname := nameLen_lt fs.disk pos
  apply dirAt_eq_of_agree
  intro i hi
  rw [Nat.zero_add]
  apply h i
  unfold sizeofExt2Directory
  omega

theorem le16_bytes {m : Bytes} {p n : Nat} (hn : n < 65536) (h0 : m p = UInt8.ofNat n)
    (h1 : m (p + 1) = UInt8.ofNat (n / 256)) : le16 m p = n := by
  show (m p).toNat + 256 * ((m (p + 1)).toNat + 256 * 0) = n
  rw [h0, h1, UInt8.toNat_ofNat', UInt8.toNat_ofNat']
  omega

theorem le32_bytes {m : Bytes} {p n : Nat} (hn : n < 2 ^ 32) (h0 : m p = UInt8.ofNat n)
    (h1 : m (p + 1) = UInt8.ofNat (n / 256)) (h2 : m (p + 2) = UInt8.ofNat (n / 65536))
    (h3 : m (p + 3) = UInt8.ofNat (n / 16777216)) : le32 m p = n := by
  show (m p).toNat + 256 * ((m (p + 1)).toNat + 256 * ((m (p + 2)).toNat + 256 * ((m (p + 3)).toNat + 256 * 0))) = n
  rw [h0, h1, h2, h3, UInt8.toNat_ofNat', UInt8.toNat_ofNat', UInt8.toNat_ofNat', UInt8.toNat_ofNat']
  omega

/-- The same entry with another length. -/
theorem dirAt_setRecLen (dir : Bytes) {n : Nat} (hn : n < 65536) : (dirAt (setRecLen dir n) 0).recLen = n ∧
    (dirAt (setRecLen dir n) 0).nameLen = (dirAt dir 0).nameLen ∧
    (dirAt (setRecLen dir n) 0).record = (dirAt dir 0).record := by
  have hother : ∀ i, i ≠ 4 → i ≠ 5 → setRecLen dir n i = dir i := by
    intro i h4 h5
    rw [setRecLen, if_neg h4, if_neg h5]
  refine ⟨le16_bytes hn rfl rfl, congrArg UInt8.toNat (hother 6 (by decide) (by decide)), ?_⟩
  have hinode : (dirAt (setRecLen dir n) 0).inode = (dirAt dir 0).inode :=
    leWord_congr 4 0 fun i hi => hother (0 + i) (by omega) (by omega)
  have htype : (dirAt (setRecLen dir n) 0).fileType = (dirAt dir 0).fileType :=
    congrArg UInt8.toNat (hother 7 (by decide) (by decide))
  have hname : (dirAt (setRecLen dir n) 0).name = (dirAt dir 0).name := by
    funext j
    exact hother (0 + 8 + j) (by omega) (by omega)
  have hlen : (dirAt (setRecLen dir n) 0).nameLen = (dirAt dir 0).nameLen :=
    congrArg UInt8.toNat (hother 6 (by decide) (by decide))
  unfold Ext2Directory.record Ext2Directory.chars
  rw [hinode, htype, hname, hlen]

/-- The entry `add_dir_entry` builds. -/
theorem dirAt_newDirectory (garbage : Bytes) {nInode recLen type : Nat} {name : List UInt8} (hinode : nInode < 2 ^ 32)
    (hlen : recLen < 65536) (hname : name.length < 256) (htype : type < 256) :
    (dirAt (newDirectory garbage nInode recLen type name) 0).recLen = recLen ∧
      (dirAt (newDirectory garbage nInode recLen type name) 0).nameLen = name.length ∧
      (dirAt (newDirectory garbage nInode recLen type name) 0).record = ⟨nInode, name, type⟩ := by
  have hnameLen : (dirAt (newDirectory garbage nInode recLen type name) 0).nameLen = name.length := by
    show (UInt8.ofNat name.length).toNat = _
    rw [UInt8.toNat_ofNat']
    omega
  refine ⟨le16_bytes hlen rfl rfl, hnameLen, ?_⟩
  have hinode' : (dirAt (newDirectory garbage nInode recLen type name) 0).inode = nInode :=
    le32_bytes hinode rfl rfl rfl rfl
  have htype' : (dirAt (newDirectory garbage nInode recLen type name) 0).fileType = type := by
    show (UInt8.ofNat type).toNat = _
    rw [UInt8.toNat_ofNat']
    omega
  have hchars : (dirAt (newDirectory garbage nInode recLen type name) 0).chars = name := by
    unfold Ext2Directory.chars
    rw [hnameLen]
    apply List.ext_getElem
    · rw [slice, List.length_map, List.length_range]
    · intro i h1 h2
      simp only [slice, List.getElem_map, List.getElem_range, Nat.zero_add]
      show (_ ++ name ++ [0]).getD (0 + 8 + i) _ = _
      rw [List.getD_eq_getElem?_getD, List.append_assoc, List.getElem?_append_right (by simp)]
      simp [List.getElem?_append_left h2, List.getElem?_eq_getElem h2]
  unfold Ext2Directory.record
  rw [hinode', hchars, htype']

end

/-! ## `add_dir_entry` -/

section

variable {fs : Ext2FsInstance} {g : Garbage} {fuel addrDebut inode : Nat} {name : List UInt8}

theorem addDirEntryLoop_mono {d : Nat} : ∀ {fuel : Nat} {dir : Bytes} {curPos : Nat} {r : Bytes × Nat},
    addDirEntryLoop fs addrDebut fuel dir curPos = some r →
      addDirEntryLoop fs addrDebut (fuel + d) dir curPos = some r := by
  intro fuel
  induction fuel with
  | zero => exact fun h => absurd h (by simp [addDirEntryLoop])
  | succ fuel ih =>
    intro dir curPos r h
    rw [Nat.add_right_comm, addDirEntryLoop]
    rw [addDirEntryLoop] at h
    split_ifs at h ⊢
    · exact ih h
    · exact h

theorem addDirEntry_mono {fs' : Ext2FsInstance} {d type nInode : Nat}
    (h : addDirEntry fs g fuel inode name type nInode = some fs') :
    addDirEntry fs g (fuel + d) inode name type nInode = some fs' := by
  unfold addDirEntry at h ⊢
  obtain ⟨r, hloop, heq⟩ := Option.map_eq_some_iff.mp h
  exact Option.map_eq_some_iff.mpr ⟨r, addDirEntryLoop_mono hloop, heq⟩

/-- Whether the record at `curPos` is followed by another one. -/
theorem beforeLast_iff {dir : Bytes} {curPos : Nat} {x : Nat × DirRecord} {rs : List (Nat × DirRecord)}
    (h : RecordsAt fs.disk curPos (addrDebut + fs.blockSize) (x :: rs)) (hdir : Holds fs dir curPos)
    (hlow : addrDebut + fs.blockSize < 2 ^ 32) : beforeLast fs addrDebut dir curPos ↔ rs ≠ [] := by
  obtain ⟨hlen, -, hfits, hrest⟩ := h
  have hstop := hrest.stop_eq
  have hsame : ((dirAt dir 0).recLen + curPos) % 2 ^ 32 = curPos + x.1 := by
    rw [hdir.dirAt.1, hlen]
    omega
  unfold beforeLast
  rw [hsame, Nat.mod_eq_of_lt hlow, hstop]
  cases rs with
  | nil => simp
  | cons y rs =>
    have hpos := hrest.2.2.1
    rw [recordBytes_cons]
    exact iff_of_true (by omega) (List.cons_ne_nil _ _)

/-- The loop stops at the last record. -/
theorem addDirEntryLoop_last {init : List (Nat × DirRecord)} {last : Nat × DirRecord}
    (hlow : addrDebut + fs.blockSize < 2 ^ 32) : ∀ {fuel : Nat} {dir : Bytes} {curPos : Nat},
    RecordsAt fs.disk curPos (addrDebut + fs.blockSize) (init ++ [last]) → Holds fs dir curPos →
    init.length < fuel → ∃ dir', addDirEntryLoop fs addrDebut fuel dir curPos =
      some (dir', curPos + recordBytes init) ∧ Holds fs dir' (curPos + recordBytes init) := by
  induction init with
  | nil =>
    intro fuel dir curPos h hdir hfuel
    obtain ⟨fuel, rfl⟩ := Nat.exists_eq_add_one.mpr hfuel
    refine ⟨dir, ?_, hdir⟩
    rw [addDirEntryLoop, if_neg ((beforeLast_iff h hdir hlow).not.mpr (not_not.mpr rfl))]
    rfl
  | cons x init ih =>
    intro fuel dir curPos h hdir hfuel
    obtain ⟨fuel, rfl⟩ := Nat.exists_eq_add_one.mpr (Nat.zero_lt_of_lt hfuel)
    have hmore : init ++ [last] ≠ [] := List.append_ne_nil_of_right_ne_nil _ (List.cons_ne_nil _ _)
    rw [addDirEntryLoop, if_pos ((beforeLast_iff h hdir hlow).mpr hmore)]
    obtain ⟨hlen, -, -, hrest⟩ := h
    have hstop := hrest.stop_eq
    have hnext : (curPos + (dirAt dir 0).recLen) % 2 ^ 32 = curPos + x.1 := by
      rw [hdir.dirAt.1, hlen]
      omega
    dsimp only
    rw [hnext, recordBytes_cons, ← Nat.add_assoc]
    exact ih hrest (holds_readInto fs dir _) (Nat.lt_of_succ_lt_succ hfuel)

theorem dirAt_of_write {buf : Bytes} {count pos : Nat} {m : Bytes}
    (hbytes : ∀ i < count, m (pos + i) = buf i) (hname : 8 + (dirAt buf 0).nameLen ≤ count) :
    (dirAt m pos).recLen = (dirAt buf 0).recLen ∧ (dirAt m pos).nameLen = (dirAt buf 0).nameLen ∧
      (dirAt m pos).record = (dirAt buf 0).record := by
  apply dirAt_eq_of_agree
  intro i hi
  rw [Nat.zero_add]
  exact hbytes i (Nat.lt_of_lt_of_le hi hname)

/-- The writes of `add_dir_entry`, where its loop has stopped at a record: this one shrinks to what it needs, and the new
one says that it takes the rest of the block, whether or not it fits in it. -/
theorem addDirEntry_writes_at {init rest : List (Nat × DirRecord)} {len nInode type c c' : Nat} {r : DirRecord}
    {dir : Bytes} (haddr : addrInodeData fs g inode 0 = addrDebut)
    (h : RecordsAt fs.disk addrDebut (addrDebut + fs.blockSize) (init ++ (len, r) :: rest))
    (hc : addrDebut + recordBytes init = c) (hc' : (c + dirEntrySize r.name.length) % 2 ^ 32 = c')
    (hloop : addDirEntryLoop fs addrDebut fuel (readInto fs g.behindBlock sizeofExt2Directory addrDebut) addrDebut =
      some (dir, c)) (hdir : Holds fs dir c) (hend : addrDebut + fs.blockSize ≤ 2 ^ 32)
    (hblock : addrDebut + fs.blockSize - (c + dirEntrySize r.name.length) < 65536)
    (hwrap : c' = c + dirEntrySize r.name.length ∨ c' = 0 ∧ sizeofExt2Directory ≤ addrDebut)
    (hname : name.length < 256) (hlast : dirEntrySize r.name.length ≤ len) (hinode : nInode < 2 ^ 32)
    (htype : type < 256) :
    ∃ m, addDirEntry fs g fuel inode name type nInode = some { fs with disk := m } ∧
      (∀ n, (n < c ∨ c + dirEntrySize r.name.length ≤ n) → (n < c' ∨ c' + dirEntrySize name.length ≤ n) →
        m n = fs.disk n) ∧
      RecordsAt m addrDebut (c + dirEntrySize r.name.length) (init ++ [(dirEntrySize r.name.length, r)]) ∧
      (dirAt m c').recLen = addrDebut + fs.blockSize - (c + dirEntrySize r.name.length) ∧
      (dirAt m c').record = ⟨nInode, name, type⟩ := by
  obtain ⟨hinit, hlen, hrecord, hfits, hstop⟩ := recordsAt_append.mp h
  rw [hc] at hinit hlen hrecord hstop
  have hstop := hstop.stop_eq
  have hlen : (dirAt fs.disk c).recLen = len := hlen
  have hlt := recLen_lt fs.disk c
  have hnameLen : (dirAt dir 0).nameLen = r.name.length := by
    rw [hdir.dirAt.2.1, ← record_name_length, hrecord]
  have hs := le_dirEntrySize r.name.length
  have hs' := le_dirEntrySize name.length
  have hs'_le := dirEntrySize_le hname
  have hle : addrDebut ≤ c := hc ▸ Nat.le_add_right _ _
  have hrest : (addrDebut + fs.blockSize + 2 ^ 32 - c') % 2 ^ 16 =
      addrDebut + fs.blockSize - (c + dirEntrySize r.name.length) := by
    omega
  generalize hl : addrDebut + fs.blockSize - (c + dirEntrySize r.name.length) = newLen at *
  generalize hold : setRecLen dir (dirEntrySize r.name.length) = old
  generalize hnew : newDirectory g.dep nInode newLen type name = new
  obtain ⟨hold1, hold2, hold3⟩ := dirAt_setRecLen dir (show dirEntrySize r.name.length < 65536 by omega)
  obtain ⟨hnew1, hnew2, hnew3⟩ := dirAt_newDirectory g.dep hinode hblock hname htype
  rw [hold] at hold1 hold2 hold3
  rw [hnew] at hnew1 hnew2 hnew3
  -- the two writes do not meet
  have hapart : ∀ i < dirEntrySize r.name.length, c + i < c' ∨ c' + dirEntrySize name.length ≤ c + i := by
    intro i hi
    omega
  have hfirst := @dirAt_of_write old (dirEntrySize r.name.length) c
    (writeData (writeData fs old (dirEntrySize r.name.length) c) new (dirEntrySize name.length) c').disk ?_ ?_
  · have hsecond := @dirAt_of_write new (dirEntrySize name.length) c'
      (writeData (writeData fs old (dirEntrySize r.name.length) c) new (dirEntrySize name.length) c').disk ?_ ?_
    · refine ⟨(writeData (writeData fs old (dirEntrySize r.name.length) c) new (dirEntrySize name.length) c').disk,
        ?_, ?_, ?_, hsecond.1.trans hnew1, hsecond.2.2.trans hnew3⟩
      · unfold addDirEntry
        rw [haddr]
        dsimp only
        rw [hloop, Option.map_some]
        dsimp only
        rw [hnameLen, hold, hc', Nat.mod_eq_of_lt hname]
        show some (writeData _ (newDirectory g.dep nInode ((addrDebut + fs.blockSize + 2 ^ 32 - _) % 2 ^ 16) type name)
          _ _) = _
        rw [hrest, hnew]
        rfl
      · intro n hn hn'
        rw [writeData_disk_of_ne hn', writeData_disk_of_ne hn]
      · rw [recordsAt_append, hc]
        refine ⟨hinit.congr ?_, hfirst.1.trans hold1, ?_, hs, rfl⟩
        · intro i hi hlt
          rw [writeData_disk_of_ne (by omega), writeData_disk_of_ne (by omega)]
        · exact hfirst.2.2.trans (hold3.trans (hdir.dirAt.2.2.trans hrecord))
    · exact fun i hi => writeData_disk_of_lt hi
    · rw [hnew2]
      exact hs'
  · intro i hi
    rw [writeData_disk_of_ne (hapart i hi)]
    exact writeData_disk_of_lt hi
  · rw [hold2, hnameLen]
    exact hs

/-- The writes in a block below 4 GiB: the last record shrinks to what it needs, and the new one says that it takes the
rest, whether or not it fits in it. -/
theorem addDirEntry_writes {init : List (Nat × DirRecord)} {len nInode type : Nat} {r : DirRecord}
    (haddr : addrInodeData fs g inode 0 = addrDebut)
    (h : RecordsAt fs.disk addrDebut (addrDebut + fs.blockSize) (init ++ [(len, r)]))
    (hlow : addrDebut + fs.blockSize < 2 ^ 32) (hfuel : init.length < fuel) (hname : name.length < 256)
    (hlast : dirEntrySize r.name.length ≤ len) (hinode : nInode < 2 ^ 32) (htype : type < 256) :
    ∃ m, addDirEntry fs g fuel inode name type nInode = some { fs with disk := m } ∧
      (∀ n, n < addrDebut + recordBytes init ∨
        addrDebut + recordBytes init + dirEntrySize r.name.length + dirEntrySize name.length ≤ n → m n = fs.disk n) ∧
      RecordsAt m addrDebut (addrDebut + recordBytes init + dirEntrySize r.name.length)
        (init ++ [(dirEntrySize r.name.length, r)]) ∧
      (dirAt m (addrDebut + recordBytes init + dirEntrySize r.name.length)).recLen = len - dirEntrySize r.name.length ∧
      (dirAt m (addrDebut + recordBytes init + dirEntrySize r.name.length)).record = ⟨nInode, name, type⟩ := by
  obtain ⟨dir, hloop, hdir⟩ := addDirEntryLoop_last hlow h (holds_readInto fs g.behindBlock addrDebut) hfuel
  obtain ⟨-, hlen, -, -, hstop⟩ := recordsAt_append.mp h
  have hstop : addrDebut + recordBytes init + len = addrDebut + fs.blockSize := hstop
  have hlen : (dirAt fs.disk (addrDebut + recordBytes init)).recLen = len := hlen
  have hlt := recLen_lt fs.disk (addrDebut + recordBytes init)
  obtain ⟨m, hadd, hkept, hrecords, hnewLen, hrecord⟩ := addDirEntry_writes_at haddr h rfl
    (Nat.mod_eq_of_lt (show _ < 2 ^ 32 by omega)) hloop hdir hlow.le (by omega) (.inl rfl) hname hlast hinode htype
  refine ⟨m, hadd, fun n hn => hkept n (by omega) (by omega), hrecords, ?_, hrecord⟩
  rw [hnewLen, ← hstop]
  omega

/-- **A new entry** in a directory whose last record has room for it: that record keeps what it needs, the new one
takes the rest, and nothing outside of the two changes. -/
theorem addDirEntry_records {init : List (Nat × DirRecord)} {len nInode type : Nat} {r : DirRecord}
    (haddr : addrInodeData fs g inode 0 = addrDebut)
    (h : RecordsAt fs.disk addrDebut (addrDebut + fs.blockSize) (init ++ [(len, r)]))
    (hlow : addrDebut + fs.blockSize < 2 ^ 32) (hfuel : init.length < fuel) (hname : name.length < 256)
    (hroom : dirEntrySize r.name.length + dirEntrySize name.length ≤ len) (hinode : nInode < 2 ^ 32)
    (htype : type < 256) :
    ∃ m, addDirEntry fs g fuel inode name type nInode = some { fs with disk := m } ∧
      (∀ n, n < addrDebut + recordBytes init ∨ addrDebut + fs.blockSize ≤ n → m n = fs.disk n) ∧
      RecordsAt m addrDebut (addrDebut + fs.blockSize) (init ++ [(dirEntrySize r.name.length, r),
        (len - dirEntrySize r.name.length, ⟨nInode, name, type⟩)]) := by
  obtain ⟨m, hadd, hkept, hfirst, hlen, hrecord⟩ :=
    addDirEntry_writes haddr h hlow hfuel hname (by omega) hinode htype
  obtain ⟨hinit, hlast⟩ := recordsAt_append.mp hfirst
  have hend : addrDebut + recordBytes init + len = addrDebut + fs.blockSize := (recordsAt_append.mp h).2.2.2.2
  have hs := le_dirEntrySize name.length
  refine ⟨m, hadd, fun n hn => hkept n (by omega), recordsAt_append.mpr ⟨hinit, ?_⟩⟩
  refine ⟨hlast.1, hlast.2.1, hlast.2.2.1, hlen, hrecord, ?_, ?_⟩
  · show 8 + name.length ≤ len - dirEntrySize r.name.length
    omega
  · show addrDebut + recordBytes init + dirEntrySize r.name.length + (len - dirEntrySize r.name.length) = _
    omega

end

end Desiros.Fs
