import Desiros.Fs.RemoveRight

/-!
# Where a record is added (`add_dir_entry`)

`add_dir_entry` looks at the first block of the directory only, returns nothing, and does not ask whether the last
record has room: it gives the new record what is left of it, in a field of 16 bits, and writes it. `addDirEntry_right_iff`
says when a well-formed directory has the new entry afterwards.
-/

namespace Desiros.Fs

open Desiros.Library

section

variable (fs : Ext2FsInstance) (g : Garbage) (inode : Nat) (blocks : List (List (Nat × DirRecord))) (name : List UInt8)
  (type nInode : Nat)

/-- A well-formed directory, the records of which have lengths that are multiples of 4. -/
structure Ext2Dir : Prop where
  log : fs.superblock.sLogBlockSize ≤ 2
  holds : DirHolds fs (readInode fs g inode) blocks
  aligned : ∀ rs ∈ blocks, ∀ x ∈ rs, 4 ∣ x.1
  /-- What says where the blocks are lies outside of them. -/
  layout : ∀ m : Bytes,
    (∀ i, (∀ n < blocks.length, i / fs.blockSize ≠ formatBlock fs (readInode fs g inode) n) → m i = fs.disk i) →
    readInode { fs with disk := m } g inode = readInode fs g inode ∧ ∀ n < blocks.length,
      formatBlock { fs with disk := m } (readInode fs g inode) n = formatBlock fs (readInode fs g inode) n
  /-- Different blocks of the directory are different blocks of the disk. -/
  distinct : ∀ n < blocks.length, ∀ k < blocks.length,
    formatBlock fs (readInode fs g inode) n = formatBlock fs (readInode fs g inode) k → n = k

/-- A name that an entry can have, an inode number and a type. -/
structure NewEntry : Prop where
  length : 0 < name.length ∧ name.length < 256
  string : 0 ∉ name
  absent : ∀ rs ∈ blocks, ∀ x ∈ rs, x.2.name ≠ name
  inode : nInode < 2 ^ 32
  type : type < 256

/-- `add_dir_entry` returns, the directory has the new entry too, and nothing outside of its blocks has changed. The
function cannot report a failure. -/
def AddRight : Prop :=
  ∃ fs', (∃ N, ∀ fuel ≥ N, addDirEntry fs g fuel inode name type nInode = some fs') ∧
    (∃ blocks', DirHolds fs' (readInode fs' g inode) blocks' ∧ (∀ rs ∈ blocks', ∀ x ∈ rs, 4 ∣ x.1) ∧
      (blocks'.flatten.map Prod.snd).Perm (⟨nInode, name, type⟩ :: blocks.flatten.map Prod.snd)) ∧
    ∀ i, (∀ n < blocks.length, i / fs.blockSize ≠ formatBlock fs (readInode fs g inode) n) → fs'.disk i = fs.disk i

/-- The last record of the first block has room for the new one, and its end is a 32-bit word unless it is the only
record of the block. -/
structure AddFits : Prop where
  low : (readInode fs g inode).iBlock 0 * fs.blockSize < 2 ^ 32
  room : ∃ init last rest, blocks = (init ++ [last]) :: rest ∧
    dirEntrySize last.2.name.length + dirEntrySize name.length ≤ last.1 ∧
    (init = [] ∨ (readInode fs g inode).iBlock 0 * fs.blockSize + fs.blockSize < 2 ^ 32)

/-- The last record of the first block has become as short as it can be, and `new` takes what is left. -/
def EntryAdded (blocks blocks' : List (List (Nat × DirRecord))) (new : DirRecord) : Prop :=
  ∃ init len r rest, blocks = (init ++ [(len, r)]) :: rest ∧
    blocks' = (init ++ [(dirEntrySize r.name.length, r), (len - dirEntrySize r.name.length, new)]) :: rest

end

section

variable {fs : Ext2FsInstance} {g : Garbage} {inode type nInode : Nat} {blocks : List (List (Nat × DirRecord))}
  {name : List UInt8} {rs : List (Nat × DirRecord)} {rest : List (List (Nat × DirRecord))}

theorem dirEntrySize_dvd (n : Nat) : 4 ∣ dirEntrySize n := by
  unfold dirEntrySize
  omega

/-- The length is the least multiple of 4 with room for the header and the name. -/
theorem dirEntrySize_le_of_dvd {n len : Nat} (hlen : 4 ∣ len) (hfits : 8 + n ≤ len) : dirEntrySize n ≤ len := by
  unfold dirEntrySize
  omega

/-- The record at which the loop stops: the last one, or the first one of a block that ends at 4 GiB. -/
theorem addDirEntryLoop_stops {addrDebut : Nat} {init tail : List (Nat × DirRecord)} {x : Nat × DirRecord}
    (h : RecordsAt fs.disk addrDebut (addrDebut + fs.blockSize) (init ++ x :: tail))
    (hstop : tail = [] ∧ addrDebut + fs.blockSize < 2 ^ 32 ∨ init = [] ∧ addrDebut + fs.blockSize = 2 ^ 32)
    {fuel : Nat} (hfuel : init.length < fuel) : ∃ dir,
      addDirEntryLoop fs addrDebut fuel (readInto fs g.behindBlock sizeofExt2Directory addrDebut) addrDebut =
        some (dir, addrDebut + recordBytes init) ∧ Holds fs dir (addrDebut + recordBytes init) := by
  rcases hstop with ⟨rfl, hlow⟩ | ⟨rfl, hend⟩
  · exact addDirEntryLoop_last hlow h (holds_readInto fs g.behindBlock addrDebut) hfuel
  · obtain ⟨fuel, rfl⟩ := Nat.exists_eq_add_one.mpr hfuel
    refine ⟨readInto fs g.behindBlock sizeofExt2Directory addrDebut, ?_, holds_readInto fs g.behindBlock addrDebut⟩
    rw [addDirEntryLoop, if_neg, recordBytes_nil, Nat.add_zero]
    -- the end of the block is the word 0
    unfold beforeLast
    rw [hend]
    omega

/-- A directory with a first block below 4 GiB. -/
theorem Ext2Dir.first (h : Ext2Dir fs g inode (rs :: rest)) (hlow : (readInode fs g inode).iBlock 0 * fs.blockSize < 2 ^ 32) :
    addrInodeData fs g inode 0 = (readInode fs g inode).iBlock 0 * fs.blockSize ∧
      (readInode fs g inode).iBlock 0 * fs.blockSize + fs.blockSize ≤ 2 ^ 32 ∧
      RecordsAt fs.disk ((readInode fs g inode).iBlock 0 * fs.blockSize)
        ((readInode fs g inode).iBlock 0 * fs.blockSize + fs.blockSize) rs := by
  have hbs := blockSize_of_log h.log
  have hsize : (readInode fs g inode).iSize ≠ 0 := by
    rw [h.holds.size]
    exact Nat.ne_of_gt (Nat.mul_pos (Nat.succ_pos _) (by omega))
  refine ⟨?_, ?_, h.holds.block 0 (Nat.succ_pos _)⟩
  · rw [← Nat.mod_eq_of_lt hlow]
    exact getDataBlock_zero hsize
  · rcases hbs with hbs | hbs | hbs <;> rw [hbs] at hlow ⊢ <;> omega

/-- The other blocks of a directory whose first block is all that changes. -/
theorem Ext2Dir.others (h : Ext2Dir fs g inode (rs :: rest)) {m : Bytes} {n : Nat} (hn : n < rest.length)
    (hkept : ∀ i, i / fs.blockSize = formatBlock fs (readInode fs g inode) (n + 1) → m i = fs.disk i) :
    RecordsAt m (formatBlock fs (readInode fs g inode) (n + 1) * fs.blockSize)
      (formatBlock fs (readInode fs g inode) (n + 1) * fs.blockSize + fs.blockSize) rest[n] := by
  refine (h.holds.block (n + 1) (Nat.succ_lt_succ hn)).congr fun i hi hlt => hkept i ?_
  obtain ⟨t, rfl⟩ := Nat.exists_eq_add_of_le hi
  exact pos_div (Nat.lt_of_add_lt_add_left hlt)

/-! ## Room -/

theorem EntryAdded.aligned {blocks' : List (List (Nat × DirRecord))} {new : DirRecord}
    (h : EntryAdded blocks blocks' new) (haligned : ∀ rs ∈ blocks, ∀ x ∈ rs, 4 ∣ x.1) :
    ∀ rs ∈ blocks', ∀ x ∈ rs, 4 ∣ x.1 := by
  obtain ⟨init, len, r, rest, rfl, rfl⟩ := h
  intro rs hrs x hx
  have hlen4 : 4 ∣ len := haligned _ List.mem_cons_self (len, r) (by simp)
  rcases List.mem_cons.mp hrs with rfl | hin
  · rcases List.mem_append.mp hx with hx | hx
    · exact haligned _ List.mem_cons_self x (List.mem_append_left _ hx)
    · have hor : x = (dirEntrySize r.name.length, r) ∨ x = (len - dirEntrySize r.name.length, new) := by simpa using hx
      rcases hor with rfl | rfl
      · exact dirEntrySize_dvd _
      · exact Nat.dvd_sub hlen4 (dirEntrySize_dvd _)
  · exact haligned rs (List.mem_cons_of_mem _ hin) x hx

theorem EntryAdded.perm {blocks' : List (List (Nat × DirRecord))} {new : DirRecord}
    (h : EntryAdded blocks blocks' new) :
    (blocks'.flatten.map Prod.snd).Perm (new :: blocks.flatten.map Prod.snd) := by
  obtain ⟨init, len, r, rest, rfl, rfl⟩ := h
  simp only [List.flatten_cons, List.map_append, List.map_cons, List.append_assoc, List.cons_append,
    List.nil_append]
  have hmiddle := @List.perm_middle _ new (init.map Prod.snd ++ [r]) (rest.flatten.map Prod.snd)
  rwa [List.append_assoc, List.append_assoc] at hmiddle

/-- Where the last record has room, the entry is behind it. -/
theorem added_of_fits (h : Ext2Dir fs g inode blocks) (hname : name.length < 256) (hinode : nInode < 2 ^ 32)
    (htype : type < 256) (hfits : AddFits fs g inode blocks name) :
    ∃ fs' blocks', (∃ N, ∀ fuel ≥ N, addDirEntry fs g fuel inode name type nInode = some fs') ∧
      DirHolds fs' (readInode fs' g inode) blocks' ∧ EntryAdded blocks blocks' ⟨nInode, name, type⟩ ∧
      ∀ i, (∀ n < blocks.length, i / fs.blockSize ≠ formatBlock fs (readInode fs g inode) n) → fs'.disk i = fs.disk i := by
  obtain ⟨init, ⟨len, r⟩, rest, rfl, hroom, hend⟩ := hfits.room
  dsimp only at hroom
  have hbs := blockSize_of_log h.log
  obtain ⟨haddr, htop, hrecords⟩ := h.first hfits.low
  generalize hb : (readInode fs g inode).iBlock 0 * fs.blockSize = addr at *
  have hstop : ([] : List (Nat × DirRecord)) = [] ∧ addr + fs.blockSize < 2 ^ 32 ∨
      init = [] ∧ addr + fs.blockSize = 2 ^ 32 := by
    rcases hend with hnil | hlt
    · by_cases hlt : addr + fs.blockSize < 2 ^ 32
      · exact .inl ⟨rfl, hlt⟩
      · exact .inr ⟨hnil, by omega⟩
    · exact .inl ⟨rfl, hlt⟩
  obtain ⟨dir, hloop, hdir⟩ := addDirEntryLoop_stops (g := g) hrecords hstop (Nat.lt_succ_self init.length)
  have hs := le_dirEntrySize r.name.length
  have hs' := le_dirEntrySize name.length
  have hlast : addr + recordBytes init + len = addr + fs.blockSize := (recordsAt_append.mp hrecords).2.2.2.2
  obtain ⟨m, hadd, hkept, hfirst, hlen, hrecord⟩ := addDirEntry_writes_at haddr hrecords rfl
    (Nat.mod_eq_of_lt (show addr + recordBytes init + dirEntrySize r.name.length < 2 ^ 32 by omega)) hloop hdir htop
    (by omega) (.inl rfl) hname (by omega) hinode htype
  have hformat : formatBlock fs (readInode fs g inode) 0 * fs.blockSize = addr := hb
  have hinside : ∀ i, i / fs.blockSize ≠ formatBlock fs (readInode fs g inode) 0 → m i = fs.disk i := by
    intro i hi
    have hout := outside_block hi
    rw [hformat] at hout
    exact hkept i (by omega) (by omega)
  have hblock : RecordsAt m addr (addr + fs.blockSize)
      (init ++ [(dirEntrySize r.name.length, r), (len - dirEntrySize r.name.length, ⟨nInode, name, type⟩)]) := by
    obtain ⟨hinit, hold⟩ := recordsAt_append.mp hfirst
    refine recordsAt_append.mpr ⟨hinit, hold.1, hold.2.1, hold.2.2.1, ?_, hrecord, ?_, ?_⟩
    · rw [hlen]
      omega
    · show 8 + name.length ≤ len - dirEntrySize r.name.length
      omega
    · show addr + recordBytes init + dirEntrySize r.name.length + (len - dirEntrySize r.name.length) = _
      omega
  have hlayout := h.layout m fun i hi => hinside i (hi 0 (Nat.succ_pos _))
  refine ⟨{ fs with disk := m },
    (init ++ [(dirEntrySize r.name.length, r), (len - dirEntrySize r.name.length, ⟨nInode, name, type⟩)]) :: rest,
    ⟨init.length + 1, fun fuel hfuel => ?_⟩, ?_, ⟨init, len, r, rest, rfl, rfl⟩,
    fun i hi => hinside i (hi 0 (Nat.succ_pos _))⟩
  · obtain ⟨d, rfl⟩ := Nat.exists_eq_add_of_le hfuel
    exact addDirEntry_mono hadd
  · refine ⟨(congrArg Ext2Inode.iSize hlayout.1).trans h.holds.size, fun n hn => ?_⟩
    rw [hlayout.1, hlayout.2 n hn]
    cases n with
    | zero =>
      show RecordsAt m (formatBlock fs (readInode fs g inode) 0 * fs.blockSize)
        (formatBlock fs (readInode fs g inode) 0 * fs.blockSize + fs.blockSize) _
      rw [hformat]
      exact hblock
    | succ n =>
      apply h.others (Nat.lt_of_succ_lt_succ hn)
      intro i hi
      apply hinside i
      rw [hi]
      exact fun heq => absurd (h.distinct _ hn _ (Nat.succ_pos _) heq) (Nat.succ_ne_zero n)

theorem addRight_of_fits (h : Ext2Dir fs g inode blocks) (hname : name.length < 256) (hinode : nInode < 2 ^ 32)
    (htype : type < 256) (hfits : AddFits fs g inode blocks name) :
    AddRight fs g inode blocks name type nInode := by
  obtain ⟨fs', blocks', hrun, hholds, hadded, houtside⟩ := added_of_fits h hname hinode htype hfits
  exact ⟨fs', hrun, ⟨blocks', hholds, hadded.aligned h.aligned, hadded.perm⟩, houtside⟩

/-! ## No room -/

/-- Where the loop stops in a first block below 4 GiB. -/
theorem Ext2Dir.stops (h : Ext2Dir fs g inode (rs :: rest)) (hlow : (readInode fs g inode).iBlock 0 * fs.blockSize < 2 ^ 32) :
    ∃ init len r tail, rs = init ++ (len, r) :: tail ∧
      (tail = [] ∧ (readInode fs g inode).iBlock 0 * fs.blockSize + fs.blockSize < 2 ^ 32 ∨
        init = [] ∧ (readInode fs g inode).iBlock 0 * fs.blockSize + fs.blockSize = 2 ^ 32) := by
  have hbs := blockSize_of_log h.log
  obtain ⟨-, htop, hrecords⟩ := h.first hlow
  have hne : rs ≠ [] := by
    rintro rfl
    have heq := hrecords.stop_eq
    rw [recordBytes_nil] at heq
    omega
  rcases Nat.lt_or_eq_of_le htop with hlt | heq
  · obtain ⟨init, ⟨len, r⟩, rfl⟩ := (List.eq_nil_or_concat' rs).resolve_left hne
    exact ⟨init, len, r, [], rfl, .inl ⟨rfl, hlt⟩⟩
  · obtain ⟨⟨len, r⟩, tail, rfl⟩ := List.exists_cons_of_ne_nil hne
    exact ⟨[], len, r, tail, rfl, .inr ⟨rfl, heq⟩⟩

/-- In other bytes the directory has the same size, and its blocks are the same blocks of the disk. -/
def SamePlace (fs : Ext2FsInstance) (g : Garbage) (inode count : Nat) (m : Bytes) : Prop :=
  (readInode { fs with disk := m } g inode).iSize = (readInode fs g inode).iSize ∧ ∀ n < count,
    formatBlock { fs with disk := m } (readInode { fs with disk := m } g inode) n =
      formatBlock fs (readInode fs g inode) n

theorem SamePlace.of_inode {count : Nat} {m : Bytes}
    (hinode : readInode { fs with disk := m } g inode = readInode fs g inode)
    (hformat : ∀ n < count,
      formatBlock { fs with disk := m } (readInode fs g inode) n = formatBlock fs (readInode fs g inode) n) :
    SamePlace fs g inode count m := by
  refine ⟨congrArg Ext2Inode.iSize hinode, fun n hn => ?_⟩
  rw [hinode]
  exact hformat n hn

/-- The directory in other bytes: it has the same blocks of the disk. -/
theorem Ext2Dir.after (h : Ext2Dir fs g inode (rs :: rest)) {m : Bytes} {blocks' : List (List (Nat × DirRecord))}
    (hplace : SamePlace fs g inode (rs :: rest).length m)
    (hafter : DirHolds { fs with disk := m } (readInode { fs with disk := m } g inode) blocks') :
    ∃ rs' rest', blocks' = rs' :: rest' ∧ RecordsAt m ((readInode fs g inode).iBlock 0 * fs.blockSize)
      ((readInode fs g inode).iBlock 0 * fs.blockSize + fs.blockSize) rs' ∧
      (∀ n < rest.length, ∃ rs, RecordsAt m (formatBlock fs (readInode fs g inode) (n + 1) * fs.blockSize)
        (formatBlock fs (readInode fs g inode) (n + 1) * fs.blockSize + fs.blockSize) rs) ∧
      ((∀ n < rest.length, ∀ i, i / fs.blockSize = formatBlock fs (readInode fs g inode) (n + 1) → m i = fs.disk i) →
        rest' = rest) := by
  have hbs := blockSize_of_log h.log
  obtain ⟨hinode, hformat⟩ := hplace
  have hsize := hinode.symm.trans hafter.size
  rw [h.holds.size] at hsize
  have hlength : blocks'.length = (rs :: rest).length :=
    (Nat.eq_of_mul_eq_mul_right (show 0 < fs.blockSize by omega) hsize).symm
  have hblock : ∀ n (hn : n < blocks'.length), RecordsAt m (formatBlock fs (readInode fs g inode) n * fs.blockSize)
      (formatBlock fs (readInode fs g inode) n * fs.blockSize + fs.blockSize) blocks'[n] := by
    intro n hn
    have hat := hafter.block n hn
    rw [hformat n (hlength ▸ hn)] at hat
    exact hat
  obtain ⟨rs', rest', rfl⟩ := List.exists_cons_of_length_eq_add_one hlength
  have hlength : rest'.length = rest.length := Nat.succ.inj hlength
  refine ⟨rs', rest', rfl, hblock 0 (Nat.succ_pos _), fun n hn => ⟨rest'[n], ?_⟩, fun hkept => ?_⟩
  · exact hblock (n + 1) (Nat.succ_lt_succ (hlength ▸ hn))
  · apply List.ext_getElem hlength
    intro n hn hn'
    exact (hblock (n + 1) (Nat.succ_lt_succ hn)).unique (h.others hn' (hkept n hn'))

theorem addDirEntry_disk {fs' : Ext2FsInstance} {fuel : Nat} (h : addDirEntry fs g fuel inode name type nInode = some fs') :
    fs' = { fs with disk := fs'.disk } := by
  unfold addDirEntry at h
  obtain ⟨r, -, rfl⟩ := Option.map_eq_some_iff.mp h
  rfl

/-- The block has the new record among its own ones, or it is a record of length 0 at the start of another block. -/
theorem fits_of_added (h : Ext2Dir fs g inode blocks) (hname : name.length < 256) (hinode : nInode < 2 ^ 32)
    (htype : type < 256) (hlow : (readInode fs g inode).iBlock 0 * fs.blockSize < 2 ^ 32) {fs' : Ext2FsInstance}
    {N : Nat} (hrun : ∀ fuel ≥ N, addDirEntry fs g fuel inode name type nInode = some fs')
    (hplace : SamePlace fs g inode blocks.length fs'.disk) {blocks' : List (List (Nat × DirRecord))}
    (hafter : DirHolds fs' (readInode fs' g inode) blocks') (haligned : ∀ rs ∈ blocks', ∀ x ∈ rs, 4 ∣ x.1)
    (hcount : blocks'.flatten.length = blocks.flatten.length + 1) : AddFits fs g inode blocks name := by
  have hbs := blockSize_of_log h.log
  rw [addDirEntry_disk (hrun N le_rfl)] at hafter
  cases blocks with
  | nil =>
    have hsize := hplace.1.symm.trans hafter.size
    rw [h.holds.size] at hsize
    have hnone : blocks'.length = 0 := (Nat.eq_of_mul_eq_mul_right (show 0 < fs.blockSize by omega) hsize).symm
    rw [List.length_eq_zero_iff.mp hnone] at hcount
    exact absurd hcount (by simp)
  | cons rs rest =>
    obtain ⟨init, len, r, tail, rfl, hstop⟩ := h.stops hlow
    obtain ⟨haddr, htop, hrecords⟩ := h.first hlow
    have hlen4 : 4 ∣ len := h.aligned _ List.mem_cons_self (len, r) (by simp)
    have hformat : formatBlock fs (readInode fs g inode) 0 * fs.blockSize =
      (readInode fs g inode).iBlock 0 * fs.blockSize := rfl
    obtain ⟨rs', rest', rfl, hfirst', hothers, hsame⟩ := h.after hplace hafter
    generalize hb : (readInode fs g inode).iBlock 0 * fs.blockSize = addr at *
    obtain ⟨dir, hloop, hdir⟩ := addDirEntryLoop_stops (g := g) hrecords hstop
      (show init.length < N + init.length + 1 by omega)
    obtain ⟨-, -, -, hlong, htail⟩ := recordsAt_append.mp hrecords
    have htail : addr + fs.blockSize = addr + recordBytes init + len + recordBytes tail := htail.stop_eq
    have hlong : 8 + r.name.length ≤ len := hlong
    have hs := dirEntrySize_le_of_dvd hlen4 hlong
    have hs0 := le_dirEntrySize r.name.length
    have hs' := le_dirEntrySize name.length
    have hs'_le : dirEntrySize name.length ≤ 264 := dirEntrySize_le hname
    have hwrap : (addr + recordBytes init + dirEntrySize r.name.length) % 2 ^ 32 =
        addr + recordBytes init + dirEntrySize r.name.length ∨
        (addr + recordBytes init + dirEntrySize r.name.length) % 2 ^ 32 = 0 ∧ sizeofExt2Directory ≤ addr := by
      unfold sizeofExt2Directory
      omega
    obtain ⟨m, hadd, hkept, hfirst, hnewLen, hrecord⟩ := addDirEntry_writes_at haddr hrecords rfl rfl hloop hdir htop
      (by omega) hwrap hname hs hinode htype
    obtain rfl : m = fs'.disk := congrArg Ext2FsInstance.disk (Option.some.inj (hadd.symm.trans (hrun _ (by omega))))
    generalize hc' : (addr + recordBytes init + dirEntrySize r.name.length) % 2 ^ 32 = c' at *
    obtain ⟨added, rfl, hadded⟩ := hfirst.starts hfirst' (by omega)
    have hother : ∀ n < rest.length, ∀ i, i / fs.blockSize = formatBlock fs (readInode fs g inode) (n + 1) →
        i < addr ∨ addr + fs.blockSize ≤ i := by
      intro n hn i hi
      have hout := outside_block fun heq => Nat.succ_ne_zero n
        (h.distinct _ (Nat.succ_lt_succ hn) _ (Nat.succ_pos _) (hi.symm.trans heq))
      rw [hformat] at hout
      exact hout
    -- the new record meets none of the other blocks
    have hrest : (∀ n < rest.length, ∀ i, i / fs.blockSize = formatBlock fs (readInode fs g inode) (n + 1) →
        i < c' ∨ c' + dirEntrySize name.length ≤ i) → rest' = rest := by
      intro hapart
      apply hsame
      intro n hn i hi
      have hout := hother n hn i hi
      exact hkept i (by omega) (hapart n hn i hi)
    rcases Nat.lt_or_ge (addr + recordBytes init + dirEntrySize r.name.length) (addr + fs.blockSize) with hlt | hge
    · obtain rfl : addr + recordBytes init + dirEntrySize r.name.length = c' := by omega
      cases added with
      | nil => exact absurd (show _ = addr + fs.blockSize from hadded) hlt.ne
      | cons y added =>
        obtain ⟨hylen, hyrecord, hyfits, hyrest⟩ := hadded
        have hy4 : 4 ∣ y.1 := haligned _ List.mem_cons_self y (by simp)
        rw [← hyrecord, hrecord] at hyfits
        have hyfits : 8 + name.length ≤ y.1 := hyfits
        have hroom := dirEntrySize_le_of_dvd hy4 hyfits
        obtain rfl := hyrest.eq_nil (by omega)
        obtain rfl := hrest fun n hn i hi => by
          have hout := hother n hn i hi
          omega
        simp only [List.flatten_cons, List.length_append, List.length_cons, List.length_nil] at hcount
        obtain rfl : tail = [] := List.length_eq_zero_iff.mp (by omega)
        rw [recordBytes_nil] at htail
        refine ⟨by rw [hb]; exact hlow, init, (len, r), rest', rfl, ?_, ?_⟩
        · show dirEntrySize r.name.length + dirEntrySize name.length ≤ len
          omega
        · rw [hb]
          exact hstop.elim (fun hlt => .inr hlt.2) fun heq => .inl heq.1
    · obtain rfl := hadded.eq_nil (by omega)
      obtain rfl := (recordsAt_append.mp hrecords).2.2.2.2.eq_nil (show _ = addr + recordBytes init + len by omega)
      rw [List.append_nil] at hcount
      -- the start of a block, in which the first record would have length 0
      have hzero : (dirAt fs'.disk c').recLen = 0 := by rw [hnewLen]; omega
      obtain ⟨q, hq⟩ : ∃ q, c' = q * fs.blockSize := by
        rcases Nat.lt_or_ge (addr + fs.blockSize) (2 ^ 32) with hlow' | hhigh
        · refine ⟨formatBlock fs (readInode fs g inode) 0 + 1, ?_⟩
          rw [Nat.succ_mul, hformat]
          omega
        · exact ⟨0, by omega⟩
      have hnot : ∀ n < rest.length, formatBlock fs (readInode fs g inode) (n + 1) ≠ q := by
        intro n hn heq
        obtain ⟨rs, hrs⟩ := hothers n hn
        rw [heq, ← hq] at hrs
        cases rs with
        | nil => exact absurd (show c' = c' + fs.blockSize from hrs) (by omega)
        | cons x rs =>
          have hlong := hrs.2.2.1
          rw [← hrs.1, hzero] at hlong
          omega
      obtain rfl := hrest fun n hn i hi => by
        have hout := outside_block fun heq => hnot n hn (hi.symm.trans heq)
        omega
      simp only [List.flatten_cons, List.length_append, List.length_cons, List.length_nil] at hcount
      omega

theorem fits_of_addRight (h : Ext2Dir fs g inode blocks) (hnew : NewEntry blocks name type nInode)
    (hlow : (readInode fs g inode).iBlock 0 * fs.blockSize < 2 ^ 32)
    (hright : AddRight fs g inode blocks name type nInode) : AddFits fs g inode blocks name := by
  obtain ⟨fs', ⟨N, hrun⟩, ⟨blocks', hafter, haligned, hperm⟩, houtside⟩ := hright
  obtain ⟨hsame, hformat⟩ := h.layout _ houtside
  exact fits_of_added h hnew.length.2 hnew.inode hnew.type hlow hrun (SamePlace.of_inode hsame hformat) hafter haligned
    (length_of_perm hperm)

end

/-! ## The law -/

section

variable {fs : Ext2FsInstance} {g : Garbage} {inode b : Nat} {rs : List (Nat × DirRecord)}

theorem readInode_congr {m : Bytes}
    (hkept : ∀ i, i / fs.blockSize = inodeBlock fs inode → m i = fs.disk i) :
    readInode { fs with disk := m } g inode = readInode fs g inode := by
  have hblock : getBlock { fs with disk := m } g (inodeBlock fs inode) = getBlock fs g (inodeBlock fs inode) := by
    funext i
    unfold getBlock readData
    show (if i < fs.blockSize then m (inodeBlock fs inode * fs.blockSize + i) else _) = _
    split_ifs with hi
    · exact hkept _ (pos_div hi)
    · rfl
  unfold readInode
  dsimp only
  congr 1
  funext i
  split_ifs with hi
  · exact congrFun hblock _
  · rfl

theorem OneBlockDir.ext2Dir (h : OneBlockDir fs g inode b rs) (hplace : DirPlace fs inode b) :
    Ext2Dir fs g inode [rs] := by
  have hbs := blockSize_of_log hplace.log
  have hformat : formatBlock fs (readInode fs g inode) 0 = b := h.block
  refine ⟨hplace.log, ⟨?_, fun n hn => ?_⟩, fun rs' hrs => ?_, fun m hm => ⟨?_, fun n hn => ?_⟩, fun n hn k hk _ => ?_⟩
  · rw [h.size]
    exact (Nat.one_mul _).symm
  · obtain rfl : n = 0 := Nat.lt_one_iff.mp hn
    rw [hformat]
    exact h.records
  · rw [List.mem_singleton.mp hrs]
    exact h.aligned
  · apply readInode_congr
    intro i hi
    apply hm
    intro n hn
    obtain rfl : n = 0 := Nat.lt_one_iff.mp hn
    rw [hformat, hi]
    exact hplace.apart
  · obtain rfl : n = 0 := Nat.lt_one_iff.mp hn
    rfl
  · exact (Nat.lt_one_iff.mp hn).trans (Nat.lt_one_iff.mp hk).symm

end

theorem ext2Dir_kiloBlocks : Ext2Dir (farFs kiloBlocks 2 9) noGarbage 2 [[(12, ⟨1, [97], 1⟩), (1012, ⟨2, [98], 1⟩)]] :=
  (farFs_oneBlock ⟨by decide, by decide, by decide, by decide⟩ noGarbage).ext2Dir ⟨by decide, by decide, by decide, by decide⟩

/-- A file system with a directory, inode 2, of the one block 9. -/
def blockFs (block : Bytes) : Ext2FsInstance :=
  { kiloBlocks with disk := fun i => if i / 1024 = 9 then block (i % 1024) else (farFs kiloBlocks 2 9).disk i }

theorem blockFs_inode (block : Bytes) (g : Garbage) :
    (readInode (blockFs block) g 2).iSize = 1024 ∧ (readInode (blockFs block) g 2).iBlock 0 = 9 := by
  have hfar := @farFs_oneBlock kiloBlocks 2 9 ⟨by decide, by decide, by decide, by decide⟩ g
  have hread : readInode (blockFs block) g 2 = readInode (farFs kiloBlocks 2 9) g 2 := by
    apply @readInode_congr (farFs kiloBlocks 2 9) g 2
    intro i hi
    have hi : i / 1024 = 5 := hi
    exact if_neg (by omega)
  rw [hread]
  exact ⟨hfar.size, hfar.block⟩

theorem blockFs_block (block : Bytes) {i : Nat} (hi : i < 1024) : (blockFs block).disk (9 * 1024 + i) = block i := by
  show (if (9 * 1024 + i) / 1024 = 9 then block ((9 * 1024 + i) % 1024) else _) = _
  rw [pos_div hi, if_pos rfl, Nat.mul_add_mod_of_lt hi]

/-- The records `a` and `b`, where only the first one has room for another. -/
def slackRecords : Bytes := fun t =>
  if t < 1000 then ([1, 0, 0, 0, 232, 3, 1, 1, 97] : List UInt8).getD t 0
  else ([2, 0, 0, 0, 24, 0, 1, 1, 98] : List UInt8).getD (t - 1000) 0

theorem slackRecords_oneBlock :
    OneBlockDir (blockFs slackRecords) noGarbage 2 9 [(1000, ⟨1, [97], 1⟩), (24, ⟨2, [98], 1⟩)] := by
  obtain ⟨hsize, hblock⟩ := blockFs_inode slackRecords noGarbage
  have hrecords : RecordsAt slackRecords 0 1024 [(1000, ⟨1, [97], 1⟩), (24, ⟨2, [98], 1⟩)] :=
    ⟨by decide, by decide, by decide, by decide, by decide, by decide, rfl⟩
  refine ⟨hsize, hblock, ?_, by decide, by decide, by decide, by decide⟩
  apply hrecords.shift (show 9 * 1024 + 1024 + 0 = 1024 + 9 * 1024 by decide)
  intro i hi
  rw [Nat.zero_add] at hi ⊢
  exact blockFs_block slackRecords hi

end Desiros.Fs
