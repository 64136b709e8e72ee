import Desiros.Fs.RemoveEntry
import Desiros.Fs.BlockMapping

/-!
# Where a record is removed (`remove_dir_entry`)

The variable `addr_debut` of `remove_dir_entry` is an `int`, so that the first entry of a directory at 2 GiB or above
is read from an address of 64 bits with the sign extended. `removeDirEntry_right_iff` says that the blocks below are
those in which a record is removed right, whatever else the disk holds.
-/

namespace Desiros.Fs

open Desiros.Library

/-! ## The property -/

section

variable (fs : Ext2FsInstance) (g : Garbage) (inode b : Nat) (rs : List (Nat × DirRecord)) (name : List UInt8)

/-- A directory of one block, the block `b`, with two records at least. -/
structure OneBlockDir : Prop where
  size : (readInode fs g inode).iSize = fs.blockSize
  block : (readInode fs g inode).iBlock 0 = b
  records : RecordsAt fs.disk (b * fs.blockSize) (b * fs.blockSize + fs.blockSize) rs
  aligned : ∀ x ∈ rs, 4 ∣ x.1
  two : 2 ≤ rs.length
  /-- The name of an entry is a string. -/
  strings : ∀ x ∈ rs, 0 ∉ x.2.name
  distinct : rs.Pairwise fun x y => x.2.name ≠ y.2.name

/-- `remove_dir_entry` returns, and leaves the entries that do not have the name. -/
def RemoveRight : Prop :=
  ∃ fs', (∃ N, ∀ fuel ≥ N, removeDirEntry fs g fuel inode name = some fs') ∧
    (∃ rs', RecordsAt fs'.disk (b * fs.blockSize) (b * fs.blockSize + fs.blockSize) rs' ∧ (∀ x ∈ rs', 4 ∣ x.1) ∧
      rs'.map Prod.snd = (rs.map Prod.snd).filter (·.name ≠ name)) ∧
    ((∀ x ∈ rs, x.2.name ≠ name) → ∀ i < fs.blockSize, fs'.disk (b * fs.blockSize + i) = fs.disk (b * fs.blockSize + i))

/-- The block of the inode table with the inode, and where in it the inode lies. -/
def inodeBlock : Nat :=
  let index := (inode + (2 ^ 32 - 1)) % 2 ^ 32
  ((fs.groupDescTable (index / fs.superblock.sInodesPerGroup)).bgInodeTable +
    index % fs.superblock.sInodesPerGroup / (fs.blockSize / fs.superblock.sInodeSize)) % 2 ^ 32

def inodeOffset : Nat :=
  (inode + (2 ^ 32 - 1)) % 2 ^ 32 % fs.superblock.sInodesPerGroup % (fs.blockSize / fs.superblock.sInodeSize) *
    fs.superblock.sInodeSize

/-- The block `b` can hold a directory: it is not block 0, which stands for none, nor the one with the inode. -/
structure DirPlace : Prop where
  log : fs.superblock.sLogBlockSize ≤ 2
  inodeSize : 128 ≤ fs.superblock.sInodeSize ∧ fs.superblock.sInodeSize ≤ fs.blockSize
  number : 0 < b ∧ b < 2 ^ 32
  apart : inodeBlock fs inode ≠ b

end

section

variable {fs : Ext2FsInstance} {g : Garbage} {inode b : Nat} {rs : List (Nat × DirRecord)} {name : List UInt8}

/-! ## Below 2 GiB -/

theorem removeDirEntryLoop_mono {addrDebut d : Nat} : ∀ {fuel : Nat} {s s' : RemoveState},
    removeDirEntryLoop addrDebut name fuel s = some s' → removeDirEntryLoop addrDebut name (fuel + d) s = some s' := by
  intro fuel
  induction fuel with
  | zero => exact fun h => absurd h (by simp [removeDirEntryLoop])
  | succ fuel ih =>
    intro s s' h
    rw [Nat.add_right_comm, removeDirEntryLoop]
    rw [removeDirEntryLoop] at h
    split_ifs at h ⊢
    · exact ih h
    · exact h

theorem removeDirEntry_mono {d fuel : Nat} {fs' : Ext2FsInstance} (h : removeDirEntry fs g fuel inode name = some fs') :
    removeDirEntry fs g (fuel + d) inode name = some fs' := by
  unfold removeDirEntry at h ⊢
  dsimp only at h ⊢
  split_ifs at h ⊢
  · exact h
  · obtain ⟨s, hloop, heq⟩ := Option.map_eq_some_iff.mp h
    exact Option.map_eq_some_iff.mpr ⟨s, removeDirEntryLoop_mono hloop, heq⟩

/-- The records without the name, of names that are distinct. -/
theorem withoutName_records (hdistinct : rs.Pairwise fun x y => x.2.name ≠ y.2.name) (htwo : 2 ≤ rs.length) :
    (withoutName name rs).map Prod.snd = (rs.map Prod.snd).filter (·.name ≠ name) := by
  by_cases habsent : ∀ x ∈ rs, x.2.name ≠ name
  · rw [withoutName_absent habsent, List.filter_eq_self.mpr]
    intro r hr
    obtain ⟨x, hx, rfl⟩ := List.mem_map.mp hr
    exact decide_eq_true (habsent x hx)
  · push Not at habsent
    obtain ⟨x, hmem, hx⟩ := habsent
    obtain ⟨pre, post, rfl⟩ := List.append_of_mem hmem
    obtain ⟨-, htail, hcross⟩ := List.pairwise_append.mp hdistinct
    have hpre : ∀ y ∈ pre, y.2.name ≠ name := fun y hy => hx ▸ hcross y hy x List.mem_cons_self
    have hpost : ∀ y ∈ post, y.2.name ≠ name := fun y hy heq =>
      (List.pairwise_cons.mp htail).1 y hy (hx.trans heq.symm)
    have hne : pre ++ post ≠ [] := by
      intro hnil
      obtain ⟨rfl, rfl⟩ := List.append_eq_nil_iff.mp hnil
      exact absurd htwo (show ¬ 2 ≤ 1 by decide)
    have hkeep : ∀ l : List (Nat × DirRecord), (∀ y ∈ l, y.2.name ≠ name) →
        (l.map Prod.snd).filter (·.name ≠ name) = l.map Prod.snd := by
      intro l hl
      rw [List.filter_eq_self]
      intro r hr
      obtain ⟨y, hy, rfl⟩ := List.mem_map.mp hr
      exact decide_eq_true (hl y hy)
    rw [withoutName_split hpre hx, if_neg hne, extendLast_records, List.map_append, List.map_append, List.map_cons,
      List.filter_append, hkeep pre hpre, List.filter_cons_of_neg (by simpa using hx), hkeep post hpost]

theorem addrInodeData_oneBlock (h : OneBlockDir fs g inode b rs) (hbs : 0 < fs.blockSize) :
    addrInodeData fs g inode 0 = b * fs.blockSize % 2 ^ 32 := by
  unfold addrInodeData
  have hsize : (readInode fs g inode).iSize ≠ 0 := by
    rw [h.size]
    omega
  rw [← h.block]
  exact getDataBlock_zero hsize

theorem removeRight_of_low (h : OneBlockDir fs g inode b rs) (hplace : DirPlace fs inode b)
    (hlow : b * fs.blockSize < 2 ^ 31) : RemoveRight fs g inode b rs name := by
  have hbs := blockSize_of_log hplace.log
  have hpos : 0 < b * fs.blockSize := Nat.mul_pos hplace.number.1 (by omega)
  have haddr := addrInodeData_oneBlock h (by omega)
  rw [Nat.mod_eq_of_lt (by omega)] at haddr
  -- 2 GiB is a number of blocks
  have hend : b * fs.blockSize + fs.blockSize ≤ 2 ^ 31 := by
    rcases hbs with hbs | hbs | hbs <;> rw [hbs] at hlow ⊢ <;> omega
  by_cases habsent : ∀ x ∈ rs, x.2.name ≠ name
  · have hne : rs ≠ [] := List.ne_nil_of_length_pos (Nat.lt_of_lt_of_le Nat.two_pos h.two)
    obtain ⟨pre, x, rfl⟩ := (List.eq_nil_or_concat' rs).resolve_left hne
    refine ⟨fs, ⟨pre.length + 1, fun fuel hfuel => ?_⟩, ⟨_, h.records, h.aligned, ?_⟩, fun _ _ _ => rfl⟩
    · apply removeDirEntry_absent haddr (by omega) h.records hend (by omega) (by omega)
      exact fun y hy => ⟨h.strings y hy, habsent y hy⟩
    · rw [← withoutName_records h.distinct h.two, withoutName_absent habsent]
  · obtain ⟨m, hrun, -, hrecords⟩ := @removeDirEntry_records fs g (rs.length + 1) inode (b * fs.blockSize) name rs haddr
      (by omega) h.records hend ⟨by omega, by omega⟩ (Nat.lt_succ_self _) h.strings h.distinct
    refine ⟨{ fs with disk := m }, ⟨rs.length + 1, fun fuel hfuel => ?_⟩,
      ⟨withoutName name rs, hrecords, withoutName_aligned name h.aligned, withoutName_records h.distinct h.two⟩,
      fun h => absurd h habsent⟩
    obtain ⟨d, rfl⟩ := Nat.exists_eq_add_of_le hfuel
    exact removeDirEntry_mono hrun

/-! ## At 2 GiB and above -/

/-- The entry at the extended address says that it takes a block. -/
theorem removeDirEntry_stays {addr : Nat} (haddr : addrInodeData fs g inode 0 = addr)
    (hlen : (dirAt fs.disk (signExtend addr)).recLen = fs.blockSize) {fuel : Nat} (hfuel : 0 < fuel) :
    removeDirEntry fs g fuel inode name = some fs := by
  obtain ⟨fuel, rfl⟩ := Nat.exists_eq_add_one.mpr hfuel
  unfold removeDirEntry
  rw [haddr]
  dsimp only
  split_ifs with hzero
  · rfl
  · have hbuf := (holds_readInto fs g.dep (signExtend addr)).dirAt.1
    have hend : ¬ beforeLast fs addr (readInto fs g.dep sizeofExt2Directory (signExtend addr)) addr := by
      unfold beforeLast
      rw [hbuf, hlen, Nat.add_comm]
      exact lt_irrefl _
    rw [@removeDirEntryLoop_done addr name ⟨fs, readInto fs g.dep sizeofExt2Directory (signExtend addr), g.dep, addr, 0, 0⟩ hend,
      Option.map_some]
    unfold removeLast
    rw [if_neg fun hlast => hlast.2 rfl]

theorem inodeOffset_le (h : DirPlace fs inode b) : inodeOffset fs inode + 128 ≤ fs.blockSize := by
  have hpos : 0 < fs.superblock.sInodeSize := Nat.lt_of_lt_of_le (by decide) h.inodeSize.1
  have hslots : 0 < fs.blockSize / fs.superblock.sInodeSize := Nat.div_pos h.inodeSize.2 hpos
  have hlt := Nat.mod_lt ((inode + (2 ^ 32 - 1)) % 2 ^ 32 % fs.superblock.sInodesPerGroup) hslots
  have hmul : (inodeOffset fs inode + fs.superblock.sInodeSize) ≤
      fs.blockSize / fs.superblock.sInodeSize * fs.superblock.sInodeSize := by
    unfold inodeOffset
    rw [← Nat.succ_mul]
    exact Nat.mul_le_mul_right _ hlt
  have hle := Nat.div_mul_le_self fs.blockSize fs.superblock.sInodeSize
  have := h.inodeSize.1
  omega

theorem readInode_place (h : DirPlace fs inode b) : readInode fs g inode = ext2InodeAt fun i =>
    if i < 128 then fs.disk (inodeBlock fs inode * fs.blockSize + (inodeOffset fs inode + i)) else g.bufInode i := by
  have hle := inodeOffset_le h
  unfold readInode
  dsimp only
  rw [Nat.min_eq_right h.inodeSize.1]
  congr 1
  funext i
  split_ifs with hi
  · exact if_pos (show inodeOffset fs inode + i < fs.blockSize by omega)
  · rfl

/-- The records `a` and `b` of a block. -/
def twoRecords (bs : Nat) : Bytes := fun t =>
  ([1, 0, 0, 0, 12, 0, 1, 1, 97, 0, 0, 0, 2, 0, 0, 0, UInt8.ofNat (bs - 12), UInt8.ofNat ((bs - 12) / 256), 1, 1, 98] :
    List UInt8).getD t 0

theorem recordsAt_twoRecords {bs : Nat} (hbs : bs = 1024 ∨ bs = 2048 ∨ bs = 4096) :
    RecordsAt (twoRecords bs) 0 bs [(12, ⟨1, [97], 1⟩), (bs - 12, ⟨2, [98], 1⟩)] := by
  rcases hbs with rfl | rfl | rfl
  all_goals exact ⟨by decide, by decide, by decide, by decide, by decide, by decide, rfl⟩

/-- A disk with these records in the block `b`, and with the inode of a directory of this block. The blocks start
with a record that takes a block. -/
def farDisk (bs b slotBlock slotOffset : Nat) : Bytes := fun n =>
  let t := n % bs
  if n / bs = b then twoRecords bs t
  else if n / bs = slotBlock ∧ slotOffset + 40 ≤ t ∧ t < slotOffset + 44 then
    UInt8.ofNat (b / 256 ^ (t - (slotOffset + 40)))
  else if n / bs = slotBlock ∧ slotOffset + 4 ≤ t ∧ t < slotOffset + 8 then
    UInt8.ofNat (bs / 256 ^ (t - (slotOffset + 4)))
  else if t = 4 then UInt8.ofNat bs
  else if t = 5 then UInt8.ofNat (bs / 256)
  else 0

section

variable {bs q t slotBlock slotOffset : Nat}

theorem farDisk_block (ht : t < bs) : farDisk bs b slotBlock slotOffset (b * bs + t) = twoRecords bs t := by
  unfold farDisk
  dsimp only
  rw [pos_div ht, if_pos rfl, Nat.mul_add_mod_of_lt ht]

theorem farDisk_other (ht : t < bs) (hq : q ≠ b) : farDisk bs b slotBlock slotOffset (q * bs + t) =
    if q = slotBlock ∧ slotOffset + 40 ≤ t ∧ t < slotOffset + 44 then
      UInt8.ofNat (b / 256 ^ (t - (slotOffset + 40)))
    else if q = slotBlock ∧ slotOffset + 4 ≤ t ∧ t < slotOffset + 8 then
      UInt8.ofNat (bs / 256 ^ (t - (slotOffset + 4)))
    else if t = 4 then UInt8.ofNat bs
    else if t = 5 then UInt8.ofNat (bs / 256)
    else 0 := by
  unfold farDisk
  dsimp only
  rw [pos_div ht, if_neg hq, Nat.mul_add_mod_of_lt ht]

/-- The first record of another block, which may be the one with the inode. -/
theorem farDisk_recLen (hbs : 1024 ≤ bs ∧ bs < 65536) (hq : q ≠ b) (hoffset : slotOffset = 0 ∨ 128 ≤ slotOffset) :
    (dirAt (farDisk bs b slotBlock slotOffset) (q * bs)).recLen = bs := by
  apply le16_bytes hbs.2
  · rw [farDisk_other (by omega) hq, if_neg (by omega)]
    by_cases hslot : q = slotBlock ∧ slotOffset + 4 ≤ 4 ∧ 4 < slotOffset + 8
    · rw [if_pos hslot, show 4 - (slotOffset + 4) = 0 by omega, pow_zero, Nat.div_one]
    · rw [if_neg hslot, if_pos rfl]
  · rw [Nat.add_assoc, farDisk_other (by omega) hq, if_neg (by omega)]
    by_cases hslot : q = slotBlock ∧ slotOffset + 4 ≤ 4 + 1 ∧ 4 + 1 < slotOffset + 8
    · rw [if_pos hslot, show 4 + 1 - (slotOffset + 4) = 1 by omega, pow_one]
    · rw [if_neg hslot, if_neg (by decide), if_pos rfl]

/-- The inode on that disk. -/
theorem farDisk_inode (hb : b < 2 ^ 32) (hslot : slotBlock ≠ b) (hoffset : slotOffset + 128 ≤ bs) (hbs : bs < 2 ^ 32)
    (buf : Bytes) :
    (ext2InodeAt fun i => if i < 128 then farDisk bs b slotBlock slotOffset (slotBlock * bs + (slotOffset + i))
      else buf i).iSize = bs ∧
    (ext2InodeAt fun i => if i < 128 then farDisk bs b slotBlock slotOffset (slotBlock * bs + (slotOffset + i))
      else buf i).iBlock 0 = b := by
  have hbyte : ∀ i < 128, farDisk bs b slotBlock slotOffset (slotBlock * bs + (slotOffset + i)) = _ := fun i hi =>
    farDisk_other (q := slotBlock) (show slotOffset + i < bs by omega) hslot
  have hsize : ∀ i < 4, (if 4 + i < 128 then farDisk bs b slotBlock slotOffset (slotBlock * bs + (slotOffset + (4 + i)))
      else buf (4 + i)) = UInt8.ofNat (bs / 256 ^ i) := by
    intro i hi
    rw [if_pos (by omega), hbyte (4 + i) (by omega), if_neg (by omega), if_pos ⟨rfl, by omega, by omega⟩,
      show slotOffset + (4 + i) - (slotOffset + 4) = i by omega]
  have hblock : ∀ i < 4, (if 40 + i < 128 then farDisk bs b slotBlock slotOffset (slotBlock * bs + (slotOffset + (40 + i)))
      else buf (40 + i)) = UInt8.ofNat (b / 256 ^ i) := by
    intro i hi
    rw [if_pos (by omega), hbyte (40 + i) (by omega), if_pos ⟨rfl, by omega, by omega⟩,
      show slotOffset + (40 + i) - (slotOffset + 40) = i by omega]
  constructor
  · apply le32_bytes hbs
    · exact (hsize 0 (by decide)).trans (by rw [pow_zero, Nat.div_one])
    · exact hsize 1 (by decide)
    · exact hsize 2 (by decide)
    · exact hsize 3 (by decide)
  · apply le32_bytes hb
    · exact (hblock 0 (by decide)).trans (by rw [pow_zero, Nat.div_one])
    · exact hblock 1 (by decide)
    · exact hblock 2 (by decide)
    · exact hblock 3 (by decide)

end

/-- The same file system with the disk `farDisk`. -/
def farFs (fs : Ext2FsInstance) (inode b : Nat) : Ext2FsInstance :=
  { fs with disk := farDisk fs.blockSize b (inodeBlock fs inode) (inodeOffset fs inode) }

theorem farFs_oneBlock (h : DirPlace fs inode b) (g : Garbage) :
    OneBlockDir (farFs fs inode b) g inode b [(12, ⟨1, [97], 1⟩), (fs.blockSize - 12, ⟨2, [98], 1⟩)] := by
  have hbs := blockSize_of_log h.log
  have hplace : DirPlace (farFs fs inode b) inode b := ⟨h.log, h.inodeSize, h.number, h.apart⟩
  obtain ⟨hsize, hblock⟩ := farDisk_inode h.number.2 h.apart (inodeOffset_le h) (by omega) g.bufInode
  have hread := readInode_place (g := g) hplace
  refine ⟨(congrArg Ext2Inode.iSize hread).trans hsize, (congrArg (fun x => x.iBlock 0) hread).trans hblock, ?_, ?_, ?_,
    ?_, ?_⟩
  · apply (recordsAt_twoRecords hbs).shift (by rw [Nat.add_zero, Nat.add_comm]; rfl)
    intro i hi
    rw [Nat.zero_add] at hi ⊢
    exact farDisk_block hi
  · simp only [List.mem_cons, List.not_mem_nil, or_false, forall_eq_or_imp, forall_eq]
    exact ⟨by decide, by omega⟩
  · exact Nat.le_refl 2
  · simp
  · simp

/-- **A directory at 2 GiB or above**: an entry stays that is to be removed. -/
theorem farFs_not_removeRight (h : DirPlace fs inode b) (hhigh : 2 ^ 31 ≤ b * fs.blockSize) (g : Garbage) :
    ¬ RemoveRight (farFs fs inode b) g inode b [(12, ⟨1, [97], 1⟩), (fs.blockSize - 12, ⟨2, [98], 1⟩)] [97] := by
  have hbs := blockSize_of_log h.log
  have hdir := farFs_oneBlock h g
  have haddr := addrInodeData_oneBlock hdir (show 0 < fs.blockSize by omega)
  have hsame : (farFs fs inode b).blockSize = fs.blockSize := rfl
  rw [hsame] at haddr
  -- the address that is read is that of another block
  obtain ⟨q, hq, hne⟩ : ∃ q, signExtend (b * fs.blockSize % 2 ^ 32) = q * fs.blockSize ∧ q ≠ b := by
    have hb := h.number.2
    unfold signExtend
    rcases hbs with hbs | hbs | hbs <;> rw [hbs] at hhigh ⊢
    · exact ⟨(if b * 1024 % 2 ^ 32 < 2 ^ 31 then b * 1024 % 2 ^ 32 else 2 ^ 64 - 2 ^ 32 + b * 1024 % 2 ^ 32) / 1024,
        by split_ifs <;> omega, by split_ifs <;> omega⟩
    · exact ⟨(if b * 2048 % 2 ^ 32 < 2 ^ 31 then b * 2048 % 2 ^ 32 else 2 ^ 64 - 2 ^ 32 + b * 2048 % 2 ^ 32) / 2048,
        by split_ifs <;> omega, by split_ifs <;> omega⟩
    · exact ⟨(if b * 4096 % 2 ^ 32 < 2 ^ 31 then b * 4096 % 2 ^ 32 else 2 ^ 64 - 2 ^ 32 + b * 4096 % 2 ^ 32) / 4096,
        by split_ifs <;> omega, by split_ifs <;> omega⟩
  have hoffset : inodeOffset fs inode = 0 ∨ 128 ≤ inodeOffset fs inode := by
    unfold inodeOffset
    generalize (inode + (2 ^ 32 - 1)) % 2 ^ 32 % fs.superblock.sInodesPerGroup % (fs.blockSize / fs.superblock.sInodeSize) = k
    cases k with
    | zero => exact .inl (Nat.zero_mul _)
    | succ k => exact .inr (h.inodeSize.1.trans (Nat.le_mul_of_pos_left _ (Nat.succ_pos k)))
  have hlen : (dirAt (farFs fs inode b).disk (signExtend (b * fs.blockSize % 2 ^ 32))).recLen =
      (farFs fs inode b).blockSize := by
    rw [hq]
    exact farDisk_recLen (by omega) hne hoffset
  rintro ⟨fs', ⟨N, hrun⟩, ⟨rs', hrecords, -, hleft⟩, -⟩
  have hstays := @removeDirEntry_stays _ g inode [97] _ haddr hlen (N + 1) (Nat.succ_pos N)
  rw [hrun (N + 1) (Nat.le_succ N)] at hstays
  obtain rfl := Option.some.inj hstays
  rw [← hdir.records.unique hrecords] at hleft
  exact absurd (congrArg List.length hleft) (show ¬ 2 = 1 by decide)

end

/-! ## The law -/

/-- **Where `remove_dir_entry` is right for the directories in a block**: below 2 GiB. -/
theorem removeDirEntry_right_iff (fs : Ext2FsInstance) (inode b : Nat) (h : DirPlace fs inode b) :
    (∀ disk g rs name, OneBlockDir { fs with disk := disk } g inode b rs →
      RemoveRight { fs with disk := disk } g inode b rs name) ↔ b * fs.blockSize < 2 ^ 31 := by
  constructor
  · intro hright
    by_contra hhigh
    exact farFs_not_removeRight h (Nat.le_of_not_lt hhigh) noGarbage (hright _ noGarbage _ [97] (farFs_oneBlock h noGarbage))
  · intro hlow disk g rs name hdir
    exact removeRight_of_low hdir ⟨h.log, h.inodeSize, h.number, h.apart⟩ hlow

/-- A file system with blocks of 1 KiB whose inode table is block 5. -/
def kiloBlocks : Ext2FsInstance := ⟨⟨0, 8, 128⟩, fun _ => ⟨5⟩, fun _ => 0⟩

/-- The directory is block 9. -/
theorem removeDirEntry_right_low :
    RemoveRight (farFs kiloBlocks 2 9) noGarbage 2 9 [(12, ⟨1, [97], 1⟩), (1012, ⟨2, [98], 1⟩)] [97] :=
  (removeDirEntry_right_iff kiloBlocks 2 9 ⟨by decide, by decide, by decide, by decide⟩).mpr (by decide) _ noGarbage _ _
    (farFs_oneBlock ⟨by decide, by decide, by decide, by decide⟩ noGarbage)

/-- The directory is the block at 2 GiB. -/
theorem removeDirEntry_keeps_far : ¬ ∀ (fs : Ext2FsInstance) (g : Garbage) (inode b : Nat)
    (rs : List (Nat × DirRecord)) (name : List UInt8), DirPlace fs inode b → OneBlockDir fs g inode b rs →
    RemoveRight fs g inode b rs name := by
  intro hclaim
  have hplace : DirPlace kiloBlocks 2 (2 ^ 21) := ⟨by decide, by decide, by decide, by decide⟩
  have hfar : DirPlace (farFs kiloBlocks 2 (2 ^ 21)) 2 (2 ^ 21) :=
    ⟨hplace.log, hplace.inodeSize, hplace.number, hplace.apart⟩
  exact farFs_not_removeRight hplace (by decide) noGarbage (hclaim _ noGarbage 2 _ _ [97] hfar (farFs_oneBlock hplace noGarbage))

end Desiros.Fs
