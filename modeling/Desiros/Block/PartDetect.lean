import Desiros.Block.BlockDev
import Desiros.Block.Registry
import Desiros.Library.Bytes

/-!
# Scanning partition tables (`drivers/partition.c`)

`part_detect` reads the table of a disk and the chain of extended tables, and registers a partition for each entry. All
names are formatted into one buffer, whose address devfs keeps. A loop that has not stopped when its `fuel` runs out
gives `none`; `logicalLoop_isSome` and `readLoop_isSome` show that none does.
-/

namespace Desiros.Block

open Desiros.Library

/-! ## Data -/

/-- The registry, the strings in the name buffers, and the address of the next buffer. -/
structure BlockWorld where
  registry : Registry := {}
  strings : Nat → List UInt8 := fun _ => []
  nextBuffer : Nat := 0

namespace BlockWorld

/-- `kmalloc(20, 0)` for a name. -/
def kmallocName (w : BlockWorld) : Nat × BlockWorld := (w.nextBuffer, { w with nextBuffer := w.nextBuffer + 1 })

/-- `snprintf(buff, len, ..)` of a string that does not depend on the buffer. -/
def snprintf (w : BlockWorld) (buff len : Nat) (s : List UInt8) : BlockWorld :=
  { w with strings := Function.update w.strings buff (s.take (len - 1)) }

/-- The caller of `blockdev_register_partition` only reports an error. -/
def registerPartition (w : BlockWorld) (name : Nat) (deviceClass deviceInstance : UInt32) (parentBd : Nat)
    (indexOfFirstBlock numberOfBlocks : UInt64) : BlockWorld :=
  { w with
    registry := (blockdevRegisterPartition w.registry name deviceClass deviceInstance (some parentBd) indexOfFirstBlock
      numberOfBlocks true).2 }

end BlockWorld

/-- `%d` of a small number. -/
def decimal (n : Nat) : List UInt8 := (Nat.toDigits 10 n).map fun c => UInt8.ofNat c.toNat

/-- The fields of a `struct partition_entry` that are used. -/
structure PartitionEntry where
  type : UInt8
  lba : UInt32
  size : UInt32
deriving DecidableEq, Repr

def partTableOffset : Nat := 446
def partTypeExtended : UInt8 := 5

/-- `part_entry[k]` of the table in a sector. -/
def partitionEntry (buffer : Bytes) (k : Nat) : PartitionEntry where
  type := buffer (partTableOffset + 16 * k + 4)
  lba := UInt32.ofNat (le32 buffer (partTableOffset + 16 * k + 8))
  size := UInt32.ofNat (le32 buffer (partTableOffset + 16 * k + 12))

/-- The bytes of an entry, whose other fields are zero. -/
def entryBytes (e : PartitionEntry) : List UInt8 :=
  [0, 0, 0, 0, e.type, 0, 0, 0] ++
    [e.lba, e.lba >>> 8, e.lba >>> 16, e.lba >>> 24].map UInt32.toUInt8 ++
    [e.size, e.size >>> 8, e.size >>> 16, e.size >>> 24].map UInt32.toUInt8

/-- A sector with a partition table. -/
def table (entries : List PartitionEntry) : Bytes :=
  fun o => if o < partTableOffset then 0 else (entries.flatMap entryBytes)[o - partTableOffset]?.getD 0

/-! ## Reading -/

/-- The loop of `blockdev_generic_read`. Returns `rdbytes` and the buffer. -/
def readLoop (b : BlockdevInstance) (disk : Disk) (len : UInt32) :
    Nat → UInt32 → UInt64 → Bytes → Option (UInt32 × Bytes)
  | 0, _, _, _ => none
  | fuel + 1, rdbytes, offsetInDevice, buff =>
    if ¬ rdbytes < len then some (rdbytes, buff)
    else
      let blockId := offsetInDevice / b.blockSize.toUInt64
      if blockId ≥ b.numberOfBlocks then some (rdbytes, buff)
      else
        let blockId := blockId + b.indexOfFirstBlock
        let offsetInBlock := (offsetInDevice % b.blockSize.toUInt64).toUInt32
        let wrbytes := b.blockSize - offsetInBlock
        let wrbytes := if len - rdbytes < wrbytes then len - rdbytes else wrbytes
        readLoop b disk len fuel (rdbytes + wrbytes) (offsetInDevice + wrbytes.toUInt64)
          (copyInto buff rdbytes.toNat wrbytes.toNat fun i => disk blockId.toNat (offsetInBlock.toNat + i))

/-- Returns `*len` and the destination; each turn reads a byte at least. -/
def blockdevKernelRead (b : BlockdevInstance) (disk : Disk) (offset : UInt64) (dest : Bytes) (len : UInt32) :
    Option (UInt32 × Bytes) :=
  readLoop b disk len (len.toNat + 1) 0 offset dest

/-! ## `part_detect` -/

/-- The arguments of `part_detect` and what it looks up or allocates first. -/
structure ScanArgs where
  diskClass : UInt32
  diskInstance : UInt32
  blockSize : UInt32
  name : Nat
  blkdev : Nat
  b : BlockdevInstance
  disk : Disk
  partName : Nat

/-- One turn of the loop over the primary partitions, on the world and `extstart`. -/
def primaryStep (a : ScanArgs) (buffer : Bytes) (s : BlockWorld × UInt32) (partnum : Nat) : BlockWorld × UInt32 :=
  let e := partitionEntry buffer partnum
  if e.size = 0 then s
  else
    let w := s.1.snprintf a.partName 20 (s.1.strings a.name ++ decimal (partnum + 1))
    if e.type = partTypeExtended then (w, e.lba)
    else
      (w.registerPartition a.partName a.diskClass (a.diskInstance + UInt32.ofNat partnum + 1) a.blkdev e.lba.toUInt64
        e.size.toUInt64, s.2)

/-- The variables of the loop over the extended tables. -/
structure LogicalScan where
  world : BlockWorld
  buffer : Bytes
  size : UInt32
  extsup : UInt32
  partnum : Nat

/-- The loop over the extended tables. The format buffer is a pointer, so `sizeof(part_name)` is 4. -/
def logicalLoop (a : ScanArgs) (extstart : UInt32) : Nat → LogicalScan → Option BlockWorld
  | 0, _ => none
  | fuel + 1, s =>
    if ¬ (extstart ≠ 0 ∧ s.partnum < 15) then some s.world
    else
      match blockdevKernelRead a.b a.disk ((extstart + s.extsup) * a.blockSize).toUInt64 s.buffer s.size with
      | none => none
      | some (size, buffer) =>
        let w := s.world.snprintf a.partName 4 (s.world.strings a.name ++ decimal (s.partnum + 1))
        let w := w.registerPartition a.partName a.diskClass (a.diskInstance + UInt32.ofNat s.partnum + 1) a.blkdev
          (extstart + (partitionEntry buffer 0).lba).toUInt64 (partitionEntry buffer 0).size.toUInt64
        let extsup := (partitionEntry buffer 1).lba
        if extsup = 0 then some w
        else logicalLoop a extstart fuel ⟨w, buffer, size, extsup, s.partnum + 1⟩

def enoent : Int := 2
def eio : Int := 5

/-- `disk` gives the content of the disks by their `custom_data`, `garbage` what the sector buffer contains when it is
allocated. Returns the return value and the world. -/
def partDetect (disk : Nat → Disk) (garbage : Bytes) (w : BlockWorld) (diskClass diskInstance blockSize : UInt32)
    (name : Nat) : Option (Int × BlockWorld) :=
  let (partName, w) := w.kmallocName
  match (lookupBlockdevInstance w.registry diskClass diskInstance).bind fun d =>
      w.registry.instances[d]?.map fun b => (d, b) with
  | none => some (-enoent, w)
  | some (blkdev, b) =>
    match blockdevKernelRead b (disk b.customData) 0 garbage blockSize with
    | none => none
    | some (size, buffer) =>
      if size ≠ blockSize then some (-eio, w)
      else
        let a : ScanArgs := ⟨diskClass, diskInstance, blockSize, name, blkdev, b, disk b.customData, partName⟩
        let s := (List.range 4).foldl (primaryStep a buffer) (w, 0)
        (logicalLoop a s.2 12 ⟨s.1, buffer, size, 0, 4⟩).map fun w => (OK, w)

/-! ## Reads stop -/

section

variable {b : BlockdevInstance} {disk : Disk} {len : UInt32}

/-- One turn that does not stop reads at least a byte, and not more than is left. -/
theorem wrbytes_spec (hsize : 0 < b.blockSize.toNat) {rd : UInt32} (hrd : rd.toNat < len.toNat) (o : UInt64) {n : UInt32}
    (hn : n = if len - rd < b.blockSize - (o % b.blockSize.toUInt64).toUInt32 then len - rd
      else b.blockSize - (o % b.blockSize.toUInt64).toUInt32) :
    n.toNat = min (len.toNat - rd.toNat) (b.blockSize.toNat - o.toNat % b.blockSize.toNat) ∧
      (rd + n).toNat = rd.toNat + n.toNat ∧ 0 < n.toNat := by
  have hmod := toNat_mod o hsize
  have hlt := Nat.mod_lt o.toNat hsize
  have hbs := word_lt b.blockSize
  have hlen := word_lt len
  have hleft : (len - rd).toNat = len.toNat - rd.toNat := by
    rw [word_sub]
    omega
  have hroom : (b.blockSize - (o % b.blockSize.toUInt64).toUInt32).toNat =
      b.blockSize.toNat - o.toNat % b.blockSize.toNat := by
    rw [word_sub, hmod]
    omega
  have hval : n.toNat = min (len.toNat - rd.toNat) (b.blockSize.toNat - o.toNat % b.blockSize.toNat) := by
    rw [hn]
    by_cases hcmp : len - rd < b.blockSize - (o % b.blockSize.toUInt64).toUInt32
    · rw [if_pos hcmp, hleft]
      rw [word_lt_iff, hleft, hroom] at hcmp
      omega
    · rw [if_neg hcmp, hroom]
      rw [word_lt_iff, hleft, hroom] at hcmp
      omega
  refine ⟨hval, ?_, by omega⟩
  rw [word_add]
  omega

theorem readLoop_isSome (hsize : 0 < b.blockSize.toNat) (fuel : Nat) : ∀ (rd : UInt32) (o : UInt64) (buff : Bytes),
    rd.toNat ≤ len.toNat → len.toNat - rd.toNat < fuel → (readLoop b disk len fuel rd o buff).isSome = true := by
  induction fuel with
  | zero => intro rd o buff _ hlt; omega
  | succ fuel ih =>
    intro rd o buff hrd hlt
    rw [readLoop]
    by_cases hmore : rd < len
    · rw [if_neg (not_not.mpr hmore)]
      dsimp only
      by_cases hend : o / b.blockSize.toUInt64 ≥ b.numberOfBlocks
      · rw [if_pos hend]
        rfl
      · rw [if_neg hend]
        obtain ⟨hval, hsum, hpos⟩ := wrbytes_spec hsize (word_lt_iff.mp hmore) o rfl
        have hle := word_lt_iff.mp hmore
        apply ih
        · rw [hsum]
          omega
        · rw [hsum]
          omega
    · rw [if_pos hmore]
      rfl

theorem blockdevKernelRead_isSome (hsize : 0 < b.blockSize.toNat) (o : UInt64) (buff : Bytes) :
    (blockdevKernelRead b disk o buff len).isSome = true :=
  readLoop_isSome hsize _ 0 o buff (Nat.zero_le _) (by show len.toNat - 0 < _; omega)

/-- A read of a block, or of its first bytes, with a 64-bit offset. -/
theorem blockdevKernelRead_block (hsize : 0 < b.blockSize.toNat) (hpos : 0 < len.toNat) (hlen : len.toNat ≤ b.blockSize.toNat)
    {k : Nat} (hk : k < b.numberOfBlocks.toNat) {o : UInt64} (ho : o.toNat = k * b.blockSize.toNat)
    (hindex : b.indexOfFirstBlock = 0) (buff : Bytes) :
    blockdevKernelRead b disk o buff len = some (len, copyInto buff 0 len.toNat (disk k)) := by
  have hlt : (0 : UInt32) < len := word_lt_iff.mpr hpos
  have hdiv : (o / b.blockSize.toUInt64).toNat = k := by
    rw [toNat_div, ho, Nat.mul_div_cancel _ hsize]
  have hmod : (o % b.blockSize.toUInt64).toUInt32 = 0 := by
    rw [word_eq_iff, toNat_mod o hsize, ho, Nat.mul_mod_left]
    rfl
  have hend : ¬ o / b.blockSize.toUInt64 ≥ b.numberOfBlocks := by
    rw [ge_iff_le, UInt64.le_iff_toNat_le, hdiv]
    omega
  obtain ⟨hval, hsum, -⟩ := wrbytes_spec hsize (show (0 : UInt32).toNat < len.toNat from hpos) o rfl
  have hzero : (0 : UInt32).toNat = 0 := rfl
  rw [blockdevKernelRead, readLoop, if_neg (not_not.mpr hlt)]
  dsimp only
  rw [if_neg hend]
  generalize hn : (if len - 0 < b.blockSize - (o % b.blockSize.toUInt64).toUInt32 then len - 0
      else b.blockSize - (o % b.blockSize.toUInt64).toUInt32) = n at hval hsum ⊢
  have hn' : n = len := by
    rw [word_eq_iff, hval, ho, Nat.mul_mod_left, hzero]
    omega
  obtain ⟨f, hf⟩ : ∃ f, len.toNat = f + 1 := ⟨len.toNat - 1, by omega⟩
  have hstop : ¬ ((0 : UInt32) + n < len) := by
    rw [word_lt_iff, hsum, hn', hzero]
    omega
  rw [hf, readLoop, if_pos hstop, hmod, hindex]
  have hid : (o / b.blockSize.toUInt64 + 0).toNat = k := by
    rw [UInt64.add_zero, hdiv]
  rw [hid, hn']
  simp [hf]

/-- The table of a sector is not touched by what lies behind it. -/
theorem partitionEntry_copyInto {buff : Bytes} {n : Nat} (src : Bytes) {k : Nat} (hk : k < 4) (hn : 510 ≤ n) :
    partitionEntry (copyInto buff 0 n src) k = partitionEntry src k := by
  have hbyte : ∀ i, i < 510 → copyInto buff 0 n src i = src i := by
    intro i hi
    rw [copyInto, if_pos ⟨Nat.zero_le _, by omega⟩, Nat.sub_zero]
  unfold partitionEntry le32 partTableOffset
  rw [hbyte _ (by omega), leWord_congr 4 (446 + 16 * k + 8) fun i hi => hbyte _ (by omega),
    leWord_congr 4 (446 + 16 * k + 12) fun i hi => hbyte _ (by omega)]

end

/-! ## Registering partitions -/

/-- A partition as the scan registers it. -/
structure PartSpec where
  number : Nat
  start : UInt64
  size : UInt64
deriving DecidableEq, Repr

def ScanArgs.part (a : ScanArgs) (s : PartSpec) : BlockdevInstance :=
  partitionOf a.b a.blkdev a.diskClass (a.diskInstance + UInt32.ofNat s.number) s.start s.size

def addParts (a : ScanArgs) (r : Registry) (parts : List PartSpec) : Registry :=
  parts.foldl (fun r s => r.add a.partName (a.part s)) r

/-- The disk is registered, and the ids of the partitions after the `n`-th are free. -/
structure Scanning (a : ScanArgs) (r : Registry) (n : Nat) : Prop where
  blkdev : r.instances[a.blkdev]? = some a.b
  free : ∀ k, n < k → k ≤ 15 →
    lookupBlockdevInstance r a.diskClass (a.diskInstance + UInt32.ofNat k) = none

section

variable {a : ScanArgs} {r : Registry}

theorem addParts_append (parts parts' : List PartSpec) :
    addParts a r (parts ++ parts') = addParts a (addParts a r parts) parts' :=
  List.foldl_append

theorem addParts_instances (parts : List PartSpec) : ∀ r,
    (addParts a r parts).instances = r.instances ++ parts.map a.part := by
  induction parts with
  | nil => exact fun r => (List.append_nil _).symm
  | cons s parts ih =>
    intro r
    show (addParts a (r.add a.partName (a.part s)) parts).instances = _
    rw [ih]
    simp [Registry.add]

theorem Scanning.mono {n m : Nat} (h : Scanning a r n) (hnm : n ≤ m) : Scanning a r m :=
  ⟨h.blkdev, fun k hk => h.free k (Nat.lt_of_le_of_lt hnm hk)⟩

theorem instance_inj (x : UInt32) {k j : Nat} (hk : k ≤ 15) (hj : j ≤ 15) (h : x + UInt32.ofNat k = x + UInt32.ofNat j) :
    k = j := by
  have hval := UInt32.toNat_inj.mpr (UInt32.add_right_inj x |>.mp h)
  rw [UInt32.toNat_ofNat', UInt32.toNat_ofNat'] at hval
  omega

theorem Scanning.add {n : Nat} (h : Scanning a r n) {s : PartSpec} (hs : s.number = n + 1) (hn : n < 15) :
    Scanning a (r.add a.partName (a.part s)) (n + 1) := by
  refine ⟨(add_get_old _ _ (List.getElem?_eq_some_iff.mp h.blkdev).1).trans h.blkdev, fun k hk hle => ?_⟩
  have hold := h.free k (by omega) hle
  rw [lookupBlockdevInstance, List.findIdx?_eq_none_iff] at hold ⊢
  intro b hb
  rcases List.mem_append.mp hb with hmem | hnew
  · exact hold b hmem
  · rw [List.mem_singleton.mp hnew]
    have hne : ¬ a.diskInstance + UInt32.ofNat s.number = a.diskInstance + UInt32.ofNat k := by
      intro heq
      have := instance_inj a.diskInstance (by omega) hle heq
      omega
    simp [ScanArgs.part, partitionOf, hne]

/-- A partition whose id is free gets it. -/
theorem registerPartition_eq {w : BlockWorld} {n : Nat} (h : Scanning a w.registry n) (hn : n < 15)
    (start size : UInt64) :
    w.registerPartition a.partName a.diskClass (a.diskInstance + UInt32.ofNat n + 1) a.blkdev start size =
      { w with registry := w.registry.add a.partName (a.part ⟨n + 1, start, size⟩) } := by
  have hid : a.diskInstance + UInt32.ofNat n + 1 = a.diskInstance + UInt32.ofNat (n + 1) := by
    rw [UInt32.ofNat_add, UInt32.add_assoc]
    rfl
  have hfree := h.free (n + 1) (Nat.lt_succ_self n) hn
  rw [hid, BlockWorld.registerPartition, blockdevRegisterPartition, Option.bind_some, h.blkdev, Option.map_some]
  dsimp only
  rw [hfree]
  rfl

end

/-! ## The primary partitions -/

/-- The entries of a table before the `n`-th that the scan registers. -/
def primaryParts (buffer : Bytes) (n : Nat) : List PartSpec :=
  ((List.range n).filter fun k =>
    (partitionEntry buffer k).size ≠ 0 ∧ (partitionEntry buffer k).type ≠ partTypeExtended).map fun k =>
      ⟨k + 1, (partitionEntry buffer k).lba.toUInt64, (partitionEntry buffer k).size.toUInt64⟩

def extendedEntries (buffer : Bytes) (n : Nat) : List Nat :=
  (List.range n).filter fun k =>
    (partitionEntry buffer k).size ≠ 0 ∧ (partitionEntry buffer k).type = partTypeExtended

/-- The last extended partition counts. -/
def extendedStart (buffer : Bytes) (n : Nat) : UInt32 :=
  ((extendedEntries buffer n).getLast?.map fun k => (partitionEntry buffer k).lba).getD 0

section

variable {a : ScanArgs} {buffer : Bytes}

theorem primaryParts_succ (n : Nat) : primaryParts buffer (n + 1) = primaryParts buffer n ++
    if (partitionEntry buffer n).size ≠ 0 ∧ (partitionEntry buffer n).type ≠ partTypeExtended then
      [⟨n + 1, (partitionEntry buffer n).lba.toUInt64, (partitionEntry buffer n).size.toUInt64⟩]
    else [] := by
  rw [primaryParts, List.range_succ, List.filter_append, List.map_append, ← primaryParts]
  by_cases h : (partitionEntry buffer n).size ≠ 0 ∧ (partitionEntry buffer n).type ≠ partTypeExtended <;> simp [h]

theorem extendedStart_succ (n : Nat) : extendedStart buffer (n + 1) =
    if (partitionEntry buffer n).size ≠ 0 ∧ (partitionEntry buffer n).type = partTypeExtended then
      (partitionEntry buffer n).lba
    else extendedStart buffer n := by
  rw [extendedStart, extendedEntries, List.range_succ, List.filter_append, ← extendedEntries]
  by_cases h : (partitionEntry buffer n).size ≠ 0 ∧ (partitionEntry buffer n).type = partTypeExtended <;>
    simp [h, extendedStart]

theorem primaryParts_congr {buffer buffer' : Bytes} {n : Nat}
    (h : ∀ k, k < n → partitionEntry buffer k = partitionEntry buffer' k) :
    primaryParts buffer n = primaryParts buffer' n ∧ extendedStart buffer n = extendedStart buffer' n := by
  induction n with
  | zero => exact ⟨rfl, rfl⟩
  | succ n ih =>
    obtain ⟨hparts, hext⟩ := ih fun k hk => h k (Nat.lt_succ_of_lt hk)
    rw [primaryParts_succ, primaryParts_succ, extendedStart_succ, extendedStart_succ, hparts, hext,
      h n (Nat.lt_succ_self n)]
    exact ⟨rfl, rfl⟩

theorem mem_primaryParts {n : Nat} {s : PartSpec} : s ∈ primaryParts buffer n ↔
    ∃ j < n, ((partitionEntry buffer j).size ≠ 0 ∧ (partitionEntry buffer j).type ≠ partTypeExtended) ∧
      s = ⟨j + 1, (partitionEntry buffer j).lba.toUInt64, (partitionEntry buffer j).size.toUInt64⟩ := by
  rw [primaryParts, List.mem_map]
  constructor
  · rintro ⟨j, hj, rfl⟩
    obtain ⟨hlt, hdata⟩ := List.mem_filter.mp hj
    exact ⟨j, List.mem_range.mp hlt, of_decide_eq_true hdata, rfl⟩
  · rintro ⟨j, hlt, hdata, rfl⟩
    exact ⟨j, List.mem_filter.mpr ⟨List.mem_range.mpr hlt, decide_eq_true hdata⟩, rfl⟩

theorem number_le_of_mem_primaryParts {n : Nat} {s : PartSpec} (hs : s ∈ primaryParts buffer n) :
    0 < s.number ∧ s.number ≤ n := by
  obtain ⟨j, hlt, -, rfl⟩ := mem_primaryParts.mp hs
  exact ⟨Nat.succ_pos j, hlt⟩

theorem primaryFold_registry (w : BlockWorld) (h : Scanning a w.registry 0) (n : Nat) (hn : n ≤ 4) :
    ((List.range n).foldl (primaryStep a buffer) (w, 0)).1.registry =
        addParts a w.registry (primaryParts buffer n) ∧
      ((List.range n).foldl (primaryStep a buffer) (w, 0)).2 = extendedStart buffer n ∧
      Scanning a (addParts a w.registry (primaryParts buffer n)) n := by
  induction n with
  | zero => exact ⟨rfl, rfl, h⟩
  | succ n ih =>
    obtain ⟨hreg, hext, hscan⟩ := ih (by omega)
    rw [List.range_succ, List.foldl_append, primaryParts_succ, extendedStart_succ, addParts_append]
    generalize (List.range n).foldl (primaryStep a buffer) (w, 0) = s at hreg hext ⊢
    rw [← hreg] at hscan ⊢
    show (primaryStep a buffer s n).1.registry = _ ∧ (primaryStep a buffer s n).2 = _ ∧ _
    rw [primaryStep]
    by_cases hsize : (partitionEntry buffer n).size = 0
    · simp only [hsize, ne_eq, not_true_eq_false, false_and, if_true, if_false]
      exact ⟨rfl, hext, hscan.mono (Nat.le_succ n)⟩
    · by_cases htype : (partitionEntry buffer n).type = partTypeExtended
      · simp only [hsize, htype, ne_eq, not_true_eq_false, not_false_eq_true, and_true, and_false, if_true, if_false]
        exact ⟨rfl, trivial, hscan.mono (Nat.le_succ n)⟩
      · simp only [hsize, htype, ne_eq, not_false_eq_true, and_true, and_false, if_true, if_false]
        have hw : Scanning a (s.1.snprintf a.partName 20 (s.1.strings a.name ++ decimal (n + 1))).registry n := hscan
        rw [registerPartition_eq hw (by omega)]
        exact ⟨rfl, hext, hscan.add rfl (by omega)⟩

end

/-! ## The scan as a whole -/

section

variable {b : BlockdevInstance} {disk : Nat → Disk} {garbage : Bytes}

theorem logicalLoop_isSome {a : ScanArgs} (extstart : UInt32) (hsize : 0 < a.b.blockSize.toNat) (fuel : Nat) :
    ∀ s : LogicalScan, 15 - s.partnum < fuel → (logicalLoop a extstart fuel s).isSome = true := by
  induction fuel with
  | zero => intro s hs; omega
  | succ fuel ih =>
    intro s hs
    rw [logicalLoop]
    by_cases hgo : extstart ≠ 0 ∧ s.partnum < 15
    · rw [if_neg (not_not.mpr hgo)]
      obtain ⟨x, hx⟩ := Option.isSome_iff_exists.mp (@blockdevKernelRead_isSome a.b a.disk s.size hsize
        ((extstart + s.extsup) * a.blockSize).toUInt64 s.buffer)
      rw [hx]
      dsimp only
      by_cases hlast : (partitionEntry x.2 1).lba = 0
      · rw [if_pos hlast]
        rfl
      · rw [if_neg hlast]
        apply ih
        dsimp only
        omega
    · rw [if_pos hgo]
      rfl

/-- What a scan reads first: the disk and its first sector. -/
def scanArgs (w : BlockWorld) (disk : Nat → Disk) (diskClass diskInstance : UInt32) (name blkdev : Nat)
    (b : BlockdevInstance) : ScanArgs :=
  ⟨diskClass, diskInstance, b.blockSize, name, blkdev, b, disk b.customData, w.nextBuffer⟩

/-- A disk as `ide_register_devices` registers it: a sector holds a table, and the ids of fifteen partitions are free. -/
structure Scannable (w : BlockWorld) (diskClass diskInstance : UInt32) (blkdev : Nat) (b : BlockdevInstance) : Prop where
  found : lookupBlockdevInstance w.registry diskClass diskInstance = some blkdev
  device : w.registry.instances[blkdev]? = some b
  blockSize : 510 ≤ b.blockSize.toNat
  numberOfBlocks : 0 < b.numberOfBlocks.toNat
  indexOfFirstBlock : b.indexOfFirstBlock = 0
  free : ∀ k, 0 < k → k ≤ 15 →
    lookupBlockdevInstance w.registry diskClass (diskInstance + UInt32.ofNat k) = none

theorem Scannable.scanning {w : BlockWorld} {cls inst : UInt32} {d : Nat} (h : Scannable w cls inst d b) (name : Nat) :
    Scanning (scanArgs w disk cls inst name d b) w.registry 0 :=
  ⟨h.device, h.free⟩

theorem partDetect_eq {w : BlockWorld} {cls inst : UInt32} {d : Nat} (h : Scannable w cls inst d b) (name : Nat) :
    partDetect disk garbage w cls inst b.blockSize name =
      let a := scanArgs w disk cls inst name d b
      let buffer := copyInto garbage 0 b.blockSize.toNat (disk b.customData 0)
      let s := (List.range 4).foldl (primaryStep a buffer) (w.kmallocName.2, 0)
      (logicalLoop a s.2 12 ⟨s.1, buffer, b.blockSize, 0, 4⟩).map fun w => (OK, w) := by
  have hsize : 0 < b.blockSize.toNat := Nat.lt_of_lt_of_le (by decide) h.blockSize
  have hread := @blockdevKernelRead_block b (disk b.customData) b.blockSize hsize hsize (Nat.le_refl _) 0
    h.numberOfBlocks 0 (Nat.zero_mul _).symm h.indexOfFirstBlock garbage
  have hd : lookupBlockdevInstance w.kmallocName.2.registry cls inst = some d := h.found
  have hb : w.kmallocName.2.registry.instances[d]? = some b := h.device
  rw [partDetect]
  dsimp only
  rw [hd, Option.bind_some, hb, Option.map_some]
  dsimp only
  rw [hread]
  dsimp only
  rw [if_neg (not_not.mpr rfl)]
  rfl

end

end Desiros.Block
