import Desiros.Block.PartDetect
import Desiros.Library.Loop

/-!
# Block-device reads (`block_dev.c`)

`blockdevGenericRead` is `blockdev_generic_read` over the driver of a disk, whose calls may fail, with a record of these
calls. Where none fails, the destination holds the bytes of the device, which are those of the disk from its first
block on (`blockdevGenericRead_correct`). `registered_wellFormed` says that the devices the drivers and `part_detect`
register, partitions of partitions included, are addressed with 64 bits.
-/

namespace Desiros.Block

open Desiros.Library

/-! ## The driver -/

/-- `struct blockdev_operations`. The `call`-th call of `read_block` returns a value and leaves something in the buffer;
that of `write_block` returns a value and does something to the disk with the content of the buffer. -/
structure BlockOps where
  readBlock : (call : Nat) → (blockId : UInt64) → Int × Bytes
  writeBlock : (call : Nat) → (blockId : UInt64) → Int × (Bytes → Disk → Disk)

/-- A call of the driver, made when `done` bytes of the request had been transferred. -/
structure BlockCall where
  blockId : UInt64
  retval : Int
  done : UInt32

/-- A `read_block` that succeeds leaves the content of the block in the buffer. -/
def BlockOps.Reads (ops : BlockOps) (disk : Disk) (blockSize : Nat) : Prop :=
  ∀ call blockId, (ops.readBlock call blockId).1 = OK →
    ∀ i < blockSize, (ops.readBlock call blockId).2 i = disk blockId.toNat i

/-! ## The loop -/

/-- The variables of the loop of `blockdev_generic_read`, the destination, and the calls made. -/
structure ReadState where
  rdbytes : UInt32
  offsetInDevice : UInt64
  buff : Bytes
  calls : List BlockCall

section

variable (b : BlockdevInstance) (ops : BlockOps) (len : UInt32)

/-- One turn; the error is only reported by `debug`. -/
def readTurn (s : ReadState) : Option ReadState :=
  if ¬ s.rdbytes < len then none
  else
    let blockId := s.offsetInDevice / b.blockSize.toUInt64
    if blockId ≥ b.numberOfBlocks then none
    else
      let blockId := blockId + b.indexOfFirstBlock
      let r := ops.readBlock s.calls.length blockId
      let offsetInBlock := (s.offsetInDevice % b.blockSize.toUInt64).toUInt32
      let wrbytes := b.blockSize - offsetInBlock
      let wrbytes := if len - s.rdbytes < wrbytes then len - s.rdbytes else wrbytes
      some
        { rdbytes := s.rdbytes + wrbytes
          offsetInDevice := s.offsetInDevice + wrbytes.toUInt64
          buff := copyInto s.buff s.rdbytes.toNat wrbytes.toNat fun i => r.2 (offsetInBlock.toNat + i)
          calls := s.calls ++ [⟨blockId, r.1, s.rdbytes⟩] }

/-- What a request returns, `*len`, the destination, and the calls made. -/
structure ReadResult where
  retval : Int
  len : UInt32
  dest : Bytes
  calls : List BlockCall

def blockdevGenericRead (fuel : Nat) (offsetInDevice : UInt64) (dest : Bytes) : Option ReadResult :=
  (loop (readTurn b ops len) fuel ⟨0, offsetInDevice, dest, []⟩).map fun s => ⟨OK, s.rdbytes, s.buff, s.calls⟩

end

/-! ## Bytes of a device -/

/-- Byte `y` of a disk with blocks of `blockSize` bytes. -/
def diskByte (disk : Disk) (blockSize y : Nat) : UInt8 := disk (y / blockSize) (y % blockSize)

/-- Byte `x` of a disk or a partition. -/
def BlockdevInstance.byteAt (b : BlockdevInstance) (disk : Disk) (x : Nat) : UInt8 :=
  diskByte disk b.blockSize.toNat (b.indexOfFirstBlock.toNat * b.blockSize.toNat + x)

def BlockdevInstance.size (b : BlockdevInstance) : Nat := b.numberOfBlocks.toNat * b.blockSize.toNat

/-- Bytes have 64-bit offsets in the device, and blocks 64-bit numbers on the disk. -/
structure BlockdevInstance.WellFormed (b : BlockdevInstance) : Prop where
  blockSize : 0 < b.blockSize.toNat
  bytes : b.size < 18446744073709551616
  blocks : b.indexOfFirstBlock.toNat + b.numberOfBlocks.toNat ≤ 18446744073709551616

/-- `min(len, number_of_blocks * block_size - offset)`. -/
def readLength (b : BlockdevInstance) (offset : UInt64) (len : UInt32) : Nat :=
  min len.toNat (b.size - offset.toNat)

section

variable {b : BlockdevInstance} {ops : BlockOps} {disk : Disk} {len : UInt32} {s s' : ReadState}

theorem byteAt_block (hsize : 0 < b.blockSize.toNat) {k i : Nat} (hi : i < b.blockSize.toNat) :
    b.byteAt disk (k * b.blockSize.toNat + i) = disk (b.indexOfFirstBlock.toNat + k) i := by
  have hsum : b.indexOfFirstBlock.toNat * b.blockSize.toNat + (k * b.blockSize.toNat + i) =
      i + (b.indexOfFirstBlock.toNat + k) * b.blockSize.toNat := by
    rw [Nat.add_mul]
    omega
  unfold BlockdevInstance.byteAt diskByte
  rw [hsum, Nat.add_mul_div_right _ _ hsize, Nat.add_mul_mod_self_right, Nat.div_eq_of_lt hi, Nat.mod_eq_of_lt hi,
    Nat.zero_add]

/-- A byte of a partition is a byte of the device it is cut from. -/
theorem byteAt_partitionOf {p : Nat} {cls inst : UInt32} {first blocks : UInt64} {x : Nat}
    (h : b.indexOfFirstBlock.toNat + first.toNat < 18446744073709551616) :
    (partitionOf b p cls inst first blocks).byteAt disk x = b.byteAt disk (first.toNat * b.blockSize.toNat + x) := by
  have hindex : (partitionOf b p cls inst first blocks).indexOfFirstBlock.toNat =
      b.indexOfFirstBlock.toNat + first.toNat := by
    show (b.indexOfFirstBlock + first).toNat = _
    rw [UInt64.toNat_add]
    exact Nat.mod_eq_of_lt h
  unfold BlockdevInstance.byteAt
  rw [hindex, Nat.add_mul, Nat.add_assoc]
  rfl

/-- One turn: the bytes up to the end of the block, or of the request. -/
theorem readTurn_spec (hsize : 0 < b.blockSize.toNat) (h : readTurn b ops len s = some s') :
    ∃ n : UInt32, ∃ id : UInt64,
      s.rdbytes.toNat < len.toNat ∧ s.offsetInDevice.toNat / b.blockSize.toNat < b.numberOfBlocks.toNat ∧
      id = s.offsetInDevice / b.blockSize.toUInt64 + b.indexOfFirstBlock ∧
      n.toNat = min (len.toNat - s.rdbytes.toNat)
        (b.blockSize.toNat - s.offsetInDevice.toNat % b.blockSize.toNat) ∧
      s'.rdbytes.toNat = s.rdbytes.toNat + n.toNat ∧ 0 < n.toNat ∧
      s'.offsetInDevice = s.offsetInDevice + n.toUInt64 ∧
      s'.buff = copyInto s.buff s.rdbytes.toNat n.toNat (fun i =>
        (ops.readBlock s.calls.length id).2 (s.offsetInDevice.toNat % b.blockSize.toNat + i)) ∧
      s'.calls = s.calls ++ [⟨id, (ops.readBlock s.calls.length id).1, s.rdbytes⟩] := by
  unfold readTurn at h
  by_cases hlen : s.rdbytes < len
  swap
  · rw [if_pos hlen] at h
    cases h
  rw [if_neg (not_not.mpr hlen)] at h
  dsimp only at h
  by_cases hend : s.offsetInDevice / b.blockSize.toUInt64 ≥ b.numberOfBlocks
  · rw [if_pos hend] at h
    cases h
  rw [if_neg hend] at h
  have hmore := word_lt_iff.mp hlen
  rw [ge_iff_le, UInt64.le_iff_toNat_le, toNat_div, not_le] at hend
  obtain rfl := Option.some.inj h
  obtain ⟨hn, hsum, hpos⟩ := wrbytes_spec hsize hmore s.offsetInDevice rfl
  refine ⟨_, _, hmore, hend, rfl, hn, hsum, hpos, rfl, ?_, rfl⟩
  rw [← toNat_mod _ hsize]

/-- The loop stops at the end of the request or of the device. -/
theorem readTurn_none (h : readTurn b ops len s = none) : len.toNat ≤ s.rdbytes.toNat ∨
    b.numberOfBlocks.toNat ≤ s.offsetInDevice.toNat / b.blockSize.toNat := by
  by_cases hlen : s.rdbytes < len
  · right
    by_contra hend
    rw [← toNat_div, ← UInt64.le_iff_toNat_le] at hend
    unfold readTurn at h
    rw [if_neg (not_not.mpr hlen)] at h
    dsimp only at h
    rw [if_neg hend] at h
    cases h
  · left
    exact Nat.le_of_not_lt fun hlt => hlen (word_lt_iff.mpr hlt)

/-- While the loop runs: the bytes transferred so far are those of the device from the offset on. -/
structure Reading (b : BlockdevInstance) (disk : Disk) (len : UInt32) (offset : UInt64) (dest : Bytes)
    (s : ReadState) : Prop where
  done : s.rdbytes.toNat ≤ readLength b offset len
  position : s.offsetInDevice.toNat = offset.toNat + s.rdbytes.toNat
  buff : (∀ c ∈ s.calls, c.retval = OK) → ∀ i, s.buff i =
    if i < s.rdbytes.toNat then b.byteAt disk (offset.toNat + i) else dest i

variable {offset : UInt64} {dest : Bytes}

theorem reading_start : Reading b disk len offset dest ⟨0, offset, dest, []⟩ := by
  refine ⟨Nat.zero_le _, rfl, fun _ i => ?_⟩
  exact (if_neg (Nat.not_lt_zero i)).symm

/-- **One turn** reads on. -/
theorem Reading.turn (hb : b.WellFormed) (hops : ops.Reads disk b.blockSize.toNat)
    (h : Reading b disk len offset dest s) (hturn : readTurn b ops len s = some s') :
    Reading b disk len offset dest s' ∧ s.rdbytes.toNat < s'.rdbytes.toNat := by
  obtain ⟨n, id, hlen, hblock, hid, hn, hdone, hpos, hoffset, hbuff, hcalls⟩ := readTurn_spec hb.blockSize hturn
  obtain ⟨bs, hbs⟩ : ∃ bs, bs = b.blockSize.toNat := ⟨_, rfl⟩
  have hbytes := hb.bytes
  have hsize := hb.blockSize
  have hstart := h.position
  rw [← hbs] at hblock hn hsize
  have hmod := Nat.mod_lt s.offsetInDevice.toNat hsize
  have hdiv := Nat.div_add_mod s.offsetInDevice.toNat bs
  -- The block lies inside the device.
  have hroom : bs * (s.offsetInDevice.toNat / bs) + bs ≤ b.size := by
    have hmul := Nat.mul_le_mul_right bs hblock
    rw [Nat.succ_mul, Nat.mul_comm (_ / bs)] at hmul
    unfold BlockdevInstance.size
    rwa [← hbs]
  have hnext : s'.offsetInDevice.toNat = s.offsetInDevice.toNat + n.toNat := by
    rw [hoffset, UInt64.toNat_add, UInt32.toNat_toUInt64]
    omega
  refine ⟨⟨?_, by omega, fun hok i => ?_⟩, by omega⟩
  · unfold readLength
    omega
  rw [hcalls] at hok
  have hread := hops s.calls.length id (hok _ (List.mem_append_right _ List.mem_cons_self))
  have hidNat : id.toNat = b.indexOfFirstBlock.toNat + s.offsetInDevice.toNat / bs := by
    have hblocks := hb.blocks
    rw [hid, UInt64.toNat_add, toNat_div, ← hbs, Nat.add_comm]
    exact Nat.mod_eq_of_lt (Nat.lt_of_lt_of_le (Nat.add_lt_add_left hblock _) hblocks)
  rw [hbuff, hdone]
  unfold copyInto
  by_cases hin : s.rdbytes.toNat ≤ i ∧ i < s.rdbytes.toNat + n.toNat
  · have hi : s.offsetInDevice.toNat % bs + (i - s.rdbytes.toNat) < bs := by omega
    have hbyte : offset.toNat + i =
        s.offsetInDevice.toNat / bs * bs + (s.offsetInDevice.toNat % bs + (i - s.rdbytes.toNat)) := by
      rw [Nat.mul_comm]
      omega
    rw [if_pos hin, if_pos hin.2, hbyte]
    rw [hbs] at hi hidNat ⊢
    rw [byteAt_block hb.blockSize hi, ← hidNat]
    exact hread _ hi
  · rw [if_neg hin, h.buff (fun c hc => hok c (List.mem_append_left _ hc)) i]
    by_cases hlow : i < s.rdbytes.toNat
    · rw [if_pos hlow, if_pos (by omega)]
    · rw [if_neg hlow, if_neg (by omega)]

/-- The loop ends with all the bytes there are. -/
theorem Reading.done_eq (hb : b.WellFormed) (h : Reading b disk len offset dest s)
    (hstop : readTurn b ops len s = none) : s.rdbytes.toNat = readLength b offset len := by
  apply Nat.le_antisymm h.done
  unfold readLength
  rcases readTurn_none hstop with hlen | hend
  · exact Nat.le_trans (Nat.min_le_left _ _) hlen
  · have hmul := (Nat.le_div_iff_mul_le hb.blockSize).mp hend
    have hoffset := h.position
    have hsize : b.size = b.numberOfBlocks.toNat * b.blockSize.toNat := rfl
    omega

/-! ## Registered devices -/

/-- A registration by `ide.c` or `partition.c`: numbers of blocks are 32-bit words, and the heap holds fewer than
`2 ^ 31` instances. -/
def FromDrivers (r : Registry) (op : RegisterOp) : Prop :=
  r.instances.length < 2147483648 ∧
    match op with
    | .disk _ _ _ _ blocks _ _ => blocks.toNat < 4294967296
    | .partition _ _ _ _ first blocks _ => first.toNat < 4294967296 ∧ blocks.toNat < 4294967296

/-- Each level of partitions adds 32 bits to the first block. -/
structure Narrow (d : Nat) (b : BlockdevInstance) : Prop where
  blockSize : 0 < b.blockSize.toNat ∧ b.blockSize.toNat < 2147483648
  blocks : b.numberOfBlocks.toNat < 4294967296
  first : b.indexOfFirstBlock.toNat ≤ d * 4294967296

def AllNarrow (r : Registry) : Prop := ∀ d b, r.instances[d]? = some b → Narrow d b

theorem AllNarrow.add {r : Registry} (h : AllNarrow r) {name : Nat} (hb : Narrow r.instances.length b) :
    AllNarrow (r.add name b) := by
  intro d c hget
  rcases add_get_cases hget with ⟨-, hold⟩ | ⟨rfl, rfl⟩
  · exact h d c hold
  · exact hb

theorem AllNarrow.step {r : Registry} (h : AllNarrow r) {op : RegisterOp} (hop : FromDrivers r op) :
    AllNarrow (registerStep r op) := by
  obtain ⟨hlength, hop⟩ := hop
  cases op with
  | disk name cls inst blockSize blocks customData ok =>
    simp only [registerStep, blockdevRegisterDisk]
    split_ifs with hknown hsize hblocks hroom
    · exact h
    · exact h
    · exact h
    · exact h
    · have hpos : 0 < blockSize.toInt := by
        rw [Int32.not_le] at hsize
        exact Int32.lt_iff_toInt_lt.mp hsize
      have hword : blockSize.toUInt32.toNat = blockSize.toInt.toNat :=
        Int32.toNat_toUInt32_of_le (Int32.le_iff_toInt_le.mpr (Int.le_of_lt hpos))
      have hlt := blockSize.toInt_lt
      refine h.add ⟨⟨?_, ?_⟩, hop, Nat.zero_le _⟩
      · show 0 < blockSize.toUInt32.toNat
        omega
      · show blockSize.toUInt32.toNat < 2147483648
        omega
  | partition name cls inst parentBd first blocks ok =>
    simp only [registerStep, blockdevRegisterPartition]
    cases hparent : parentBd.bind fun p => r.instances[p]?.map fun b => (p, b) with
    | none => exact h
    | some q =>
      obtain ⟨p, parent⟩ := q
      simp only [Option.bind_eq_some_iff, Option.map_eq_some_iff, Prod.mk.injEq] at hparent
      obtain ⟨p', hp', c, hc, rfl, rfl⟩ := hparent
      dsimp only
      split_ifs with hknown hroom
      · exact h
      · exact h
      · have hnarrow := h p' c hc
        have hlt := (List.getElem?_eq_some_iff.mp hc).1
        have hfirst := hnarrow.first
        refine h.add ⟨hnarrow.blockSize, hop.2, ?_⟩
        show (c.indexOfFirstBlock + first).toNat ≤ r.instances.length * 4294967296
        rw [UInt64.toNat_add]
        have hmod := Nat.mod_le (c.indexOfFirstBlock.toNat + first.toNat) (2 ^ 64)
        have hfirst' := hop.1
        omega

theorem Narrow.wellFormed {d : Nat} (h : Narrow d b) (hd : d < 2147483648) : b.WellFormed := by
  obtain ⟨⟨hpos, hsize⟩, hblocks, hfirst⟩ := h
  refine ⟨hpos, ?_, by omega⟩
  unfold BlockdevInstance.size
  calc b.numberOfBlocks.toNat * b.blockSize.toNat ≤ 4294967296 * 2147483648 :=
        Nat.mul_le_mul (Nat.le_of_lt hblocks) (Nat.le_of_lt hsize)
    _ < 18446744073709551616 := by decide

/-- Every device that the drivers have registered is well formed. -/
theorem registered_wellFormed (ops : List RegisterOp) (hops : Guarded registerStep FromDrivers {} ops) {d : Nat}
    (hd : d < 2147483648) (hget : (run registerStep {} ops).instances[d]? = some b) : b.WellFormed := by
  have hempty : AllNarrow ({} : Registry) := fun d c hc => by cases hc
  have hstep : ∀ r op, AllNarrow r → FromDrivers r op → AllNarrow (registerStep r op) := fun r op h hop => h.step hop
  have hrun := invariant_run hstep ops {} hempty hops
  exact (hrun d b hget).wellFormed hd

/-! ## A whole read -/

/-- **Block-device reads**: a read ends; where no call of the driver fails, it has read the bytes of the device from the
offset on, as many as there are. -/
theorem blockdevGenericRead_correct (b : BlockdevInstance) (hb : b.WellFormed) (ops : BlockOps) (disk : Disk)
    (hops : ops.Reads disk b.blockSize.toNat) (offset : UInt64) (dest : Bytes) (len : UInt32) (fuel : Nat)
    (hfuel : len.toNat < fuel) : ∃ r, blockdevGenericRead b ops len fuel offset dest = some r ∧
      r.retval = OK ∧ r.len.toNat = readLength b offset len ∧
      ((∀ c ∈ r.calls, c.retval = OK) → ∀ i, r.dest i =
        if i < readLength b offset len then
          diskByte disk b.blockSize.toNat
            (b.indexOfFirstBlock.toNat * b.blockSize.toNat + (offset.toNat + i))
        else dest i) := by
  have hstart : Reading b disk len offset dest ⟨0, offset, dest, []⟩ := reading_start
  have hends : (loop (readTurn b ops len) fuel ⟨0, offset, dest, []⟩).isSome = true := by
    refine loop_isSome (fun s => len.toNat - s.rdbytes.toNat) (fun s s' h hturn => ?_) hstart
      (Nat.lt_of_le_of_lt (Nat.sub_le _ _) hfuel)
    obtain ⟨hnext, hmore⟩ := h.turn hb hops hturn
    have hlen : s'.rdbytes.toNat ≤ len.toNat := Nat.le_trans hnext.done (Nat.min_le_left _ _)
    exact ⟨hnext, by omega⟩
  obtain ⟨t, ht⟩ := Option.isSome_iff_exists.mp hends
  obtain ⟨hread, hstop⟩ := loop_invariant (fun s s' h hturn => (h.turn hb hops hturn).1) ht hstart
  have hdone := hread.done_eq hb hstop
  refine ⟨⟨OK, t.rdbytes, t.buff, t.calls⟩, ?_, rfl, hdone, fun hok i => ?_⟩
  · unfold blockdevGenericRead
    rw [ht]
    rfl
  · show t.buff i = _
    rw [hread.buff hok i, hdone]
    rfl

end

/-! ## A logical partition -/

/-- The driver of a disk whose block `k` is full of the byte `k`. -/
def numberedOps : BlockOps where
  readBlock _ blockId := (OK, fun _ => UInt8.ofNat blockId.toNat)
  writeBlock _ blockId := (OK, fun blockData d => writeBlock d blockId blockData)

/-- A partition of two blocks behind block 3 of a partition behind block 10 of a disk. -/
def logicalPartition : BlockdevInstance :=
  partitionOf (partitionOf ⟨512, 100, none, 0, 3, 0, 0⟩ 0 3 1 10 20) 1 3 2 3 2

theorem logicalPartition_wellFormed : logicalPartition.WellFormed := ⟨by decide, by decide, by decide⟩

/-- A read across the blocks, up to the end of the partition. -/
theorem blockdevGenericRead_logical : ∃ r, blockdevGenericRead logicalPartition numberedOps 2000 2001 510 (fun _ => 7) =
      some r ∧ r.retval = OK ∧ r.len.toNat = 514 ∧
      ((∀ c ∈ r.calls, c.retval = OK) → ∀ i, r.dest i =
        if i < 514 then diskByte (fun id _ => UInt8.ofNat id) 512 (13 * 512 + (510 + i)) else 7) :=
  blockdevGenericRead_correct logicalPartition logicalPartition_wellFormed numberedOps (fun id _ => UInt8.ofNat id)
    (fun _ _ _ _ _ => rfl) 510 (fun _ => 7) 2000 2001 (by decide)

end Desiros.Block
