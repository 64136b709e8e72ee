import Mathlib.Logic.Function.Basic
import Mathlib.Tactic.IntervalCases

/-!
# Sector addresses of the IDE driver (`drivers/ide.c`)

`ideCommand` is what `ide_io_operation` writes to the registers of a controller before it waits for the device, and
`IdeController.target` the sector this selects by the ATA standard. `ide_addressing` says when it is the one asked for:
the driver drops the fourth bit of the upper part of a block number, and the bit that selects the slave is shifted out
of the register.
-/

namespace Desiros.Drivers

/-! ## Devices -/

inductive IdePosition where
  | master
  | slave
deriving DecidableEq, Repr

/-- `struct ide_device`, with 28-bit block numbers or the geometry of `IDENTIFY`. -/
structure IdeDevice where
  position : IdePosition
  cyls : Nat
  heads : Nat
  sectors : Nat
  blocks : Nat
  supportLba : Bool
  lba : supportLba = true → blocks < 2 ^ 28
  chs : supportLba = false → (1 ≤ heads ∧ heads ≤ 16) ∧ (1 ≤ sectors ∧ sectors ≤ 255) ∧ cyls < 65536 ∧
    blocks = cyls * sectors * heads

/-- A controller with its two devices. -/
structure IdeController where
  ioaddr : Nat
  devices : IdePosition → IdeDevice
  position : ∀ p, (devices p).position = p

def ataSectorCount : Nat := 0x02
def ataSectorNumber : Nat := 0x03
def ataCylLsb : Nat := 0x04
def ataCylMsb : Nat := 0x05
def ataDrive : Nat := 0x06
def ataDIbm : Nat := 0xa0
def ataDSet : Nat := 0xe0
def ataDMaster : Nat := 0x00
def ataDSlave : Nat := 0x10
def ataCmd : Nat := 0x07
def ataCRead : Nat := 0x20
def ataCWrite : Nat := 0x30

/-! ## Encoding -/

structure IdeAddress where
  cylLo : UInt8
  cylHi : UInt8
  sect : UInt8
  head : UInt8
deriving DecidableEq, Repr

/-- The four bytes of a block number. -/
def ideAddress (dev : IdeDevice) (block : Nat) : IdeAddress :=
  if dev.supportLba then
    { sect := UInt8.ofNat (block &&& 0xff)
      cylLo := UInt8.ofNat ((block >>> 8) &&& 0xff)
      cylHi := UInt8.ofNat ((block >>> 16) &&& 0xff)
      head := UInt8.ofNat (((block >>> 24) &&& 0x7) ||| 0x40) }
  else
    let cylinder := block / (dev.heads * dev.sectors)
    let temp := block % (dev.heads * dev.sectors)
    { cylLo := UInt8.ofNat (cylinder &&& 0xff)
      cylHi := UInt8.ofNat ((cylinder >>> 8) &&& 0xff)
      head := UInt8.ofNat (temp / dev.sectors)
      sect := UInt8.ofNat (temp % dev.sectors + 1) }

/-- `outb` puts the low byte of a value on a port. -/
def outb (port value : Nat) : Nat × UInt8 := (port, UInt8.ofNat value)

def IdeDevice.devselect (dev : IdeDevice) : Nat :=
  match dev.position with
  | .master => ataDMaster
  | .slave => ataDSlave

/-- What `ide_io_operation` writes to the registers until it has sent the command. -/
def ideCommand (ioaddr : Nat) (dev : IdeDevice) (block : Nat) (iswrite : Bool) : List (Nat × UInt8) :=
  let a := ideAddress dev block
  [outb (ioaddr + ataDrive) (ataDSet ||| dev.devselect),
    outb (ioaddr + ataSectorCount) 1,
    outb (ioaddr + ataSectorNumber) a.sect.toNat,
    outb (ioaddr + ataCylLsb) a.cylLo.toNat,
    outb (ioaddr + ataCylMsb) a.cylHi.toNat,
    outb (ioaddr + ataDrive)
      ((if dev.supportLba then ataDSet else ataDIbm) ||| dev.devselect <<< 4 ||| a.head.toNat),
    outb (ioaddr + ataCmd) (if iswrite then ataCWrite else ataCRead)]

/-! ## Decoding -/

/-- The registers after some writes: each port keeps the last value. -/
def ideRegisters (writes : List (Nat × UInt8)) : Nat → UInt8 :=
  writes.foldl (fun r w => Function.update r w.1 w.2) fun _ => 0

/-- The device and the sector that the registers select by the ATA standard: bit 4 of the drive register selects the
slave, bit 6 block numbers instead of cylinders, heads and sectors, which count from 1. -/
def IdeController.target (c : IdeController) (regs : Nat → UInt8) : IdePosition × Nat :=
  let reg := fun port => (regs (c.ioaddr + port)).toNat
  let position := if (reg ataDrive).testBit 4 then .slave else .master
  let dev := c.devices position
  let cylinder := reg ataCylMsb * 256 + reg ataCylLsb
  (position,
    if (reg ataDrive).testBit 6 then (reg ataDrive % 16 * 65536 + cylinder) * 256 + reg ataSectorNumber
    else (cylinder * dev.heads + reg ataDrive % 16) * dev.sectors + (reg ataSectorNumber - 1))

/-- The sector that a request for a block of a device reaches. -/
def IdeController.reached (c : IdeController) (p : IdePosition) (block : Nat) (iswrite : Bool) : IdePosition × Nat :=
  c.target (ideRegisters (ideCommand c.ioaddr (c.devices p) block iswrite))

/-- The condition for a request to reach its sector: the device is the master, and block numbers fit in 27 bits. -/
def AddressGood (dev : IdeDevice) (block : Nat) : Prop :=
  dev.position = .master ∧ (dev.supportLba = true → block < 2 ^ 27)

instance (dev : IdeDevice) (block : Nat) : Decidable (AddressGood dev block) :=
  inferInstanceAs (Decidable (_ ∧ _))

/-! ## The registers of a request -/

section

variable (c : IdeController) (dev : IdeDevice) (block : Nat) (iswrite : Bool)

/-- The last byte written to the drive register. -/
def driveByte : UInt8 :=
  UInt8.ofNat ((if dev.supportLba then ataDSet else ataDIbm) ||| dev.devselect <<< 4 ||| (ideAddress dev block).head.toNat)

theorem ideRegisters_command (ioaddr : Nat) :
    let regs := ideRegisters (ideCommand ioaddr dev block iswrite)
    regs (ioaddr + ataDrive) = driveByte dev block ∧
      regs (ioaddr + ataSectorNumber) = (ideAddress dev block).sect ∧
      regs (ioaddr + ataCylLsb) = (ideAddress dev block).cylLo ∧
      regs (ioaddr + ataCylMsb) = (ideAddress dev block).cylHi := by
  refine ⟨?_, ?_, ?_, ?_⟩ <;>
    simp [ideRegisters, ideCommand, outb, driveByte, ataDrive, ataSectorNumber, ataCylLsb, ataCylMsb, ataSectorCount,
      ataCmd]

theorem byte_cases {P : UInt8 → Prop} (h : ∀ n < 256, P (UInt8.ofNat n)) (v : UInt8) : P v := by
  have hv := h v.toNat v.toNat_lt
  rwa [UInt8.ofNat_toNat] at hv

/-- The bit for the slave is shifted out of the byte. -/
theorem driveByte_eq : driveByte dev block =
    UInt8.ofNat ((if dev.supportLba then ataDSet else ataDIbm) ||| (ideAddress dev block).head.toNat) := by
  have hset : ∀ v : UInt8, UInt8.ofNat (ataDSet ||| ataDSlave <<< 4 ||| v.toNat) = UInt8.ofNat (ataDSet ||| v.toNat) :=
    byte_cases (by decide +kernel)
  have hibm : ∀ v : UInt8, UInt8.ofNat (ataDIbm ||| ataDSlave <<< 4 ||| v.toNat) = UInt8.ofNat (ataDIbm ||| v.toNat) :=
    byte_cases (by decide +kernel)
  unfold driveByte IdeDevice.devselect
  cases dev.position with
  | master =>
    dsimp only
    rw [show ataDMaster <<< 4 = 0 from rfl, Nat.or_zero]
  | slave =>
    dsimp only
    split_ifs
    · exact hset _
    · exact hibm _

theorem and_low (n : Nat) : n &&& 0xff = n % 256 := Nat.and_two_pow_sub_one_eq_mod n 8

theorem and_seven (n : Nat) : n &&& 0x7 = n % 8 := Nat.and_two_pow_sub_one_eq_mod n 3

theorem toNat_ofNat_byte {n : Nat} (h : n < 256) : (UInt8.ofNat n).toNat = n := by
  rw [UInt8.toNat_ofNat']
  exact Nat.mod_eq_of_lt h

/-- The drive register of a request with a block number: three bits of it, in block-number mode, for the master. -/
theorem driveByte_lba (h : dev.supportLba = true) :
    (driveByte dev block).toNat.testBit 4 = false ∧ (driveByte dev block).toNat.testBit 6 = true ∧
      (driveByte dev block).toNat % 16 = block / 16777216 % 8 := by
  have hcases : ∀ x < 8, (UInt8.ofNat (ataDSet ||| (UInt8.ofNat (x ||| 0x40)).toNat)).toNat.testBit 4 = false ∧
      (UInt8.ofNat (ataDSet ||| (UInt8.ofNat (x ||| 0x40)).toNat)).toNat.testBit 6 = true ∧
      (UInt8.ofNat (ataDSet ||| (UInt8.ofNat (x ||| 0x40)).toNat)).toNat % 16 = x := by decide
  have hhead : (ideAddress dev block).head = UInt8.ofNat (block / 16777216 % 8 ||| 0x40) := by
    unfold ideAddress
    simp only [h, if_true, and_seven, Nat.shiftRight_eq_div_pow]
  rw [driveByte_eq, if_pos h, hhead]
  exact hcases _ (Nat.mod_lt _ (by decide))

/-- The drive register of a request with cylinder, head and sector. -/
theorem driveByte_chs (h : dev.supportLba = false) :
    (driveByte dev block).toNat.testBit 4 = false ∧ (driveByte dev block).toNat.testBit 6 = false ∧
      (driveByte dev block).toNat % 16 = block % (dev.heads * dev.sectors) / dev.sectors := by
  have hcases : ∀ x < 16, (UInt8.ofNat (ataDIbm ||| (UInt8.ofNat x).toNat)).toNat.testBit 4 = false ∧
      (UInt8.ofNat (ataDIbm ||| (UInt8.ofNat x).toNat)).toNat.testBit 6 = false ∧
      (UInt8.ofNat (ataDIbm ||| (UInt8.ofNat x).toNat)).toNat % 16 = x := by decide
  obtain ⟨⟨hheads, hheads'⟩, ⟨hsectors, -⟩, -, -⟩ := dev.chs h
  have hhead : (ideAddress dev block).head = UInt8.ofNat (block % (dev.heads * dev.sectors) / dev.sectors) := by
    unfold ideAddress
    rw [if_neg (by rw [h]; exact Bool.false_ne_true)]
  have hlt : block % (dev.heads * dev.sectors) / dev.sectors < dev.heads :=
    Nat.div_lt_of_lt_mul (Nat.mul_comm dev.heads _ ▸ Nat.mod_lt _ (Nat.mul_pos hheads hsectors))
  rw [driveByte_eq, if_neg (by rw [h]; exact Bool.false_ne_true), hhead]
  exact hcases _ (by omega)

end

/-! ## The sector that is reached -/

section

variable {c : IdeController} {p q : IdePosition} {block block' : Nat} {iswrite iswrite' : Bool}

/-- With block numbers, the master, and the number without its upper bit. -/
theorem reached_lba (h : (c.devices p).supportLba = true) :
    c.reached p block iswrite = (.master, block % 134217728) := by
  obtain ⟨hdrive, hsect, hlo, hhi⟩ := ideRegisters_command (c.devices p) block iswrite c.ioaddr
  obtain ⟨hbit, hmode, hhead⟩ := driveByte_lba (c.devices p) block h
  have hlt : ∀ n, n % 256 < 256 := fun n => Nat.mod_lt n (by decide)
  have hbytes : (ideAddress (c.devices p) block).sect.toNat = block % 256 ∧
      (ideAddress (c.devices p) block).cylLo.toNat = block / 256 % 256 ∧
      (ideAddress (c.devices p) block).cylHi.toNat = block / 65536 % 256 := by
    unfold ideAddress
    rw [if_pos h]
    simp only [and_low, Nat.shiftRight_eq_div_pow]
    exact ⟨toNat_ofNat_byte (hlt _), toNat_ofNat_byte (hlt _), toNat_ofNat_byte (hlt _)⟩
  have hsum : (block / 16777216 % 8 * 65536 + (block / 65536 % 256 * 256 + block / 256 % 256)) * 256 + block % 256 =
      block % 134217728 := by omega
  unfold IdeController.reached IdeController.target
  simp only [hdrive, hsect, hlo, hhi, hbit, hmode, hhead, hbytes.1, hbytes.2.1, hbytes.2.2, if_true, hsum]
  rfl

/-- Otherwise the master as well, where cylinder, head and sector are those of the block. -/
theorem reached_chs (h : (c.devices p).supportLba = false) (hblock : block < (c.devices p).blocks) :
    (c.reached p block iswrite).1 = .master ∧ (p = .master → (c.reached p block iswrite).2 = block) := by
  obtain ⟨hdrive, hsect, hlo, hhi⟩ := ideRegisters_command (c.devices p) block iswrite c.ioaddr
  obtain ⟨hbit, hmode, hhead⟩ := driveByte_chs (c.devices p) block h
  obtain ⟨⟨hheads, -⟩, ⟨hsectors, hsectors'⟩, hcyls, hblocks⟩ := (c.devices p).chs h
  obtain ⟨track, htrack⟩ : ∃ track, track = (c.devices p).heads * (c.devices p).sectors := ⟨_, rfl⟩
  have hcyl : block / track < 65536 := by
    have hle : block < track * (c.devices p).cyls := by
      rw [htrack, Nat.mul_comm (c.devices p).heads, Nat.mul_comm, ← Nat.mul_assoc, ← hblocks]
      exact hblock
    have hlt := Nat.div_lt_of_lt_mul hle
    omega
  have hsec := Nat.mod_lt (block % track) hsectors
  have hbytes : (ideAddress (c.devices p) block).sect.toNat = block % track % (c.devices p).sectors + 1 ∧
      (ideAddress (c.devices p) block).cylLo.toNat = block / track % 256 ∧
      (ideAddress (c.devices p) block).cylHi.toNat = block / track / 256 := by
    have hhi : block / track / 256 % 256 = block / track / 256 := Nat.mod_eq_of_lt (by omega)
    unfold ideAddress
    simp only [h, Bool.false_eq_true, if_false, ← htrack, and_low, Nat.shiftRight_eq_div_pow]
    refine ⟨toNat_ofNat_byte (by omega), toNat_ofNat_byte (Nat.mod_lt _ (by decide)), ?_⟩
    show (UInt8.ofNat (block / track / 256 % 256)).toNat = _
    rw [hhi]
    exact toNat_ofNat_byte (by omega)
  rw [← htrack] at hhead
  unfold IdeController.reached IdeController.target
  simp only [hdrive, hsect, hlo, hhi, hbit, hmode, hhead, hbytes.1, hbytes.2.1, hbytes.2.2, Bool.false_eq_true, if_false]
  refine ⟨trivial, ?_⟩
  rintro rfl
  have hcylinder : block / track / 256 * 256 + block / track % 256 = block / track := Nat.div_add_mod' _ _
  rw [hcylinder, Nat.add_sub_cancel, Nat.add_mul, Nat.mul_assoc, ← htrack, Nat.add_assoc, Nat.div_add_mod',
    Nat.div_add_mod']

/-- A request reaches its sector exactly if the address is good. -/
theorem reached_iff (hblock : block < (c.devices p).blocks) :
    c.reached p block iswrite = (p, block) ↔ AddressGood (c.devices p) block := by
  have hpow : (2 : Nat) ^ 27 = 134217728 := rfl
  unfold AddressGood
  rw [c.position p, hpow]
  by_cases h : (c.devices p).supportLba = true
  · rw [reached_lba h, Prod.mk.injEq]
    constructor
    · rintro ⟨rfl, hmod⟩
      exact ⟨rfl, fun _ => by omega⟩
    · rintro ⟨rfl, hlt⟩
      exact ⟨rfl, Nat.mod_eq_of_lt (hlt h)⟩
  · obtain ⟨hmaster, hsector⟩ := @reached_chs c p block iswrite (Bool.eq_false_of_not_eq_true h) hblock
    constructor
    · intro heq
      rw [heq] at hmaster
      exact ⟨hmaster, fun htrue => absurd htrue h⟩
    · rintro ⟨rfl, -⟩
      exact Prod.ext hmaster (hsector rfl)

/-- **Sector addressing**: a request reaches its sector exactly if the address is good, and such requests for different
sectors never meet. -/
theorem ide_addressing (c : IdeController) :
    (∀ p block iswrite, block < (c.devices p).blocks →
      (c.reached p block iswrite = (p, block) ↔ AddressGood (c.devices p) block)) ∧
    ∀ p q block block' iswrite iswrite', block < (c.devices p).blocks → block' < (c.devices q).blocks →
      AddressGood (c.devices p) block → AddressGood (c.devices q) block' →
      c.reached p block iswrite = c.reached q block' iswrite' → p = q ∧ block = block' := by
  refine ⟨fun p block iswrite hblock => reached_iff hblock, fun p q block block' iswrite iswrite' hb hb' hg hg' heq => ?_⟩
  rw [(reached_iff hb).mpr hg, (reached_iff hb').mpr hg', Prod.mk.injEq] at heq
  exact heq

end

/-! ## Two disks of 64 GiB and more -/

/-- A disk with 28-bit block numbers. -/
def largeDisk (position : IdePosition) : IdeDevice :=
  ⟨position, 16383, 16, 63, 0x8000001, true, fun _ => by decide, fun h => by cases h⟩

def largeDisks : IdeController := ⟨0x1f0, largeDisk, fun _ => rfl⟩

/-- The block behind the first `2 ^ 27` of the master and the first block of the slave are where the first block of the
master is. -/
theorem ide_blocks_meet : largeDisks.reached .slave 0 false = (.master, 0) ∧
    largeDisks.reached .master 0x8000000 false = (.master, 0) ∧
    ¬ ∀ (c : IdeController) (p : IdePosition) (block : Nat) (iswrite : Bool), block < (c.devices p).blocks →
      c.reached p block iswrite = (p, block) := by
  refine ⟨reached_lba rfl, reached_lba rfl, fun hclaim => ?_⟩
  have hmaster := hclaim largeDisks .master 0x8000000 false (by decide)
  rw [reached_lba rfl] at hmaster
  exact absurd hmaster (by decide)

theorem largeDisks_reached : largeDisks.reached .master 0x7ffffff true = (.master, 0x7ffffff) :=
  ((ide_addressing largeDisks).1 .master 0x7ffffff true (by decide)).mpr ⟨rfl, fun _ => by decide⟩

end Desiros.Drivers
