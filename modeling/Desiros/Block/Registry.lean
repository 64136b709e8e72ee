import Desiros.Library.Runs
import Desiros.Library.Words

/-!
# The registry of block devices (`block_dev.c`, `fs/devfs.c`)

Disks and partitions are registered under a device id, and under a name in devfs. A partition records its first block on
the disk and the device it is cut from; nothing compares the two extents. `blockdev_generic_read` and
`blockdev_generic_write` check a block index against the accessed device only, before they add its first block.

`blocks_onDisk` says when every block they pass on lies on the disk and in every partition of the chain.
-/

namespace Desiros.Block

open Desiros.Library

/-! ## Data -/

/-- `struct blockdev_instance`. The instances are numbered in the order of registration, and a pointer to one is its
number. -/
structure BlockdevInstance where
  blockSize : UInt32
  numberOfBlocks : UInt64
  parentBlockdev : Option Nat
  /-- On the disk, also for a partition of a partition. -/
  indexOfFirstBlock : UInt64
  deviceClass : UInt32
  deviceInstance : UInt32
  /-- `operations` and `custom_data`, which a partition takes from its parent. -/
  customData : Nat
deriving DecidableEq, Repr

/-- A used `driver_entry`: the address of the name, and the instance that holds the device id. -/
structure DriverEntry where
  name : Nat
  devId : Nat
deriving DecidableEq, Repr

/-- `registered_blockdev_instances` and the used entries of `driver_list`, which are never given back. -/
structure Registry where
  instances : List BlockdevInstance := []
  driverList : List DriverEntry := []
deriving DecidableEq, Repr

def maxDrivers : Nat := 64

def OK : Int := 0
def EBUSY : Int := 16
def EINVAL : Int := 22
def ENOMEM : Int := 12

/-! ## Registration -/

def lookupBlockdevInstance (r : Registry) (deviceClass deviceInstance : UInt32) : Option Nat :=
  r.instances.findIdx? fun b => b.deviceClass = deviceClass ∧ b.deviceInstance = deviceInstance

def devfsRegisterBlkdev (l : List DriverEntry) (name devId : Nat) : List DriverEntry :=
  if l.length < maxDrivers then l ++ [⟨name, devId⟩] else l

/-- `list_add_tail` and `devfs_register_blkdev`. -/
def Registry.add (r : Registry) (name : Nat) (b : BlockdevInstance) : Registry where
  instances := r.instances ++ [b]
  driverList := devfsRegisterBlkdev r.driverList name r.instances.length

/-- `kmallocOk` says whether `kmalloc` finds room for the instance. -/
def blockdevRegisterDisk (r : Registry) (name : Nat) (deviceClass deviceInstance : UInt32) (blockSize : Int32)
    (numberOfBlocks : UInt64) (customData : Nat) (kmallocOk : Bool) : Int × Registry :=
  if (lookupBlockdevInstance r deviceClass deviceInstance).isSome then (-EBUSY, r)
  else if blockSize ≤ 0 then (-EINVAL, r)
  else if numberOfBlocks ≤ 0 then (-EINVAL, r)
  else if !kmallocOk then (-ENOMEM, r)
  else
    (OK, r.add name
      { blockSize := blockSize.toUInt32, numberOfBlocks := numberOfBlocks, parentBlockdev := none,
        indexOfFirstBlock := 0, deviceClass := deviceClass, deviceInstance := deviceInstance,
        customData := customData })

/-- A partition of the device `parent`. -/
def partitionOf (parent : BlockdevInstance) (parentBd : Nat) (deviceClass deviceInstance : UInt32)
    (indexOfFirstBlock numberOfBlocks : UInt64) : BlockdevInstance where
  blockSize := parent.blockSize
  numberOfBlocks := numberOfBlocks
  parentBlockdev := some parentBd
  indexOfFirstBlock := parent.indexOfFirstBlock + indexOfFirstBlock
  deviceClass := deviceClass
  deviceInstance := deviceInstance
  customData := parent.customData

/-- A `parent_bd` that is not `NULL` points to a registered device. -/
def blockdevRegisterPartition (r : Registry) (name : Nat) (deviceClass deviceInstance : UInt32) (parentBd : Option Nat)
    (indexOfFirstBlock numberOfBlocks : UInt64) (kmallocOk : Bool) : Int × Registry :=
  match parentBd.bind fun p => r.instances[p]?.map fun b => (p, b) with
  | none => (-EINVAL, r)
  | some (p, parent) =>
    if (lookupBlockdevInstance r deviceClass deviceInstance).isSome then (-EBUSY, r)
    else if !kmallocOk then (-ENOMEM, r)
    else (OK, r.add name (partitionOf parent p deviceClass deviceInstance indexOfFirstBlock numberOfBlocks))

/-! ## Reads and writes -/

/-- The block indices passed to `read_block` or `write_block` by the loop of `blockdev_generic_read` or
`blockdev_generic_write`, which compute them alike, in `fuel` turns at most. -/
def accessLoop (b : BlockdevInstance) (len : UInt32) : Nat → UInt32 → UInt64 → List UInt64
  | 0, _, _ => []
  | fuel + 1, done, offsetInDevice =>
    if ¬ done < len then []
    else
      let blockId := offsetInDevice / b.blockSize.toUInt64
      if blockId ≥ b.numberOfBlocks then []
      else
        let offsetInBlock := (offsetInDevice % b.blockSize.toUInt64).toUInt32
        let bytes := b.blockSize - offsetInBlock
        let bytes := if len - done < bytes then len - done else bytes
        (blockId + b.indexOfFirstBlock) ::
          accessLoop b len fuel (done + bytes) (offsetInDevice + bytes.toUInt64)

/-- A read or write of `len` bytes at `offset` passes on the block index `id`. -/
def Passes (b : BlockdevInstance) (offset : UInt64) (len : UInt32) (id : UInt64) : Prop :=
  ∃ fuel, id ∈ accessLoop b len fuel 0 offset

/-! ## Extents -/

/-- `x` is `d` or one of the devices `d` is cut from. -/
inductive OnChain (r : Registry) : Nat → Nat → Prop
  | self (d : Nat) : OnChain r d d
  | parent {d p x : Nat} {b : BlockdevInstance} (hd : r.instances[d]? = some b) (hp : b.parentBlockdev = some p)
      (hx : OnChain r p x) : OnChain r d x

/-- A block of the disk in the extent of a device; for the disk itself, below its number of blocks. -/
def BlockdevInstance.Inside (b : BlockdevInstance) (id : Nat) : Prop :=
  b.indexOfFirstBlock.toNat ≤ id ∧ id < b.indexOfFirstBlock.toNat + b.numberOfBlocks.toNat

/-- Every block index passed on for any device lies in all the extents of its chain. -/
def Contained (r : Registry) : Prop :=
  ∀ d b offset len id, r.instances[d]? = some b → Passes b offset len id →
    ∀ x c, OnChain r d x → r.instances[x]? = some c → c.Inside id.toNat

/-- A registration, with arbitrary arguments. -/
inductive RegisterOp where
  | disk (name : Nat) (deviceClass deviceInstance : UInt32) (blockSize : Int32) (numberOfBlocks : UInt64)
      (customData : Nat) (kmallocOk : Bool)
  | partition (name : Nat) (deviceClass deviceInstance : UInt32) (parentBd : Option Nat)
      (indexOfFirstBlock numberOfBlocks : UInt64) (kmallocOk : Bool)

def registerStep (r : Registry) : RegisterOp → Registry
  | .disk name cls inst blockSize blocks customData ok =>
    (blockdevRegisterDisk r name cls inst blockSize blocks customData ok).2
  | .partition name cls inst parentBd first blocks ok =>
    (blockdevRegisterPartition r name cls inst parentBd first blocks ok).2

/-- A partition that is registered is empty or ends where its parent does or before. -/
def InsideParent (r : Registry) : RegisterOp → Prop
  | .disk .. => True
  | .partition _ cls inst parentBd first blocks ok =>
    ∀ p parent, parentBd = some p → r.instances[p]? = some parent →
      lookupBlockdevInstance r cls inst = none → ok = true →
      blocks = 0 ∨ first.toNat + blocks.toNat ≤ parent.numberOfBlocks.toNat

/-- The bytes of a partition have 64-bit offsets in it. -/
def Addressable (r : Registry) : RegisterOp → Prop
  | .disk .. => True
  | .partition _ _ _ parentBd _ blocks _ =>
    ∀ p parent, parentBd = some p → r.instances[p]? = some parent →
      blocks.toNat * parent.blockSize.toNat ≤ 18446744073709551616

/-! ## What a registration does -/

section

variable {r : Registry}

/-- A disk registered or a partition registered, or nothing. -/
theorem registerStep_cases (r : Registry) (op : RegisterOp) :
    registerStep r op = r ∨
    (∃ name b, registerStep r op = r.add name b ∧ b.parentBlockdev = none ∧ b.indexOfFirstBlock = 0 ∧
      0 < b.blockSize.toNat ∧ ∀ x, InsideParent x op) ∨
    ∃ name p parent b cls inst first blocks, registerStep r op = r.add name b ∧ r.instances[p]? = some parent ∧
      b = partitionOf parent p cls inst first blocks ∧
      (InsideParent r op ↔ blocks = 0 ∨ first.toNat + blocks.toNat ≤ parent.numberOfBlocks.toNat) ∧
      (Addressable r op → blocks.toNat * parent.blockSize.toNat ≤ 18446744073709551616) := by
  cases op with
  | disk name cls inst blockSize blocks customData ok =>
    simp only [registerStep, blockdevRegisterDisk]
    split_ifs with h1 h2 h3 h4
    · exact Or.inl rfl
    · exact Or.inl rfl
    · exact Or.inl rfl
    · exact Or.inl rfl
    · refine Or.inr (Or.inl ⟨name, _, rfl, rfl, rfl, ?_, fun _ => trivial⟩)
      have hpos : 0 < blockSize.toInt := by
        rw [Int32.not_le] at h2
        exact Int32.lt_iff_toInt_lt.mp h2
      have hword : blockSize.toUInt32.toNat = blockSize.toInt.toNat :=
        Int32.toNat_toUInt32_of_le (Int32.le_iff_toInt_le.mpr (Int.le_of_lt hpos))
      show 0 < blockSize.toUInt32.toNat
      omega
  | partition name cls inst parentBd first blocks ok =>
    simp only [registerStep, blockdevRegisterPartition]
    cases hparent : parentBd.bind fun p => r.instances[p]?.map fun b => (p, b) with
    | none => exact Or.inl rfl
    | some q =>
      obtain ⟨p, parent⟩ := q
      simp only [Option.bind_eq_some_iff, Option.map_eq_some_iff, Prod.mk.injEq] at hparent
      obtain ⟨p', hp', b, hb, rfl, rfl⟩ := hparent
      dsimp only
      split_ifs with h1 h2
      · exact Or.inl rfl
      · exact Or.inl rfl
      · have hnone : lookupBlockdevInstance r cls inst = none := by simpa using h1
        have hok : ok = true := by simpa using h2
        refine Or.inr (Or.inr ⟨name, p', b, _, cls, inst, first, blocks, rfl, hb, rfl, ?_, fun h => h p' b hp' hb⟩)
        constructor
        · exact fun h => h p' b hp' hb hnone hok
        · intro h q parent hq hqb _ _
          rw [hp'] at hq
          cases hq
          rw [hb] at hqb
          cases hqb
          exact h

theorem add_get_old (name : Nat) (b : BlockdevInstance) {d : Nat} (hd : d < r.instances.length) :
    (r.add name b).instances[d]? = r.instances[d]? := List.getElem?_append_left hd

theorem add_get_new (name : Nat) (b : BlockdevInstance) : (r.add name b).instances[r.instances.length]? = some b := by
  show (r.instances ++ [b])[r.instances.length]? = some b
  rw [List.getElem?_append_right (Nat.le_refl _), Nat.sub_self]
  rfl

/-- A registered device is the new one or was registered before. -/
theorem add_get_cases {name : Nat} {b c : BlockdevInstance} {d : Nat} (h : (r.add name b).instances[d]? = some c) :
    (d < r.instances.length ∧ r.instances[d]? = some c) ∨ d = r.instances.length ∧ c = b := by
  by_cases hd : d < r.instances.length
  · rw [add_get_old name b hd] at h
    exact Or.inl ⟨hd, h⟩
  · have hlt := (List.getElem?_eq_some_iff.mp h).1
    have hlen : (r.add name b).instances.length = r.instances.length + 1 := List.length_append
    have heq : d = r.instances.length := by omega
    rw [heq, add_get_new] at h
    exact Or.inr ⟨heq, (Option.some.inj h).symm⟩

/-- The devices a device is cut from stay the same. -/
theorem OnChain.add {name : Nat} {b : BlockdevInstance} {d x : Nat} (h : OnChain r d x) :
    OnChain (r.add name b) d x := by
  induction h with
  | self d => exact .self d
  | parent hd hp _ ih =>
    have hlt := (List.getElem?_eq_some_iff.mp hd).1
    exact .parent ((add_get_old name b hlt).trans hd) hp ih

/-! ## The invariant -/

/-- A parent was registered before its partitions, and block sizes are positive. -/
structure Rooted (r : Registry) : Prop where
  parent : ∀ (d : Nat) (b : BlockdevInstance) (p : Nat), r.instances[d]? = some b → b.parentBlockdev = some p → p < d
  blockSize : ∀ (d : Nat) (b : BlockdevInstance), r.instances[d]? = some b → 0 < b.blockSize.toNat

theorem OnChain.le (hr : Rooted r) {d x : Nat} (h : OnChain r d x) : x ≤ d := by
  induction h with
  | self d => exact Nat.le_refl d
  | parent hd hp _ ih => exact Nat.le_trans ih (Nat.le_of_lt (hr.parent _ _ _ hd hp))

/-- A chain that starts at an old device stays among the old ones. -/
theorem OnChain.of_add (hr : Rooted r) {name : Nat} {b : BlockdevInstance} {d x : Nat}
    (h : OnChain (r.add name b) d x) (hd : d < r.instances.length) : OnChain r d x := by
  induction h with
  | self d => exact .self d
  | parent hget hp _ ih =>
    rw [add_get_old name b hd] at hget
    exact .parent hget hp (ih (Nat.lt_trans (hr.parent _ _ _ hget hp) hd))

theorem Rooted.step (hr : Rooted r) (op : RegisterOp) : Rooted (registerStep r op) := by
  have hadd : ∀ name b, (∀ p, b.parentBlockdev = some p → p < r.instances.length) → 0 < b.blockSize.toNat →
      Rooted (r.add name b) := by
    intro name b hparent hsize
    constructor
    · intro d c p hget hp
      rcases add_get_cases hget with ⟨hd, hold⟩ | ⟨hd, hnew⟩
      · exact hr.parent d c p hold hp
      · rw [hd]
        exact hparent p (hnew ▸ hp)
    · intro d c hget
      rcases add_get_cases hget with ⟨hd, hold⟩ | ⟨hd, hnew⟩
      · exact hr.blockSize d c hold
      · rw [hnew]
        exact hsize
  rcases registerStep_cases r op with heq | ⟨name, b, heq, hnone, -, hsize, -⟩ |
    ⟨name, p, parent, b, cls, inst, first, blocks, heq, hget, hb, -⟩
  · rw [heq]
    exact hr
  · rw [heq]
    exact hadd name b (fun p hp => by rw [hnone] at hp; cases hp) hsize
  · rw [heq]
    subst hb
    refine hadd name _ (fun q hq => ?_) (hr.blockSize p parent hget)
    cases hq
    exact (List.getElem?_eq_some_iff.mp hget).1

/-- Every device that has blocks lies in the extents of its chain. -/
def Nested (r : Registry) : Prop :=
  ∀ d b, r.instances[d]? = some b → 0 < b.numberOfBlocks.toNat →
    b.indexOfFirstBlock.toNat + b.numberOfBlocks.toNat < 18446744073709551616 ∧
    ∀ x c, OnChain r d x → r.instances[x]? = some c →
      c.indexOfFirstBlock.toNat ≤ b.indexOfFirstBlock.toNat ∧
        b.indexOfFirstBlock.toNat + b.numberOfBlocks.toNat ≤ c.indexOfFirstBlock.toNat + c.numberOfBlocks.toNat

theorem Nested.step (h : Nested r) (hr : Rooted r) {op : RegisterOp} (hop : InsideParent r op) :
    Nested (registerStep r op) := by
  -- Old devices keep their chains; the new one is on its own chain, behind it comes that of its parent.
  have hadd : ∀ name b, (0 < b.numberOfBlocks.toNat →
        b.indexOfFirstBlock.toNat + b.numberOfBlocks.toNat < 18446744073709551616 ∧
        ∀ p, b.parentBlockdev = some p → p < r.instances.length ∧
          ∀ x c, OnChain r p x → r.instances[x]? = some c →
            c.indexOfFirstBlock.toNat ≤ b.indexOfFirstBlock.toNat ∧
              b.indexOfFirstBlock.toNat + b.numberOfBlocks.toNat ≤
                c.indexOfFirstBlock.toNat + c.numberOfBlocks.toNat) → Nested (r.add name b) := by
    intro name b hb d c hget hpos
    rcases add_get_cases hget with ⟨hd, hold⟩ | ⟨hd, hnew⟩
    · obtain ⟨htop, hchain⟩ := h d c hold hpos
      refine ⟨htop, fun x e hx hxe => ?_⟩
      have hx' := hx.of_add hr hd
      rw [add_get_old name b (Nat.lt_of_le_of_lt (hx'.le hr) hd)] at hxe
      exact hchain x e hx' hxe
    · subst hnew
      obtain ⟨htop, hparent⟩ := hb hpos
      refine ⟨htop, fun x e hx hxe => ?_⟩
      cases hx with
      | self =>
        rw [hget] at hxe
        cases hxe
        exact ⟨Nat.le_refl _, Nat.le_refl _⟩
      | parent hd' hp hx' =>
        rw [hget] at hd'
        cases hd'
        obtain ⟨hlt, hchain⟩ := hparent _ hp
        have hx'' := hx'.of_add hr hlt
        rw [add_get_old name c (Nat.lt_of_le_of_lt (hx''.le hr) hlt)] at hxe
        exact hchain x e hx'' hxe
  rcases registerStep_cases r op with heq | ⟨name, b, heq, hnone, hfirst, -, -⟩ |
    ⟨name, p, parent, b, cls, inst, first, blocks, heq, hget, hb, hinside, -⟩
  · rw [heq]
    exact h
  · rw [heq]
    refine hadd name b fun _ => ⟨?_, fun p hp => ?_⟩
    · have hlt := b.numberOfBlocks.toNat_lt
      rw [hfirst]
      show 0 + _ < _
      omega
    · rw [hnone] at hp
      cases hp
  · rw [heq]
    subst hb
    refine hadd name _ fun hpos => ?_
    have hpos' : 0 < blocks.toNat := hpos
    have hfit : first.toNat + blocks.toNat ≤ parent.numberOfBlocks.toNat := by
      rcases hinside.mp hop with hzero | hfit
      · rw [hzero] at hpos'
        cases hpos'
      · exact hfit
    obtain ⟨htop, hchain⟩ := h p parent hget (by omega)
    have hindex : (parent.indexOfFirstBlock + first).toNat = parent.indexOfFirstBlock.toNat + first.toNat := by
      rw [UInt64.toNat_add]
      omega
    show (parent.indexOfFirstBlock + first).toNat + blocks.toNat < 18446744073709551616 ∧ _
    refine ⟨by omega, fun q hq => ?_⟩
    cases hq
    refine ⟨(List.getElem?_eq_some_iff.mp hget).1, fun x c hx hxc => ?_⟩
    have hc := hchain x c hx hxc
    show c.indexOfFirstBlock.toNat ≤ (parent.indexOfFirstBlock + first).toNat ∧
      (parent.indexOfFirstBlock + first).toNat + blocks.toNat ≤ _
    omega

/-! ## The blocks passed on -/

/-- Each is a block of the device, moved by its first block. -/
theorem mem_accessLoop {b : BlockdevInstance} {len : UInt32} {id : UInt64} (fuel : Nat) :
    ∀ (done : UInt32) (o : UInt64), id ∈ accessLoop b len fuel done o → ∃ k : UInt64, k < b.numberOfBlocks ∧ id = k + b.indexOfFirstBlock := by
  induction fuel with
  | zero => exact fun _ _ h => absurd h List.not_mem_nil
  | succ fuel ih =>
    intro done o h
    rw [accessLoop] at h
    by_cases hdone : done < len
    · rw [if_neg (not_not.mpr hdone)] at h
      dsimp only at h
      by_cases hend : o / b.blockSize.toUInt64 ≥ b.numberOfBlocks
      · rw [if_pos hend] at h
        cases h
      · rw [if_neg hend] at h
        rcases List.mem_cons.mp h with heq | hrest
        · exact ⟨_, UInt64.not_le.mp hend, heq⟩
        · exact ih _ _ hrest
    · rw [if_pos hdone] at h
      cases h

/-- Every block with a 64-bit byte offset can be asked for. -/
theorem passes_block {b : BlockdevInstance} {k : Nat} (hsize : 0 < b.blockSize.toNat) (hk : k < b.numberOfBlocks.toNat)
    (hoffset : k * b.blockSize.toNat < 18446744073709551616) :
    Passes b (UInt64.ofNat (k * b.blockSize.toNat)) 1 (UInt64.ofNat k + b.indexOfFirstBlock) := by
  have hdiv : UInt64.ofNat (k * b.blockSize.toNat) / b.blockSize.toUInt64 = UInt64.ofNat k := by
    apply UInt64.toNat_inj.mp
    rw [UInt64.toNat_div, UInt32.toNat_toUInt64, UInt64.toNat_ofNat_of_lt' hoffset,
      UInt64.toNat_ofNat_of_lt' (Nat.lt_of_lt_of_le hk (Nat.le_of_lt b.numberOfBlocks.toNat_lt)),
      Nat.mul_div_cancel _ hsize]
  refine ⟨1, ?_⟩
  rw [accessLoop, if_neg (by decide), hdiv]
  have hlt : ¬ UInt64.ofNat k ≥ b.numberOfBlocks := by
    rw [ge_iff_le, UInt64.le_iff_toNat_le,
      UInt64.toNat_ofNat_of_lt' (Nat.lt_of_lt_of_le hk (Nat.le_of_lt b.numberOfBlocks.toNat_lt))]
    omega
  dsimp only
  rw [if_neg hlt]
  exact List.mem_cons_self

theorem Nested.contained (h : Nested r) : Contained r := by
  intro d b offset len id hget hpass x c hx hxc
  obtain ⟨fuel, hmem⟩ := hpass
  obtain ⟨k, hk, hid⟩ := mem_accessLoop fuel 0 offset hmem
  rw [UInt64.lt_iff_toNat_lt] at hk
  obtain ⟨htop, hchain⟩ := h d b hget (by omega)
  obtain ⟨hlo, hhi⟩ := hchain x c hx hxc
  have hsum : id.toNat = k.toNat + b.indexOfFirstBlock.toNat := by
    rw [hid, UInt64.toNat_add]
    omega
  constructor <;> omega

/-- More registrations take no block away. -/
theorem Contained.of_add {name : Nat} {b : BlockdevInstance} (h : Contained (r.add name b)) : Contained r := by
  intro d c offset len id hget hpass x e hx hxe
  have hd := (List.getElem?_eq_some_iff.mp hget).1
  have hxlt := (List.getElem?_eq_some_iff.mp hxe).1
  exact h d c offset len id ((add_get_old name b hd).trans hget) hpass x e hx.add ((add_get_old name b hxlt).trans hxe)

theorem Contained.of_step {op : RegisterOp} (h : Contained (registerStep r op)) : Contained r := by
  rcases registerStep_cases r op with heq | ⟨name, b, heq, -⟩ | ⟨name, p, parent, b, cls, inst, first, blocks, heq, -⟩
  · rwa [heq] at h
  · exact (heq ▸ h).of_add
  · exact (heq ▸ h).of_add

/-- A partition that reaches beyond its parent has a block that lies outside the parent. -/
theorem not_contained_of_outside (hr : Rooted r) {name p : Nat} {parent : BlockdevInstance}
    (hget : r.instances[p]? = some parent) (cls inst : UInt32) {first blocks : UInt64} (hpos : 0 < blocks.toNat)
    (hout : parent.numberOfBlocks.toNat < first.toNat + blocks.toNat)
    (haddr : blocks.toNat * parent.blockSize.toNat ≤ 18446744073709551616) :
    ¬ Contained (r.add name (partitionOf parent p cls inst first blocks)) := by
  intro h
  have hp := (List.getElem?_eq_some_iff.mp hget).1
  have hsize := hr.blockSize p parent hget
  -- the first block behind the parent, or the first of the partition
  obtain ⟨k, hk, hj⟩ : ∃ k, k < blocks.toNat ∧ parent.numberOfBlocks.toNat ≤ first.toNat + k ∧
      first.toNat + k < 18446744073709551616 := by
    have hfirst := first.toNat_lt
    have hblocks := parent.numberOfBlocks.toNat_lt
    by_cases hle : parent.numberOfBlocks.toNat ≤ first.toNat
    · exact ⟨0, hpos, by omega⟩
    · exact ⟨parent.numberOfBlocks.toNat - first.toNat, by omega⟩
  have hoffset : k * parent.blockSize.toNat < 18446744073709551616 :=
    Nat.lt_of_lt_of_le (Nat.mul_lt_mul_of_pos_right hk hsize) haddr
  have hpass := @passes_block (partitionOf parent p cls inst first blocks) k hsize hk hoffset
  have hchain : OnChain (r.add name (partitionOf parent p cls inst first blocks)) r.instances.length p :=
    .parent (add_get_new name _) rfl (.self p)
  obtain ⟨hlo, hhi⟩ := h _ _ _ _ _ (add_get_new name _) hpass p parent hchain ((add_get_old name _ hp).trans hget)
  have hid : (UInt64.ofNat k + (partitionOf parent p cls inst first blocks).indexOfFirstBlock).toNat =
      (k + (parent.indexOfFirstBlock.toNat + first.toNat)) % 18446744073709551616 := by
    show (UInt64.ofNat k + (parent.indexOfFirstBlock + first)).toNat = _
    rw [UInt64.toNat_add, UInt64.toNat_add, UInt64.toNat_ofNat']
    omega
  rw [hid] at hlo hhi
  have hfp := parent.indexOfFirstBlock.toNat_lt
  omega

theorem not_contained_of_step (hr : Rooted r) {op : RegisterOp} (haddr : Addressable r op) (hop : ¬ InsideParent r op) :
    ¬ Contained (registerStep r op) := by
  rcases registerStep_cases r op with heq | ⟨name, b, heq, -, -, -, hinside⟩ |
    ⟨name, p, parent, b, cls, inst, first, blocks, heq, hget, hb, hinside, hbytes⟩
  · exfalso
    apply hop
    cases op with
    | disk => trivial
    | partition name cls inst parentBd first blocks ok =>
      -- a partition that is registered makes the list longer
      intro p parent hp hget hnone hok
      have hlen := congrArg (fun x => x.instances.length) heq
      simp [registerStep, blockdevRegisterPartition, hp, hget, hnone, hok, Registry.add] at hlen
  · exact absurd (hinside r) hop
  · rw [heq, hb]
    rw [hinside, not_or, UInt64.toNat_inj.symm] at hop
    have hzero : (0 : UInt64).toNat = 0 := rfl
    exact not_contained_of_outside hr hget cls inst (by omega) (by omega) (hbytes haddr)

theorem Contained.of_run (ops : List RegisterOp) : ∀ r, Contained (run registerStep r ops) → Contained r := by
  induction ops with
  | nil => exact fun r h => h
  | cons op ops ih => exact fun r h => (ih _ h).of_step

theorem insideParent_of_contained (ops : List RegisterOp) : ∀ r, Rooted r → Guarded registerStep Addressable r ops →
    Contained (run registerStep r ops) → Guarded registerStep InsideParent r ops := by
  induction ops with
  | nil => exact fun _ _ _ _ => trivial
  | cons op ops ih =>
    intro r hr haddr h
    have hop : InsideParent r op := by
      by_contra hop
      exact not_contained_of_step hr haddr.1 hop (Contained.of_run ops _ h)
    exact ⟨hop, ih _ (hr.step op) haddr.2 h⟩

end

theorem rooted_empty : Rooted {} := by
  constructor
  · intro d b p h
    cases h
  · intro d b h
    cases h

/-- **Block accesses stay on the disk** and in the partitions of the chain after every sequence of registrations whose
partitions end where their parents do or before; where byte offsets are 64 bits wide, after no other. -/
theorem blocks_onDisk (ops : List RegisterOp) :
    (Guarded registerStep InsideParent {} ops → Contained (run registerStep {} ops)) ∧
    (Guarded registerStep Addressable {} ops → Contained (run registerStep {} ops) →
      Guarded registerStep InsideParent {} ops) := by
  refine ⟨fun h => ?_, insideParent_of_contained ops {} rooted_empty⟩
  have hstep : ∀ (r : Registry) op, Rooted r ∧ Nested r → InsideParent r op →
      Rooted (registerStep r op) ∧ Nested (registerStep r op) :=
    fun r op hr hop => ⟨hr.1.step op, hr.2.step hr.1 hop⟩
  have hempty : Nested {} := fun _ _ hget => by cases hget
  exact (invariant_run hstep ops {} ⟨rooted_empty, hempty⟩ h).2.contained

/-- Disk 3:0 of 100 blocks. -/
def hundredBlocks : RegisterOp := .disk 0 3 0 512 100 0 true

/-- Blocks 10 to 29, and of these the blocks 15 to 19. -/
theorem blocks_onDisk_nested : Contained (run registerStep {}
    [hundredBlocks, .partition 1 3 1 (some 0) 10 20 true, .partition 2 3 2 (some 1) 5 5 true]) := by
  apply (blocks_onDisk [hundredBlocks, .partition 1 3 1 (some 0) 10 20 true, .partition 2 3 2 (some 1) 5 5 true]).1
  refine ⟨trivial, ?_, ?_, trivial⟩
  · intro p parent hp hget _ _
    cases hp
    cases hget
    decide
  · intro p parent hp hget _ _
    cases hp
    cases hget
    decide

/-- A partition of 20 blocks from block 90 on: its block 10 is block 100 of a disk of 100. -/
theorem blocks_offDisk : ¬ Contained (run registerStep {} [hundredBlocks, .partition 1 3 1 (some 0) 90 20 true]) := by
  intro h
  have hin := h 1 _ 5120 1 100 rfl ⟨1, by decide⟩ 0 _ (.parent rfl rfl (.self 0)) rfl
  exact absurd hin.2 (by decide)

end Desiros.Block
