import Desiros.Block.PartDetect

/-!
# The extents of the partitions found (`drivers/partition.c`)

The entries of an extended table are relative to two blocks: the link to the next table counts from the start of the
extended partition, the first entry from the table itself. `part_detect` adds the start of the extended partition to
both, and multiplies the block of a table by the block size in 32 bits.

`partDetect_geometry` says when the partitions it registers are those of the tables.
-/

namespace Desiros.Block

open Desiros.Library

/-! ## The tables -/

/-- The tables that follow the one at block `ext + sup` in a chain of extended tables; `sups` are their links. -/
def EbrChain (disk : Disk) (ext : UInt32) : UInt32 → List UInt32 → Prop
  | sup, [] => (partitionEntry (disk (ext.toNat + sup.toNat)) 1).lba = 0
  | sup, next :: sups =>
    (partitionEntry (disk (ext.toNat + sup.toNat)) 1).lba = next ∧ next ≠ 0 ∧ EbrChain disk ext next sups

/-- The partitions of the extended tables at the blocks `ext + sup`, numbered from `n` on. -/
def logicalParts (disk : Disk) (ext : UInt32) (n : Nat) (sups : List UInt32) : List PartSpec :=
  sups.mapIdx fun i sup =>
    let e := partitionEntry (disk (ext.toNat + sup.toNat)) 0
    ⟨n + i, UInt64.ofNat (ext.toNat + sup.toNat + e.lba.toNat), e.size.toUInt64⟩

/-- The partitions of a disk whose chain of extended tables has the links `sups`. -/
def diskParts (disk : Disk) (sups : List UInt32) : List PartSpec :=
  primaryParts (disk 0) 4 ++
    match (extendedEntries (disk 0) 4).getLast? with
    | none => []
    | some k => logicalParts disk (partitionEntry (disk 0) k).lba 5 (0 :: sups)

/-- One extended partition at most, whose chain of `sups.length` links lies on the disk. -/
structure Tables (disk : Disk) (numberOfBlocks : UInt64) (sups : List UInt32) : Prop where
  extended : (extendedEntries (disk 0) 4).length ≤ 1
  links : sups.length ≤ 10
  chain : ∀ k ∈ extendedEntries (disk 0) 4, EbrChain disk (partitionEntry (disk 0) k).lba 0 sups
  onDisk : ∀ k ∈ extendedEntries (disk 0) 4, ∀ sup ∈ 0 :: sups,
    (partitionEntry (disk 0) k).lba.toNat + sup.toNat < numberOfBlocks.toNat

/-- The byte offsets of the extended tables are 32 bits wide. -/
def Addressed (disk : Disk) (blockSize : UInt32) (sups : List UInt32) : Prop :=
  ∀ k ∈ extendedEntries (disk 0) 4, ∀ sup ∈ 0 :: sups,
    ((partitionEntry (disk 0) k).lba.toNat + sup.toNat) * blockSize.toNat < 4294967296

/-- An extended partition starts behind the first table and below byte 2^32, holds one table only, and the partition of
this table starts at a 32-bit block. -/
def OneLogical (disk : Disk) (blockSize : UInt32) (sups : List UInt32) : Prop :=
  ∀ k ∈ extendedEntries (disk 0) 4,
    let ext := (partitionEntry (disk 0) k).lba
    ext ≠ 0 ∧ ext.toNat * blockSize.toNat < 4294967296 ∧ sups = [] ∧
      ext.toNat + (partitionEntry (disk ext.toNat) 0).lba.toNat < 4294967296

/-! ## The chain as the scan follows it -/

/-- The partitions registered for the extended tables. -/
def loopParts (disk : Disk) (ext : UInt32) (n : Nat) (sups : List UInt32) : List PartSpec :=
  sups.mapIdx fun i sup =>
    let e := partitionEntry (disk (ext.toNat + sup.toNat)) 0
    ⟨n + i, (ext + e.lba).toUInt64, e.size.toUInt64⟩

section

variable {a : ScanArgs} {ext : UInt32}

theorem loopParts_cons (disk : Disk) (n : Nat) (sup : UInt32) (sups : List UInt32) :
    loopParts disk ext n (sup :: sups) =
      ⟨n, (ext + (partitionEntry (disk (ext.toNat + sup.toNat)) 0).lba).toUInt64,
        (partitionEntry (disk (ext.toNat + sup.toNat)) 0).size.toUInt64⟩ :: loopParts disk ext (n + 1) sups := by
  rw [loopParts, List.mapIdx_cons, loopParts]
  congr 1
  apply List.mapIdx_eq_mapIdx_iff.mpr
  intro i hi
  simp only [PartSpec.mk.injEq, and_self, and_true]
  omega

/-- The block of a table is read whole. -/
theorem read_table (hbs : a.blockSize = a.b.blockSize) (hsize : 510 ≤ a.b.blockSize.toNat)
    (hindex : a.b.indexOfFirstBlock = 0) {sup : UInt32} (hon : ext.toNat + sup.toNat < a.b.numberOfBlocks.toNat)
    (haddr : (ext.toNat + sup.toNat) * a.b.blockSize.toNat < 4294967296) (buffer : Bytes) :
    blockdevKernelRead a.b a.disk ((ext + sup) * a.blockSize).toUInt64 buffer a.b.blockSize =
      some (a.b.blockSize, copyInto buffer 0 a.b.blockSize.toNat (a.disk (ext.toNat + sup.toNat))) := by
  have hpos : 0 < a.b.blockSize.toNat := Nat.lt_of_lt_of_le (by decide) hsize
  have hle : ext.toNat + sup.toNat ≤ (ext.toNat + sup.toNat) * a.b.blockSize.toNat := Nat.le_mul_of_pos_right _ hpos
  apply blockdevKernelRead_block hpos hpos (Nat.le_refl _) hon _ hindex
  rw [hbs, UInt32.toNat_toUInt64, UInt32.toNat_mul, word_add, Nat.mod_eq_of_lt (Nat.lt_of_le_of_lt hle haddr),
    Nat.mod_eq_of_lt haddr]

theorem logicalLoop_parts (hbs : a.blockSize = a.b.blockSize) (hsize : 510 ≤ a.b.blockSize.toNat)
    (hindex : a.b.indexOfFirstBlock = 0) (hext : ext ≠ 0) (sups : List UInt32) :
    ∀ (sup : UInt32) (fuel n : Nat) (w : BlockWorld) (buffer : Bytes), EbrChain a.disk ext sup sups →
      (∀ x ∈ sup :: sups, ext.toNat + x.toNat < a.b.numberOfBlocks.toNat ∧
        (ext.toNat + x.toNat) * a.b.blockSize.toNat < 4294967296) →
      n + sups.length < 15 → sups.length < fuel → Scanning a w.registry n →
      ∃ w', logicalLoop a ext fuel ⟨w, buffer, a.b.blockSize, sup, n⟩ = some w' ∧
        w'.registry = addParts a w.registry (loopParts a.disk ext (n + 1) (sup :: sups)) := by
  induction sups with
  | nil =>
    intro sup fuel n w buffer hchain hx hn hfuel hscan
    obtain ⟨hon, haddr⟩ := hx sup List.mem_cons_self
    obtain ⟨fuel, rfl⟩ : ∃ f, fuel = f + 1 := ⟨fuel - 1, by simp at hfuel; omega⟩
    have hlast : (partitionEntry (a.disk (ext.toNat + sup.toNat)) 1).lba = 0 := hchain
    simp only [List.length_nil, Nat.add_zero] at hn
    rw [logicalLoop, if_neg (not_not.mpr ⟨hext, hn⟩), read_table hbs hsize hindex hon haddr]
    dsimp only
    rw [partitionEntry_copyInto _ (by decide) hsize, partitionEntry_copyInto _ (by decide) hsize, if_pos hlast,
      @registerPartition_eq a (w.snprintf a.partName 4 (w.strings a.name ++ decimal (n + 1))) n hscan hn]
    exact ⟨_, rfl, rfl⟩
  | cons next sups ih =>
    intro sup fuel n w buffer hchain hx hn hfuel hscan
    obtain ⟨hon, haddr⟩ := hx sup List.mem_cons_self
    obtain ⟨fuel, rfl⟩ : ∃ f, fuel = f + 1 := ⟨fuel - 1, by simp at hfuel; omega⟩
    obtain ⟨hlink, hnext, hrest⟩ := hchain
    simp only [List.length_cons] at hn hfuel
    have hn' : n < 15 := by omega
    rw [logicalLoop, if_neg (not_not.mpr ⟨hext, hn'⟩), read_table hbs hsize hindex hon haddr]
    dsimp only
    rw [partitionEntry_copyInto _ (by decide) hsize, partitionEntry_copyInto _ (by decide) hsize, hlink, if_neg hnext,
      @registerPartition_eq a (w.snprintf a.partName 4 (w.strings a.name ++ decimal (n + 1))) n hscan hn']
    rw [loopParts_cons a.disk (n + 1) sup]
    exact ih next fuel (n + 1) _ _ hrest (fun x hmem => hx x (List.mem_cons_of_mem _ hmem)) (by omega) (by omega)
      (hscan.add rfl hn')

end

/-! ## The partitions of a scan -/

/-- The partitions `part_detect` registers where the byte offsets of the tables are 32 bits wide. -/
def scannedParts (disk : Disk) (sups : List UInt32) : List PartSpec :=
  primaryParts (disk 0) 4 ++
    if extendedStart (disk 0) 4 = 0 then [] else loopParts disk (extendedStart (disk 0) 4) 5 (0 :: sups)

theorem extendedStart_eq {disk : Disk} {k : Nat} (h : (extendedEntries (disk 0) 4).getLast? = some k) :
    extendedStart (disk 0) 4 = (partitionEntry (disk 0) k).lba := by
  rw [extendedStart, h]
  rfl

section

variable {w : BlockWorld} {cls inst : UInt32} {d : Nat} {b : BlockdevInstance} {disk : Nat → Disk} {garbage : Bytes}
  {sups : List UInt32}

theorem partDetect_parts (h : Scannable w cls inst d b) (name : Nat)
    (ht : Tables (disk b.customData) b.numberOfBlocks sups) (haddr : Addressed (disk b.customData) b.blockSize sups) :
    ∃ w', partDetect disk garbage w cls inst b.blockSize name = some (OK, w') ∧
      w'.registry.instances = w.registry.instances ++
        (scannedParts (disk b.customData) sups).map (scanArgs w disk cls inst name d b).part := by
  rw [partDetect_eq h]
  dsimp only
  generalize ha : scanArgs w disk cls inst name d b = a
  have hscan : Scanning a w.registry 0 := ha ▸ h.scanning name
  obtain ⟨hreg, hext, hscan⟩ := @primaryFold_registry a (copyInto garbage 0 b.blockSize.toNat (disk b.customData 0))
    w.kmallocName.2 hscan 4 (Nat.le_refl _)
  obtain ⟨hparts, hstart⟩ := @primaryParts_congr (copyInto garbage 0 b.blockSize.toNat (disk b.customData 0)) _ 4
    fun k hk => partitionEntry_copyInto (disk b.customData 0) hk h.blockSize
  rw [← hreg] at hscan
  rw [hparts] at hreg
  rw [hstart] at hext
  generalize (List.range 4).foldl _ _ = s at hreg hext hscan ⊢
  have hw : w.kmallocName.2.registry = w.registry := rfl
  by_cases hzero : extendedStart (disk b.customData 0) 4 = 0
  · refine ⟨s.1, ?_, ?_⟩
    · rw [logicalLoop, if_pos (by simp [hext, hzero])]
      rfl
    · rw [hreg, addParts_instances, scannedParts, if_pos hzero, List.append_nil, hw]
  · obtain ⟨k, hk⟩ : ∃ k, (extendedEntries (disk b.customData 0) 4).getLast? = some k := by
      cases hlast : (extendedEntries (disk b.customData 0) 4).getLast? with
      | none => exact absurd (by rw [extendedStart, hlast]; rfl) hzero
      | some k => exact ⟨k, rfl⟩
    have hmem := List.mem_of_getLast? hk
    have hlba := extendedStart_eq hk
    obtain ⟨w', hw', hreg'⟩ := @logicalLoop_parts a s.2 (by rw [← ha]; rfl) (by rw [← ha]; exact h.blockSize)
      (by rw [← ha]; exact h.indexOfFirstBlock) (by rw [hext]; exact hzero) sups 0 12 4 s.1
      (copyInto garbage 0 b.blockSize.toNat (disk b.customData 0))
      (by rw [← ha, hext, hlba]; exact ht.chain k hmem)
      (by rw [← ha, hext, hlba]; exact fun x hx => ⟨ht.onDisk k hmem x hx, haddr k hmem x hx⟩)
      (by have := ht.links; omega) (by have := ht.links; omega) hscan
    refine ⟨w', ?_, ?_⟩
    · have hbs : a.b.blockSize = b.blockSize := by rw [← ha]; rfl
      rw [hbs] at hw'
      rw [hw']
      rfl
    · have hdisk : a.disk = disk b.customData := by rw [← ha]; rfl
      rw [hreg', hreg, addParts_instances, addParts_instances, scannedParts, if_neg hzero, hw, hdisk, hext,
        List.map_append, List.append_assoc]

/-- One table that needs no more than 32 bits is registered as it stands. -/
theorem scannedParts_eq_diskParts {disk : Disk} {blockSize : UInt32} (hone : OneLogical disk blockSize sups) :
    scannedParts disk sups = diskParts disk sups := by
  rw [scannedParts, diskParts]
  congr 1
  cases hlast : (extendedEntries (disk 0) 4).getLast? with
  | none =>
    rw [extendedStart, hlast]
    rfl
  | some k =>
    obtain ⟨hne, -, rfl, hsum⟩ := hone k (List.mem_of_getLast? hlast)
    rw [extendedStart_eq hlast, if_neg hne]
    dsimp only
    generalize (partitionEntry (disk 0) k).lba = ext at hne hsum ⊢
    have hstart : (ext + (partitionEntry (disk ext.toNat) 0).lba).toUInt64 =
        UInt64.ofNat (ext.toNat + (partitionEntry (disk ext.toNat) 0).lba.toNat) := by
      rw [toUInt64_eq, word_add, Nat.mod_eq_of_lt hsum]
    have hnat : ext.toNat + (0 : UInt32).toNat = ext.toNat := rfl
    simp only [loopParts, logicalParts, List.mapIdx_cons, List.mapIdx_nil, hnat, hstart]

/-- Registered partitions of one disk with one id are the same, and start at the same block. -/
theorem part_inj {a : ScanArgs} {s t : PartSpec} (h : a.part s = a.part t) (hs : s.number ≤ 15) (ht : t.number ≤ 15) :
    s.number = t.number ∧ s.start = t.start := by
  simp only [ScanArgs.part, partitionOf, BlockdevInstance.mk.injEq] at h
  obtain ⟨-, -, -, hstart, -, hinst, -⟩ := h
  exact ⟨instance_inj a.diskInstance hs ht hinst, UInt64.add_right_inj _ |>.mp hstart⟩

/-- A partition that is registered now was found by the scan. -/
theorem mem_scannedParts (h : Scannable w cls inst d b) {name : Nat} {r : Registry} {parts : List PartSpec}
    (hr : r.instances = w.registry.instances ++ parts.map (scanArgs w disk cls inst name d b).part)
    (hparts : ∀ t ∈ parts, t.number ≤ 15) {s : PartSpec} (hs : 0 < s.number ∧ s.number ≤ 15)
    (hmem : (scanArgs w disk cls inst name d b).part s ∈ r.instances) :
    ∃ t ∈ parts, t.number = s.number ∧ t.start = s.start := by
  rw [hr] at hmem
  rcases List.mem_append.mp hmem with hold | hnew
  · have hfree := h.free s.number hs.1 hs.2
    rw [lookupBlockdevInstance, List.findIdx?_eq_none_iff] at hfree
    have := hfree _ hold
    simp [ScanArgs.part, partitionOf, scanArgs] at this
  · obtain ⟨t, ht, heq⟩ := List.mem_map.mp hnew
    exact ⟨t, ht, part_inj heq (hparts t ht) hs.2⟩

/-- The start of a registered logical partition leaves out the link to its table. -/
theorem link_zero {disk : Disk} {ext : UInt32} {i : Nat} {sup : UInt32} {t : PartSpec}
    (ht : t ∈ loopParts disk ext 5 (0 :: sups)) (hsup : (0 :: sups)[i]? = some sup) (hnumber : t.number = 5 + i)
    (hstart : t.start = UInt64.ofNat
      (ext.toNat + sup.toNat + (partitionEntry (disk (ext.toNat + sup.toNat)) 0).lba.toNat)) :
    sup = 0 ∧ ext.toNat + (partitionEntry (disk (ext.toNat + sup.toNat)) 0).lba.toNat < 4294967296 := by
  obtain ⟨j, hj, rfl⟩ := List.mem_mapIdx.mp ht
  have hij : j = i := Nat.add_left_cancel hnumber
  subst hij
  have hget : (0 :: sups)[j] = sup := (List.getElem?_eq_some_iff.mp hsup).2
  dsimp only at hstart
  rw [hget] at hstart
  generalize (partitionEntry (disk (ext.toNat + sup.toNat)) 0).lba = lba at hstart ⊢
  have hval := UInt64.toNat_inj.mpr hstart
  have hext := word_lt ext
  have hlba := word_lt lba
  have hsup' := word_lt sup
  have h64 : UInt64.size = 18446744073709551616 := rfl
  rw [UInt32.toNat_toUInt64, UInt64.toNat_ofNat_of_lt' (by omega), word_add] at hval
  rw [word_eq_iff]
  constructor
  · show _ = 0
    omega
  · omega

theorem scannedParts_number {disk : Disk} (hlinks : sups.length ≤ 10) {t : PartSpec} (ht : t ∈ scannedParts disk sups) :
    t.number ≤ 15 := by
  rcases List.mem_append.mp ht with hprim | hloop
  · exact Nat.le_trans (number_le_of_mem_primaryParts hprim).2 (by decide)
  · split at hloop
    · cases hloop
    · obtain ⟨j, hj, rfl⟩ := List.mem_mapIdx.mp hloop
      simp only [List.length_cons] at hj
      show 5 + j ≤ 15
      omega

theorem scannedParts_link {disk : Disk} {i : Nat} {sup : UInt32} {t : PartSpec} (ht : t ∈ scannedParts disk sups)
    (hsup : (0 :: sups)[i]? = some sup) (hnumber : t.number = 5 + i)
    (hstart : t.start = UInt64.ofNat ((extendedStart (disk 0) 4).toNat + sup.toNat +
      (partitionEntry (disk ((extendedStart (disk 0) 4).toNat + sup.toNat)) 0).lba.toNat)) :
    extendedStart (disk 0) 4 ≠ 0 ∧ sup = 0 ∧ (extendedStart (disk 0) 4).toNat +
      (partitionEntry (disk ((extendedStart (disk 0) 4).toNat + sup.toNat)) 0).lba.toNat < 4294967296 := by
  rcases List.mem_append.mp ht with hprim | hloop
  · have := number_le_of_mem_primaryParts hprim
    omega
  · by_cases hzero : extendedStart (disk 0) 4 = 0
    · rw [if_pos hzero] at hloop
      cases hloop
    · rw [if_neg hzero] at hloop
      exact ⟨hzero, link_zero hloop hsup hnumber hstart⟩

theorem extendedEntries_unique {disk : Disk} (ht : (extendedEntries (disk 0) 4).length ≤ 1) {k : Nat}
    (hk : k ∈ extendedEntries (disk 0) 4) : (extendedEntries (disk 0) 4).getLast? = some k := by
  match hl : extendedEntries (disk 0) 4, ht with
  | [x], _ =>
    rw [hl] at hk
    rw [List.mem_singleton.mp hk]
    rfl
  | [], _ =>
    rw [hl] at hk
    cases hk

/-- Tables whose partitions are all registered are one table only. -/
theorem oneLogical_of_registered (h : Scannable w cls inst d b) {name : Nat} {r : Registry}
    (ht : Tables (disk b.customData) b.numberOfBlocks sups) (haddr : Addressed (disk b.customData) b.blockSize sups)
    (hr : r.instances = w.registry.instances ++
      (scannedParts (disk b.customData) sups).map (scanArgs w disk cls inst name d b).part)
    (hmem : ∀ s ∈ diskParts (disk b.customData) sups, (scanArgs w disk cls inst name d b).part s ∈ r.instances) :
    OneLogical (disk b.customData) b.blockSize sups := by
  intro k hk
  have hlast := extendedEntries_unique ht.extended hk
  rw [diskParts, hlast] at hmem
  dsimp only at hmem ⊢
  have hoff := haddr k hk 0 List.mem_cons_self
  have hchain := ht.chain k hk
  rw [← extendedStart_eq hlast] at hmem hoff hchain ⊢
  have hlinks := ht.links
  -- every partition of the chain is one the scan found
  have hlogical : ∀ (i : Nat) (sup : UInt32), (0 :: sups)[i]? = some sup → extendedStart (disk b.customData 0) 4 ≠ 0 ∧
      sup = 0 ∧ (extendedStart (disk b.customData 0) 4).toNat + (partitionEntry (disk b.customData
        ((extendedStart (disk b.customData 0) 4).toNat + sup.toNat)) 0).lba.toNat < 4294967296 := by
    intro i sup hsup
    obtain ⟨hi, hget⟩ := List.getElem?_eq_some_iff.mp hsup
    have hs := hmem _ (List.mem_append_right _ (List.mem_mapIdx.mpr ⟨i, hi, rfl⟩))
    rw [List.length_cons] at hi
    obtain ⟨t, ht', hnumber, hstart⟩ := mem_scannedParts h hr (fun t => scannedParts_number hlinks)
      (show 0 < 5 + i ∧ 5 + i ≤ 15 by omega) hs
    dsimp only at hnumber hstart
    rw [hget] at hstart
    exact scannedParts_link ht' hsup hnumber hstart
  obtain ⟨hne, -, hsum⟩ := hlogical 0 0 rfl
  refine ⟨hne, hoff, ?_, hsum⟩
  cases sups with
  | nil => rfl
  | cons next rest => exact absurd (hlogical 1 next rfl).2.1 hchain.2.1

/-- **The partitions registered are those of the tables** if an extended partition holds one table, starts behind the
first one and below byte 2^32, and its partition starts at a 32-bit block. On a disk whose extended tables all lie below
byte 2^32 the partitions of the tables are registered in no other case. The scan always stops. -/
theorem partDetect_geometry (h : Scannable w cls inst d b) (name : Nat) :
    (partDetect disk garbage w cls inst b.blockSize name).isSome = true ∧
    (Tables (disk b.customData) b.numberOfBlocks sups →
      (OneLogical (disk b.customData) b.blockSize sups →
        ∃ w', partDetect disk garbage w cls inst b.blockSize name = some (OK, w') ∧
          w'.registry.instances = w.registry.instances ++
            (diskParts (disk b.customData) sups).map (scanArgs w disk cls inst name d b).part) ∧
      (Addressed (disk b.customData) b.blockSize sups →
        (∃ ret w', partDetect disk garbage w cls inst b.blockSize name = some (ret, w') ∧
          ∀ s ∈ diskParts (disk b.customData) sups,
            (scanArgs w disk cls inst name d b).part s ∈ w'.registry.instances) →
        OneLogical (disk b.customData) b.blockSize sups)) := by
  refine ⟨?_, fun ht => ⟨fun hone => ?_, fun haddr hreg => ?_⟩⟩
  · rw [partDetect_eq h]
    dsimp only
    rw [Option.isSome_map]
    exact logicalLoop_isSome _ (Nat.lt_of_lt_of_le (by decide) h.blockSize) 12 _ (Nat.lt_succ_self 11)
  · have haddr : Addressed (disk b.customData) b.blockSize sups := by
      intro k hk sup hsup
      obtain ⟨-, hlt, rfl, -⟩ := hone k hk
      rw [List.mem_singleton.mp hsup]
      exact hlt
    rw [← scannedParts_eq_diskParts hone]
    exact partDetect_parts h name ht haddr
  · obtain ⟨w₁, hw₁, hr⟩ := @partDetect_parts _ _ _ _ _ disk garbage sups h name ht haddr
    obtain ⟨ret, w', hw', hmem⟩ := hreg
    rw [hw₁] at hw'
    cases hw'
    exact oneLogical_of_registered h ht haddr hr hmem

end

/-! ## Two disks -/

/-- Blocks 1 to 99, and an extended partition from block 100 on. -/
def firstTable : Bytes := table [⟨0x83, 1, 99⟩, ⟨5, 100, 100⟩]

/-- The blocks 101 to 120. -/
def oneLogicalDisk : Disk := fun block =>
  if block = 0 then firstTable else if block = 100 then table [⟨0x83, 1, 20⟩] else fun _ => 0

/-- The blocks 101 to 120, and 151 to 180. -/
def twoLogicalDisk : Disk := fun block =>
  if block = 0 then firstTable
  else if block = 100 then table [⟨0x83, 1, 20⟩, ⟨5, 50, 31⟩]
  else if block = 150 then table [⟨0x83, 1, 30⟩]
  else fun _ => 0

/-- A disk 1:0 of 200 blocks. -/
def hda : BlockdevInstance := ⟨512, 200, none, 0, 1, 0, 0⟩

def hdaWorld : BlockWorld where
  registry := (blockdevRegisterDisk {} 0 1 0 512 200 0 true).2
  strings := fun _ => [104, 100, 97]
  nextBuffer := 1

theorem scannable_hda : Scannable hdaWorld 1 0 0 hda := by
  refine ⟨rfl, rfl, by decide, by decide, rfl, ?_⟩
  have hall : ((List.range 16).all fun k => decide (0 < k →
      lookupBlockdevInstance hdaWorld.registry 1 (0 + UInt32.ofNat k) = none)) = true := by decide +kernel
  intro k hpos hle
  exact of_decide_eq_true (List.all_eq_true.mp hall k (List.mem_range.mpr (by omega))) hpos

theorem tables_of_one {disk : Disk} {blocks : UInt64} {sups : List UInt32}
    (hext : (extendedEntries (disk 0) 4).map (fun k => (partitionEntry (disk 0) k).lba) = [100])
    (hlinks : sups.length ≤ 10) (hchain : EbrChain disk 100 0 sups)
    (hon : ∀ sup ∈ 0 :: sups, 100 + sup.toNat < blocks.toNat) : Tables disk blocks sups := by
  have hlba : ∀ k ∈ extendedEntries (disk 0) 4, (partitionEntry (disk 0) k).lba = 100 := by
    intro k hk
    have hmem : (partitionEntry (disk 0) k).lba ∈ [100] := hext ▸ List.mem_map.mpr ⟨k, hk, rfl⟩
    exact List.mem_singleton.mp hmem
  refine ⟨?_, hlinks, fun k hk => ?_, fun k hk => ?_⟩
  · have hlen := congrArg List.length hext
    rw [List.length_map] at hlen
    exact Nat.le_of_eq hlen
  · rw [hlba k hk]
    exact hchain
  · rw [hlba k hk]
    exact hon

/-- The primary and the logical partition are registered, in this order. -/
theorem partDetect_geometry_hda :
    ∃ w', partDetect (fun _ => oneLogicalDisk) (fun _ => 0) hdaWorld 1 0 512 0 = some (OK, w') ∧
      w'.registry.instances = hdaWorld.registry.instances ++
        [partitionOf hda 0 1 1 1 99, partitionOf hda 0 1 5 101 20] := by
  obtain ⟨w', hw', hr⟩ := ((@partDetect_geometry _ _ _ _ _ (fun _ => oneLogicalDisk) (fun _ => 0) [] scannable_hda
    0).2 (tables_of_one (by decide +kernel) (by decide)
      (show (partitionEntry (oneLogicalDisk 100) 1).lba = 0 by decide +kernel)
      (List.forall_mem_singleton.mpr (by decide)))).1 (by
      have hent : extendedEntries (oneLogicalDisk 0) 4 = [1] := by decide +kernel
      intro k hk
      rw [show extendedEntries _ 4 = [1] from hent] at hk
      rw [List.mem_singleton.mp hk]
      decide +kernel)
  refine ⟨w', hw', hr.trans ?_⟩
  decide +kernel

/-- The second logical partition starts at block 151; block 101 is registered. -/
theorem partDetect_secondLogical : Scannable hdaWorld 1 0 0 hda ∧ Tables twoLogicalDisk hda.numberOfBlocks [50] ∧
    ∃ w', partDetect (fun _ => twoLogicalDisk) (fun _ => 0) hdaWorld 1 0 512 0 = some (OK, w') ∧
      (⟨6, 151, 30⟩ : PartSpec) ∈ diskParts twoLogicalDisk [50] ∧
      partitionOf hda 0 1 6 151 30 ∉ w'.registry.instances ∧ partitionOf hda 0 1 6 101 30 ∈ w'.registry.instances := by
  have ht : Tables twoLogicalDisk hda.numberOfBlocks [50] :=
    tables_of_one (by decide +kernel) (by decide)
      ⟨show (partitionEntry (twoLogicalDisk 100) 1).lba = 50 by decide +kernel, by decide,
        show (partitionEntry (twoLogicalDisk 150) 1).lba = 0 by decide +kernel⟩
      (List.forall_mem_cons.mpr ⟨by decide, List.forall_mem_singleton.mpr (by decide)⟩)
  have hent : extendedEntries (twoLogicalDisk 0) 4 = [1] := by decide +kernel
  have haddr : Addressed twoLogicalDisk hda.blockSize [50] := by
    intro k hk
    rw [hent] at hk
    rw [List.mem_singleton.mp hk]
    exact List.forall_mem_cons.mpr ⟨by decide +kernel, List.forall_mem_singleton.mpr (by decide +kernel)⟩
  obtain ⟨w', hw', hr⟩ := @partDetect_parts _ _ _ _ _ (fun _ => twoLogicalDisk) (fun _ => 0) [50] scannable_hda 0 ht haddr
  refine ⟨scannable_hda, ht, w', hw', ?_⟩
  rw [hr]
  decide +kernel

end Desiros.Block
