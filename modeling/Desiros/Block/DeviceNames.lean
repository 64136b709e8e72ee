import Desiros.Block.PartDetect

/-!
# Names of disks and partitions (`drivers/ide.c`, `fs/devfs.c`)

devfs keeps the address of a name. `ide_register_devices` formats the name of a disk into a buffer of its own, but
`part_detect` formats the names of all partitions of a disk into one buffer, for the logical ones with the size of the
pointer as the length, which leaves no room for the number. A name is what the buffer holds in the end.

`ideRegisterDevices_names` says when every device is found under its own name.
-/

namespace Desiros.Block

open Desiros.Library

/-! ## `ide_register_devices` -/

inductive IdeDeviceType where
  | none | harddisk | cdrom
deriving DecidableEq, Repr

structure IdeDevice where
  type : IdeDeviceType
  blocks : UInt64

def blockdevIdeMajor : UInt32 := 1
def ideBlkSize : Int32 := 512

/-- `hd%c`. -/
def hdName (i : Nat) : List UInt8 := [104, 100, UInt8.ofNat (97 + i)]

/-- One turn of the two loops, for the device with the number `i = IDE_DEVICE(ctrl, dev)`. -/
def ideRegisterDevice (disk : Nat → Disk) (garbage : Nat → Bytes) (devices : Nat → IdeDevice) (w : BlockWorld) (i : Nat) :
    Option BlockWorld :=
  let (name, w) := w.kmallocName
  let w := w.snprintf name 4 (hdName i)
  if (devices i).type = .harddisk then
    let (ret, registry) := blockdevRegisterDisk w.registry name blockdevIdeMajor (UInt32.ofNat (i * 16)) ideBlkSize
      (devices i).blocks i true
    let w := { w with registry := registry }
    if ret ≠ OK then some w
    else (partDetect disk (garbage i) w blockdevIdeMajor (UInt32.ofNat (i * 16)) ideBlkSize.toUInt32 name).map (·.2)
  else some w

/-- Two controllers with two devices each, before any other device is registered. -/
def ideRegisterDevices (disk : Nat → Disk) (garbage : Nat → Bytes) (devices : Nat → IdeDevice) : Option BlockWorld :=
  (List.range 4).foldlM (ideRegisterDevice disk garbage devices) {}

/-- `find_driver`. -/
def findDriver (w : BlockWorld) (name : List UInt8) : Option DriverEntry :=
  w.registry.driverList.find? fun e => w.strings e.name = name

/-! ## Names -/

/-- The name of a disk, or that of its disk and the partition number. -/
def ownName (id : Nat) : List UInt8 := hdName (id / 16) ++ if id % 16 = 0 then [] else decimal (id % 16)

def BlockdevInstance.ownName (b : BlockdevInstance) : List UInt8 := Block.ownName b.deviceInstance.toNat

/-- Every registered device is found under its name, and no two have the same. -/
structure NamesAttached (w : BlockWorld) : Prop where
  found : ∀ d b, w.registry.instances[d]? = some b → ∃ e, findDriver w b.ownName = some e ∧ e.devId = d
  distinct : (w.registry.driverList.map fun e => w.strings e.name).Nodup

/-- A disk has at most one entry that is registered, it is the last one that is not empty, and no extended partition is
followed. -/
def OneName (table : Bytes) : Prop :=
  extendedStart table 4 = 0 ∧
    ∀ j < 4, (partitionEntry table j).size ≠ 0 → (partitionEntry table j).type ≠ partTypeExtended →
      ∀ k < 4, (partitionEntry table k).size ≠ 0 → k ≤ j

/-- The names of a registry, if all entries carry the right one. -/
def RightNames (strings : Nat → List UInt8) (r : Registry) : Prop :=
  ∀ (d : Nat) (b : BlockdevInstance) (e : DriverEntry), r.instances[d]? = some b → r.driverList[d]? = some e →
    strings e.name = b.ownName

/-! ## Registries in order -/

/-- The entries belong to the instances, in order, whose ids rise and lie below `top`; the names stand in buffers below
`buffers`. -/
structure Tidy (r : Registry) (top buffers : Nat) : Prop where
  devIds : r.driverList.map DriverEntry.devId = List.range r.instances.length
  names : ∀ e ∈ r.driverList, e.name < buffers
  below : ∀ b ∈ r.instances, b.deviceInstance.toNat < top
  ids : (r.instances.map fun b => b.deviceInstance.toNat).Nodup
  count : r.instances.length ≤ top

section

variable {r : Registry} {top buffers : Nat} {strings : Nat → List UInt8}

theorem Tidy.length (h : Tidy r top buffers) : r.driverList.length = r.instances.length := by
  have hlen := congrArg List.length h.devIds
  rwa [List.length_map, List.length_range] at hlen

theorem Tidy.devId (h : Tidy r top buffers) {d : Nat} {e : DriverEntry} (he : r.driverList[d]? = some e) :
    e.devId = d := by
  have hd : (r.driverList.map DriverEntry.devId)[d]? = some e.devId := by rw [List.getElem?_map, he]; rfl
  rw [h.devIds] at hd
  obtain ⟨hlt, hval⟩ := List.getElem?_eq_some_iff.mp hd
  rw [List.getElem_range] at hval
  exact hval.symm

theorem Tidy.mono {top' buffers' : Nat} (h : Tidy r top buffers) (htop : top ≤ top') (hbuf : buffers ≤ buffers') :
    Tidy r top' buffers' :=
  ⟨h.devIds, fun e he => Nat.lt_of_lt_of_le (h.names e he) hbuf,
    fun b hb => Nat.lt_of_lt_of_le (h.below b hb) htop, h.ids, Nat.le_trans h.count htop⟩

/-- A device with a higher id is added at both ends. -/
theorem Tidy.add (h : Tidy r top buffers) {name : Nat} {b : BlockdevInstance} (hname : name < buffers)
    (hb : top ≤ b.deviceInstance.toNat) (hlt : b.deviceInstance.toNat < 64) :
    Tidy (r.add name b) (b.deviceInstance.toNat + 1) buffers ∧
      (RightNames strings (r.add name b) ↔ RightNames strings r ∧ strings name = b.ownName) := by
  have hroom : r.driverList.length < maxDrivers := by
    rw [h.length]
    exact Nat.lt_of_le_of_lt (Nat.le_trans h.count hb) hlt
  have hlist : (r.add name b).driverList = r.driverList ++ [⟨name, r.instances.length⟩] := if_pos hroom
  have hinst : (r.add name b).instances = r.instances ++ [b] := rfl
  have hlen : (r.add name b).instances.length = r.instances.length + 1 := by rw [hinst, List.length_append]; rfl
  refine ⟨⟨?_, fun e he => ?_, fun c hc => ?_, ?_, ?_⟩, fun hright => ⟨fun d c e hd he => ?_, ?_⟩, fun hright d c e hd he => ?_⟩
  · rw [hlist, hlen, List.map_append, h.devIds, List.range_succ]
    rfl
  · rw [hlist] at he
    rcases List.mem_append.mp he with hold | hnew
    · exact h.names e hold
    · rw [List.mem_singleton.mp hnew]
      exact hname
  · rw [hinst] at hc
    rcases List.mem_append.mp hc with hold | hnew
    · have := h.below c hold
      omega
    · rw [List.mem_singleton.mp hnew]
      exact Nat.lt_succ_self _
  · rw [hinst, List.map_append]
    apply List.Nodup.append h.ids (List.nodup_singleton _)
    intro x hx hx'
    obtain ⟨c, hc, rfl⟩ := List.mem_map.mp hx
    have heq : c.deviceInstance.toNat = b.deviceInstance.toNat := List.mem_singleton.mp hx'
    have := h.below c hc
    omega
  · have := h.count
    omega
  · have hdlt := (List.getElem?_eq_some_iff.mp hd).1
    apply hright d c e
    · rw [add_get_old name b hdlt, hd]
    · rw [hlist, List.getElem?_append_left (by rw [h.length]; exact hdlt), he]
  · apply hright r.instances.length b ⟨name, r.instances.length⟩ (add_get_new name b)
    rw [hlist, ← h.length, List.getElem?_concat_length]
  · rcases add_get_cases hd with ⟨hdlt, hold⟩ | ⟨hdeq, hnew⟩
    · rw [hlist, List.getElem?_append_left (by rw [h.length]; exact hdlt)] at he
      exact hright.1 d c e hold he
    · rw [hdeq, hlist, ← h.length, List.getElem?_concat_length] at he
      cases he
      rw [hnew]
      exact hright.2

theorem ownName_inj {x y : Nat} (hx : x < 64) (hy : y < 64) (h : ownName x = ownName y) : x = y := by
  have hnodup : ((List.range 64).map ownName).Nodup := by decide +kernel
  exact List.inj_on_of_nodup_map hnodup (List.mem_range.mpr hx) (List.mem_range.mpr hy) h

theorem findDriver_some {w : BlockWorld} {name : List UInt8} {e : DriverEntry} (h : findDriver w name = some e) :
    ∃ d : Nat, w.registry.driverList[d]? = some e ∧ w.strings e.name = name := by
  obtain ⟨d, hd⟩ := List.mem_iff_getElem?.mp (List.mem_of_find?_eq_some h)
  have hname := @List.find?_some DriverEntry (fun x => decide (w.strings x.name = name)) _ _ h
  exact ⟨d, hd, of_decide_eq_true hname⟩

/-- Entries that carry the right names are found by them; others are not. -/
theorem namesAttached_iff {w : BlockWorld} (h : Tidy w.registry top buffers) (htop : top ≤ 64) :
    NamesAttached w ↔ RightNames w.strings w.registry := by
  constructor
  · intro hn d b e hb he
    obtain ⟨e', hfind, hid⟩ := hn.found d b hb
    obtain ⟨d', he', hname⟩ := findDriver_some hfind
    have hdd : d' = d := (h.devId he').symm.trans hid
    rw [hdd, he] at he'
    cases he'
    exact hname
  · intro hright
    have hstrings : (w.registry.driverList.map fun e => w.strings e.name) =
        w.registry.instances.map BlockdevInstance.ownName := by
      apply List.ext_getElem
      · rw [List.length_map, List.length_map, h.length]
      · intro d hd hd'
        rw [List.length_map] at hd hd'
        rw [List.getElem_map, List.getElem_map]
        exact hright d _ _ (List.getElem?_eq_getElem hd') (List.getElem?_eq_getElem hd)
    have hinj : ∀ b ∈ w.registry.instances, ∀ c ∈ w.registry.instances, b.ownName = c.ownName →
        b.deviceInstance.toNat = c.deviceInstance.toNat := fun b hb c hc heq =>
      ownName_inj (Nat.lt_of_lt_of_le (h.below b hb) htop) (Nat.lt_of_lt_of_le (h.below c hc) htop) heq
    have hnodup : (w.registry.instances.map BlockdevInstance.ownName).Nodup := by
      apply (List.nodup_map_iff_inj_on (List.Nodup.of_map _ h.ids)).mpr
      intro b hb c hc heq
      exact List.inj_on_of_nodup_map h.ids hb hc (hinj b hb c hc heq)
    refine ⟨fun d b hb => ?_, hstrings ▸ hnodup⟩
    have hlt := (List.getElem?_eq_some_iff.mp hb).1
    obtain ⟨e, he⟩ : ∃ e, w.registry.driverList[d]? = some e :=
      ⟨_, List.getElem?_eq_getElem (by rw [h.length]; exact hlt)⟩
    have hname := hright d b e hb he
    obtain ⟨e', hfind⟩ : ∃ e', findDriver w b.ownName = some e' := by
      apply Option.isSome_iff_exists.mp
      rw [findDriver, List.find?_isSome]
      exact ⟨e, List.mem_of_getElem? he, decide_eq_true hname⟩
    refine ⟨e', hfind, ?_⟩
    obtain ⟨d', he', hname'⟩ := findDriver_some hfind
    -- the entry found carries the name of another device, which is then the same
    have hlt' : d' < w.registry.instances.length := by
      rw [← h.length]
      exact (List.getElem?_eq_some_iff.mp he').1
    rw [hright d' _ e' (List.getElem?_eq_getElem hlt') he'] at hname'
    rw [h.devId he']
    have hget : w.registry.instances[d] = b := (List.getElem?_eq_some_iff.mp hb).2
    have hd : d < (w.registry.instances.map BlockdevInstance.ownName).length := by rwa [List.length_map]
    have hd' : d' < (w.registry.instances.map BlockdevInstance.ownName).length := by rwa [List.length_map]
    have heq : (w.registry.instances.map BlockdevInstance.ownName)[d'] =
        (w.registry.instances.map BlockdevInstance.ownName)[d] := by
      rw [List.getElem_map, List.getElem_map, hname', hget]
    exact hnodup.getElem_inj_iff.mp heq

end

/-! ## The partitions of a disk -/

section

variable {a : ScanArgs} {i buffers : Nat} {strings : Nat → List UInt8}

theorem part_instance (hi : i < 4) (ha : a.diskInstance = UInt32.ofNat (i * 16)) {s : PartSpec} (hs : s.number ≤ 15) :
    (a.part s).deviceInstance.toNat = i * 16 + s.number := by
  show (a.diskInstance + UInt32.ofNat s.number).toNat = _
  rw [ha, word_add, UInt32.toNat_ofNat', UInt32.toNat_ofNat']
  omega

/-- Partitions with rising numbers are added one after the other; all their names stand in one buffer. -/
theorem Tidy.addParts (hi : i < 4) (ha : a.diskInstance = UInt32.ofNat (i * 16)) (hbuf : a.partName < buffers)
    (parts : List PartSpec) : ∀ (r : Registry) (top : Nat), Tidy r top buffers → top ≤ i * 16 + 16 →
      (parts.map PartSpec.number).Pairwise (· < ·) →
      (∀ s ∈ parts, top ≤ i * 16 + s.number ∧ s.number ≤ 15) →
      Tidy (Block.addParts a r parts) (i * 16 + 16) buffers ∧
        (RightNames strings (Block.addParts a r parts) ↔
          RightNames strings r ∧ ∀ s ∈ parts, strings a.partName = ownName (i * 16 + s.number)) := by
  induction parts with
  | nil => exact fun r top h htop _ _ => ⟨h.mono htop (Nat.le_refl _), by simp [Block.addParts]⟩
  | cons s parts ih =>
    intro r top h htop hsorted hs
    obtain ⟨hlow, hhigh⟩ := hs s List.mem_cons_self
    have hinst := part_instance hi ha hhigh
    obtain ⟨hadd, hright⟩ := @Tidy.add _ _ _ strings h a.partName (a.part s) hbuf (by omega) (by omega)
    obtain ⟨hfirst, hsorted⟩ := List.pairwise_cons.mp hsorted
    obtain ⟨htidy, hrest⟩ := ih (r.add a.partName (a.part s)) _ hadd (by omega) hsorted fun t ht => by
      have hlt := hfirst t.number (List.mem_map_of_mem ht)
      exact ⟨by omega, (hs t (List.mem_cons_of_mem _ ht)).2⟩
    refine ⟨htidy, hrest.trans ?_⟩
    rw [hright, List.forall_mem_cons, and_assoc, BlockdevInstance.ownName, hinst]

/-! ## The name buffer -/

/-- The scan of the primary partitions leaves the name of the last entry that is not empty. -/
theorem primaryFold_names (buffer : Bytes) (w : BlockWorld) (hname : a.name ≠ a.partName) (n : Nat) :
    ((List.range n).foldl (primaryStep a buffer) (w, 0)).1.nextBuffer = w.nextBuffer ∧
    (∀ q, q ≠ a.partName → ((List.range n).foldl (primaryStep a buffer) (w, 0)).1.strings q = w.strings q) ∧
    ∀ k < n, (partitionEntry buffer k).size ≠ 0 → (∀ j < n, (partitionEntry buffer j).size ≠ 0 → j ≤ k) →
      ((List.range n).foldl (primaryStep a buffer) (w, 0)).1.strings a.partName =
        (w.strings a.name ++ decimal (k + 1)).take 19 := by
  induction n with
  | zero => exact ⟨rfl, fun _ _ => rfl, fun k hk => absurd hk (Nat.not_lt_zero k)⟩
  | succ n ih =>
    obtain ⟨hnext, hother, hlast⟩ := ih
    rw [List.range_succ, List.foldl_append]
    generalize (List.range n).foldl (primaryStep a buffer) (w, 0) = s at hnext hother hlast ⊢
    show (primaryStep a buffer s n).1.nextBuffer = _ ∧ (∀ q, _ → (primaryStep a buffer s n).1.strings q = _) ∧
      ∀ k < n + 1, _ → _ → (primaryStep a buffer s n).1.strings a.partName = _
    by_cases hsize : (partitionEntry buffer n).size = 0
    · have hstep : primaryStep a buffer s n = s := if_pos hsize
      rw [hstep]
      refine ⟨hnext, hother, fun k hk hne hmax => ?_⟩
      have hkn : k ≠ n := by
        rintro rfl
        exact hne hsize
      exact hlast k (by omega) hne fun j hj => hmax j (Nat.lt_succ_of_lt hj)
    · -- the name is formatted before the type is looked at
      obtain ⟨hbuf, hstr⟩ : (primaryStep a buffer s n).1.nextBuffer = s.1.nextBuffer ∧
          (primaryStep a buffer s n).1.strings =
            Function.update s.1.strings a.partName ((s.1.strings a.name ++ decimal (n + 1)).take 19) := by
        rw [primaryStep, if_neg hsize]
        dsimp only
        split <;> exact ⟨rfl, rfl⟩
      rw [hbuf, hstr]
      refine ⟨hnext, fun q hq => ?_, fun k hk hne hmax => ?_⟩
      · rw [Function.update_of_ne hq, hother q hq]
      · have hkn : k = n := Nat.le_antisymm (Nat.le_of_lt_succ hk) (hmax n (Nat.lt_succ_self n) hsize)
        rw [Function.update_self, hother a.name hname, hkn]

/-- A chain that is followed registers partitions under the name of the disk. -/
theorem logicalLoop_names {ext : UInt32} (hext : ext ≠ 0) (hsize : 0 < a.b.blockSize.toNat)
    (hname : a.name ≠ a.partName) (fuel : Nat) : ∀ s : LogicalScan, s.partnum < 15 → 15 - s.partnum < fuel →
      Scanning a s.world.registry s.partnum → (s.world.strings a.name).length = 3 →
      ∃ w' parts, logicalLoop a ext fuel s = some w' ∧ w'.registry = addParts a s.world.registry parts ∧ parts ≠ [] ∧
        (parts.map PartSpec.number).Pairwise (· < ·) ∧
        (∀ t ∈ parts, s.partnum < t.number ∧ t.number ≤ 15) ∧ w'.nextBuffer = s.world.nextBuffer ∧
        (∀ q, q ≠ a.partName → w'.strings q = s.world.strings q) ∧
        w'.strings a.partName = s.world.strings a.name := by
  induction fuel with
  | zero => intro s hs hfuel; omega
  | succ fuel ih =>
    intro s hs hfuel hscan hlen
    obtain ⟨x, hx⟩ := Option.isSome_iff_exists.mp (@blockdevKernelRead_isSome a.b a.disk s.size hsize
      ((ext + s.extsup) * a.blockSize).toUInt64 s.buffer)
    rw [logicalLoop, if_neg (not_not.mpr ⟨hext, hs⟩), hx]
    dsimp only
    rw [@registerPartition_eq a (s.world.snprintf a.partName 4 (s.world.strings a.name ++ decimal (s.partnum + 1)))
      s.partnum hscan hs]
    have htake : (s.world.strings a.name ++ decimal (s.partnum + 1)).take (4 - 1) = s.world.strings a.name := by
      rw [List.take_append_of_le_length (Nat.le_of_eq hlen.symm), List.take_of_length_le (Nat.le_of_eq hlen)]
    rw [BlockWorld.snprintf, htake]
    generalize ht : (⟨s.partnum + 1, (ext + (partitionEntry x.2 0).lba).toUInt64,
      (partitionEntry x.2 0).size.toUInt64⟩ : PartSpec) = t
    have hnum : t.number = s.partnum + 1 := by rw [← ht]
    by_cases hlast : (partitionEntry x.2 1).lba = 0
    · rw [if_pos hlast]
      refine ⟨_, [t], rfl, rfl, List.cons_ne_nil _ _, by simp, fun u hu => ?_, rfl, fun q hq => ?_, ?_⟩
      · rw [List.mem_singleton.mp hu, hnum]
        omega
      · exact Function.update_of_ne hq _ _
      · exact Function.update_self ..
    · rw [if_neg hlast]
      by_cases hmore : s.partnum + 1 < 15
      · obtain ⟨w', parts, hw', hreg, -, hsorted, hrange, hbuf, hother, hpart⟩ := ih
          ⟨{ registry := s.world.registry.add a.partName (a.part t),
             strings := Function.update s.world.strings a.partName (s.world.strings a.name),
             nextBuffer := s.world.nextBuffer }, x.2, x.1, (partitionEntry x.2 1).lba, s.partnum + 1⟩ hmore (by dsimp only; omega)
          (hscan.add hnum hs) (by dsimp only; rw [Function.update_of_ne hname]; exact hlen)
        dsimp only at hreg hrange hbuf hother hpart
        rw [Function.update_of_ne hname] at hpart
        refine ⟨w', t :: parts, hw', hreg, List.cons_ne_nil _ _, ?_, fun u hu => ?_, hbuf, fun q hq => ?_, hpart⟩
        · rw [List.map_cons, List.pairwise_cons, hnum]
          refine ⟨fun n hn => ?_, hsorted⟩
          obtain ⟨u, hu, rfl⟩ := List.mem_map.mp hn
          exact (hrange u hu).1
        · rcases List.mem_cons.mp hu with rfl | hu
          · omega
          · have := hrange u hu
            omega
        · rw [hother q hq, Function.update_of_ne hq]
      · -- the sixteenth partition is not looked for
        have hstop : ∀ s' : LogicalScan, s'.partnum = s.partnum + 1 → logicalLoop a ext fuel s' = some s'.world := by
          intro s' hs'
          obtain ⟨f, rfl⟩ : ∃ f, fuel = f + 1 := ⟨fuel - 1, by omega⟩
          rw [logicalLoop, if_pos (by rw [hs']; exact fun h => hmore h.2)]
        rw [hstop _ rfl]
        refine ⟨_, [t], rfl, rfl, List.cons_ne_nil _ _, by simp, fun u hu => ?_, rfl, fun q hq => ?_, ?_⟩
        · rw [List.mem_singleton.mp hu, hnum]
          omega
        · exact Function.update_of_ne hq _ _
        · exact Function.update_self ..

end

/-! ## The names after a scan -/

theorem decimal_inj {j k : Nat} (hj : j < 4) (hk : k < 4) (h : decimal (j + 1) = decimal (k + 1)) : j = k := by
  have hnodup : ((List.range 4).map fun n => decimal (n + 1)).Nodup := by decide +kernel
  exact List.inj_on_of_nodup_map hnodup (List.mem_range.mpr hj) (List.mem_range.mpr hk) h

theorem decimal_length {n : Nat} (hn : n < 4) : (decimal (n + 1)).length = 1 := by
  have hall : ((List.range 4).all fun n => (decimal (n + 1)).length == 1) = true := by decide +kernel
  exact eq_of_beq (List.all_eq_true.mp hall n (List.mem_range.mpr hn))

theorem decimal_ne_nil (n : Nat) : decimal n ≠ [] := by
  rw [decimal, ne_eq, List.map_eq_nil_iff]
  exact Nat.toDigits_ne_nil

theorem oneName_congr {buffer buffer' : Bytes} (h : ∀ k < 4, partitionEntry buffer k = partitionEntry buffer' k) :
    OneName buffer ↔ OneName buffer' := by
  have hext := (primaryParts_congr (n := 4) h).2
  rw [OneName, OneName, hext]
  constructor
  · rintro ⟨hzero, hlast⟩
    refine ⟨hzero, fun j hj hsize htype k hk hne => hlast j hj ?_ ?_ k hk ?_⟩
    · rwa [h j hj]
    · rwa [h j hj]
    · rwa [h k hk]
  · rintro ⟨hzero, hlast⟩
    refine ⟨hzero, fun j hj hsize htype k hk hne => hlast j hj ?_ ?_ k hk ?_⟩
    · rwa [← h j hj]
    · rwa [← h j hj]
    · rwa [← h k hk]

section

variable {w : BlockWorld} {cls inst : UInt32} {d : Nat} {b : BlockdevInstance} {disk : Nat → Disk} {garbage : Bytes}

/-- Without logical partitions, the buffer fits all primary ones if there is one at most, the last entry. -/
theorem primary_oneName {buffer : Bytes} {name : List UInt8} (hlen : name.length = 3) {final : List UInt8}
    (hfinal : ∀ k < 4, (partitionEntry buffer k).size ≠ 0 →
      (∀ j < 4, (partitionEntry buffer j).size ≠ 0 → j ≤ k) → final = (name ++ decimal (k + 1)).take 19)
    (hext : extendedStart buffer 4 = 0) :
    (∀ s ∈ primaryParts buffer 4, final = name ++ decimal s.number) ↔ OneName buffer := by
  have htake : ∀ k < 4, (name ++ decimal (k + 1)).take 19 = name ++ decimal (k + 1) := by
    intro k hk
    apply List.take_of_length_le
    rw [List.length_append, hlen, decimal_length hk]
    decide
  constructor
  · intro hall
    refine ⟨hext, fun j hj hsize htype k hk hne => ?_⟩
    let last := Nat.findGreatest (fun k => (partitionEntry buffer k).size ≠ 0) 3
    have hle : last ≤ 3 := Nat.findGreatest_le 3
    have hmax : ∀ i < 4, (partitionEntry buffer i).size ≠ 0 → i ≤ last := fun i hi hne =>
      Nat.le_findGreatest (Nat.le_of_lt_succ hi) hne
    have hlast : (partitionEntry buffer last).size ≠ 0 :=
      Nat.findGreatest_spec (P := fun k => (partitionEntry buffer k).size ≠ 0) (Nat.le_of_lt_succ hj) hsize
    have heq := hall _ (mem_primaryParts.mpr ⟨j, hj, ⟨hsize, htype⟩, rfl⟩)
    rw [hfinal last (Nat.lt_succ_of_le hle) hlast hmax, htake last (Nat.lt_succ_of_le hle)] at heq
    have hjl := decimal_inj hj (Nat.lt_succ_of_le hle) (List.append_cancel_left heq).symm
    rw [hjl]
    exact hmax k hk hne
  · rintro ⟨-, hone⟩ s hs
    obtain ⟨j, hj, ⟨hsize, htype⟩, rfl⟩ := mem_primaryParts.mp hs
    rw [hfinal j hj hsize (hone j hj hsize htype), htake j hj]

theorem primaryParts_sorted (buffer : Bytes) (n : Nat) :
    ((primaryParts buffer n).map PartSpec.number).Pairwise (· < ·) := by
  rw [primaryParts, List.map_map, List.pairwise_map]
  exact (List.pairwise_lt_range.filter _).imp fun h => Nat.succ_lt_succ h

theorem partDetect_names (h : Scannable w cls inst d b) {name : Nat} (hname : name ≠ w.nextBuffer)
    (hlen : (w.strings name).length = 3) :
    ∃ w' parts, partDetect disk garbage w cls inst b.blockSize name = some (OK, w') ∧
      w'.registry = addParts (scanArgs w disk cls inst name d b) w.registry parts ∧
      (parts.map PartSpec.number).Pairwise (· < ·) ∧ (∀ s ∈ parts, 0 < s.number ∧ s.number ≤ 15) ∧
      w'.nextBuffer = w.nextBuffer + 1 ∧ (∀ q, q ≠ w.nextBuffer → w'.strings q = w.strings q) ∧
      ((∀ s ∈ parts, w'.strings w.nextBuffer = w.strings name ++ decimal s.number) ↔
        OneName (disk b.customData 0)) := by
  rw [partDetect_eq h]
  dsimp only
  have hpart : (scanArgs w disk cls inst name d b).partName = w.nextBuffer := rfl
  have hdisk : (scanArgs w disk cls inst name d b).name = name := rfl
  generalize hbuffer : copyInto garbage 0 b.blockSize.toNat (disk b.customData 0) = buffer
  have hentry : ∀ k < 4, partitionEntry buffer k = partitionEntry (disk b.customData 0) k := fun k hk =>
    hbuffer ▸ partitionEntry_copyInto _ hk h.blockSize
  rw [← oneName_congr hentry]
  have hscan := @Scannable.scanning _ disk _ _ _ _ h name
  have hsize : 0 < (scanArgs w disk cls inst name d b).b.blockSize.toNat :=
    Nat.lt_of_lt_of_le (by decide) h.blockSize
  generalize scanArgs w disk cls inst name d b = a at hpart hdisk hscan hsize ⊢
  obtain ⟨hreg, hext, hscan⟩ := @primaryFold_registry a buffer w.kmallocName.2 hscan 4 (Nat.le_refl _)
  have hne : a.name ≠ a.partName := by rwa [hpart, hdisk]
  obtain ⟨hbuf, hother, hlast⟩ := @primaryFold_names a buffer w.kmallocName.2 hne 4
  rw [← hreg] at hscan
  generalize (List.range 4).foldl _ _ = s at hreg hext hscan hbuf hother hlast ⊢
  rw [hpart, hdisk] at hlast
  rw [hpart] at hother
  have hdiskName : s.1.strings name = w.strings name := hother name hname
  by_cases hzero : extendedStart buffer 4 = 0
  · refine ⟨s.1, primaryParts buffer 4, ?_, hreg, primaryParts_sorted buffer 4, fun t ht => ?_, hbuf, hother,
      primary_oneName hlen hlast hzero⟩
    · rw [logicalLoop, if_pos (by simp [hext, hzero])]
      rfl
    · obtain ⟨hpos, hle⟩ := number_le_of_mem_primaryParts ht
      exact ⟨hpos, Nat.le_trans hle (by decide)⟩
  · obtain ⟨w', parts, hw', hreg', hparts, hsorted, hrange, hbuf', hother', hstr⟩ := @logicalLoop_names a s.2
      (by rwa [hext]) hsize hne 12 ⟨s.1, buffer, b.blockSize, 0, 4⟩ (Nat.lt_of_sub_eq_succ rfl) (Nat.lt_succ_self 11) hscan
      (by rw [hdisk, hdiskName, hlen])
    dsimp only at hreg' hrange hbuf' hother' hstr
    rw [hpart] at hother' hstr
    rw [hdisk, hdiskName] at hstr
    refine ⟨w', primaryParts buffer 4 ++ parts, by rw [hw']; rfl, by rw [hreg', hreg, addParts_append]; rfl, ?_,
      fun t ht => ?_, hbuf'.trans hbuf, fun q hq => (hother' q hq).trans (hother q hq), ?_⟩
    · rw [List.map_append, List.pairwise_append]
      refine ⟨primaryParts_sorted buffer 4, hsorted, fun x hx y hy => ?_⟩
      obtain ⟨t, ht, rfl⟩ := List.mem_map.mp hx
      obtain ⟨u, hu, rfl⟩ := List.mem_map.mp hy
      exact Nat.lt_of_le_of_lt (number_le_of_mem_primaryParts ht).2 (hrange u hu).1
    · rcases List.mem_append.mp ht with hprim | hlog
      · have := number_le_of_mem_primaryParts hprim
        omega
      · have := hrange t hlog
        omega
    · constructor
      · intro hall
        obtain ⟨t, ht⟩ := List.exists_mem_of_ne_nil parts hparts
        have heq := hall t (List.mem_append_right _ ht)
        rw [hstr] at heq
        exact absurd (List.self_eq_append_right.mp heq) (decimal_ne_nil t.number)
      · exact fun hone => absurd hone.1 hzero

end

/-! ## One device -/

theorem rightNames_congr {strings strings' : Nat → List UInt8} {r : Registry}
    (h : ∀ e ∈ r.driverList, strings e.name = strings' e.name) : RightNames strings r ↔ RightNames strings' r := by
  constructor
  · intro hr d b e hb he
    rw [← h e (List.mem_of_getElem? he)]
    exact hr d b e hb he
  · intro hr d b e hb he
    rw [h e (List.mem_of_getElem? he)]
    exact hr d b e hb he

theorem Tidy.lookup_none {r : Registry} {top buffers : Nat} (h : Tidy r top buffers) (c : UInt32) {x : UInt32}
    (hx : top ≤ x.toNat) : lookupBlockdevInstance r c x = none := by
  rw [lookupBlockdevInstance, List.findIdx?_eq_none_iff]
  intro b hb
  apply decide_eq_false
  rintro ⟨-, heq⟩
  have hlt := h.below b hb
  rw [heq] at hlt
  omega

theorem ownName_disk {i : Nat} : ownName (i * 16) = hdName i := by
  rw [ownName, Nat.mul_mod_left, if_pos rfl, List.append_nil, Nat.mul_div_cancel _ (by decide)]

theorem ownName_partition {i n : Nat} (hn : 0 < n ∧ n ≤ 15) : ownName (i * 16 + n) = hdName i ++ decimal n := by
  have hdiv : (i * 16 + n) / 16 = i := by omega
  have hmod : (i * 16 + n) % 16 = n := by omega
  rw [ownName, hdiv, hmod, if_neg (by omega)]

theorem blockdevRegisterDisk_ide {r : Registry} {cls inst : UInt32} (hlookup : lookupBlockdevInstance r cls inst = none)
    (name : Nat) (blocks : UInt64) (customData : Nat) :
    blockdevRegisterDisk r name cls inst ideBlkSize blocks customData true =
      if blocks = 0 then (-EINVAL, r) else (OK, r.add name ⟨512, blocks, none, 0, cls, inst, customData⟩) := by
  have hsize : ¬ ideBlkSize ≤ 0 := by decide
  have hzero : blocks ≤ 0 ↔ blocks = 0 := by
    rw [UInt64.le_iff_toNat_le, ← UInt64.toNat_inj]
    exact Nat.le_zero
  rw [blockdevRegisterDisk, hlookup, if_neg (by decide), if_neg hsize]
  by_cases hblocks : blocks = 0
  · rw [if_pos (hzero.mpr hblocks), if_pos hblocks]
  · rw [if_neg (hzero.not.mpr hblocks), if_neg hblocks]
    rfl

/-- What a scan needs of a disk holds once it is registered. -/
theorem scannable_add {w : BlockWorld} {i : Nat} (hi : i < 4) (h : Tidy w.registry (i * 16) w.nextBuffer) (name : Nat)
    {b : BlockdevInstance} (hcls : b.deviceClass = blockdevIdeMajor) (hinst : b.deviceInstance = UInt32.ofNat (i * 16))
    (hsize : b.blockSize = 512) (hblocks : 0 < b.numberOfBlocks.toNat) (hindex : b.indexOfFirstBlock = 0)
    {w' : BlockWorld} (hw' : w'.registry = w.registry.add name b) :
    Scannable w' blockdevIdeMajor (UInt32.ofNat (i * 16)) w.registry.instances.length b := by
  have hid : (UInt32.ofNat (i * 16)).toNat = i * 16 := by
    rw [UInt32.toNat_ofNat']
    omega
  refine ⟨?_, hw' ▸ add_get_new name b, by rw [hsize]; decide, hblocks, hindex, fun k hpos hle => ?_⟩
  · have hnone := h.lookup_none blockdevIdeMajor (Nat.le_of_eq hid.symm)
    rw [lookupBlockdevInstance] at hnone
    rw [hw', lookupBlockdevInstance, Registry.add, List.findIdx?_append, hnone, List.findIdx?_singleton]
    simp [hcls, hinst]
  · have hk : (UInt32.ofNat (i * 16) + UInt32.ofNat k).toNat = i * 16 + k := by
      rw [word_add, hid, UInt32.toNat_ofNat']
      omega
    have hnone := h.lookup_none blockdevIdeMajor (x := UInt32.ofNat (i * 16) + UInt32.ofNat k) (by omega)
    rw [lookupBlockdevInstance, List.findIdx?_eq_none_iff] at hnone
    rw [hw', lookupBlockdevInstance, List.findIdx?_eq_none_iff]
    intro c hc
    rcases List.mem_append.mp hc with hold | hnew
    · exact hnone c hold
    · rw [List.mem_singleton.mp hnew]
      apply decide_eq_false
      rintro ⟨-, heq⟩
      have := congrArg UInt32.toNat (hinst.symm.trans heq)
      omega

section

variable {disk : Nat → Disk} {garbage : Nat → Bytes} {devices : Nat → IdeDevice}

theorem ideRegisterDevice_names {w : BlockWorld} {i : Nat} (hi : i < 4) (h : Tidy w.registry (i * 16) w.nextBuffer) :
    ∃ w', ideRegisterDevice disk garbage devices w i = some w' ∧
      Tidy w'.registry ((i + 1) * 16) w'.nextBuffer ∧
      (RightNames w'.strings w'.registry ↔ RightNames w.strings w.registry ∧
        ((devices i).type = .harddisk → (devices i).blocks ≠ 0 → OneName (disk i 0))) := by
  have hfits : (hdName i).take (4 - 1) = hdName i := rfl
  have hid : (UInt32.ofNat (i * 16)).toNat = i * 16 := by
    rw [UInt32.toNat_ofNat']
    omega
  have hlookup := h.lookup_none blockdevIdeMajor (Nat.le_of_eq hid.symm)
  -- an unregistered device only leaves a buffer behind
  have hkeep : ∀ strings, strings = Function.update w.strings w.nextBuffer (hdName i) →
      ((devices i).type = .harddisk → (devices i).blocks ≠ 0 → OneName (disk i 0)) →
      Tidy w.registry ((i + 1) * 16) (w.nextBuffer + 1) ∧ (RightNames strings w.registry ↔
        RightNames w.strings w.registry ∧
          ((devices i).type = .harddisk → (devices i).blocks ≠ 0 → OneName (disk i 0))) := by
    rintro strings rfl hslot
    refine ⟨h.mono (by omega) (Nat.le_succ _), ?_⟩
    rw [and_iff_left hslot]
    apply rightNames_congr
    intro e he
    exact Function.update_of_ne (Nat.ne_of_lt (h.names e he)) _ _
  by_cases htype : (devices i).type = .harddisk
  · rw [ideRegisterDevice]
    dsimp only [BlockWorld.kmallocName, BlockWorld.snprintf]
    rw [if_pos htype, blockdevRegisterDisk_ide hlookup, hfits]
    by_cases hblocks : (devices i).blocks = 0
    · obtain ⟨htidy, hright⟩ := hkeep _ rfl fun _ hne => absurd hblocks hne
      rw [if_pos hblocks]
      exact ⟨_, if_pos (show (-EINVAL : Int) ≠ OK by decide), htidy, hright⟩
    · rw [if_neg hblocks]
      dsimp only
      rw [if_neg (not_not.mpr rfl)]
      generalize hb : (⟨512, (devices i).blocks, none, 0, blockdevIdeMajor, UInt32.ofNat (i * 16), i⟩ :
        BlockdevInstance) = b
      have hinst : b.deviceInstance.toNat = i * 16 := by rw [← hb, hid]
      generalize hw₁ : (⟨w.registry.add w.nextBuffer b, Function.update w.strings w.nextBuffer (hdName i),
        w.nextBuffer + 1⟩ : BlockWorld) = w₁
      have hreg₁ : w₁.registry = w.registry.add w.nextBuffer b := by rw [← hw₁]
      have hstr₁ : w₁.strings = Function.update w.strings w.nextBuffer (hdName i) := by rw [← hw₁]
      have hbuf₁ : w₁.nextBuffer = w.nextBuffer + 1 := by rw [← hw₁]
      have hname₁ : w₁.strings w.nextBuffer = hdName i := by rw [hstr₁, Function.update_self]
      have hpos : 0 < (devices i).blocks.toNat :=
        Nat.pos_of_ne_zero fun hz => hblocks (UInt64.toNat_inj.mp hz)
      have hscan := scannable_add hi h w.nextBuffer (by rw [← hb]) (by rw [← hb]) (by rw [← hb])
        (by rw [← hb]; exact hpos) (by rw [← hb]) hreg₁
      obtain ⟨w', parts, hw', hreg, hsorted, hrange, hbuf, hother, hnames⟩ := @partDetect_names _ _ _ _ _ disk
        (garbage i) hscan w.nextBuffer (by rw [hbuf₁]; exact Nat.ne_of_lt (Nat.lt_succ_self _)) (by rw [hname₁]; rfl)
      have hdata : b.customData = i := by rw [← hb]
      have hbs : ideBlkSize.toUInt32 = b.blockSize := by rw [← hb]; rfl
      rw [hbs, hw']
      rw [hbuf₁] at hother hnames
      rw [hname₁, hdata] at hnames
      refine ⟨w', rfl, ?_⟩
      obtain ⟨hadd, hright⟩ := @Tidy.add _ _ _ w'.strings (h.mono (Nat.le_refl _) (Nat.le_add_right _ 2)) w.nextBuffer b
        (by omega) (Nat.le_of_eq hinst.symm) (by omega)
      rw [hinst] at hadd
      obtain ⟨htidy, hparts⟩ := @Tidy.addParts (scanArgs w₁ disk blockdevIdeMajor (UInt32.ofNat (i * 16)) w.nextBuffer
        w.registry.instances.length b) i (w.nextBuffer + 2) w'.strings hi rfl
        (by show w₁.nextBuffer < _; omega) parts _ _ hadd (by omega) hsorted
        fun s hs => by have := hrange s hs; omega
      rw [hreg₁] at hreg
      rw [← hreg] at htidy hparts
      refine ⟨by rw [hbuf, hbuf₁]; convert htidy using 1; omega, hparts.trans ?_⟩
      have hold : RightNames w'.strings w.registry ↔ RightNames w.strings w.registry := by
        apply rightNames_congr
        intro e he
        have hlt := h.names e he
        rw [hother e.name (by omega), hstr₁, Function.update_of_ne (Nat.ne_of_lt hlt)]
      have hdisk : w'.strings w.nextBuffer = b.ownName := by
        rw [hother w.nextBuffer (by omega), hname₁, BlockdevInstance.ownName, hinst, ownName_disk]
      have hall : (∀ s ∈ parts, w'.strings w₁.nextBuffer = ownName (i * 16 + s.number)) ↔ OneName (disk i 0) := by
        rw [← hnames]
        constructor
        · intro hall s hs
          rw [← hbuf₁, hall s hs, ownName_partition (hrange s hs)]
        · intro hall s hs
          rw [hbuf₁, hall s hs, ownName_partition (hrange s hs)]
      rw [hright, hold, and_iff_left hdisk]
      show RightNames w.strings w.registry ∧ (∀ s ∈ parts, w'.strings w₁.nextBuffer = _) ↔ _
      rw [hall]
      constructor
      · exact fun hr => ⟨hr.1, fun _ _ => hr.2⟩
      · exact fun hr => ⟨hr.1, hr.2 htype hblocks⟩
  · rw [ideRegisterDevice]
    dsimp only [BlockWorld.kmallocName, BlockWorld.snprintf]
    rw [if_neg htype, hfits]
    obtain ⟨htidy, hright⟩ := hkeep _ rfl fun hdisk => absurd hdisk htype
    exact ⟨_, rfl, htidy, hright⟩

/-- The devices before the `n`-th. -/
theorem ideRegisterDevices_fold (n : Nat) (hn : n ≤ 4) :
    ∃ w, (List.range n).foldlM (ideRegisterDevice disk garbage devices) {} = some w ∧
      Tidy w.registry (n * 16) w.nextBuffer ∧
      (RightNames w.strings w.registry ↔
        ∀ i < n, (devices i).type = .harddisk → (devices i).blocks ≠ 0 → OneName (disk i 0)) := by
  induction n with
  | zero =>
    refine ⟨{}, rfl, ⟨rfl, ?_, ?_, List.nodup_nil, Nat.le_refl _⟩, ?_⟩
    · exact fun e he => absurd he List.not_mem_nil
    · exact fun b hb => absurd hb List.not_mem_nil
    · exact ⟨fun _ i hi => absurd hi (Nat.not_lt_zero i), fun _ d b e hd => by cases hd⟩
  | succ n ih =>
    obtain ⟨w, hw, htidy, hright⟩ := ih (Nat.le_of_succ_le hn)
    obtain ⟨w', hw', htidy', hright'⟩ := @ideRegisterDevice_names disk garbage devices w n hn htidy
    refine ⟨w', ?_, htidy', ?_⟩
    · rw [List.range_succ, List.foldlM_append, hw, Option.bind_eq_bind, Option.bind_some, List.foldlM_cons, hw']
      rfl
    · rw [hright', hright, Nat.forall_lt_succ_right]

/-- **Every device is found under its own name** exactly if each registered disk has at most one entry that is registered,
the last that is not empty, and no extended partition that is followed. -/
theorem ideRegisterDevices_names (disk : Nat → Disk) (garbage : Nat → Bytes) (devices : Nat → IdeDevice) :
    ∃ w, ideRegisterDevices disk garbage devices = some w ∧
      (NamesAttached w ↔
        ∀ i < 4, (devices i).type = .harddisk → (devices i).blocks ≠ 0 → OneName (disk i 0)) := by
  obtain ⟨w, hw, htidy, hright⟩ := @ideRegisterDevices_fold disk garbage devices 4 (Nat.le_refl _)
  exact ⟨w, hw, (namesAttached_iff htidy (Nat.le_refl _)).trans hright⟩

end

/-- Two primary partitions: both entries carry the name of the second one, and the first is not found. -/
theorem ideRegisterDevices_sharedName :
    ∃ w, ideRegisterDevices (fun _ _ => table [⟨0x83, 1, 99⟩, ⟨0x83, 100, 100⟩]) (fun _ _ => 0)
        (fun i => ⟨if i = 0 then .harddisk else .none, 200⟩) = some w ∧
      findDriver w (hdName 0 ++ decimal 1) = none ∧ ¬ NamesAttached w := by
  obtain ⟨w, hw⟩ : ∃ w, ideRegisterDevices (fun _ _ => table [⟨0x83, 1, 99⟩, ⟨0x83, 100, 100⟩]) (fun _ _ => 0)
      (fun i => ⟨if i = 0 then .harddisk else .none, 200⟩) = some w := by
    obtain ⟨w, hw, -⟩ := @ideRegisterDevices_fold (fun _ _ => table [⟨0x83, 1, 99⟩, ⟨0x83, 100, 100⟩]) (fun _ _ => 0)
      (fun i => ⟨if i = 0 then .harddisk else .none, 200⟩) 4 (Nat.le_refl _)
    exact ⟨w, hw⟩
  have hvalue : ((ideRegisterDevices (fun _ _ => table [⟨0x83, 1, 99⟩, ⟨0x83, 100, 100⟩]) (fun _ _ => 0)
      (fun i => ⟨if i = 0 then .harddisk else .none, 200⟩)).all fun w =>
        (findDriver w (hdName 0 ++ decimal 1)).isNone &&
          w.registry.instances[1]?.any fun b => b.ownName == hdName 0 ++ decimal 1) = true := by
    decide +kernel
  rw [hw, Option.all_some, Bool.and_eq_true, Option.isNone_iff_eq_none] at hvalue
  refine ⟨w, hw, hvalue.1, fun h => ?_⟩
  obtain ⟨b, hb, hname⟩ := (Option.any_eq_true _ _).mp hvalue.2
  obtain ⟨e, he, -⟩ := h.found 1 b hb
  rw [eq_of_beq hname, hvalue.1] at he
  cases he

end Desiros.Block
