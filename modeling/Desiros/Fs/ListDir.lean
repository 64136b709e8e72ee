import Desiros.Block.Registry
import Desiros.Fs.Lookup
import Desiros.Fs.Vfs

/-!
# Listing mounts and devices (`vfs.c`, `fs/devfs.c`)

`vfs_readdir` and `devfs_readdir` write entries one behind the other into a buffer, and go on behind the last one in the
next call. `devfs_readdir` stops in front of an entry that does not fit, `vfs_readdir` behind it. `readdir_chunks` says
for which sequences of buffers each of them lists every name once.
-/

namespace Desiros.Fs

open Desiros.Library

/-! ## Entries -/

/-- The fields of a `struct dirent` that are written. `d_reclen` is 16 bits wide. -/
structure Dirent where
  dIno : Nat
  dReclen : Nat
  dName : List UInt8
deriving DecidableEq, Repr

/-- `sizeof(d->d_ino) + sizeof(d->d_reclen) + sizeof(d->d_type) + strlen(name) + 1` -/
def reclen (name : List UInt8) : Nat := 4 + 2 + 1 + name.length + 1

def dirent (name : List UInt8) : Dirent := ⟨1, reclen name % 65536, name⟩

/-- What a call returns, the entries it writes with their positions in the buffer, and the new `current_octet`. -/
structure ReaddirResult where
  retval : Int
  stores : List (Nat × Dirent)
  currentOctet : Nat

/-! ## Mounts -/

/-- The second loop of `vfs_readdir`: `count`, `c`, and what is written. -/
def vfsReaddirLoop (size : Nat) : List MountedFs → (count c : Nat) → Nat × Nat × List (Nat × Dirent)
  | [], count, c => (count, c, [])
  | aux :: rest, count, c =>
    if count < size then
      let d := dirent aux.name
      let r := vfsReaddirLoop size rest ((count + d.dReclen) % 2 ^ 32) (c + 1)
      (r.1, r.2.1, (count, d) :: r.2.2)
    else (count, c, [])

/-- The first loop goes `current_octet` mounts ahead. -/
def vfsReaddir (mountList : List MountedFs) (currentOctet size : Nat) : ReaddirResult :=
  let c := min currentOctet mountList.length
  let r := vfsReaddirLoop size (mountList.drop c) 0 c
  ⟨toInt r.1, r.2.2, r.2.1⟩

/-! ## Devices -/

/-- `driver_list`: the name in each slot that is used. -/
structure DriverTable where
  slots : List (Option (List UInt8))
  length_eq : slots.length = Block.maxDrivers

def DriverTable.names (t : DriverTable) : List (List UInt8) := t.slots.filterMap id

def devfsReaddirLoop (size : Nat) : List (Option (List UInt8)) → (count i : Nat) → Nat × Nat × List (Nat × Dirent)
  | [], count, i => (count, i, [])
  | slot :: rest, count, i =>
    if count < size then
      match slot with
      | none => devfsReaddirLoop size rest count (i + 1)
      | some name =>
        if count + reclen name > size then (count, i, [])
        else
          let d := dirent name
          let r := devfsReaddirLoop size rest (count + d.dReclen) (i + 1)
          (r.1, r.2.1, (count, d) :: r.2.2)
    else (count, i, [])

def devfsReaddir (table : DriverTable) (currentOctet size : Nat) : ReaddirResult :=
  let r := devfsReaddirLoop size (table.slots.drop currentOctet) 0 currentOctet
  ⟨r.1, r.2.2, r.2.1⟩

/-! ## Listings -/

/-- Whole entries one behind the other, from a position on. -/
def placed : Nat → List (List UInt8) → List (Nat × Dirent)
  | _, [] => []
  | pos, name :: names => (pos, ⟨1, reclen name, name⟩) :: placed (pos + reclen name) names

def totalLen (names : List (List UInt8)) : Nat := (names.map reclen).sum

/-- Successive calls with buffers of the given sizes: each lists the next names, whole and inside the buffer, and at
least one while there are any; behind the last name, calls return 0. -/
def Lists (readdir : Nat → Nat → ReaddirResult) : List (List UInt8) → Nat → List Nat → Prop
  | _, _, [] => True
  | names, octet, size :: sizes =>
    let r := readdir octet size
    ∃ now later, names = now ++ later ∧ r.stores = placed 0 now ∧ r.retval = totalLen now ∧ totalLen now ≤ size ∧
      (names ≠ [] → now ≠ []) ∧ Lists readdir later r.currentOctet sizes

/-- The names can be cut into one group for each buffer that fits into it, with lengths of 16 bits; `ends` says where
a group ends. -/
def Chunked (ends : (total size : Nat) → (later : List (List UInt8)) → Prop) : List (List UInt8) → List Nat → Prop
  | _, [] => True
  | names, size :: sizes => ∃ now later, names = now ++ later ∧ (∀ name ∈ now, reclen name < 65536) ∧
      totalLen now ≤ size ∧ ends (totalLen now) size later ∧ Chunked ends later sizes

/-- The group fills the buffer, or is the last one. -/
def EndsFull (total size : Nat) (later : List (List UInt8)) : Prop := later = [] ∨ total = size

/-- The next name does not fit. -/
def EndsBefore (total size : Nat) (later : List (List UInt8)) : Prop :=
  ∀ name ∈ later.head?, size < total + reclen name

section

variable {size count c i octet : Nat} {names now later : List (List UInt8)} {sizes : List Nat}

theorem reclen_pos (name : List UInt8) : 8 ≤ reclen name := by
  unfold reclen
  omega

@[simp] theorem totalLen_nil : totalLen [] = 0 := rfl

@[simp] theorem totalLen_cons (name : List UInt8) (names : List (List UInt8)) :
    totalLen (name :: names) = reclen name + totalLen names := rfl

theorem placed_length : ∀ (names : List (List UInt8)) (pos : Nat), (placed pos names).length = names.length := by
  intro names
  induction names with
  | nil => exact fun _ => rfl
  | cons name names ih => exact fun pos => congrArg (· + 1) (ih (pos + reclen name))

/-- A listed name has a length of 16 bits. -/
theorem dirent_eq (name : List UInt8) : dirent name = ⟨1, reclen name, name⟩ ↔ reclen name < 65536 := by
  unfold dirent
  rw [Dirent.mk.injEq]
  simp only [true_and, and_true]
  exact Nat.mod_eq_iff_lt (by decide)

/-! ## `vfs_readdir` -/

/-- A group that fills the buffer or is the last one is listed. -/
theorem vfsReaddirLoop_of_chunk (hsize : size < 2 ^ 31) : ∀ (aux : List MountedFs) (now later : List (List UInt8))
    (count c : Nat), aux.map MountedFs.name = now ++ later → (∀ name ∈ now, reclen name < 65536) →
      count + totalLen now ≤ size → EndsFull (count + totalLen now) size later →
      vfsReaddirLoop size aux count c = (count + totalLen now, c + now.length, placed count now) := by
  intro aux
  induction aux with
  | nil =>
    intro now later count c hsplit _ _ _
    obtain ⟨rfl, rfl⟩ := List.append_eq_nil_iff.mp hsplit.symm
    rfl
  | cons m aux ih =>
    intro now later count c hsplit hsmall hfits hends
    unfold vfsReaddirLoop
    cases now with
    | nil =>
      have hfull : count = size := by
        rcases hends with hlast | hfull
        · rw [hlast] at hsplit
          cases hsplit
        · exact hfull
      rw [if_neg (by omega)]
      rfl
    | cons name now =>
      rw [List.map_cons, List.cons_append, List.cons.injEq] at hsplit
      obtain ⟨rfl, hrest⟩ := hsplit
      rw [totalLen_cons] at hfits hends ⊢
      have hlen := reclen_pos m.name
      have hlt := hsmall m.name List.mem_cons_self
      have hd := (dirent_eq m.name).mpr hlt
      have hmod : (count + reclen m.name) % 2 ^ 32 = count + reclen m.name := Nat.mod_eq_of_lt (by omega)
      rw [if_pos (by omega), hd]
      dsimp only
      rw [hmod, ih now later _ (c + 1) hrest (fun n hn => hsmall n (List.mem_cons_of_mem _ hn)) (by omega)
        (by rwa [Nat.add_assoc]), Nat.add_assoc, Nat.add_assoc, Nat.add_comm 1]
      rfl

/-- A call that lists whole names inside the buffer has such a group. -/
theorem chunk_of_vfsReaddirLoop : ∀ (aux : List MountedFs) (now later : List (List UInt8)) (count c : Nat),
    aux.map MountedFs.name = now ++ later → (vfsReaddirLoop size aux count c).2.2 = placed count now →
      count + totalLen now ≤ size → size < 2 ^ 31 →
      (∀ name ∈ now, reclen name < 65536) ∧ EndsFull (count + totalLen now) size later := by
  intro aux
  induction aux with
  | nil =>
    intro now later count c hsplit _ _ _
    obtain ⟨rfl, rfl⟩ := List.append_eq_nil_iff.mp hsplit.symm
    exact ⟨fun _ h => absurd h List.not_mem_nil, .inl rfl⟩
  | cons m aux ih =>
    intro now later count c hsplit hstores hfits hsize
    unfold vfsReaddirLoop at hstores
    by_cases hroom : count < size
    · rw [if_pos hroom] at hstores
      cases now with
      | nil => cases hstores
      | cons name now =>
        rw [List.map_cons, List.cons_append, List.cons.injEq] at hsplit
        obtain ⟨rfl, hrest⟩ := hsplit
        obtain ⟨hfirst, hstores⟩ := List.cons.inj hstores
        have hd := (Prod.mk.inj hfirst).2
        have hlt := (dirent_eq m.name).mp hd
        rw [totalLen_cons] at hfits ⊢
        have hmod : (count + (dirent m.name).dReclen) % 2 ^ 32 = count + reclen m.name := by
          rw [hd]
          exact Nat.mod_eq_of_lt (by show count + reclen m.name < _; omega)
        rw [hmod] at hstores
        obtain ⟨hsmall, hends⟩ := ih now later _ (c + 1) hrest hstores (by omega) hsize
        rw [Nat.add_assoc] at hends
        refine ⟨fun n hn => ?_, hends⟩
        rcases List.mem_cons.mp hn with rfl | hn
        · exact hlt
        · exact hsmall n hn
    · rw [if_neg hroom] at hstores
      cases now with
      | nil => exact ⟨fun _ h => absurd h List.not_mem_nil, .inr (by rw [totalLen_nil] at hfits ⊢; omega)⟩
      | cons name now => cases hstores

/-- A call that goes on at mount `octet`. -/
theorem vfsReaddir_eq {mountList : List MountedFs} (hoctet : octet ≤ mountList.length)
    (hsplit : (mountList.drop octet).map MountedFs.name = now ++ later) (hsize : size < 2 ^ 31)
    (hsmall : ∀ name ∈ now, reclen name < 65536) (hfits : totalLen now ≤ size)
    (hends : EndsFull (totalLen now) size later) :
    vfsReaddir mountList octet size = ⟨totalLen now, placed 0 now, octet + now.length⟩ := by
  have hloop := vfsReaddirLoop_of_chunk hsize (mountList.drop octet) now later 0 octet hsplit hsmall
    (by rwa [Nat.zero_add]) (by rwa [Nat.zero_add])
  have hint : toInt (totalLen now) = totalLen now := if_pos (by omega)
  unfold vfsReaddir
  dsimp only
  rw [Nat.min_eq_left hoctet, hloop, Nat.zero_add, hint]

/-- A group of names that is not the last one has a name, where every name fits into a buffer. -/
theorem now_ne_nil (hlong : ∀ name ∈ names, reclen name ≤ size) (hsplit : names = now ++ later)
    (hends : EndsFull (totalLen now) size later ∨ EndsBefore (totalLen now) size later) (hnames : names ≠ []) :
    now ≠ [] := by
  rintro rfl
  cases later with
  | nil => exact hnames hsplit
  | cons name later =>
    have hle := hlong name (hsplit ▸ List.mem_cons_self)
    have hpos := reclen_pos name
    rw [totalLen_nil] at hends
    rcases hends with (hnil | hfull) | hbefore
    · cases hnil
    · omega
    · have hlt := hbefore name rfl
      omega

/-- The rest of the names, by the position behind the group. -/
theorem later_eq {names : List (List UInt8)} (h : names = now ++ later) : later = names.drop now.length := by
  rw [h, List.drop_left]

theorem vfsReaddir_lists (mountList : List MountedFs) : ∀ (sizes : List Nat) (octet : Nat),
    octet ≤ mountList.length →
    (∀ size ∈ sizes, size < 2 ^ 31 ∧ ∀ m ∈ mountList, reclen m.name ≤ size) →
    (Lists (vfsReaddir mountList) ((mountList.drop octet).map MountedFs.name) octet sizes ↔
      Chunked EndsFull ((mountList.drop octet).map MountedFs.name) sizes) := by
  intro sizes
  induction sizes with
  | nil => exact fun _ _ _ => Iff.rfl
  | cons size sizes ih =>
    intro octet hoctet hlong
    obtain ⟨hsize, hentries⟩ := hlong size List.mem_cons_self
    have hnext := fun now later (hsplit : (mountList.drop octet).map MountedFs.name = now ++ later) =>
      ih (octet + now.length)
        (by
          have hlen := congrArg List.length hsplit
          rw [List.length_map, List.length_drop, List.length_append] at hlen
          omega)
        fun s hs => hlong s (List.mem_cons_of_mem _ hs)
    have hlater : ∀ now later, (mountList.drop octet).map MountedFs.name = now ++ later →
        (mountList.drop (octet + now.length)).map MountedFs.name = later := by
      intro now later hsplit
      rw [later_eq hsplit, ← List.map_drop, List.drop_drop]
    constructor
    · rintro ⟨now, later, hsplit, hstores, -, hfits, -, hlists⟩
      have hstores : (vfsReaddirLoop size (mountList.drop octet) 0 octet).2.2 = placed 0 now := by
        rw [← hstores]
        unfold vfsReaddir
        rw [Nat.min_eq_left hoctet]
      obtain ⟨hsmall, hends⟩ := chunk_of_vfsReaddirLoop _ now later 0 octet hsplit hstores (by rwa [Nat.zero_add]) hsize
      rw [Nat.zero_add] at hends
      rw [vfsReaddir_eq hoctet hsplit hsize hsmall hfits hends, ← hlater now later hsplit] at hlists
      have hchunked := (hnext now later hsplit).mp hlists
      rw [hlater now later hsplit] at hchunked
      exact ⟨now, later, hsplit, hsmall, hfits, hends, hchunked⟩
    · rintro ⟨now, later, hsplit, hsmall, hfits, hends, hchunked⟩
      rw [← hlater now later hsplit] at hchunked
      have hlists := (hnext now later hsplit).mpr hchunked
      rw [hlater now later hsplit] at hlists
      have hnames : ∀ name ∈ (mountList.drop octet).map MountedFs.name, reclen name ≤ size := by
        intro name hname
        obtain ⟨m, hm, rfl⟩ := List.mem_map.mp hname
        exact hentries m (List.mem_of_mem_drop hm)
      refine ⟨now, later, hsplit, ?_, ?_, hfits, now_ne_nil hnames hsplit (.inl hends), ?_⟩ <;>
        rw [vfsReaddir_eq hoctet hsplit hsize hsmall hfits hends]
      exact hlists

/-! ## `devfs_readdir` -/

/-- A group of names in front of one that does not fit is listed, and the call ends in front of this name. -/
theorem devfsReaddirLoop_of_chunk : ∀ (slots : List (Option (List UInt8))) (now later : List (List UInt8))
    (count i : Nat), slots.filterMap id = now ++ later → (∀ name ∈ now, reclen name < 65536) →
      count + totalLen now ≤ size → EndsBefore (count + totalLen now) size later →
      ∃ k, devfsReaddirLoop size slots count i = (count + totalLen now, i + k, placed count now) ∧
        (slots.drop k).filterMap id = later := by
  intro slots
  induction slots with
  | nil =>
    intro now later count i hsplit _ _ _
    obtain ⟨rfl, rfl⟩ := List.append_eq_nil_iff.mp hsplit.symm
    exact ⟨0, rfl, rfl⟩
  | cons slot slots ih =>
    intro now later count i hsplit hsmall hfits hends
    unfold devfsReaddirLoop
    by_cases hroom : count < size
    swap
    · -- The buffer is full.
      have hnow : now = [] := by
        cases now with
        | nil => rfl
        | cons name now =>
          have hlen := reclen_pos name
          rw [totalLen_cons] at hfits
          omega
      subst hnow
      rw [if_neg hroom]
      exact ⟨0, rfl, hsplit⟩
    rw [if_pos hroom]
    cases slot with
    | none =>
      obtain ⟨k, hloop, hrest⟩ := ih now later count (i + 1) hsplit hsmall hfits hends
      refine ⟨k + 1, ?_, hrest⟩
      dsimp only
      rw [hloop, Nat.add_assoc, Nat.add_comm 1]
    | some name =>
      rw [List.filterMap_cons_some (rfl : id (some name) = some name)] at hsplit
      dsimp only
      cases now with
      | nil =>
        have hlater : later = name :: slots.filterMap id := hsplit.symm
        have hfull := hends name (by rw [hlater]; rfl)
        rw [totalLen_nil, Nat.add_zero] at hfull
        rw [if_pos hfull]
        exact ⟨0, rfl, hlater.symm⟩
      | cons name' now =>
        rw [List.cons_append, List.cons.injEq] at hsplit
        obtain ⟨rfl, hrest⟩ := hsplit
        rw [totalLen_cons] at hfits hends ⊢
        have hd := (dirent_eq name).mpr (hsmall name List.mem_cons_self)
        obtain ⟨k, hloop, hdrop⟩ := ih now later (count + reclen name) (i + 1) hrest
          (fun n hn => hsmall n (List.mem_cons_of_mem _ hn)) (by omega) (by rwa [Nat.add_assoc])
        refine ⟨k + 1, ?_, hdrop⟩
        rw [if_neg (by omega), hd]
        dsimp only
        rw [hloop, Nat.add_assoc, Nat.add_assoc, Nat.add_comm 1]
        rfl

/-- A call that lists whole names has such a group. -/
theorem chunk_of_devfsReaddirLoop : ∀ (slots : List (Option (List UInt8))) (now later : List (List UInt8))
    (count i : Nat), slots.filterMap id = now ++ later → (devfsReaddirLoop size slots count i).2.2 = placed count now →
      count + totalLen now ≤ size →
      (∀ name ∈ now, reclen name < 65536) ∧ EndsBefore (count + totalLen now) size later := by
  intro slots
  induction slots with
  | nil =>
    intro now later count i hsplit _ _
    obtain ⟨rfl, rfl⟩ := List.append_eq_nil_iff.mp hsplit.symm
    exact ⟨fun _ h => absurd h List.not_mem_nil, fun _ h => by cases h⟩
  | cons slot slots ih =>
    intro now later count i hsplit hstores hfits
    unfold devfsReaddirLoop at hstores
    by_cases hroom : count < size
    swap
    · rw [if_neg hroom] at hstores
      cases now with
      | nil =>
        refine ⟨fun _ h => absurd h List.not_mem_nil, fun name _ => ?_⟩
        have hlen := reclen_pos name
        omega
      | cons name now => cases hstores
    rw [if_pos hroom] at hstores
    cases slot with
    | none => exact ih now later count (i + 1) hsplit hstores hfits
    | some name =>
      rw [List.filterMap_cons_some (rfl : id (some name) = some name)] at hsplit
      dsimp only at hstores
      by_cases hfull : count + reclen name > size
      · rw [if_pos hfull] at hstores
        cases now with
        | nil =>
          refine ⟨fun _ h => absurd h List.not_mem_nil, fun n hn => ?_⟩
          have hlater : later = name :: slots.filterMap id := hsplit.symm
          rw [hlater] at hn
          obtain rfl := Option.some.inj hn
          exact hfull
        | cons name' now => cases hstores
      · rw [if_neg hfull] at hstores
        cases now with
        | nil => cases hstores
        | cons name' now =>
          rw [List.cons_append, List.cons.injEq] at hsplit
          obtain ⟨rfl, hrest⟩ := hsplit
          obtain ⟨hfirst, hstores⟩ := List.cons.inj hstores
          have hd := (Prod.mk.inj hfirst).2
          have hlt := (dirent_eq name).mp hd
          rw [hd] at hstores
          rw [totalLen_cons] at hfits ⊢
          obtain ⟨hsmall, hends⟩ := ih now later _ (i + 1) hrest hstores (by show count + reclen name + _ ≤ _; omega)
          have hsum : count + (reclen name + totalLen now) = count + reclen name + totalLen now := by omega
          rw [hsum]
          refine ⟨fun n hn => ?_, hends⟩
          rcases List.mem_cons.mp hn with rfl | hn
          · exact hlt
          · exact hsmall n hn

theorem devfsReaddir_lists (table : DriverTable) : ∀ (sizes : List Nat) (octet : Nat),
    (∀ size ∈ sizes, ∀ name ∈ table.names, reclen name ≤ size) →
    (Lists (devfsReaddir table) ((table.slots.drop octet).filterMap id) octet sizes ↔
      Chunked EndsBefore ((table.slots.drop octet).filterMap id) sizes) := by
  intro sizes
  induction sizes with
  | nil => exact fun _ _ => Iff.rfl
  | cons size sizes ih =>
    intro octet hlong
    have hcall : ∀ now later, (table.slots.drop octet).filterMap id = now ++ later →
        (∀ name ∈ now, reclen name < 65536) → totalLen now ≤ size → EndsBefore (totalLen now) size later →
        ∃ octet', devfsReaddir table octet size = ⟨totalLen now, placed 0 now, octet'⟩ ∧
          (table.slots.drop octet').filterMap id = later := by
      intro now later hsplit hsmall hfits hends
      rw [← Nat.zero_add (totalLen now)] at hfits hends
      obtain ⟨k, hloop, hrest⟩ :=
        devfsReaddirLoop_of_chunk (table.slots.drop octet) now later 0 octet hsplit hsmall hfits hends
      refine ⟨octet + k, ?_, by rwa [List.drop_drop] at hrest⟩
      unfold devfsReaddir
      rw [hloop, Nat.zero_add]
    have hrest := fun octet' => ih octet' fun s hs => hlong s (List.mem_cons_of_mem _ hs)
    constructor
    · rintro ⟨now, later, hsplit, hstores, -, hfits, -, hlists⟩
      obtain ⟨hsmall, hends⟩ := chunk_of_devfsReaddirLoop _ now later 0 octet hsplit hstores (by rwa [Nat.zero_add])
      rw [Nat.zero_add] at hends
      obtain ⟨octet', hresult, rfl⟩ := hcall now later hsplit hsmall hfits hends
      rw [hresult] at hlists
      exact ⟨now, _, hsplit, hsmall, hfits, hends, (hrest octet').mp hlists⟩
    · rintro ⟨now, later, hsplit, hsmall, hfits, hends, hchunked⟩
      obtain ⟨octet', hresult, rfl⟩ := hcall now later hsplit hsmall hfits hends
      have hnames : ∀ name ∈ (table.slots.drop octet).filterMap id, reclen name ≤ size := by
        intro name hname
        apply hlong size List.mem_cons_self
        obtain ⟨slot, hslot, heq⟩ := List.mem_filterMap.mp hname
        exact List.mem_filterMap.mpr ⟨slot, List.mem_of_mem_drop hslot, heq⟩
      refine ⟨now, _, hsplit, ?_, ?_, hfits, now_ne_nil hnames hsplit (.inr hends), ?_⟩ <;> rw [hresult]
      exact (hrest octet').mpr hchunked

/-- Names with lengths of 16 bits can always be cut in front of those that do not fit. -/
theorem chunked_before : ∀ (sizes : List Nat) (names : List (List UInt8)), (∀ name ∈ names, reclen name < 65536) →
    Chunked EndsBefore names sizes := by
  have hcut : ∀ (size : Nat) (names : List (List UInt8)) (total : Nat), total ≤ size → ∃ now later,
      names = now ++ later ∧ total + totalLen now ≤ size ∧ EndsBefore (total + totalLen now) size later := by
    intro size names
    induction names with
    | nil => exact fun total htotal => ⟨[], [], rfl, htotal, fun _ h => by cases h⟩
    | cons name names ih =>
      intro total htotal
      by_cases hfits : total + reclen name ≤ size
      · obtain ⟨now, later, hsplit, hle, hends⟩ := ih (total + reclen name) hfits
        rw [Nat.add_assoc] at hle hends
        exact ⟨name :: now, later, by rw [hsplit]; rfl, hle, hends⟩
      · refine ⟨[], name :: names, rfl, htotal, fun n hn => ?_⟩
        obtain rfl := Option.some.inj hn
        rw [totalLen_nil]
        omega
  intro sizes
  induction sizes with
  | nil => exact fun _ _ => trivial
  | cons size sizes ih =>
    intro names hsmall
    obtain ⟨now, later, rfl, hle, hends⟩ := hcut size names 0 (Nat.zero_le _)
    rw [Nat.zero_add] at hle hends
    exact ⟨now, later, rfl, fun n hn => hsmall n (List.mem_append_left _ hn), hle, hends,
      ih later fun n hn => hsmall n (List.mem_append_right _ hn)⟩

/-- **Listing by chunks**: `vfs_readdir` lists the mounts exactly if every buffer ends where an entry does or behind
the last one, `devfs_readdir` lists the used slots in all buffers, where entries have lengths of 16 bits. -/
theorem readdir_chunks (mountList : List MountedFs) (table : DriverTable) (sizes : List Nat) :
    ((∀ size ∈ sizes, size < 2 ^ 31 ∧ ∀ m ∈ mountList, reclen m.name ≤ size) →
      (Lists (vfsReaddir mountList) (mountList.map MountedFs.name) 0 sizes ↔
        Chunked EndsFull (mountList.map MountedFs.name) sizes)) ∧
    ((∀ size ∈ sizes, ∀ name ∈ table.names, reclen name ≤ size) →
      (Lists (devfsReaddir table) table.names 0 sizes ↔ Chunked EndsBefore table.names sizes) ∧
      ((∀ name ∈ table.names, reclen name < 65536) → Lists (devfsReaddir table) table.names 0 sizes)) := by
  refine ⟨fun hlong => ?_, fun hlong => ?_⟩
  · exact vfsReaddir_lists mountList sizes 0 (Nat.zero_le _) hlong
  · have hiff := devfsReaddir_lists table sizes 0 hlong
    exact ⟨hiff, fun hsmall => hiff.mpr (chunked_before sizes table.names hsmall)⟩

end

/-! ## Two mounts -/

/-- Two mounts with names of one letter, in entries of nine bytes. -/
def twoMounts : List MountedFs := [⟨1, [97]⟩, ⟨0, [98]⟩]

/-- With a buffer of ten bytes, the second entry is written behind its end. -/
theorem vfsReaddir_past_buffer :
    (vfsReaddir twoMounts 0 10).stores = [(0, ⟨1, 9, [97]⟩), (9, ⟨1, 9, [98]⟩)] ∧
    ¬ ∀ (mountList : List MountedFs) (sizes : List Nat),
      (∀ size ∈ sizes, size < 2 ^ 31 ∧ ∀ m ∈ mountList, reclen m.name ≤ size) →
      Lists (vfsReaddir mountList) (mountList.map MountedFs.name) 0 sizes := by
  have hstores : (vfsReaddir twoMounts 0 10).stores = [(0, ⟨1, 9, [97]⟩), (9, ⟨1, 9, [98]⟩)] := by decide
  refine ⟨hstores, fun hclaim => ?_⟩
  obtain ⟨now, later, hsplit, hplaced, -, hfits, -⟩ := hclaim twoMounts [10] (by decide)
  rw [hstores] at hplaced
  have hlength := congrArg List.length hplaced
  rw [placed_length] at hlength
  obtain ⟨x, y, rfl⟩ := List.length_eq_two.mp hlength.symm
  obtain ⟨rfl, hrest⟩ := List.cons.inj hsplit
  obtain ⟨rfl, -⟩ := List.cons.inj hrest
  exact absurd hfits (by decide)

/-- A buffer of nine bytes for each entry, and one more call. -/
theorem vfsReaddir_two_calls : Lists (vfsReaddir twoMounts) [[97], [98]] 0 [9, 9, 9] :=
  ((readdir_chunks twoMounts ⟨List.replicate Block.maxDrivers none, List.length_replicate⟩ [9, 9, 9]).1 (by decide)).mpr
    ⟨[[97]], [[98]], rfl, by decide, by decide, .inr rfl, [[98]], [], rfl, by decide, by decide, .inl rfl, [], [], rfl,
      by decide, by decide, .inl rfl, trivial⟩

end Desiros.Fs
