import Desiros.Fs.Vfs
import Desiros.Library.Runs

/-!
# Mounting and unmounting (`vfs.c`)

`vfs_mount` puts a new instance at the head of `mount_list`; `vfs_umount` calls the `umount` callback of the
first instance with the name, which frees it, and leaves the list as it is. `mounted` records what is mounted
and not since unmounted, `released` the instances freed and `stale` the accesses to them since; no function
reads them. `mount_always_iff` says along which runs the table is right.
-/

namespace Desiros.Fs

open Desiros.Library

variable {δ : Type*}

structure OpenFile (δ : Type*) where
  pathname : List UInt8
  dentry : δ
  mnt : Option MountedFs

/-- `file_system_t`: `umount` says whether there is such a callback. -/
structure FileSystem (δ : Type*) where
  name : List UInt8
  mount : Option (OpenFile δ) → FsOps δ
  umount : Bool

structure FsInstance (δ : Type*) where
  fs : FileSystem δ
  device : Option (OpenFile δ)
  ops : FsOps δ

structure MountTable (δ : Type*) where
  fsList : List (FileSystem δ)
  mountList : List MountedFs
  instances : Nat → FsInstance δ
  nextInstance : Nat
  rootVfs : δ
  /-- `root_vfs.d_inode->i_nlink`, an unsigned char. -/
  iNlink : UInt8
  initialNlink : Nat
  mounted : List MountedFs
  released : List Nat
  stale : List Nat

/-- An access to an instance. -/
def MountTable.use (s : MountTable δ) (i : Nat) : MountTable δ :=
  if i ∈ s.released then { s with stale := s.stale ++ [i] } else s

/-- `open_namei`, which uses the instance it finds. -/
def MountTable.openNamei (s : MountTable δ) (parent : Bool) (pathname : List UInt8) :
    Option (Except Int (Nameidata δ) × MountTable δ) :=
  let s' := match getMntFromPath s.mountList (getNextPartPath pathname).1 with
    | some mnt => s.use mnt.inst
    | none => s
  (Fs.openNamei s.mountList (fun i => (s.instances i).ops) s.rootVfs parent pathname).map fun r => (r, s')

/-- `vfs_open` with the flags `O_RDWR`. Of a path that leads to `mvfs` nothing is left for `lookup`. -/
def MountTable.vfsOpen (s : MountTable δ) (pathname : List UInt8) : Option (Option (OpenFile δ) × MountTable δ) :=
  match s.openNamei true pathname with
  | none => none
  | some (.error _, s) => some (none, s)
  | some (.ok nb, s) =>
    match nb.mnt with
    | none => some (some ⟨pathname, nb.dentry, none⟩, s)
    | some mnt =>
      (lookup (s.instances mnt.inst).ops.lookup { nb with parent := false }).map fun r =>
        if r.1 ≠ 0 then (none, s) else (some ⟨pathname, r.2.dentry, some mnt⟩, s)

/-- `element->instance` is the instance that `mount` makes of the device. -/
def MountTable.mountInstance (s : MountTable δ) (fs : FileSystem δ) (ofd : Option (OpenFile δ))
    (mountpoint : List UInt8) : MountTable δ :=
  { s with
    instances := Function.update s.instances s.nextInstance ⟨fs, ofd, fs.mount ofd⟩
    nextInstance := s.nextInstance + 1
    mountList := ⟨s.nextInstance, mountpoint⟩ :: s.mountList
    iNlink := s.iNlink + 1
    mounted := ⟨s.nextInstance, mountpoint⟩ :: s.mounted }

/-- The loop of `vfs_mount` over the file systems known. -/
def vfsMountLoop (device : Option (List UInt8)) (mountpoint type : List UInt8) :
    List (FileSystem δ) → Option (OpenFile δ) → MountTable δ → Option (MountTable δ)
  | [], _, s => some s
  | aux :: next, ofd, s =>
    if aux.name = type then
      match device with
      | none => vfsMountLoop device mountpoint type next ofd (s.mountInstance aux ofd mountpoint)
      | some path =>
        match s.vfsOpen path with
        | none => none
        | some (ofd, s) => vfsMountLoop device mountpoint type next ofd (s.mountInstance aux ofd mountpoint)
    else vfsMountLoop device mountpoint type next ofd s

/-- `none` if a callback does not return. -/
def vfsMount (s : MountTable δ) (device : Option (List UInt8)) (mountpoint type : List UInt8) :
    Option (MountTable δ) :=
  vfsMountLoop device mountpoint type s.fsList none s

/-- The `umount` callback of an instance, and the look at its device behind it. -/
def MountTable.callUmount (s : MountTable δ) (i : Nat) : MountTable δ :=
  let s := s.use i
  if (s.instances i).fs.umount then { s with released := s.released ++ [i] }.use i else s

def vfsUmount (s : MountTable δ) (mountpoint : List UInt8) : Int × MountTable δ :=
  match getMntFromPath s.mountList mountpoint with
  | some aux =>
    let s := s.callUmount aux.inst
    (0, { s with
      iNlink := s.iNlink - 1
      mounted := s.mounted.eraseP fun m => m.name == mountpoint })
  | none => (1, s)

/-! ## Any sequence of calls -/

inductive MountOp where
  | mount (device : Option (List UInt8)) (mountpoint type : List UInt8)
  | umount (mountpoint : List UInt8)
deriving DecidableEq, Repr

def mountStep (s : MountTable δ) : MountOp → MountTable δ
  | .mount device mountpoint type => (vfsMount s device mountpoint type).getD s
  | .umount mountpoint => (vfsUmount s mountpoint).2

/-- The call returns. -/
def MountReturns (s : MountTable δ) : MountOp → Prop
  | .mount device mountpoint type => (vfsMount s device mountpoint type).isSome
  | .umount _ => True

/-- What the table promises. -/
structure MountLaw (s : MountTable δ) : Prop where
  list : s.mountList = s.mounted
  /-- A path below a point where nothing is mounted does not resolve. -/
  unmounted : ∀ parent pathname, 1 < pathname.length →
    (∀ m ∈ s.mounted, m.name ≠ (getNextPartPath pathname).1) →
      ∃ e s', s.openNamei parent pathname = some (.error e, s')
  not_used : s.stale = []
  /-- A `vfs_umount` of a point where nothing is mounted. -/
  second : ∀ mountpoint, (∀ m ∈ s.mounted, m.name ≠ mountpoint) → vfsUmount s mountpoint = (1, s)
  nlink : s.iNlink.toNat = s.initialNlink + s.mounted.length

/-- How many file systems have the name. -/
def MountTable.typed (s : MountTable δ) (type : List UInt8) : Nat :=
  s.fsList.countP fun fs => fs.name = type

/-- No call unmounts anything, and the link count stays an unsigned char. -/
def OnlyMounts (s : MountTable δ) : MountOp → Prop
  | .mount _ _ type => s.initialNlink + s.mounted.length + s.typed type < 256
  | .umount mountpoint => getMntFromPath s.mountList mountpoint = none

/-! ## The invariant -/

structure MountInv (s : MountTable δ) : Prop where
  list : s.mountList = s.mounted
  released : s.released = []
  stale : s.stale = []
  nlink : s.iNlink.toNat = s.initialNlink + s.mounted.length

section

variable {s s' : MountTable δ} {mountpoint type : List UInt8}

theorem getMntFromPath_eq_none {l : List MountedFs} {name : List UInt8} :
    getMntFromPath l name = none ↔ ∀ m ∈ l, m.name ≠ name := by
  unfold getMntFromPath
  rw [List.find?_eq_none]
  simp only [beq_iff_eq]

theorem MountInv.law (h : MountInv s) : MountLaw s := by
  refine ⟨h.list, fun parent pathname hlen hnone => ?_, h.stale, fun mountpoint hnone => ?_, h.nlink⟩
  · rw [← h.list, ← getMntFromPath_eq_none] at hnone
    unfold MountTable.openNamei Fs.openNamei
    dsimp only
    rw [hnone]
    dsimp only
    rw [if_neg (by omega)]
    exact ⟨_, _, rfl⟩
  · rw [← h.list, ← getMntFromPath_eq_none] at hnone
    unfold vfsUmount
    rw [hnone]

/-- While no instance was released, using one leaves no trace. -/
theorem use_of_released_nil (h : s.released = []) (i : Nat) : s.use i = s := by
  unfold MountTable.use
  rw [h]
  exact if_neg List.not_mem_nil

theorem openNamei_state (h : s.released = []) {parent : Bool} {pathname : List UInt8}
    {r : Except Int (Nameidata δ)} (hr : s.openNamei parent pathname = some (r, s')) : s' = s := by
  unfold MountTable.openNamei at hr
  dsimp only at hr
  rw [Option.map_eq_some_iff] at hr
  obtain ⟨r', -, heq⟩ := hr
  have hstate := (Prod.mk.inj heq).2
  rw [← hstate]
  split
  · exact use_of_released_nil h _
  · rfl

theorem vfsOpen_state (h : s.released = []) {pathname : List UInt8} {r : Option (OpenFile δ)}
    (hr : s.vfsOpen pathname = some (r, s')) : s' = s := by
  unfold MountTable.vfsOpen at hr
  cases hopen : s.openNamei true pathname with
  | none =>
    rw [hopen] at hr
    cases hr
  | some res =>
    obtain ⟨res, s₁⟩ := res
    have hs₁ := openNamei_state h hopen
    rw [hopen, hs₁] at hr
    cases res with
    | error e =>
      exact (Prod.mk.inj (Option.some.inj hr)).2.symm
    | ok nb =>
      dsimp only at hr
      cases hmnt : nb.mnt with
      | none =>
        rw [hmnt] at hr
        exact (Prod.mk.inj (Option.some.inj hr)).2.symm
      | some mnt =>
        rw [hmnt] at hr
        dsimp only at hr
        rw [Option.map_eq_some_iff] at hr
        obtain ⟨r', -, heq⟩ := hr
        split_ifs at heq <;> exact (Prod.mk.inj heq).2.symm

/-- A loop over file systems of which `n` have the name adds `n` mounts to both lists. -/
structure Mounts (s s' : MountTable δ) (n : Nat) : Prop where
  added : ∃ ms : List MountedFs, ms.length = n ∧ s'.mountList = ms ++ s.mountList ∧ s'.mounted = ms ++ s.mounted
  released : s'.released = s.released
  stale : s'.stale = s.stale
  iNlink : s'.iNlink = s.iNlink + UInt8.ofNat n
  initialNlink : s'.initialNlink = s.initialNlink

theorem Mounts.succ {n : Nat} {fs : FileSystem δ} {ofd : Option (OpenFile δ)}
    (h : Mounts (s.mountInstance fs ofd mountpoint) s' n) : Mounts s s' (n + 1) := by
  obtain ⟨ms, hlen, hlist, hmounted⟩ := h.added
  refine ⟨⟨ms ++ [⟨s.nextInstance, mountpoint⟩], ?_, ?_, ?_⟩, h.released, h.stale, ?_, h.initialNlink⟩
  · rw [List.length_append, hlen, List.length_singleton]
  · rw [hlist, List.append_assoc]
    rfl
  · rw [hmounted, List.append_assoc]
    rfl
  · rw [h.iNlink, UInt8.ofNat_add]
    show s.iNlink + 1 + UInt8.ofNat n = s.iNlink + (UInt8.ofNat n + 1)
    rw [UInt8.add_comm (UInt8.ofNat n), UInt8.add_assoc]

theorem vfsMountLoop_mounts {device : Option (List UInt8)} : ∀ (l : List (FileSystem δ))
    (ofd : Option (OpenFile δ)) (s : MountTable δ), s.released = [] →
    vfsMountLoop device mountpoint type l ofd s = some s' →
      Mounts s s' (l.countP fun fs => fs.name = type) := by
  intro l
  induction l with
  | nil =>
    intro ofd s _ hloop
    rw [← Option.some.inj hloop]
    exact ⟨⟨[], rfl, rfl, rfl⟩, rfl, rfl, (UInt8.add_zero _).symm, rfl⟩
  | cons aux next ih =>
    intro ofd s hreleased hloop
    unfold vfsMountLoop at hloop
    rw [List.countP_cons]
    by_cases htype : aux.name = type
    · rw [if_pos htype] at hloop
      rw [if_pos (decide_eq_true htype)]
      cases device with
      | none =>
        dsimp only at hloop
        exact (ih ofd (s.mountInstance aux ofd mountpoint) hreleased hloop).succ
      | some path =>
        dsimp only at hloop
        cases hopen : s.vfsOpen path with
        | none =>
          rw [hopen] at hloop
          cases hloop
        | some r =>
          obtain ⟨ofd', s₁⟩ := r
          rw [hopen, vfsOpen_state hreleased hopen] at hloop
          dsimp only at hloop
          exact (ih ofd' (s.mountInstance aux ofd' mountpoint) hreleased hloop).succ
    · rw [if_neg htype] at hloop
      rw [if_neg (by simpa using htype)]
      exact ih ofd s hreleased hloop

theorem vfsMount_mounts (h : MountInv s) {device : Option (List UInt8)}
    (hreturns : MountReturns s (.mount device mountpoint type)) :
    Mounts s (mountStep s (.mount device mountpoint type)) (s.typed type) := by
  obtain ⟨s', hs'⟩ := Option.isSome_iff_exists.mp hreturns
  have hstep : mountStep s (.mount device mountpoint type) = s' := by
    show (vfsMount s device mountpoint type).getD s = s'
    rw [hs']
    rfl
  rw [hstep]
  exact vfsMountLoop_mounts s.fsList none s h.released hs'

theorem Mounts.length {n : Nat} (h : Mounts s s' n) : s'.mounted.length = n + s.mounted.length := by
  obtain ⟨ms, hlen, -, hmounted⟩ := h.added
  rw [hmounted, List.length_append, hlen]

/-- The link count after a call of `vfs_mount`, as a number. -/
theorem Mounts.toNat_iNlink {n : Nat} (h : Mounts s s' n) :
    s'.iNlink.toNat = (s.iNlink.toNat + n) % 256 := by
  rw [h.iNlink, UInt8.toNat_add, UInt8.toNat_ofNat']
  omega

theorem MountInv.step (h : MountInv s) {op : MountOp} (hreturns : MountReturns s op) (honly : OnlyMounts s op) :
    MountInv (mountStep s op) := by
  cases op with
  | mount device mountpoint type =>
    have hmounts := vfsMount_mounts h hreturns
    obtain ⟨ms, -, hlist, hmounted⟩ := hmounts.added
    have hlt : s.initialNlink + s.mounted.length + s.typed type < 256 := honly
    refine ⟨?_, hmounts.released.trans h.released, hmounts.stale.trans h.stale, ?_⟩
    · rw [hlist, hmounted, h.list]
    · rw [hmounts.toNat_iNlink, hmounts.initialNlink, hmounts.length, h.nlink, Nat.mod_eq_of_lt hlt]
      omega
  | umount mountpoint =>
    have hnone : getMntFromPath s.mountList mountpoint = none := honly
    have hsame : mountStep s (.umount mountpoint) = s := by
      show (vfsUmount s mountpoint).2 = s
      unfold vfsUmount
      rw [hnone]
    rw [hsame]
    exact h

/-- An unmounted point stays in the list; at 256 links the count is 0. -/
theorem MountInv.breaks (h : MountInv s) {op : MountOp} (hreturns : MountReturns s op) (honly : ¬ OnlyMounts s op) :
    ¬ MountLaw (mountStep s op) := by
  intro hlaw
  cases op with
  | mount device mountpoint type =>
    have hmounts := vfsMount_mounts h hreturns
    have hge : ¬ s.initialNlink + s.mounted.length + s.typed type < 256 := honly
    have hlt : (mountStep s (.mount device mountpoint type)).iNlink.toNat < 256 := UInt8.toNat_lt _
    have hnlink := hlaw.nlink
    rw [hmounts.initialNlink, hmounts.length] at hnlink
    omega
  | umount mountpoint =>
    have hfound : getMntFromPath s.mountList mountpoint ≠ none := honly
    obtain ⟨aux, haux⟩ := Option.ne_none_iff_exists'.mp hfound
    have hstep : (mountStep s (.umount mountpoint)).mountList = s.mountList ∧
        (mountStep s (.umount mountpoint)).mounted = s.mounted.eraseP fun m => m.name == mountpoint := by
      show (vfsUmount s mountpoint).2.mountList = _ ∧ (vfsUmount s mountpoint).2.mounted = _
      unfold vfsUmount
      rw [haux]
      dsimp only
      unfold MountTable.callUmount MountTable.use
      dsimp only
      split_ifs <;> exact ⟨rfl, rfl⟩
    have hmem : aux ∈ s.mounted := h.list ▸ List.mem_of_find?_eq_some haux
    have hname : (aux.name == mountpoint) = true :=
      @List.find?_some _ (fun m : MountedFs => m.name == mountpoint) aux s.mountList haux
    have hlength : (s.mounted.eraseP fun m => m.name == mountpoint).length = s.mounted.length - 1 :=
      List.length_eraseP_of_mem hmem hname
    have hpos : 0 < s.mounted.length := List.length_pos_of_mem hmem
    have hlist := congrArg List.length hlaw.list
    rw [hstep.1, hstep.2, h.list, hlength] at hlist
    omega

/-- **The mount table** is right in every state of a run exactly as long as no call unmounts anything and the
link count of the root stays below 256. -/
theorem mount_always_iff (s : MountTable δ) (hempty : s.mountList = [] ∧ s.mounted = [] ∧ s.released = [] ∧ s.stale = [])
    (hnlink : s.iNlink.toNat = s.initialNlink) (ops : List MountOp) (hreturns : Guarded mountStep MountReturns s ops) :
    Always mountStep MountLaw s ops ↔ Guarded mountStep OnlyMounts s ops := by
  obtain ⟨hlist, hmounted, hreleased, hstale⟩ := hempty
  have hinv : MountInv s := by
    refine ⟨hlist.trans hmounted.symm, hreleased, hstale, ?_⟩
    rw [hnlink, hmounted]
    rfl
  exact always_iff_guarded (fun _ h => h.law) (fun _ _ h hret honly => h.step hret honly)
    (fun _ _ h hret honly => h.breaks hret honly) ops s hinv hreturns

end

/-! ## A file system mounted and unmounted -/

/-- A file system `f` whose root has nothing in it. -/
def emptyFs : FileSystem Unit := ⟨[102], fun _ => ⟨(), fun _ _ => some none⟩, true⟩

def emptyTable : MountTable Unit where
  fsList := [emptyFs]
  mountList := []
  instances := fun _ => ⟨emptyFs, none, emptyFs.mount none⟩
  nextInstance := 0
  rootVfs := ()
  iNlink := 1
  initialNlink := 1
  mounted := []
  released := []
  stale := []

/-- The point `m` is unmounted: its instance is used after it is released, and it is still in the list. -/
theorem mount_umount_stays :
    Guarded mountStep MountReturns emptyTable [.mount none [109] [102], .umount [109]] ∧
      ¬ Always mountStep MountLaw emptyTable [.mount none [109] [102], .umount [109]] := by
  refine ⟨⟨rfl, trivial, trivial⟩, fun h => ?_⟩
  have hlaw : MountLaw (run mountStep emptyTable [.mount none [109] [102], .umount [109]]) := h.2.2
  exact absurd hlaw.not_used (by decide)

/-- Mounting `m` twice, and unmounting what is not mounted. -/
theorem mount_twice :
    Always mountStep MountLaw emptyTable [.mount none [109] [102], .mount none [109] [102], .umount [110]] ↔
      Guarded mountStep OnlyMounts emptyTable [.mount none [109] [102], .mount none [109] [102], .umount [110]] :=
  mount_always_iff emptyTable ⟨rfl, rfl, rfl, rfl⟩ rfl [.mount none [109] [102], .mount none [109] [102], .umount [110]]
    ⟨rfl, rfl, trivial, trivial⟩

end Desiros.Fs
