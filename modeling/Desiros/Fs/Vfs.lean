import Mathlib.Data.List.TakeWhile
import Mathlib.Data.UInt

/-!
# Paths and mounted file systems (`vfs.c`)

`open_namei` looks for the file system mounted under the first component of a path and walks the other
components with the `lookup` callback of that file system. A dentry is what the file systems make it, and
instances are named by the order in which `kmalloc` returned them. A callback that never returns is `none`.
-/

namespace Desiros.Fs

variable {δ : Type*}

def slash : UInt8 := 47
def dot : UInt8 := 46
def enoent : Int := 2

/-- The callbacks of an instance that a path walk calls. -/
structure FsOps (δ : Type*) where
  getroot : δ
  lookup : δ → List UInt8 → Option (Option δ)

structure MountedFs where
  inst : Nat
  name : List UInt8
deriving DecidableEq, Repr

structure Nameidata (δ : Type*) where
  /-- `flags & LOOKUP_PARENT` -/
  parent : Bool
  dentry : δ
  /-- `none` is `mvfs`, the instance above all mounted ones. -/
  mnt : Option MountedFs
  last : List UInt8

/-- The next component, and the rest of the path. -/
def getNextPartPath (last : List UInt8) : List UInt8 × List UInt8 :=
  let last := last.dropWhile (· == slash)
  (last.takeWhile (· != slash), last.dropWhile (· != slash))

def getMntFromPath (mountList : List MountedFs) (name : List UInt8) : Option MountedFs :=
  mountList.find? fun aux => aux.name == name

/-- The loop of `lookup`; every turn takes at least a character off the path. -/
def lookupLoop (cb : δ → List UInt8 → Option (Option δ)) : Nat → Nameidata δ → Option (Int × Nameidata δ)
  | 0, nb => some (0, nb)
  | n + 1, nb =>
    if nb.last = [] then some (0, nb)
    else
      let (name, last) := getNextPartPath nb.last
      let nb := { nb with last := last }
      if name = [dot] then lookupLoop cb n nb
      else if nb.last = [] ∧ nb.parent = true then some (0, { nb with last := name })
      else
        match cb nb.dentry name with
        | none => none
        | some none => some (-1, nb)
        | some (some dentry) => lookupLoop cb n { nb with dentry := dentry }

def lookup (cb : δ → List UInt8 → Option (Option δ)) (nb : Nameidata δ) : Option (Int × Nameidata δ) :=
  lookupLoop cb nb.last.length nb

/-- The error, or the name resolved. No caller looks at `nb` after an error. -/
def openNamei (mountList : List MountedFs) (ops : Nat → FsOps δ) (rootVfs : δ) (parent : Bool)
    (pathname : List UInt8) : Option (Except Int (Nameidata δ)) :=
  let (name, last) := getNextPartPath pathname
  match getMntFromPath mountList name with
  | some mnt =>
    let nb : Nameidata δ := ⟨parent, (ops mnt.inst).getroot, some mnt, last⟩
    if last = [] ∧ parent = true then some (.ok nb)
    else (lookup (ops mnt.inst).lookup nb).map fun r => if r.1 = 0 then .ok r.2 else .error r.1
  | none =>
    if pathname.length ≤ 1 then some (.ok ⟨parent, rootVfs, none, last⟩)
    else some (.error (-2))

theorem getNextPartPath_length_lt {last : List UInt8} (h : last ≠ []) :
    (getNextPartPath last).2.length < last.length := by
  unfold getNextPartPath
  dsimp only
  have hdrop : (last.dropWhile (· == slash)).length ≤ last.length := (List.dropWhile_suffix _).length_le
  cases hl : last.dropWhile (· == slash) with
  | nil =>
    rw [List.dropWhile_nil]
    exact List.length_pos_of_ne_nil h
  | cons c cs =>
    have hc : (c != slash) = true := by
      have hhead := List.head?_dropWhile_not (p := (· == slash)) last
      rw [hl, List.head?_cons] at hhead
      simpa using hhead
    rw [hl] at hdrop
    have htail : (c :: cs).dropWhile (· != slash) = cs.dropWhile (· != slash) := List.dropWhile_cons_of_pos hc
    rw [htail]
    have hsuffix : (cs.dropWhile (· != slash)).length ≤ cs.length := (List.dropWhile_suffix _).length_le
    rw [List.length_cons] at hdrop
    omega

/-- `lookup` stays on the mounted file system. -/
theorem lookupLoop_mnt {cb : δ → List UInt8 → Option (Option δ)} : ∀ {n : Nat} {nb nb' : Nameidata δ} {r : Int},
    lookupLoop cb n nb = some (r, nb') → nb'.mnt = nb.mnt := by
  intro n
  induction n with
  | zero =>
    intro nb nb' r h
    obtain ⟨-, rfl⟩ := Prod.mk.inj (Option.some.inj h)
    rfl
  | succ n ih =>
    intro nb nb' r h
    unfold lookupLoop at h
    dsimp only at h
    split_ifs at h with hend hdot hlast
    · obtain ⟨-, rfl⟩ := Prod.mk.inj (Option.some.inj h)
      rfl
    · exact @ih { nb with last := (getNextPartPath nb.last).2 } nb' r h
    · obtain ⟨-, rfl⟩ := Prod.mk.inj (Option.some.inj h)
      rfl
    · cases hcb : cb nb.dentry (getNextPartPath nb.last).1 with
      | none =>
        rw [hcb] at h
        cases h
      | some found =>
        rw [hcb] at h
        cases found with
        | none =>
          obtain ⟨-, rfl⟩ := Prod.mk.inj (Option.some.inj h)
          rfl
        | some d => exact @ih { nb with last := (getNextPartPath nb.last).2, dentry := d } nb' r h

/-- Where the whole path is found, so is what stands in front of its last component. -/
theorem lookupLoop_shorter {cb : δ → List UInt8 → Option (Option δ)} : ∀ {n : Nat} {nb nb' : Nameidata δ},
    lookupLoop cb n { nb with parent := false } = some (0, nb') →
      ∃ nb'', lookupLoop cb n { nb with parent := true } = some (0, nb'') := by
  intro n
  induction n with
  | zero => exact fun _ => ⟨_, rfl⟩
  | succ n ih =>
    intro nb nb' h
    unfold lookupLoop at h ⊢
    dsimp only at h ⊢
    by_cases hend : nb.last = []
    · rw [if_pos hend]
      exact ⟨_, rfl⟩
    · rw [if_neg hend] at h ⊢
      by_cases hdot : (getNextPartPath nb.last).1 = [dot]
      · rw [if_pos hdot] at h ⊢
        exact @ih { nb with last := (getNextPartPath nb.last).2 } nb' h
      · rw [if_neg hdot] at h ⊢
        by_cases hlast : (getNextPartPath nb.last).2 = []
        · rw [if_pos ⟨hlast, rfl⟩]
          exact ⟨_, rfl⟩
        · rw [if_neg fun hand => hlast hand.1] at h ⊢
          cases hcb : cb nb.dentry (getNextPartPath nb.last).1 with
          | none =>
            rw [hcb] at h
            cases h
          | some found =>
            rw [hcb] at h
            cases found with
            | none => cases h
            | some d => exact @ih { nb with last := (getNextPartPath nb.last).2, dentry := d } nb' h

/-- The file system that `open_namei` takes is the one with the name of the first component. -/
theorem openNamei_mnt {mountList : List MountedFs} {ops : Nat → FsOps δ} {rootVfs : δ} {parent : Bool}
    {path : List UInt8} {nb : Nameidata δ} (h : openNamei mountList ops rootVfs parent path = some (.ok nb)) :
    nb.mnt = getMntFromPath mountList (getNextPartPath path).1 := by
  unfold openNamei at h
  dsimp only at h
  cases hmnt : getMntFromPath mountList (getNextPartPath path).1 with
  | none =>
    rw [hmnt] at h
    dsimp only at h
    split_ifs at h
    · cases h
      rfl
    · cases h
  | some mnt =>
    rw [hmnt] at h
    dsimp only at h
    split_ifs at h
    · cases h
      rfl
    · obtain ⟨⟨r, nb'⟩, hr, heq⟩ := Option.map_eq_some_iff.mp h
      have hstays := lookupLoop_mnt hr
      dsimp only at heq
      split_ifs at heq
      cases heq
      exact hstays

theorem openNamei_shorter {mountList : List MountedFs} {ops : Nat → FsOps δ} {rootVfs : δ} {path : List UInt8}
    {nb : Nameidata δ} (h : openNamei mountList ops rootVfs false path = some (.ok nb)) :
    ∃ nb', openNamei mountList ops rootVfs true path = some (.ok nb') := by
  unfold openNamei at h ⊢
  dsimp only at h ⊢
  cases hmnt : getMntFromPath mountList (getNextPartPath path).1 with
  | none =>
    rw [hmnt] at h
    dsimp only at h ⊢
    split_ifs at h with hlen
    · rw [if_pos hlen]
      exact ⟨_, rfl⟩
    · cases h
  | some mnt =>
    rw [hmnt] at h
    dsimp only at h ⊢
    rw [if_neg fun hand => Bool.false_ne_true hand.2] at h
    by_cases hlast : (getNextPartPath path).2 = []
    · rw [if_pos ⟨hlast, rfl⟩]
      exact ⟨_, rfl⟩
    · rw [if_neg fun hand => hlast hand.1]
      obtain ⟨⟨r, nb'⟩, hr, heq⟩ := Option.map_eq_some_iff.mp h
      dsimp only at heq
      split_ifs at heq with hzero
      subst hzero
      obtain ⟨nb'', hparent⟩ := @lookupLoop_shorter _ _ _
        (⟨false, (ops mnt.inst).getroot, some mnt, (getNextPartPath path).2⟩ : Nameidata δ) _ hr
      refine ⟨nb'', ?_⟩
      unfold lookup
      rw [hparent]
      rfl

/-! ## The last component -/

/-- The lookup of a single component. -/
def lookupLast (cb : δ → List UInt8 → Option (Option δ)) (nb : Nameidata δ) : Option (Int × Nameidata δ) :=
  match cb nb.dentry nb.last with
  | none => none
  | some none => some (-1, { nb with last := [] })
  | some (some dentry) => some (0, { nb with last := [], dentry := dentry })

/-- A component that a path can leave: not empty, without slashes, and not `.`. -/
structure Component (name : List UInt8) : Prop where
  nonempty : name ≠ []
  slash : slash ∉ name
  dot : name ≠ [dot]

theorem getNextPartPath_component {name : List UInt8} (h : Component name) : getNextPartPath name = (name, []) := by
  have hne : ∀ c ∈ name, (c != slash) = true := fun c hc => bne_iff_ne.mpr fun heq => h.slash (heq ▸ hc)
  have hskip : name.dropWhile (· == slash) = name := by
    cases name with
    | nil => rfl
    | cons c cs => exact List.dropWhile_cons_of_neg (by simpa using hne c List.mem_cons_self)
  unfold getNextPartPath
  dsimp only
  rw [hskip, List.takeWhile_eq_self_iff.mpr hne, List.dropWhile_eq_nil_iff.mpr hne]

/-- One turn of the loop looks the component up. -/
theorem lookup_component {cb : δ → List UInt8 → Option (Option δ)} {nb : Nameidata δ} (hparent : nb.parent = false)
    (h : Component nb.last) : lookup cb nb = lookupLast cb nb := by
  have hend : ∀ n (nb : Nameidata δ), nb.last = [] → lookupLoop cb n nb = some (0, nb) := by
    intro n nb hnil
    cases n with
    | zero => rfl
    | succ n =>
      unfold lookupLoop
      rw [if_pos hnil]
  obtain ⟨n, hn⟩ := Nat.exists_eq_add_one_of_ne_zero (List.length_pos_of_ne_nil h.nonempty).ne'
  unfold lookup lookupLast
  rw [hn, lookupLoop, if_neg h.nonempty, getNextPartPath_component h]
  dsimp only
  rw [if_neg h.dot, if_neg fun hand => Bool.false_ne_true (hparent.symm.trans hand.2)]
  cases cb nb.dentry nb.last with
  | none => rfl
  | some found =>
    cases found with
    | none => rfl
    | some d => exact hend n _ rfl

/-- What `lookup` leaves with `LOOKUP_PARENT` is what it looks up last without. -/
theorem lookupLoop_last {cb : δ → List UInt8 → Option (Option δ)} : ∀ {n : Nat} {nb nb' : Nameidata δ},
    nb.last.length ≤ n → lookupLoop cb n { nb with parent := true } = some (0, nb') → nb'.last ≠ [] →
      Component nb'.last ∧
        lookupLoop cb n { nb with parent := false } = lookupLast cb { nb' with parent := false } := by
  intro n
  induction n with
  | zero =>
    intro nb nb' hlen h hlast
    obtain ⟨-, rfl⟩ := Prod.mk.inj (Option.some.inj h)
    exact absurd (List.length_eq_zero_iff.mp (Nat.le_zero.mp hlen)) hlast
  | succ n ih =>
    intro nb nb' hlen h hlast
    unfold lookupLoop at h ⊢
    dsimp only at h ⊢
    by_cases hend : nb.last = []
    · rw [if_pos hend] at h
      obtain ⟨-, rfl⟩ := Prod.mk.inj (Option.some.inj h)
      exact absurd hend hlast
    · have hlt := getNextPartPath_length_lt hend
      rw [if_neg hend] at h ⊢
      by_cases hdot : (getNextPartPath nb.last).1 = [dot]
      · rw [if_pos hdot] at h ⊢
        exact @ih { nb with last := (getNextPartPath nb.last).2 } nb' (by dsimp only; omega) h hlast
      · rw [if_neg hdot] at h ⊢
        by_cases hrest : (getNextPartPath nb.last).2 = []
        · rw [if_pos ⟨hrest, rfl⟩] at h
          obtain ⟨-, rfl⟩ := Prod.mk.inj (Option.some.inj h)
          refine ⟨⟨hlast, fun hmem => ?_, hdot⟩, ?_⟩
          · have hin := List.mem_takeWhile_imp hmem
            simp at hin
          · rw [if_neg fun hand => Bool.false_ne_true hand.2, hrest]
            unfold lookupLast
            dsimp only
            cases cb nb.dentry (getNextPartPath nb.last).1 with
            | none => rfl
            | some found =>
              cases found with
              | none => rfl
              | some d =>
                cases n with
                | zero => rfl
                | succ n => rfl
        · rw [if_neg fun hand => hrest hand.1] at h ⊢
          cases hcb : cb nb.dentry (getNextPartPath nb.last).1 with
          | none =>
            rw [hcb] at h
            cases h
          | some found =>
            rw [hcb] at h
            cases found with
            | none => cases h
            | some d =>
              exact @ih { nb with last := (getNextPartPath nb.last).2, dentry := d } nb' (by dsimp only; omega) h hlast

/-- Where the parent of a path is found, the path is what its last component is there. -/
theorem openNamei_last {mountList : List MountedFs} {ops : Nat → FsOps δ} {rootVfs : δ} {path : List UInt8}
    {nb : Nameidata δ} {mnt : MountedFs} (h : openNamei mountList ops rootVfs true path = some (.ok nb))
    (hmnt : nb.mnt = some mnt) (hlast : nb.last ≠ []) : Component nb.last ∧
      openNamei mountList ops rootVfs false path = (lookupLast (ops mnt.inst).lookup { nb with parent := false }).map
        fun r => if r.1 = 0 then .ok r.2 else .error r.1 := by
  have hfirst := (openNamei_mnt h).symm.trans hmnt
  unfold openNamei at h ⊢
  dsimp only at h ⊢
  rw [hfirst] at h ⊢
  dsimp only at h ⊢
  by_cases hend : (getNextPartPath path).2 = []
  · rw [if_pos ⟨hend, rfl⟩] at h
    cases h
    exact absurd hend hlast
  · rw [if_neg fun hand => hend hand.1] at h
    rw [if_neg fun hand => hend hand.1]
    obtain ⟨⟨r, nb'⟩, hr, heq⟩ := Option.map_eq_some_iff.mp h
    dsimp only at heq
    split_ifs at heq with hzero
    cases heq
    subst hzero
    obtain ⟨hcomponent, hwhole⟩ := @lookupLoop_last _ _ _
      (⟨true, (ops mnt.inst).getroot, some mnt, (getNextPartPath path).2⟩ : Nameidata δ) _ le_rfl hr hlast
    refine ⟨hcomponent, ?_⟩
    unfold lookup
    rw [← hwhole]

/-- `lookup` stops at the end of the path. -/
theorem lookupLoop_of_length_le (cb : δ → List UInt8 → Option (Option δ)) : ∀ (n m : Nat) (nb : Nameidata δ),
    nb.last.length ≤ n → n ≤ m → lookupLoop cb m nb = lookupLoop cb n nb := by
  intro n
  induction n with
  | zero =>
    intro m nb hlen _
    have hlast : nb.last = [] := List.length_eq_zero_iff.mp (Nat.le_zero.mp hlen)
    cases m with
    | zero => rfl
    | succ m =>
      unfold lookupLoop
      rw [if_pos hlast]
  | succ n ih =>
    intro m nb hlen hm
    obtain ⟨m, rfl⟩ : ∃ k, m = k + 1 := ⟨m - 1, by omega⟩
    by_cases hlast : nb.last = []
    · unfold lookupLoop
      rw [if_pos hlast, if_pos hlast]
    · have hlt := getNextPartPath_length_lt hlast
      have hrest : ∀ d, lookupLoop cb m { nb with last := (getNextPartPath nb.last).2, dentry := d } =
          lookupLoop cb n { nb with last := (getNextPartPath nb.last).2, dentry := d } := by
        intro d
        apply ih m _ _ (by omega)
        show (getNextPartPath nb.last).2.length ≤ n
        omega
      have hsame := hrest nb.dentry
      unfold lookupLoop
      rw [if_neg hlast, if_neg hlast]
      dsimp only
      rw [hsame]
      split_ifs
      · rfl
      · rfl
      · cases cb nb.dentry (getNextPartPath nb.last).1 with
        | none => rfl
        | some r =>
          cases r with
          | none => rfl
          | some d => exact hrest d

end Desiros.Fs
