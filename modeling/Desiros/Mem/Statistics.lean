import Desiros.Mem.ResourceRefs
import Desiros.Mem.UnmapRefines
import Desiros.Mem.UvmmRuns

/-!
# Memory statistics (`mem/uvmm.c`)

Each address space counts the bytes of its arenas by their access rights, in total and for the shared ones.
`as_account_change_of_arena_prot` adjusts the counters wherever an arena appears, grows, shrinks or goes. For rights
that neither allow to read nor to write, but are not empty either, it takes the size off the read-only bytes in both
directions.

`Accounted` says that the counters are the sums over the arenas, in 32 bits. `uvmm_runs_statistics` keeps it over whole
runs whose mappings have other rights.
-/

namespace Desiros.Mem

open Desiros.Library

variable {W : Type}

/-! ## Counters and sums -/

deriving instance DecidableEq for VmField

def VmUsage.get (u : VmUsage) : VmField → UInt32
  | .overall => u.overall
  | .ro => u.ro
  | .rw => u.rw
  | .code => u.code

/-- A counter of `vm_shrd` or of `vm_total`. -/
def UvmmAs.counter (as : UvmmAs) (shared : Bool) (field : VmField) : UInt32 :=
  (if shared then as.vmShrd else as.vmTotal).get field

/-- The rights whose bytes a counter counts. -/
def VmField.counts (rights : UInt32) : VmField → Bool
  | .overall => rights != 0
  | .ro => hasFlag rights pRead && !hasFlag rights pWrite
  | .rw => hasFlag rights pWrite
  | .code => hasFlag rights pUser

/-- An arena whose bytes a counter counts. -/
def UvmmArena.counted (shared : Bool) (field : VmField) (a : UvmmArena) : Bool :=
  (!shared || hasFlag a.flags arenaMapShared) && field.counts a.accessRights

/-- What a counter counts of `size` bytes of an arena. -/
def UvmmArena.share (shared : Bool) (field : VmField) (a : UvmmArena) (size : UInt32) : UInt32 :=
  if a.counted shared field then size else 0

/-- The sum of the sizes in 32 bits. -/
def arenaSum (shared : Bool) (field : VmField) (l : List UvmmArena) : UInt32 :=
  (l.map fun a => a.share shared field a.size).sum

@[simp] theorem arenaSum_cons (shared : Bool) (field : VmField) (a : UvmmArena) (l : List UvmmArena) :
    arenaSum shared field (a :: l) = a.share shared field a.size + arenaSum shared field l := List.sum_cons

@[simp] theorem arenaSum_append (shared : Bool) (field : VmField) (l l' : List UvmmArena) :
    arenaSum shared field (l ++ l') = arenaSum shared field l + arenaSum shared field l' := by
  rw [arenaSum, List.map_append, List.sum_append]
  rfl

/-- Empty, or to read or write. -/
def RightsOk (rights : UInt32) : Prop :=
  rights = 0 ∨ hasFlag rights pRead = true ∨ hasFlag rights pWrite = true

/-- The claim on an address space: the counters are the sums of the sizes. -/
def StatisticsLaw (as : UvmmAs) : Prop :=
  ∀ shared field, (as.counter shared field).toNat =
    ((as.listArena.filter (·.counted shared field)).map fun a => a.size.toNat).sum

/-! ## One change -/

section

variable {shared : Bool} {field : VmField} {rights : UInt32}

theorem updateVmstat_counter (as : UvmmAs) (isShared : Bool) (size : UInt32) (field' : VmField) (increment : Bool) :
    (as.updateVmstat isShared size field' increment).counter shared field =
      if (!shared || isShared) ∧ field' = field then
        if increment then as.counter shared field + size else as.counter shared field - size
      else as.counter shared field := by
  cases shared <;> cases isShared <;> cases field <;> cases field' <;> rfl

theorem hasFlag_zero (flag : UInt32) : hasFlag 0 flag = false := by
  rw [hasFlag, UInt32.zero_and]
  rfl

theorem counts_zero (field : VmField) : field.counts 0 = false := by
  cases field <;> rfl

/-- Bytes of an arena are added. -/
theorem account_add (as : UvmmAs) {a : UvmmArena} (ha : RightsOk a.accessRights) (size : UInt32) :
    (asAccountChangeOfArenaProt as (hasFlag a.flags arenaMapShared) size 0 a.accessRights).counter shared field =
      as.counter shared field + a.share shared field size := by
  unfold asAccountChangeOfArenaProt UvmmArena.share UvmmArena.counted
  simp only [hasFlag_zero, Bool.not_false, Bool.and_true, Bool.and_false, if_false, Bool.false_eq_true]
  generalize hasFlag a.flags arenaMapShared = isShared
  by_cases hzero : a.accessRights = 0
  · rw [if_pos hzero.symm, hzero, counts_zero, Bool.and_false]
    exact (UInt32.add_zero _).symm
  · rw [if_neg (Ne.symm hzero)]
    have hor := ha.resolve_left hzero
    cases hw : hasFlag a.accessRights pWrite <;> cases hrd : hasFlag a.accessRights pRead <;>
      cases hu : hasFlag a.accessRights pUser <;> rw [hw, hrd] at hor <;>
      cases field <;> cases shared <;> cases isShared <;> simp_all [updateVmstat_counter, VmField.counts]

/-- Bytes of an arena are taken off. -/
theorem account_sub (as : UvmmAs) {a : UvmmArena} (ha : RightsOk a.accessRights) (size : UInt32) :
    (asAccountChangeOfArenaProt as (hasFlag a.flags arenaMapShared) size a.accessRights 0).counter shared field =
      as.counter shared field - a.share shared field size := by
  unfold asAccountChangeOfArenaProt UvmmArena.share UvmmArena.counted
  simp only [hasFlag_zero, Bool.not_false, Bool.true_and, Bool.false_and, if_false, Bool.false_eq_true]
  generalize hasFlag a.flags arenaMapShared = isShared
  by_cases hzero : a.accessRights = 0
  · rw [if_pos hzero, hzero, counts_zero, Bool.and_false]
    exact (UInt32.sub_zero _).symm
  · rw [if_neg hzero]
    have hor := ha.resolve_left hzero
    cases hw : hasFlag a.accessRights pWrite <;> cases hrd : hasFlag a.accessRights pRead <;>
      cases hu : hasFlag a.accessRights pUser <;> rw [hw, hrd] at hor <;>
      cases field <;> cases shared <;> cases isShared <;> simp_all [updateVmstat_counter, VmField.counts]

theorem counted_congr {a b : UvmmArena} (hflags : a.flags = b.flags) (hrights : a.accessRights = b.accessRights) :
    a.counted shared field = b.counted shared field := by
  rw [UvmmArena.counted, UvmmArena.counted, hflags, hrights]

theorem share_congr {a b : UvmmArena} (hflags : a.flags = b.flags) (hrights : a.accessRights = b.accessRights)
    (size : UInt32) : a.share shared field size = b.share shared field size := by
  rw [UvmmArena.share, UvmmArena.share, counted_congr hflags hrights]

theorem share_add (a : UvmmArena) (size size' : UInt32) :
    a.share shared field (size + size') = a.share shared field size + a.share shared field size' := by
  unfold UvmmArena.share
  split_ifs
  · rfl
  · rfl

end

/-! ## `uvmm_unmap` -/

section

variable {uaddr size : UInt32} {preId : Nat} {shared : Bool} {field : VmField}

theorem counter_congr {as as' : UvmmAs} (htotal : as'.vmTotal = as.vmTotal) (hshrd : as'.vmShrd = as.vmShrd) :
    as'.counter shared field = as.counter shared field := by
  rw [UvmmAs.counter, UvmmAs.counter, htotal, hshrd]

theorem removeArena_counter (E : UvmmEnv W) (s : UvmmState W) {a : UvmmArena} (ha : RightsOk a.accessRights) :
    (s.removeArena E a).addressSpace.counter shared field =
      s.addressSpace.counter shared field - a.share shared field a.size := account_sub s.addressSpace ha a.size

/-- What the counters lose, the arenas lose. -/
theorem unmapWalk_counter (E : UvmmEnv W) (l : List UvmmArena) : ∀ u : UnmapWalk W,
    (∀ a ∈ l, RightsOk a.accessRights) →
    (unmapWalk E uaddr size preId l u).2.state.addressSpace.counter shared field + arenaSum shared field l =
      u.state.addressSpace.counter shared field + arenaSum shared field (unmapWalk E uaddr size preId l u).1 := by
  induction l with
  | nil => exact fun u _ => rfl
  | cons a l ih =>
    intro u hrights
    obtain ⟨ha, hl⟩ := List.forall_mem_cons.mp hrights
    have htake : ∀ n, (asAccountChangeOfArenaProt u.state.addressSpace (hasFlag a.flags arenaMapShared) n
        a.accessRights 0).counter shared field = u.state.addressSpace.counter shared field - a.share shared field n :=
      fun n => account_sub u.state.addressSpace ha n
    rw [unmapWalk]
    split_ifs
    · rfl
    · rfl
    · have hrest := ih { u with state := u.state.removeArena E a } hl
      have hone := @removeArena_counter _ shared field E u.state a ha
      dsimp only at hrest
      rw [hone] at hrest
      rw [arenaSum_cons]
      grind
    · -- both parts of the arena stay
      have hparts : a.size = (uaddr - a.start) + (a.start + a.size - (uaddr + size)) + size := by grind
      have hshare := congrArg (a.share shared field) hparts
      rw [share_add, share_add] at hshare
      simp only [arenaSum_cons]
      refine (congrArg (· + _) (htake size)).trans ?_
      show _ = _ + (a.share shared field (uaddr - a.start) +
        (a.share shared field (a.start + a.size - (uaddr + size)) + arenaSum shared field l))
      grind
    · have hparts : a.size = (a.size - (uaddr + size - a.start)) + (uaddr + size - a.start) := by grind
      have hshare := congrArg (a.share shared field) hparts
      rw [share_add] at hshare
      simp only [arenaSum_cons]
      refine (congrArg (· + _) (htake (uaddr + size - a.start))).trans ?_
      show _ = _ + (a.share shared field (a.size - (uaddr + size - a.start)) + arenaSum shared field l)
      grind
    · have hparts : a.size = (uaddr - a.start) + (a.start + a.size - uaddr) := by grind
      have hshare := congrArg (a.share shared field) hparts
      rw [share_add] at hshare
      have hgoal : ∀ v : UnmapWalk W, v.state.addressSpace.counter shared field =
          u.state.addressSpace.counter shared field - a.share shared field (a.start + a.size - uaddr) →
          (unmapWalk E uaddr size preId l v).2.state.addressSpace.counter shared field +
            arenaSum shared field (a :: l) = u.state.addressSpace.counter shared field +
              arenaSum shared field (splitLeft uaddr a :: (unmapWalk E uaddr size preId l v).1) := by
        intro v hv
        have hrest := ih v hl
        rw [hv] at hrest
        simp only [arenaSum_cons]
        show _ = _ + (a.share shared field (uaddr - a.start) + arenaSum shared field _)
        grind
      exact hgoal _ (htake _)

theorem unmapWalk_rights (E : UvmmEnv W) (l : List UvmmArena) : ∀ u : UnmapWalk W,
    (∀ a ∈ l, RightsOk a.accessRights) → ∀ a ∈ (unmapWalk E uaddr size preId l u).1, RightsOk a.accessRights := by
  induction l with
  | nil => exact fun u h => h
  | cons a l ih =>
    intro u hrights
    obtain ⟨ha, hl⟩ := List.forall_mem_cons.mp hrights
    rw [unmapWalk]
    split_ifs
    · exact hrights
    · exact hrights
    · exact ih _ hl
    · exact List.forall_mem_cons.mpr ⟨ha, List.forall_mem_cons.mpr ⟨ha, hl⟩⟩
    · exact List.forall_mem_cons.mpr ⟨ha, hl⟩
    · exact List.forall_mem_cons.mpr ⟨ha, ih _ hl⟩

theorem unmapRegion_counter (E : UvmmEnv W) (s : UvmmState W) (uaddr size : UInt32) (preId : Nat) :
    (unmapRegion E s uaddr size preId).addressSpace.counter shared field =
      (unmapWalk E uaddr size preId (arenasFrom s.addressSpace.listArena uaddr)
        ⟨s, false⟩).2.state.addressSpace.counter shared field := by
  simp only [unmapRegion]
  split_ifs <;> rfl

end

/-! ## An address space -/

/-- The counters are the sums over the arenas in 32 bits, and no arena has the rights that are miscounted. -/
structure Accounted (s : UvmmState W) : Prop where
  distinct : DistinctIds s.addressSpace.listArena s.nextId
  rights : ∀ a ∈ s.addressSpace.listArena, RightsOk a.accessRights
  counters : ∀ shared field, s.addressSpace.counter shared field = arenaSum shared field s.addressSpace.listArena

section

variable {s : UvmmState W}

/-- Only the list, its structures and the counters matter. -/
theorem Accounted.congr (h : Accounted s) {s' : UvmmState W}
    (hlist : s'.addressSpace.listArena = s.addressSpace.listArena) (hnext : s.nextId ≤ s'.nextId)
    (htotal : s'.addressSpace.vmTotal = s.addressSpace.vmTotal)
    (hshrd : s'.addressSpace.vmShrd = s.addressSpace.vmShrd) : Accounted s' := by
  refine ⟨?_, ?_, ?_⟩
  · rw [hlist]
    exact h.distinct.mono hnext
  · rw [hlist]
    exact h.rights
  · intro shared field
    rw [hlist, counter_congr htotal hshrd]
    exact h.counters shared field

theorem Accounted.setWorld (h : Accounted s) (w : W) : Accounted { s with world := w } :=
  h.congr rfl (Nat.le_refl _) rfl rfl

theorem Accounted.allocArena (h : Accounted s) (E : UvmmEnv W) : Accounted (s.allocArena E).2 :=
  h.congr rfl (Nat.le_succ _) rfl rfl

theorem Accounted.freePreallocated (h : Accounted s) (E : UvmmEnv W) (preId : Nat) :
    Accounted (s.freePreallocated E preId) := h.congr rfl (Nat.le_refl _) rfl rfl

theorem Accounted.unmapRegion (h : Accounted s) (E : UvmmEnv W) {preId : Nat}
    (hfresh : DistinctIds s.addressSpace.listArena preId) (hlt : preId < s.nextId) (uaddr size : UInt32) :
    Accounted (unmapRegion E s uaddr size preId) := by
  have happ := arenasBefore_append_arenasFrom s.addressSpace.listArena uaddr
  obtain ⟨hbefore, hfrom⟩ := List.forall_mem_append.mp (happ.symm ▸ h.rights)
  refine ⟨unmapRegion_distinct E hfresh hlt uaddr size, ?_, ?_⟩
  · rw [unmapRegion_listArena]
    exact List.forall_mem_append.mpr ⟨hbefore, unmapWalk_rights E _ _ hfrom⟩
  · intro shared field
    have hwalk := @unmapWalk_counter _ uaddr size preId shared field E _ ⟨s, false⟩ hfrom
    have hall := h.counters shared field
    rw [← happ, arenaSum_append] at hall
    rw [unmapRegion_counter, unmapRegion_listArena, arenaSum_append]
    dsimp only at hwalk
    grind

theorem Accounted.uvmmUnmap (h : Accounted s) (E : UvmmEnv W) (uaddr size : UInt32) :
    Accounted (uvmmUnmap E s uaddr size).2 := by
  rcases uvmmUnmap_cases E s uaddr size with heq | heq | ⟨-, -, heq⟩
  · rw [heq]
    exact h
  · rw [heq]
    exact h.allocArena E
  · rw [heq]
    exact (h.allocArena E).unmapRegion E h.distinct (Nat.lt_succ_self _) _ _

end

/-! ## Changes of the list -/

section

variable {l : List UvmmArena} {a : UvmmArena} {shared : Bool} {field : VmField} {f : UvmmArena → UvmmArena}

/-- An assignment to the start, the size or the offset of an arena. -/
structure Moves (f : UvmmArena → UvmmArena) : Prop where
  id : ∀ a, (f a).id = a.id
  flags : ∀ a, (f a).flags = a.flags
  rights : ∀ a, (f a).accessRights = a.accessRights

theorem arenaSum_modify (shared : Bool) (field : VmField) (hnodup : (l.map (·.id)).Nodup) (ha : a ∈ l)
    (hf : Moves f) {size : UInt32} (hsize : (f a).size = a.size + size) :
    arenaSum shared field (modifyArena a.id f l) = arenaSum shared field l + a.share shared field size := by
  obtain ⟨l₁, l₂, rfl⟩ := List.append_of_mem ha
  have hshare : (f a).share shared field (f a).size = a.share shared field a.size + a.share shared field size := by
    rw [share_congr (hf.flags a) (hf.rights a), hsize, share_add]
  rw [modifyArena_splice hnodup, arenaSum_append, arenaSum_append, arenaSum_cons, arenaSum_cons, hshare]
  grind

theorem arenaSum_delete (shared : Bool) (field : VmField) (hnodup : (l.map (·.id)).Nodup) (ha : a ∈ l) :
    arenaSum shared field (listDelete a.id l) + a.share shared field a.size = arenaSum shared field l := by
  obtain ⟨l₁, l₂, rfl⟩ := List.append_of_mem ha
  rw [listDelete_splice hnodup, arenaSum_append, arenaSum_append, arenaSum_cons]
  grind

theorem Moves.distinct (hf : Moves f) {n : Nat} (h : DistinctIds l n) (id : Nat) :
    DistinctIds (modifyArena id f l) n := by
  refine ⟨?_, ?_⟩
  · rw [modifyArena_ids hf.id]
    exact h.nodup
  · intro b hb
    obtain ⟨c, hc, rfl⟩ := List.mem_map.mp hb
    split_ifs
    · rw [hf.id]
      exact h.lt c hc
    · exact h.lt c hc

theorem Moves.rightsOk (hf : Moves f) (h : ∀ a ∈ l, RightsOk a.accessRights) (id : Nat) :
    ∀ a ∈ modifyArena id f l, RightsOk a.accessRights := by
  intro b hb
  obtain ⟨c, hc, rfl⟩ := List.mem_map.mp hb
  split_ifs
  · rw [hf.rights]
    exact h c hc
  · exact h c hc

end

/-! ## `uvmm_map` -/

section

variable {s : UvmmState W} {m : NewMapping}

/-- The list has the bytes of the mapping, in `arena`, and the counters do not yet. -/
theorem accounted_mapDone (E : UvmmEnv W) {arena : UvmmArena} (hdistinct : DistinctIds s.addressSpace.listArena s.nextId)
    (hrights : ∀ a ∈ s.addressSpace.listArena, RightsOk a.accessRights) (harena : RightsOk arena.accessRights)
    (hcounters : ∀ shared field, s.addressSpace.counter shared field + arena.share shared field m.size =
      arenaSum shared field s.addressSpace.listArena) (used : Bool) :
    Accounted (s.mapDone E m arena used).2.2 := by
  have hdone : Accounted { s with
      addressSpace := asAccountChangeOfArenaProt s.addressSpace (hasFlag arena.flags arenaMapShared)
        m.size 0 arena.accessRights } := by
    refine ⟨?_, ?_, ?_⟩
    · rw [asAccountChangeOfArenaProt_listArena]
      exact hdistinct
    · rw [asAccountChangeOfArenaProt_listArena]
      exact hrights
    · intro shared field
      rw [asAccountChangeOfArenaProt_listArena, account_add _ harena]
      exact hcounters shared field
  cases used with
  | true => exact hdone
  | false => exact hdone.freePreallocated E m.preId

theorem Accounted.uvmmMapNew (h : Accounted s) (E : UvmmEnv W) (hmmap : ∀ addr a w, (E.mmap addr a w).1 = 0)
    (hfresh : ∀ a ∈ s.addressSpace.listArena, a.id ≠ m.preId) (hlt : m.preId < s.nextId) {prev : Option UvmmArena}
    (hprev : ∀ p ∈ prev, p ∈ s.addressSpace.listArena) (hm : RightsOk m.accessRights) :
    Accounted (uvmmMapNew E s m prev).2.2 := by
  obtain ⟨l₁, l₂, hsplit, hlink⟩ := linkArena_splice h.distinct.nodup hprev m.arena
  have hret := hmmap (m.resource.mmap.getD 0) m.arena (E.resourceAddTail m.arena s.world)
  have hnodup := h.distinct.nodup
  have hcounters := h.counters
  have hltall := h.distinct.lt
  have hrights := h.rights
  rw [hsplit] at hfresh hnodup hltall hrights
  have hmodify : ∀ ops, modifyArena m.preId (fun a => { a with ops := ops }) (l₁ ++ m.arena :: l₂) =
      l₁ ++ { m.arena with ops := ops } :: l₂ :=
    fun ops => modifyArena_splice (a := m.arena) (nodup_insert hnodup hfresh) _
  obtain ⟨hlt₁, hlt₂⟩ := List.forall_mem_append.mp hltall
  obtain ⟨hrights₁, hrights₂⟩ := List.forall_mem_append.mp hrights
  simp only [Mem.uvmmMapNew, hlink, hmodify]
  rw [if_neg (not_not.mpr hret)]
  apply accounted_mapDone
  · refine ⟨nodup_insert hnodup hfresh, ?_⟩
    exact List.forall_mem_append.mpr ⟨hlt₁, List.forall_mem_cons.mpr ⟨hlt, hlt₂⟩⟩
  · exact List.forall_mem_append.mpr ⟨hrights₁, List.forall_mem_cons.mpr ⟨hm, hrights₂⟩⟩
  · exact hm
  · intro shared field
    have hall := hcounters shared field
    rw [hsplit, arenaSum_append] at hall
    show s.addressSpace.counter shared field + m.arena.share shared field m.size = arenaSum shared field (l₁ ++ _ :: l₂)
    rw [arenaSum_append, arenaSum_cons, hall]
    show _ = _ + (m.arena.share shared field m.size + _)
    grind

/-- Only an empty arena could merge with a mapping on both sides. -/
theorem size_add_of_merges {a : UvmmArena} (hprev : mergeWithPreceding m a = true) (hnext : mergeWithNext m a = true) :
    m.size + a.size = 0 := by
  simp only [mergeWithPreceding, mergeWithNext, Bool.and_eq_true, beq_iff_eq] at hprev hnext
  have hwide : m.size.toUInt64 + a.size.toUInt64 = 0 := by
    have hbefore := hprev.1.1.1.2
    have hafter := hnext.1.1.1.2
    grind
  have hlow := congrArg UInt64.toUInt32 hwide
  rwa [UInt64.toUInt32_add, UInt32.toUInt32_toUInt64, UInt32.toUInt32_toUInt64] at hlow

/-- The arenas on both sides of a mapping become one. -/
theorem arenaSum_merge {l : List UvmmArena} {prev next : UvmmArena} (shared : Bool) (field : VmField)
    (hnodup : (l.map (·.id)).Nodup) (hp : prev ∈ l) (hn : next ∈ l) (hprev : mergeWithPreceding m prev = true)
    (hnext : mergeWithNext m next = true) :
    arenaSum shared field (listDelete next.id
        (modifyArena prev.id (fun a => { a with size := a.size + (m.size + next.size) }) l)) =
      arenaSum shared field l + prev.share shared field m.size := by
  have hf : Moves fun a => { a with size := a.size + (m.size + next.size) } := ⟨fun _ => rfl, fun _ => rfl, fun _ => rfl⟩
  have hwide := arenaSum_modify shared field hnodup hp hf rfl
  have hmem : (if next.id = prev.id then { next with size := next.size + (m.size + next.size) } else next) ∈
      modifyArena prev.id (fun a => { a with size := a.size + (m.size + next.size) }) l := List.mem_map_of_mem hn
  have hnodup' := hnodup
  rw [← @modifyArena_ids _ prev.id hf.id l] at hnodup'
  have hgone := arenaSum_delete shared field hnodup' hmem
  have hsame := hprev
  have hsame' := hnext
  simp only [mergeWithPreceding, mergeWithNext, Bool.and_eq_true, beq_iff_eq] at hsame hsame'
  have hshare : ∀ n, next.share shared field n = prev.share shared field n :=
    share_congr (hsame'.1.2.trans hsame.1.2.symm) (hsame'.2.trans hsame.2.symm)
  rw [share_add] at hwide
  split_ifs at hgone with hid
  · -- one arena on both sides: it is empty, and so is the mapping
    have heq : next = prev := List.inj_on_of_nodup_map hnodup hn hp hid
    have hempty : m.size + next.size = 0 := size_add_of_merges (heq ▸ hprev) hnext
    have hsize : next.share shared field (next.size + (m.size + next.size)) = prev.share shared field next.size := by
      rw [hempty, UInt32.add_zero, hshare]
    have hgone' : _ + next.share shared field (next.size + (m.size + next.size)) = _ := hgone
    rw [hsize] at hgone'
    dsimp only at hgone'
    grind
  · rw [hshare] at hgone
    grind

theorem Accounted.uvmmMapInsert (h : Accounted s) (E : UvmmEnv W) (hmmap : ∀ addr a w, (E.mmap addr a w).1 = 0)
    (hfresh : ∀ a ∈ s.addressSpace.listArena, a.id ≠ m.preId) (hlt : m.preId < s.nextId)
    (hm : RightsOk m.accessRights) : Accounted (uvmmMapInsert E s m).2.2 := by
  obtain ⟨hprevs, hnexts⟩ := mapNeighbours_mem s.addressSpace.listArena m.uaddr
  unfold Mem.uvmmMapInsert
  dsimp only
  generalize mapNeighbours s.addressSpace.listArena m.uaddr = nb at hprevs hnexts
  have hgrow : ∀ f, Moves f → ∀ a ∈ s.addressSpace.listArena, (f a).size = a.size + m.size →
      Accounted ((s.setList (modifyArena a.id f s.addressSpace.listArena)).mapDone E m a false).2.2 := by
    intro f hf a ha hsize
    apply accounted_mapDone
    · exact hf.distinct h.distinct a.id
    · exact hf.rightsOk h.rights a.id
    · exact h.rights a ha
    · intro shared field
      show s.addressSpace.counter shared field + _ = arenaSum shared field (modifyArena a.id f s.addressSpace.listArena)
      rw [arenaSum_modify _ _ h.distinct.nodup ha hf hsize, h.counters]
  cases hp : nb.1.filter (mergeWithPreceding m) with
  | none =>
    cases hn : nb.2.filter (mergeWithNext m) with
    | none => exact h.uvmmMapNew E hmmap hfresh hlt hprevs hm
    | some next =>
      have hnext := hnexts next (Option.mem_filter_iff.mp hn).1
      refine hgrow _ ?_ next hnext ?_
      · exact ⟨fun _ => rfl, fun _ => rfl, fun _ => rfl⟩
      · rfl
  | some prev =>
    have hprev := hprevs prev (Option.mem_filter_iff.mp hp).1
    cases hn : nb.2.filter (mergeWithNext m) with
    | none =>
      refine hgrow _ ?_ prev hprev ?_
      · exact ⟨fun _ => rfl, fun _ => rfl, fun _ => rfl⟩
      · rfl
    | some next =>
      have hnext := hnexts next (Option.mem_filter_iff.mp hn).1
      have hf : Moves fun a => { a with size := a.size + (m.size + next.size) } :=
        ⟨fun _ => rfl, fun _ => rfl, fun _ => rfl⟩
      have hsub : ∀ l : List UvmmArena, (listDelete next.id l).Sublist l := fun l => List.filter_sublist
      apply accounted_mapDone
      · exact (hf.distinct h.distinct prev.id).sublist (hsub _)
      · exact fun a ha => hf.rightsOk h.rights prev.id a ((hsub _).subset ha)
      · exact h.rights prev hprev
      · intro shared field
        have hmerge := arenaSum_merge shared field h.distinct.nodup hprev hnext
          (Option.mem_filter_iff.mp hp).2 (Option.mem_filter_iff.mp hn).2
        rw [← h.counters] at hmerge
        exact hmerge.symm

theorem Accounted.uvmmMapPlace (h : Accounted s) (E : UvmmEnv W) (hmmap : ∀ addr a w, (E.mmap addr a w).1 = 0)
    {mapping : UInt32 → NewMapping} (preId : Nat) (hpre : ∀ u, (mapping u).preId = preId)
    (hm : ∀ u, RightsOk (mapping u).accessRights) (hids : DistinctIds s.addressSpace.listArena preId)
    (hlt : preId < s.nextId) (hintUaddr : UInt32) : Accounted (uvmmMapPlace E s hintUaddr mapping).2.2 := by
  unfold Mem.uvmmMapPlace
  dsimp only
  split_ifs
  · exact h.freePreallocated E _
  · exact h.freePreallocated E _
  · exact (h.uvmmUnmap E _ _).freePreallocated E _
  · refine (h.uvmmUnmap E _ _).uvmmMapInsert E hmmap ?_ ?_ (hm _)
    · intro a ha
      rw [hpre]
      rcases uvmmUnmap_ids _ _ _ _ a ha with hnew | ⟨b, hb, hid⟩
      · rw [hnew]
        exact Nat.ne_of_gt hlt
      · rw [← hid]
        exact Nat.ne_of_lt (hids.lt b hb)
    · rw [hpre]
      exact Nat.lt_of_lt_of_le hlt (uvmmUnmap_nextId_le _ _ _ _)
  · exact h.freePreallocated E _
  · refine h.uvmmMapInsert E hmmap ?_ ?_ (hm _)
    · rw [hpre]
      exact fun a ha => Nat.ne_of_lt (hids.lt a ha)
    · rw [hpre]
      exact hlt

/-- The rights `uvmm_map` gives an arena. -/
def supportedRights (accessRights : UInt32) : UInt32 := accessRights &&& (pRead ||| pWrite ||| pUser)

theorem Accounted.uvmmMap (h : Accounted s) (E : UvmmEnv W) (hmmap : ∀ addr a w, (E.mmap addr a w).1 = 0)
    (hintUaddr size accessRights flags : UInt32) (resource : Option UvmmMappedResource) (offsetInResource : UInt64)
    (hm : ∀ res, uvmmMapCheck hintUaddr size accessRights flags resource offsetInResource = .ok res →
      RightsOk (supportedRights accessRights)) :
    Accounted (uvmmMap E s hintUaddr size accessRights flags resource offsetInResource).2.2 := by
  unfold Mem.uvmmMap
  cases hcheck : uvmmMapCheck hintUaddr size accessRights flags resource offsetInResource with
  | error err => exact h
  | ok res =>
    dsimp only
    split_ifs
    · exact h.allocArena E
    · exact (h.allocArena E).uvmmMapPlace E hmmap s.nextId (fun _ => rfl) (fun _ => hm res hcheck) h.distinct
        (Nat.lt_succ_self _) _

theorem hasFlag_supportedRights {accessRights flag : UInt32} (hflag : (pRead ||| pWrite ||| pUser) &&& flag = flag) :
    hasFlag (supportedRights accessRights) flag = hasFlag accessRights flag := by
  rw [hasFlag, hasFlag, supportedRights, UInt32.and_assoc, hflag]

/-- An arena can be mapped again with its rights. -/
theorem RightsOk.supported {accessRights : UInt32} (h : RightsOk accessRights) :
    RightsOk (supportedRights accessRights) := by
  rcases h with hzero | hread | hwrite
  · left
    rw [hzero, supportedRights, UInt32.zero_and]
  · right
    left
    rw [hasFlag_supportedRights rfl]
    exact hread
  · right
    right
    rw [hasFlag_supportedRights rfl]
    exact hwrite

end

/-! ## `uvmm_resize` -/

section

variable {s : UvmmState W}

/-- An arena grows, and the counters with it. -/
theorem Accounted.grow (h : Accounted s) {a : UvmmArena} (ha : a ∈ s.addressSpace.listArena)
    {f : UvmmArena → UvmmArena} (hf : Moves f) {size : UInt32} (hsize : (f a).size = a.size + size) :
    Accounted (UvmmState.modifyAt { s with
      addressSpace := asAccountChangeOfArenaProt s.addressSpace (hasFlag a.flags arenaMapShared) size 0
        a.accessRights } a.id f) := by
  refine ⟨?_, ?_, ?_⟩
  · rw [modifyAt_listArena, asAccountChangeOfArenaProt_listArena]
    exact hf.distinct h.distinct a.id
  · rw [modifyAt_listArena, asAccountChangeOfArenaProt_listArena]
    exact hf.rightsOk h.rights a.id
  · intro shared field
    rw [modifyAt_listArena, asAccountChangeOfArenaProt_listArena, arenaSum_modify _ _ h.distinct.nodup ha hf hsize,
      ← h.counters]
    exact account_add s.addressSpace (h.rights a ha) size

/-- A resize in place that does not unmap the whole arena. -/
def KeepsArena (newUaddr : UInt32) (p : ResizePlan) : Prop :=
  newUaddr + p.newSize < p.arena.start + p.arena.size → userOffset ≤ newUaddr + p.newSize →
    p.arena.start < newUaddr + p.newSize

theorem Accounted.uvmmResizeEnd (h : Accounted s) (E : UvmmEnv W) (newUaddr : UInt32) {p : ResizePlan}
    (hp : p.arena ∈ s.addressSpace.listArena) : Accounted (uvmmResizeEnd E s newUaddr p) := by
  unfold Mem.uvmmResizeEnd
  dsimp only
  split_ifs
  · exact h.uvmmUnmap E _ _
  · refine h.grow hp ?_ ?_
    · exact ⟨fun _ => rfl, fun _ => rfl, fun _ => rfl⟩
    · rfl

/-- The arena is still on the list then. -/
theorem uvmmResizeEnd_keeps (E : UvmmEnv W) (newUaddr : UInt32) {p : ResizePlan}
    (hp : p.arena ∈ s.addressSpace.listArena) (hkeeps : KeepsArena newUaddr p) :
    ∃ a ∈ (uvmmResizeEnd E s newUaddr p).addressSpace.listArena, a.id = p.arena.id := by
  unfold uvmmResizeEnd
  dsimp only
  split_ifs with hshrink
  · by_cases huser : userOffset ≤ newUaddr + p.newSize
    · have hout : ¬ (newUaddr + p.newSize ≤ p.arena.start ∧ p.arena.start + p.arena.size ≤ newUaddr + p.newSize +
          pageAlignSup (p.arena.start + p.arena.size - (newUaddr + p.newSize))) :=
        fun hinside => absurd (hkeeps hshrink huser) (UInt32.not_lt.mpr hinside.1)
      obtain ⟨b, hb, hid, -⟩ := uvmmUnmap_keeps E s hp hout
      exact ⟨b, hb, hid⟩
    · -- the end would be below user space: `uvmm_unmap` refuses
      have hrefused : uvmmUnmap E s (newUaddr + p.newSize) (p.arena.start + p.arena.size - (newUaddr + p.newSize)) =
          (-1, s) := by
        unfold uvmmUnmap
        rw [if_pos (UInt32.not_le.mp huser), ite_self, ite_self]
      rw [hrefused]
      exact ⟨p.arena, hp, rfl⟩
  · rw [modifyAt_listArena, asAccountChangeOfArenaProt_listArena]
    refine ⟨_, List.mem_map_of_mem hp, ?_⟩
    rw [if_pos rfl]

theorem Accounted.uvmmResizeStart (h : Accounted s) (E : UvmmEnv W) (newUaddr : UInt32) {p : ResizePlan}
    (hstays : ∃ a ∈ s.addressSpace.listArena, a.id = p.arena.id) : Accounted (uvmmResizeStart E s newUaddr p) := by
  obtain ⟨a, ha, hid⟩ := hstays
  obtain ⟨l₁, l₂, hl⟩ := List.append_of_mem ha
  unfold Mem.uvmmResizeStart
  rw [← hid, arenaAt_of_mem hl h.distinct.nodup, Option.getD_some]
  dsimp only
  split_ifs
  · exact h.uvmmUnmap E _ _
  · refine h.grow ha ?_ ?_
    · exact ⟨fun _ => rfl, fun _ => rfl, fun _ => rfl⟩
    · rfl

theorem Accounted.uvmmResizeMove (h : Accounted s) (E : UvmmEnv W) (hmmap : ∀ addr a w, (E.mmap addr a w).1 = 0)
    (newUaddr : UInt32) {p : ResizePlan} (hp : p.arena ∈ s.addressSpace.listArena) :
    Accounted (uvmmResizeMove E s newUaddr p).2.2 := by
  have hmap := h.uvmmMap E hmmap newUaddr p.newSize p.arena.accessRights
    (p.arena.flags ||| internalMapCalledFromMremap) (some p.arena.mappedResource) p.newOffsetInResource
    fun _ _ => (h.rights p.arena hp).supported
  unfold Mem.uvmmResizeMove
  generalize Mem.uvmmMap E s newUaddr p.newSize p.arena.accessRights
    (p.arena.flags ||| internalMapCalledFromMremap) (some p.arena.mappedResource) p.newOffsetInResource = r at hmap ⊢
  obtain ⟨retval, resultUaddr, s₁⟩ := r
  dsimp only at hmap ⊢
  split_ifs
  · exact hmap
  · exact (hmap.setWorld _).uvmmUnmap E _ _
  · exact ((hmap.setWorld _).uvmmUnmap E _ _).uvmmUnmap E _ _
  · exact (hmap.setWorld _).uvmmUnmap E _ _

/-- The condition on a call of `uvmm_resize`. -/
def ResizeKeepsArena (l : List UvmmArena) (oldUaddr oldSize newUaddr newSize flags : UInt32) : Prop :=
  ∀ p, uvmmResizePlan l oldUaddr oldSize newUaddr newSize flags = .ok p → p.mustMoveArena = false →
    KeepsArena newUaddr p

theorem Accounted.uvmmResize (h : Accounted s) (E : UvmmEnv W) (hmmap : ∀ addr a w, (E.mmap addr a w).1 = 0)
    (oldUaddr oldSize newUaddr newSize flags : UInt32)
    (hkeeps : ResizeKeepsArena s.addressSpace.listArena oldUaddr oldSize newUaddr newSize flags) :
    Accounted (uvmmResize E s oldUaddr oldSize newUaddr newSize flags).2.2 := by
  unfold Mem.uvmmResize
  cases hplan : uvmmResizePlan s.addressSpace.listArena oldUaddr oldSize newUaddr newSize flags with
  | error err => exact h
  | ok p =>
    have hp := mem_of_resizePlan hplan
    dsimp only
    split_ifs with hmove
    · exact h.uvmmResizeMove E hmmap newUaddr hp
    · have hstays := uvmmResizeEnd_keeps E newUaddr hp (hkeeps p hplan (Bool.eq_false_iff.mpr hmove))
      exact (h.uvmmResizeEnd E newUaddr hp).uvmmResizeStart E newUaddr hstays

end

/-! ## `uvmm_brk` -/

section

variable {s : UvmmState W}

theorem Accounted.setHeap (h : Accounted s) (heapStart heapSize : UInt32) : Accounted (s.setHeap heapStart heapSize) :=
  h.congr rfl (Nat.le_refl _) rfl rfl

theorem Accounted.devZeroMap (h : Accounted s) (E : UvmmEnv W) (hmmap : ∀ addr a w, (E.mmap addr a w).1 = 0)
    (uaddr size accessRights flags : UInt32) (hm : RightsOk (supportedRights accessRights)) :
    Accounted (devZeroMap E s uaddr size accessRights flags).2.2 := by
  unfold Mem.devZeroMap
  obtain ⟨addr, w⟩ := E.kmallocZeroResource s.world
  cases addr with
  | none => exact h.setWorld w
  | some addr =>
    have hmap := (h.setWorld w).uvmmMap E hmmap uaddr size accessRights flags
      (some ⟨addr, pRead ||| pWrite ||| pUser, mappedResourceAnonymous, some E.zeroMmap⟩) 0 fun _ _ => hm
    dsimp only
    split_ifs
    · exact hmap.setWorld _
    · exact hmap

/-- The heap grows or shrinks at its end only. -/
theorem resizeKeepsArena_brk (l : List UvmmArena) {heapStart heapSize newTopUaddr : UInt32}
    (htop : ¬ newTopUaddr < heapStart) (hsize : ¬ pageAlignSup newTopUaddr - heapStart ≤ 0) :
    ResizeKeepsArena l heapStart heapSize heapStart (pageAlignSup newTopUaddr - heapStart) 0 := by
  intro p hplan _ _ huser
  unfold uvmmResizePlan at hplan
  split_ifs at hplan with hpart haligned
  cases hfind : findFirstIntersectingArena l (pageAlignInf heapStart) (pageAlignSup heapSize) with
  | none =>
    rw [hfind] at hplan
    cases hplan
  | some arena =>
    rw [hfind] at hplan
    dsimp only at hplan
    split_ifs at hplan with houtside
    rw [← Except.ok.inj hplan] at huser ⊢
    -- the arena starts at or before the heap, and the new end is behind it
    have hstart := UInt32.not_lt.mp (not_or.mp houtside).1
    have hpage : heapStart.toNat % 4096 = 0 := (isAligned_iff _).mp (show isPageAligned heapStart = true by simpa using haligned)
    have hinf : (pageAlignInf heapStart).toNat = heapStart.toNat / 4096 * 4096 := toNat_alignInf heapStart
    have hsup : ∀ v, (pageAlignSup v).toNat = (v.toNat + 4095) / 4096 * 4096 % 4294967296 := toNat_alignSup
    have htop' := word_lt newTopUaddr
    rw [word_lt_iff] at htop ⊢
    rw [word_le_iff] at hsize hstart huser
    rw [word_sub, hsup] at hsize
    rw [hinf] at hstart
    dsimp only at huser ⊢
    rw [word_add, hsup, word_sub, hsup] at huser ⊢
    have hzero' : (0 : UInt32).toNat = 0 := rfl
    have huser' : userOffset.toNat = 1073741824 := rfl
    omega

theorem Accounted.uvmmBrk (h : Accounted s) (E : UvmmEnv W) (hmmap : ∀ addr a w, (E.mmap addr a w).1 = 0)
    (newTopUaddr : UInt32) : Accounted (uvmmBrk E s newTopUaddr).2 := by
  have hzero := h.devZeroMap E hmmap s.addressSpace.heapStart (pageAlignSup newTopUaddr - s.addressSpace.heapStart)
    (pRead ||| pWrite) 0 (Or.inr (Or.inl rfl))
  simp only [Mem.uvmmBrk]
  split_ifs with h1 h2 h3 h4 h5 h6 h7 h8
  · exact h
  · exact h
  · exact h
  · exact hzero.setHeap _ _
  · exact (hzero.setHeap _ _).setHeap _ _
  · exact h.uvmmUnmap E _ _
  · exact (h.uvmmUnmap E _ _).setHeap _ _
  · exact h.uvmmResize E hmmap _ _ _ _ _ (resizeKeepsArena_brk _ h3 h6)
  · exact (h.uvmmResize E hmmap _ _ _ _ _ (resizeKeepsArena_brk _ h3 h6)).setHeap _ _

end

/-! ## Runs -/

section

variable {s : UvmmState W}

/-- The condition on a call: `uvmm_map` does not map with `P_USER` alone, and `uvmm_resize` does not unmap the whole of
an arena it resizes in place. -/
def AccountGood (s : UvmmState W) : UvmmOp → Prop
  | .map hintUaddr size accessRights flags resource offsetInResource =>
    ∀ res, uvmmMapCheck hintUaddr size accessRights flags resource offsetInResource = .ok res →
      RightsOk (supportedRights accessRights)
  | .unmap _ _ => True
  | .resize oldUaddr oldSize newUaddr newSize flags =>
    ResizeKeepsArena s.addressSpace.listArena oldUaddr oldSize newUaddr newSize flags
  | .brk _ => True

/-- One call that meets its condition keeps the counters right. -/
theorem Accounted.uvmmStep (h : Accounted s) (E : UvmmEnv W) (hmmap : ∀ addr a w, (E.mmap addr a w).1 = 0)
    (op : UvmmOp) (hgood : AccountGood s op) : Accounted (uvmmStep E s op) := by
  cases op with
  | map hintUaddr size accessRights flags resource offsetInResource => exact h.uvmmMap E hmmap _ _ _ _ _ _ hgood
  | unmap uaddr size => exact h.uvmmUnmap E _ _
  | resize oldUaddr oldSize newUaddr newSize flags => exact h.uvmmResize E hmmap _ _ _ _ _ hgood
  | brk newTopUaddr => exact h.uvmmBrk E hmmap newTopUaddr

theorem accounted_uvmmCreateEmptyAs (w : W) : Accounted (uvmmCreateEmptyAs w) := by
  refine ⟨(inv_uvmmCreateEmptyAs w).distinct, ?_, ?_⟩
  · exact fun a ha => absurd ha List.not_mem_nil
  · intro shared field
    cases shared <;> cases field <;> rfl

/-- The bytes of the arenas a counter counts. -/
def countedBytes (shared : Bool) (field : VmField) (l : List UvmmArena) : Nat :=
  ((l.filter (·.counted shared field)).map fun a => a.size.toNat).sum

theorem countedBytes_cons (shared : Bool) (field : VmField) (a : UvmmArena) (l : List UvmmArena) :
    countedBytes shared field (a :: l) =
      (if a.counted shared field then a.size.toNat else 0) + countedBytes shared field l := by
  unfold countedBytes
  cases h : a.counted shared field with
  | true => simp [h]
  | false => simp [h]

theorem toNat_arenaSum (shared : Bool) (field : VmField) (l : List UvmmArena) :
    (arenaSum shared field l).toNat = countedBytes shared field l % 4294967296 := by
  induction l with
  | nil => rfl
  | cons a l ih =>
    rw [arenaSum_cons, countedBytes_cons, word_add, ih, UvmmArena.share]
    split_ifs
    · omega
    · have hzero : (0 : UInt32).toNat = 0 := rfl
      omega

/-- Disjoint arenas fit in the address space. -/
theorem countedBytes_le (shared : Bool) (field : VmField) {l : List UvmmArena} : ∀ {n : Nat}, WellFormed l →
    (∀ a ∈ l, n ≤ a.lo) → n ≤ 4294967296 → countedBytes shared field l + n ≤ 4294967296 := by
  induction l with
  | nil =>
    intro n _ _ hn
    rw [show countedBytes shared field [] = 0 from rfl, Nat.zero_add]
    exact hn
  | cons a l ih =>
    intro n hwf hlo _
    obtain ⟨hok, hlt, hl⟩ := wellFormed_cons.mp hwf
    have hrest := ih hl hlt hok.top
    have hfirst := hlo a List.mem_cons_self
    have hhi : a.hi = a.lo + a.size.toNat := rfl
    rw [countedBytes_cons]
    split_ifs
    · omega
    · omega

/-- **Memory statistics.** From the empty address space, after any sequence of calls each of which meets its condition,
every counter is the sum of the sizes of the arenas it counts, in 32 bits; it is the sum itself where the calls also
keep the arenas disjoint. -/
theorem uvmm_runs_statistics {V : Type} (B : UvmmEnv V) (C : ResourceCalls V) (k : Nat) (w : ResourceWorld V)
    (ops : List UvmmOp) (hgood : Guarded (uvmmStep (resourceEnv B C k)) AccountGood (uvmmCreateEmptyAs w) ops) :
    (∀ shared field, ((run (uvmmStep (resourceEnv B C k)) (uvmmCreateEmptyAs w) ops).addressSpace.counter shared
        field).toNat = countedBytes shared field (run (uvmmStep (resourceEnv B C k)) (uvmmCreateEmptyAs w)
          ops).addressSpace.listArena % 4294967296) ∧
      (Guarded (uvmmStep (resourceEnv B C k)) StepGood (uvmmCreateEmptyAs w) ops →
        StatisticsLaw (run (uvmmStep (resourceEnv B C k)) (uvmmCreateEmptyAs w) ops).addressSpace) := by
  have haccounted := invariant_run (fun _ op h hop => h.uvmmStep (resourceEnv B C k) (fun _ _ _ => rfl) op hop) ops _
    (accounted_uvmmCreateEmptyAs w) hgood
  have hlow : ∀ shared field, _ := fun shared field =>
    (congrArg UInt32.toNat (haccounted.counters shared field)).trans (toNat_arenaSum shared field _)
  refine ⟨hlow, ?_⟩
  intro hstep shared field
  have hwf := (invariant_run (fun _ op h hop => h.uvmmStep (resourceEnv B C k) op hop) ops _
    (inv_uvmmCreateEmptyAs w) hstep).wellFormed
  have hfits := countedBytes_le shared field hwf (fun a ha => (hwf.arenas a ha).user) (by decide)
  rw [hlow shared field, Nat.mod_eq_of_lt]
  · rfl
  · omega

end

/-- A run of one mapping of two pages. -/
theorem uvmm_runs_statistics_first : StatisticsLaw (run (uvmmStep (resourceEnv quietEnv quietCalls 0))
    (uvmmCreateEmptyAs threePages.world) [mapTwoPages]).addressSpace := by
  refine (uvmm_runs_statistics quietEnv quietCalls 0 threePages.world [mapTwoPages] ⟨?_, trivial⟩).2 ⟨.inr ?_, trivial⟩
  · exact fun _ _ => .inr (.inl rfl)
  · rw [MapGood, if_neg (by decide)]
    refine .inr (.inl ⟨searchStart 0x40000000, ⟨le_rfl, fun a ha => ?_, fun g h1 h2 => ?_⟩, .inl fun a ha => ?_⟩)
    · cases ha
    · omega
    · cases ha

/-- One page with `P_USER` alone. -/
def mapUserOnly : UvmmOp := .map 0x40000000 0x1000 4 0 (some zeroResource) 0

/-- Its bytes are taken off the read-only ones, which wraps. -/
theorem uvmm_runs_statistics_userOnly : ¬ StatisticsLaw (run (uvmmStep (resourceEnv quietEnv quietCalls 0))
    (uvmmCreateEmptyAs threePages.world) [mapUserOnly]).addressSpace := by
  intro h
  exact absurd (h false .ro) (by decide +kernel)

end Desiros.Mem
