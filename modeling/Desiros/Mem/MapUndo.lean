import Desiros.Mem.MapAtHint
import Desiros.Mem.ResourceRefs
import Desiros.Mem.UvmmRuns

/-!
# Failures of `uvmm_map`

Where the `mmap` callback of a resource refuses a new arena, `uvmm_map` unmaps the arena again, and returns what
`uvmm_unmap` returns instead of the error: a refused mapping succeeds at address 0, or leaves its arena in the list.
`uvmmMap_undo_iff` says exactly when a call reports a failure and undoes it.
-/

namespace Desiros.Mem

open Desiros.Library

variable {W X : Type}

/-- The arena cache touches neither the mapped pages nor the resources, which `view` reads off the world. -/
structure CacheKeeps (E : UvmmEnv W) (view : W → X) : Prop where
  alloc : ∀ w, view (E.allocArena w).2 = view w
  free : ∀ a w, view (E.freeArena a w) = view w

/-- The interval lies in the address space and each of its pages shows the resource `r`. -/
def ShowsResource (l : List UvmmArena) (uaddr size : UInt32) (r : Nat) : Prop :=
  uaddr.toNat + size.toNat ≤ 4294967296 ∧ ∀ p, p % 4096 = 0 → uaddr.toNat ≤ p → p < uaddr.toNat + size.toNat →
    ∃ e, meaning l p = some e ∧ e.resource = r

/-- A success maps the resource at the address returned; a failure leaves the address space, the mapped pages and the
resources as they were. -/
def MapUndoLaw (view : W → X) (s : UvmmState W) (size : UInt32) (resource : Option UvmmMappedResource)
    (r : Int × UInt32 × UvmmState W) : Prop :=
  (r.1 = 0 → ∃ res, resource = some res ∧
    ShowsResource r.2.2.addressSpace.listArena r.2.1 (pageAlignSup size) res.addr) ∧
  (r.1 ≠ 0 → r.2.2.addressSpace = s.addressSpace ∧ view r.2.2.world = view s.world)

/-- The mapping is merged with a neighbour, or `mmap` accepts the arena made for it. -/
def Accepted (E : UvmmEnv W) (s : UvmmState W) (m : NewMapping) : Prop :=
  let neighbours := mapNeighbours s.addressSpace.listArena m.uaddr
  (neighbours.1.filter (mergeWithPreceding m)).isSome = true ∨
    (neighbours.2.filter (mergeWithNext m)).isSome = true ∨
    (E.mmap (m.resource.mmap.getD 0) m.arena (E.resourceAddTail m.arena s.world)).1 = 0

/-- The only arena covers the start of the mapping and is of another resource. -/
def Buried (l : List UvmmArena) (m : NewMapping) : Prop :=
  ∃ b, l = [b] ∧ b.Contains m.uaddr.toNat ∧ b.mappedResource.addr ≠ m.resource.addr

/-- The mapping shows once it is inserted. -/
structure Insertable (E : UvmmEnv W) (s : UvmmState W) (m : NewMapping) : Prop where
  accepted : Accepted E s m
  top : m.uaddr.toNat + m.size.toNat ≤ 4294967296
  shown : ¬ Buried s.addressSpace.listArena m

/-- When a call reports its failures and undoes them: it fails before it inserts the mapping, or the mapping is
accepted and shows where it is inserted. -/
def MapUndoes (E : UvmmEnv W) (s : UvmmState W) (hintUaddr size accessRights flags : UInt32)
    (resource : Option UvmmMappedResource) (offsetInResource : UInt64) : Prop :=
  ∀ res, uvmmMapCheck hintUaddr size accessRights flags resource offsetInResource = .ok res →
    (s.allocArena E).1 = true →
    let m := fun uaddr => askedMapping uaddr size accessRights flags res offsetInResource s.nextId
    let s' := (s.allocArena E).2
    if hasFlag (m hintUaddr).flags arenaMapFixed then
      (uvmmUnmap E s' hintUaddr (m hintUaddr).size).1 = 0 →
        Insertable E (uvmmUnmap E s' hintUaddr (m hintUaddr).size).2 (m hintUaddr)
    else
      let uaddr := findFirstFreeInterval s'.addressSpace.listArena hintUaddr (m hintUaddr).size
      uaddr ≠ 0 → Insertable E s' (m uaddr)

/-! ## What a page shows -/

theorem meaning_of_first (l₁ l₂ : List UvmmArena) {a : UvmmArena} {p : Nat} (hnot : ∀ b ∈ l₁, ¬ b.Contains p)
    (ha : a.Contains p) : meaning (l₁ ++ a :: l₂) p = some (a.entry p) := by
  rw [meaning, entriesAt_append, entriesAt_eq_nil hnot, entriesAt_cons, entryAt_of_contains ha]
  rfl

/-- Below the arenas `l₁`, an arena over the whole interval. -/
theorem showsResource_of_first {l₁ l₂ : List UvmmArena} {a : UvmmArena} {uaddr size : UInt32}
    (htop : uaddr.toNat + size.toNat ≤ 4294967296) (hbefore : ∀ b ∈ l₁, b.hi ≤ uaddr.toNat)
    (hlo : a.lo ≤ uaddr.toNat) (hhi : uaddr.toNat + size.toNat ≤ a.hi) :
    ShowsResource (l₁ ++ a :: l₂) uaddr size a.mappedResource.addr := by
  refine ⟨htop, fun p _ h1 h2 => ⟨a.entry p, meaning_of_first _ _ (fun b hb hc => ?_) ⟨by omega, by omega⟩, rfl⟩⟩
  have := hbefore b hb
  have := hc.2
  omega

/-- The neighbours of an address: the arenas around it, unless the only arena covers it. -/
theorem mapNeighbours_around {l : List UvmmArena} (hwf : WellFormed l) (uaddr : UInt32) :
    (mapNeighbours l uaddr).2 = (arenasFrom l uaddr).head? ∧
      ((mapNeighbours l uaddr).1 = (arenasBefore l uaddr).getLast? ∨
        ∃ b, l = [b] ∧ b.Contains uaddr.toNat ∧ (mapNeighbours l uaddr).1 = some b) := by
  have happ := arenasBefore_append_arenasFrom l uaddr
  have hhi := arenasFrom_hi hwf uaddr
  rw [mapNeighbours, findEnclosingOrNextArena_eq]
  cases hfrom : arenasFrom l uaddr with
  | nil =>
    rw [hfrom, List.append_nil] at happ
    rw [happ]
    exact ⟨rfl, Or.inl rfl⟩
  | cons next rest =>
    rw [hfrom] at happ hhi
    refine ⟨rfl, ?_⟩
    rw [List.head?_cons]
    dsimp only
    cases hlast : (arenasBefore l uaddr).getLast? with
    | some prev =>
      have hmem := List.mem_of_getLast? hlast
      have hprev := hhi.1 prev hmem
      have hlohi := ((wellFormed_arenasFrom hwf uaddr).1.arenas prev hmem).lo_lt_hi
      have hs : prev.lo = prev.start.toNat := rfl
      refine Or.inl ?_
      rw [Option.some_or, Option.filter_eq_some_iff]
      refine ⟨rfl, ?_⟩
      simp only [gt_iff_lt, word_lt_iff, Bool.not_eq_true', decide_eq_false_iff_not]
      omega
    | none =>
      have hnil := List.getLast?_eq_none_iff.mp hlast
      rw [hnil, List.nil_append] at happ
      rw [Option.none_or, ← happ]
      cases htail : (next :: rest).getLast? with
      | none => exact absurd (List.getLast?_eq_none_iff.mp htail) (List.cons_ne_nil _ _)
      | some tail =>
        by_cases hstart : tail.start > uaddr
        · refine Or.inl ?_
          simp [hstart]
        · have hmem := List.mem_of_getLast? htail
          have hcontains : tail.Contains uaddr.toNat := by
            refine ⟨?_, hhi.2 tail hmem⟩
            rw [gt_iff_lt, word_lt_iff] at hstart
            exact Nat.not_lt.mp hstart
          rw [← happ] at hwf
          have hfirst : tail = next := by
            rcases List.mem_cons.mp hmem with heq | hrest
            · exact heq
            · have := (wellFormed_cons.mp hwf).2.1 tail hrest
              have := hhi.2 next List.mem_cons_self
              have := hcontains.1
              omega
          have hrest : rest = [] := by
            cases rest with
            | nil => rfl
            | cons c rest =>
              rw [List.getLast?_cons_cons] at htail
              have hin := List.mem_of_getLast? htail
              have hbehind := (wellFormed_cons.mp hwf).2.1 tail hin
              have := (hwf.arenas next List.mem_cons_self).lo_lt_hi
              rw [hfirst] at hbehind
              omega
          refine Or.inr ⟨tail, by rw [hfirst, hrest], hcontains, ?_⟩
          simp [hstart]

/-- The search answers a page of user space. -/
theorem findFirstFreeInterval_place {l : List UvmmArena} (hwf : WellFormed l) {hint size : UInt32}
    (hal : hint.toNat % 4096 = 0) (hpos : 0 < size.toNat) (hsize : size.toNat % 4096 = 0)
    (hne : findFirstFreeInterval l hint size ≠ 0) :
    1073741824 ≤ (findFirstFreeInterval l hint size).toNat ∧ (findFirstFreeInterval l hint size).toNat % 4096 = 0 := by
  have hlow : 1073741824 ≤ searchStart hint := by
    unfold searchStart
    omega
  have hstart : searchStart hint % 4096 = 0 := by
    unfold searchStart
    omega
  rcases findFirstFreeInterval_cases hwf hint hpos with ⟨h0, _⟩ | ⟨hle, _, hfit⟩ | ⟨hle, _, _, _, hend, _⟩
  · exact absurd (word_eq_iff.mpr h0) hne
  · exact ⟨by omega, hfit.fit.aligned hwf hal hsize⟩
  · refine ⟨by omega, ?_⟩
    rcases hend with heq | ⟨a, ha, heq⟩
    · omega
    · rw [heq]
      exact (hwf.arenas a ha).hi_aligned

/-! ## Inserting a mapping -/

section Insert

variable {E : UvmmEnv W} {s : UvmmState W} {m : NewMapping}

/-- The new arena in the list, after its `mmap` ran. -/
def newList (E : UvmmEnv W) (s : UvmmState W) (m : NewMapping) : List UvmmArena :=
  modifyArena m.preId (fun a => { a with ops :=
    (E.mmap (m.resource.mmap.getD 0) m.arena (E.resourceAddTail m.arena s.world)).2.1 })
    (linkArena (mapNeighbours s.addressSpace.listArena m.uaddr).1 m.arena s.addressSpace.listArena)

/-- Where the list has the new arena `m.arena`, it differs from one without its structure. -/
theorem mem_newList_ids : m.preId ∈ (newList E s m).map (·.id) ↔
    m.preId ∈ (linkArena (mapNeighbours s.addressSpace.listArena m.uaddr).1 m.arena
      s.addressSpace.listArena).map (·.id) := by
  rw [newList, modifyArena, List.map_map]
  have hcongr : ((·.id) ∘ fun a : UvmmArena => if a.id = m.preId then { a with ops :=
      (E.mmap (m.resource.mmap.getD 0) m.arena (E.resourceAddTail m.arena s.world)).2.1 } else a) = (·.id) := by
    funext a
    dsimp only [Function.comp_apply]
    split_ifs <;> rfl
  rw [hcongr]

theorem newList_around (hdistinct : DistinctIds s.addressSpace.listArena s.nextId)
    (hfresh : ∀ a ∈ s.addressSpace.listArena, a.id ≠ m.preId) (l₁ l₂ : List UvmmArena)
    (hl : s.addressSpace.listArena = l₁ ++ l₂)
    (hprev : (mapNeighbours s.addressSpace.listArena m.uaddr).1 = l₁.getLast?) :
    newList E s m = l₁ ++ { m.arena with ops :=
      (E.mmap (m.resource.mmap.getD 0) m.arena (E.resourceAddTail m.arena s.world)).2.1 } :: l₂ := by
  have hids := hdistinct.nodup
  rw [hl] at hids hfresh
  rw [newList, hprev, hl, linkArena_last hids]
  exact modifyArena_splice (a := m.arena) (nodup_insert hids hfresh) _

theorem uvmmMapNew_accepted
    (hmmap : (E.mmap (m.resource.mmap.getD 0) m.arena (E.resourceAddTail m.arena s.world)).1 = 0) :
    let r := uvmmMapNew E s m (mapNeighbours s.addressSpace.listArena m.uaddr).1
    r.1 = 0 ∧ r.2.1 = m.uaddr ∧ r.2.2.addressSpace.listArena = newList E s m := by
  simp only [uvmmMapNew]
  rw [if_neg (not_not.mpr hmmap)]
  refine ⟨rfl, rfl, ?_⟩
  rw [mapDone_listArena]
  rfl

theorem uvmmMapNew_refused
    (hmmap : (E.mmap (m.resource.mmap.getD 0) m.arena (E.resourceAddTail m.arena s.world)).1 ≠ 0) :
    ∃ s₁ : UvmmState W, s₁.addressSpace.listArena = newList E s m ∧
      uvmmMapNew E s m (mapNeighbours s.addressSpace.listArena m.uaddr).1 =
        ((uvmmUnmap E s₁ m.uaddr m.size).1, 0, (uvmmUnmap E s₁ m.uaddr m.size).2) := by
  simp only [uvmmMapNew]
  rw [if_pos hmmap]
  exact ⟨_, rfl, rfl⟩

theorem resource_of_mergeWithPreceding {a : UvmmArena} (h : mergeWithPreceding m a = true) :
    a.mappedResource.addr = m.resource.addr := by
  simp only [mergeWithPreceding, Bool.and_eq_true, beq_iff_eq] at h
  exact h.1.1.1.1

theorem resource_of_mergeWithNext {a : UvmmArena} (h : mergeWithNext m a = true) :
    a.mappedResource.addr = m.resource.addr := by
  simp only [mergeWithNext, Bool.and_eq_true, beq_iff_eq] at h
  exact h.1.1.1.1

/-- Where the mapping is not merged, a new arena is made for it. -/
theorem uvmmMapInsert_new (hprev : (mapNeighbours s.addressSpace.listArena m.uaddr).1.filter (mergeWithPreceding m) = none)
    (hnext : (mapNeighbours s.addressSpace.listArena m.uaddr).2.filter (mergeWithNext m) = none) :
    uvmmMapInsert E s m = uvmmMapNew E s m (mapNeighbours s.addressSpace.listArena m.uaddr).1 := by
  simp only [uvmmMapInsert, hprev, hnext]

theorem uvmmMapInsert_accepted (hacc : Accepted E s m) :
    (uvmmMapInsert E s m).1 = 0 ∧ (uvmmMapInsert E s m).2.1 = m.uaddr := by
  cases hprev : (mapNeighbours s.addressSpace.listArena m.uaddr).1.filter (mergeWithPreceding m) with
  | some prev =>
    cases hnext : (mapNeighbours s.addressSpace.listArena m.uaddr).2.filter (mergeWithNext m) <;>
      simp [uvmmMapInsert, hprev, hnext]
  | none =>
    cases hnext : (mapNeighbours s.addressSpace.listArena m.uaddr).2.filter (mergeWithNext m) with
    | some next => simp [uvmmMapInsert, hprev, hnext]
    | none =>
      have hmmap : (E.mmap (m.resource.mmap.getD 0) m.arena (E.resourceAddTail m.arena s.world)).1 = 0 := by
        simpa [Accepted, hprev, hnext] using hacc
      obtain ⟨h0, hu, _⟩ := uvmmMapNew_accepted hmmap
      rw [uvmmMapInsert_new hprev hnext]
      exact ⟨h0, hu⟩

/-- A mapping between its neighbours, merged or not, shows its resource. -/
theorem shows_around (h : Inv s) (hfresh : ∀ a ∈ s.addressSpace.listArena, a.id ≠ m.preId)
    (hpos : 0 < m.uaddr.toNat) (hacc : Accepted E s m) (htop : m.uaddr.toNat + m.size.toNat ≤ 4294967296)
    {l₁ l₂ : List UvmmArena} (hl : s.addressSpace.listArena = l₁ ++ l₂) (hbefore : ∀ b ∈ l₁, b.hi ≤ m.uaddr.toNat)
    (hnb : mapNeighbours s.addressSpace.listArena m.uaddr = (l₁.getLast?, l₂.head?)) :
    ShowsResource (uvmmMapInsert E s m).2.2.addressSpace.listArena m.uaddr m.size m.resource.addr := by
  have hids := h.distinct.nodup
  have hwf := h.wellFormed
  have hw := word_lt m.size
  cases hprev : l₁.getLast?.filter (mergeWithPreceding m) with
  | some prev =>
    obtain ⟨hlast, hp⟩ := Option.filter_eq_some_iff.mp hprev
    obtain ⟨l₁', rfl⟩ := List.getLast?_eq_some_iff.mp hlast
    rw [List.append_assoc, List.singleton_append] at hl
    rw [hl] at hids hwf
    obtain ⟨_, _, hok, hbelow, hbehind, _⟩ := wellFormed_insert.mp hwf
    have hhi := hi_of_mergeWithPreceding hp hok hpos
    have hlohi := hok.lo_lt_hi
    have hsz : prev.hi = prev.lo + prev.size.toNat := rfl
    have huser := hok.user
    rw [← resource_of_mergeWithPreceding hp]
    cases hnext : l₂.head?.filter (mergeWithNext m) with
    | some next =>
      obtain ⟨hhead, hn⟩ := Option.filter_eq_some_iff.mp hnext
      obtain ⟨l₂', rfl⟩ := List.head?_eq_some_iff.mp hhead
      have hokn := hwf.arenas next (by simp)
      have hlon := lo_of_mergeWithNext hn hokn htop
      have hnhi := hokn.lo_lt_hi
      have hntop := hokn.top
      have hnsz : next.hi = next.lo + next.size.toNat := rfl
      have hlist : (uvmmMapInsert E s m).2.2.addressSpace.listArena =
          l₁' ++ { prev with size := prev.size + (m.size + next.size) } :: l₂' := by
        simp only [uvmmMapInsert, hnb, hprev, hnext]
        rw [mapDone_listArena]
        show listDelete next.id (modifyArena prev.id _ s.addressSpace.listArena) = _
        rw [hl, modifyArena_splice hids, ← List.singleton_append, ← List.append_assoc, listDelete_splice,
          List.append_assoc]
        · rfl
        · simpa using hids
      rw [hlist]
      refine showsResource_of_first htop (fun b hb => ?_) (show prev.lo ≤ _ by omega) ?_
      · have := hbelow b hb
        omega
      · show _ ≤ prev.lo + (prev.size + (m.size + next.size)).toNat
        rw [word_add, word_add]
        omega
    | none =>
      have hlist : (uvmmMapInsert E s m).2.2.addressSpace.listArena =
          l₁' ++ { prev with size := prev.size + m.size } :: l₂ := by
        simp only [uvmmMapInsert, hnb, hprev, hnext]
        rw [mapDone_listArena]
        show modifyArena prev.id _ s.addressSpace.listArena = _
        rw [hl, modifyArena_splice hids]
      rw [hlist]
      refine showsResource_of_first htop (fun b hb => ?_) (show prev.lo ≤ _ by omega) ?_
      · have := hbelow b hb
        omega
      · show _ ≤ prev.lo + (prev.size + m.size).toNat
        rw [word_add]
        omega
  | none =>
    cases hnext : l₂.head?.filter (mergeWithNext m) with
    | some next =>
      obtain ⟨hhead, hn⟩ := Option.filter_eq_some_iff.mp hnext
      obtain ⟨l₂', rfl⟩ := List.head?_eq_some_iff.mp hhead
      rw [hl] at hids hwf
      have hokn := hwf.arenas next (by simp)
      have hlon := lo_of_mergeWithNext hn hokn htop
      have hnhi := hokn.lo_lt_hi
      have hntop := hokn.top
      have hnsz : next.hi = next.lo + next.size.toNat := rfl
      have hns : next.lo = next.start.toNat := rfl
      have hlist : (uvmmMapInsert E s m).2.2.addressSpace.listArena =
          l₁ ++ { next with start := next.start - m.size, size := next.size + m.size } :: l₂' := by
        simp only [uvmmMapInsert, hnb, hprev, hnext]
        rw [mapDone_listArena]
        show modifyArena next.id _ s.addressSpace.listArena = _
        rw [hl, modifyArena_splice hids]
      have hstart : (next.start - m.size).toNat = m.uaddr.toNat := by
        rw [word_sub]
        omega
      rw [hlist, ← resource_of_mergeWithNext hn]
      refine showsResource_of_first htop hbefore (show (next.start - m.size).toNat ≤ _ by omega) ?_
      show _ ≤ (next.start - m.size).toNat + (next.size + m.size).toNat
      rw [word_add]
      omega
    | none =>
      have hmmap : (E.mmap (m.resource.mmap.getD 0) m.arena (E.resourceAddTail m.arena s.world)).1 = 0 := by
        simpa [Accepted, hnb, hprev, hnext] using hacc
      have hlist : (uvmmMapInsert E s m).2.2.addressSpace.listArena = newList E s m := by
        rw [uvmmMapInsert_new (by rw [hnb]; exact hprev) (by rw [hnb]; exact hnext)]
        exact (uvmmMapNew_accepted hmmap).2.2
      rw [hlist, newList_around h.distinct hfresh _ _ hl (by rw [hnb])]
      exact showsResource_of_first htop hbefore (Nat.le_refl _) (Nat.le_refl _)

/-- The neighbours of an address that the only arena covers. -/
theorem mapNeighbours_single {b : UvmmArena} (hok : b.Ok) {uaddr : UInt32} (hcontains : b.Contains uaddr.toNat) :
    mapNeighbours [b] uaddr = (some b, some b) := by
  have hreach := (hok.reaches_iff uaddr).mpr hcontains.2
  have hstart : ¬ uaddr < b.start := by
    rw [word_lt_iff]
    exact Nat.not_lt.mpr hcontains.1
  rw [mapNeighbours, findEnclosingOrNextArena_eq]
  simp [arenasFrom, arenasBefore, hreach, hstart]

/-- No mapping is merged with an arena that covers its start. -/
theorem not_merge_of_contains {b : UvmmArena} (hok : b.Ok) (hcontains : b.Contains m.uaddr.toNat) (hpos : 0 < m.uaddr.toNat)
    (hsize : 0 < m.size.toNat) (htop : m.uaddr.toNat + m.size.toNat ≤ 4294967296) :
    mergeWithPreceding m b = false ∧ mergeWithNext m b = false := by
  constructor
  · rw [Bool.eq_false_iff]
    intro hp
    have := hi_of_mergeWithPreceding hp hok hpos
    have := hcontains.2
    omega
  · rw [Bool.eq_false_iff]
    intro hn
    have := lo_of_mergeWithNext hn hok htop
    have := hcontains.1
    omega

/-- A mapping that starts in the only arena makes an arena behind it. -/
theorem newList_single (h : Inv s) (hfresh : ∀ a ∈ s.addressSpace.listArena, a.id ≠ m.preId) {b : UvmmArena}
    (hl : s.addressSpace.listArena = [b]) (hcontains : b.Contains m.uaddr.toNat) (hpos : 0 < m.uaddr.toNat)
    (hsize : 0 < m.size.toNat) (htop : m.uaddr.toNat + m.size.toNat ≤ 4294967296) (hacc : Accepted E s m) :
    (uvmmMapInsert E s m).2.2.addressSpace.listArena = [b, { m.arena with ops :=
      (E.mmap (m.resource.mmap.getD 0) m.arena (E.resourceAddTail m.arena s.world)).2.1 }] := by
  have hok := h.wellFormed.arenas b (by rw [hl]; exact List.mem_singleton_self b)
  have hnb : mapNeighbours s.addressSpace.listArena m.uaddr = (some b, some b) := by
    rw [hl]
    exact mapNeighbours_single hok hcontains
  obtain ⟨hp, hn⟩ := not_merge_of_contains hok hcontains hpos hsize htop
  have hprev : (mapNeighbours s.addressSpace.listArena m.uaddr).1.filter (mergeWithPreceding m) = none := by
    simp [hnb, hp]
  have hnext : (mapNeighbours s.addressSpace.listArena m.uaddr).2.filter (mergeWithNext m) = none := by
    simp [hnb, hn]
  have hmmap : (E.mmap (m.resource.mmap.getD 0) m.arena (E.resourceAddTail m.arena s.world)).1 = 0 := by
    simpa [Accepted, hprev, hnext] using hacc
  rw [uvmmMapInsert_new hprev hnext, (uvmmMapNew_accepted hmmap).2.2,
    newList_around h.distinct hfresh [b] [] (by rw [hl]; rfl) (by rw [hnb]; rfl)]
  rfl

/-- **A mapping that is accepted shows where it is inserted.** -/
theorem shows_of_insertable (h : Inv s) (hfresh : ∀ a ∈ s.addressSpace.listArena, a.id ≠ m.preId)
    (hpos : 0 < m.uaddr.toNat) (hsize : 0 < m.size.toNat) (hins : Insertable E s m) :
    ShowsResource (uvmmMapInsert E s m).2.2.addressSpace.listArena m.uaddr m.size m.resource.addr := by
  obtain ⟨hacc, htop, hshown⟩ := hins
  obtain ⟨hnext, hprev | ⟨b, hl, hcontains, _⟩⟩ := mapNeighbours_around h.wellFormed m.uaddr
  · exact shows_around h hfresh hpos hacc htop (arenasBefore_append_arenasFrom _ m.uaddr).symm
      (arenasFrom_hi h.wellFormed m.uaddr).1 (Prod.ext hprev hnext)
  · have hres : b.mappedResource.addr = m.resource.addr := by
      by_contra hne
      exact hshown ⟨b, hl, hcontains, hne⟩
    rw [newList_single h hfresh hl hcontains hpos hsize htop hacc]
    refine ⟨htop, fun p _ h1 h2 => ?_⟩
    by_cases hp : b.Contains p
    · exact ⟨b.entry p, meaning_of_first [] _ (fun c hc => absurd hc List.not_mem_nil) hp, hres⟩
    · refine ⟨_, meaning_of_first [b] [] (fun c hc => ?_) ⟨h1, h2⟩, rfl⟩
      rw [List.mem_singleton.mp hc]
      exact hp

/-! ## A mapping that is refused -/

/-- The new arena is in the list. -/
theorem preId_mem_linkArena {prev : Option UvmmArena} (arena : UvmmArena) {l : List UvmmArena}
    (hprev : ∀ a ∈ prev, a ∈ l) : arena.id ∈ (linkArena prev arena l).map (·.id) := by
  cases prev with
  | none => exact List.mem_cons_self
  | some prev =>
    refine List.mem_map.mpr ⟨arena, List.mem_flatMap.mpr ⟨prev, hprev prev rfl, ?_⟩, rfl⟩
    rw [if_pos rfl]
    exact List.mem_cons_of_mem _ (List.mem_singleton_self _)

/-- Every arena starts in user space. -/
def InUserSpace (l : List UvmmArena) : Prop := ∀ a ∈ l, 1073741824 ≤ a.lo

theorem unmapWalk_inUserSpace {uaddr size : UInt32} {preId : Nat} (hr : Region uaddr size) (l : List UvmmArena) :
    ∀ k : UnmapWalk W, InUserSpace l → InUserSpace (unmapWalk E uaddr size preId l k).1 := by
  have huser : 1073741824 ≤ (uaddr + size).toNat := by
    have := hr.toNat_end
    have := hr.user
    omega
  induction l with
  | nil => exact fun k h => h
  | cons a l ih =>
    intro k h
    obtain ⟨ha, hl⟩ := List.forall_mem_cons.mp h
    rw [unmapWalk]
    split_ifs
    · exact h
    · exact h
    · exact ih _ hl
    · exact List.forall_mem_cons.mpr ⟨ha, List.forall_mem_cons.mpr ⟨huser, hl⟩⟩
    · have hstart : (shiftStart uaddr size a).start = uaddr + size := by
        simp only [shiftStart]
        grind
      refine List.forall_mem_cons.mpr ⟨?_, hl⟩
      show 1073741824 ≤ (shiftStart uaddr size a).start.toNat
      rw [hstart]
      exact huser
    · exact List.forall_mem_cons.mpr ⟨ha, ih _ hl⟩

theorem not_showsResource_zero {l : List UvmmArena} (huser : InUserSpace l) {size : UInt32} (hsize : 0 < size.toNat)
    (r : Nat) : ¬ ShowsResource l 0 size r := by
  rintro ⟨-, h⟩
  obtain ⟨e, he, -⟩ := h 0 rfl (Nat.le_refl 0) (show 0 < 0 + size.toNat by omega)
  have hnone : entriesAt l 0 = [] := entriesAt_eq_nil fun a ha hc => by
    have := huser a ha
    have := hc.1
    omega
  rw [meaning, hnone] at he
  cases he

theorem inUserSpace_newList (h : Inv s) (huser : 1073741824 ≤ m.uaddr.toNat) : InUserSpace (newList E s m) := by
  intro a ha
  obtain ⟨b, hb, ⟨-, rfl⟩ | ⟨-, rfl⟩⟩ := exists_of_mem_modifyArena ha
  · rcases mem_of_mem_linkArena hb with rfl | hin
    · exact huser
    · exact (h.wellFormed.arenas _ hin).user
  · rcases mem_of_mem_linkArena hb with rfl | hin
    · exact huser
    · exact (h.wellFormed.arenas _ hin).user

/-- **A mapping that is not accepted, or does not show where it is inserted**, is reported as a success that it is
not, or leaves its arena. -/
theorem hides_of_not_insertable (h : Inv s) (hfresh : ∀ a ∈ s.addressSpace.listArena, a.id ≠ m.preId)
    (huser : 1073741824 ≤ m.uaddr.toNat) (hal : m.uaddr.toNat % 4096 = 0) (hsize : 0 < m.size.toNat)
    (hbad : ¬ Insertable E s m) :
    let r := uvmmMapInsert E s m
    (r.1 = 0 → ¬ ShowsResource r.2.2.addressSpace.listArena r.2.1 m.size m.resource.addr) ∧
      (r.1 ≠ 0 → m.preId ∈ r.2.2.addressSpace.listArena.map (·.id)) := by
  intro r
  by_cases hacc : Accepted E s m
  · obtain ⟨h0, hu⟩ := uvmmMapInsert_accepted hacc
    refine ⟨fun _ hshows => ?_, fun hne => absurd h0 hne⟩
    rw [hu] at hshows
    have htop := hshows.1
    obtain ⟨b, hl, hcontains, hres⟩ : Buried s.addressSpace.listArena m := by
      by_contra hshown
      exact hbad ⟨hacc, htop, hshown⟩
    have hlist := newList_single h hfresh hl hcontains (by omega) hsize htop hacc
    obtain ⟨e, he, heq⟩ := hshows.2 m.uaddr.toNat hal (Nat.le_refl _) (by omega)
    have hfirst := meaning_of_first [] [{ m.arena with ops :=
      (E.mmap (m.resource.mmap.getD 0) m.arena (E.resourceAddTail m.arena s.world)).2.1 }]
      (fun c hc => absurd hc List.not_mem_nil) hcontains
    rw [hlist] at he
    rw [← Option.some.inj (hfirst.symm.trans he)] at heq
    exact hres heq
  · rw [Accepted, not_or, not_or] at hacc
    obtain ⟨hprev, hnext, hmmap⟩ := hacc
    have heq := @uvmmMapInsert_new W E s m (Option.not_isSome_iff_eq_none.mp hprev)
      (Option.not_isSome_iff_eq_none.mp hnext)
    obtain ⟨s₁, hs₁, hrefused⟩ := uvmmMapNew_refused hmmap
    have hr : r = ((uvmmUnmap E s₁ m.uaddr m.size).1, 0, (uvmmUnmap E s₁ m.uaddr m.size).2) := heq.trans hrefused
    have hmem : m.preId ∈ s₁.addressSpace.listArena.map (·.id) := by
      rw [hs₁]
      exact mem_newList_ids.mpr (preId_mem_linkArena m.arena fun _ ha => mem_of_mapNeighbours ha)
    rw [hr]
    rcases uvmmUnmap_cases E s₁ m.uaddr m.size with hun | hun | ⟨hreg, _, hun⟩
    · rw [hun]
      exact ⟨fun h0 => absurd h0 (show (-1 : Int) ≠ 0 by decide), fun _ => hmem⟩
    · rw [hun]
      exact ⟨fun h0 => absurd h0 (show (-3 : Int) ≠ 0 by decide), fun _ => hmem⟩
    · refine ⟨fun _ => ?_, fun hne => absurd (by rw [hun]) hne⟩
      have hspace : InUserSpace s₁.addressSpace.listArena := by
        rw [hs₁]
        exact inUserSpace_newList h huser
      refine not_showsResource_zero ?_ hsize _
      rw [hun]
      show InUserSpace (unmapRegion E (s₁.allocArena E).2 m.uaddr (pageAlignSup m.size) s₁.nextId).addressSpace.listArena
      have hsplit := arenasBefore_append_arenasFrom s₁.addressSpace.listArena m.uaddr
      rw [← hsplit] at hspace
      obtain ⟨hbefore, hfrom⟩ := List.forall_mem_append.mp hspace
      rw [unmapRegion_listArena]
      exact List.forall_mem_append.mpr ⟨hbefore, unmapWalk_inUserSpace hreg _ _ hfrom⟩

end Insert

/-! ## The operation -/

section Undo

variable {E : UvmmEnv W} {s : UvmmState W} {view : W → X}

theorem mapUndoLaw_failed {size : UInt32} {resource : Option UvmmMappedResource} {r : Int × UInt32 × UvmmState W}
    (hne : r.1 ≠ 0) (has : r.2.2.addressSpace = s.addressSpace) (hview : view r.2.2.world = view s.world) :
    MapUndoLaw view s size resource r :=
  ⟨fun h0 => absurd h0 hne, fun _ => ⟨has, hview⟩⟩

/-- A call that comes to insert its mapping. -/
theorem mapUndoLaw_insert_iff {s₁ : UvmmState W} (h₁ : Inv s₁) {m : NewMapping} {size : UInt32}
    (hfresh : ∀ a ∈ s₁.addressSpace.listArena, a.id ≠ m.preId) (hnew : ∀ a ∈ s.addressSpace.listArena, a.id ≠ m.preId)
    (huser : 1073741824 ≤ m.uaddr.toNat) (hal : m.uaddr.toNat % 4096 = 0) (hsize : 0 < m.size.toNat)
    (hms : m.size = pageAlignSup size) :
    MapUndoLaw view s size (some m.resource) (uvmmMapInsert E s₁ m) ↔ Insertable E s₁ m := by
  constructor
  · rintro ⟨hshows, hundone⟩
    by_contra hbad
    obtain ⟨hzero, hmem⟩ := hides_of_not_insertable h₁ hfresh huser hal hsize hbad
    by_cases h0 : (uvmmMapInsert E s₁ m).1 = 0
    · obtain ⟨res, hres, hin⟩ := hshows h0
      rw [← hms, ← Option.some.inj hres] at hin
      exact hzero h0 hin
    · have hin := hmem h0
      rw [(hundone h0).1] at hin
      obtain ⟨a, ha, hid⟩ := List.mem_map.mp hin
      exact hnew a ha hid
  · intro hins
    obtain ⟨h0, hu⟩ := uvmmMapInsert_accepted hins.accepted
    refine ⟨fun _ => ⟨m.resource, rfl, ?_⟩, fun hne => absurd h0 hne⟩
    rw [hu, ← hms]
    exact shows_of_insertable h₁ hfresh (by omega) hsize hins

/-- `uvmm_unmap` that fails. -/
theorem uvmmUnmap_failed (hcache : CacheKeeps E view) (s : UvmmState W) {uaddr size : UInt32}
    (hne : (uvmmUnmap E s uaddr size).1 ≠ 0) : (uvmmUnmap E s uaddr size).2.addressSpace = s.addressSpace ∧
      view (uvmmUnmap E s uaddr size).2.world = view s.world := by
  rcases uvmmUnmap_cases E s uaddr size with heq | heq | ⟨_, _, heq⟩
  · rw [heq]
    exact ⟨rfl, rfl⟩
  · rw [heq]
    exact ⟨rfl, hcache.alloc s.world⟩
  · rw [heq] at hne
    exact absurd rfl hne

/-- **`uvmm_map` reports its failures and undoes them** exactly if `MapUndoes` holds before it. -/
theorem uvmmMap_undo_iff (hcache : CacheKeeps E view) (h : Inv s) (hintUaddr size accessRights flags : UInt32)
    (resource : Option UvmmMappedResource) (offsetInResource : UInt64) :
    MapUndoLaw view s size resource (uvmmMap E s hintUaddr size accessRights flags resource offsetInResource) ↔
      MapUndoes E s hintUaddr size accessRights flags resource offsetInResource := by
  cases hcheck : uvmmMapCheck hintUaddr size accessRights flags resource offsetInResource with
  | error err =>
    have heq : uvmmMap E s hintUaddr size accessRights flags resource offsetInResource = (err, 0, s) := by
      rw [uvmmMap, hcheck]
    rw [heq]
    refine iff_of_true (mapUndoLaw_failed (uvmmMapCheck_error hcheck) rfl rfl) fun res hok => ?_
    rw [hcheck] at hok
    cases hok
  | ok res =>
    obtain ⟨hres, halign⟩ := uvmmMapCheck_ok hcheck
    have hunfold : MapUndoes E s hintUaddr size accessRights flags resource offsetInResource ↔
        ((s.allocArena E).1 = true →
          let m := fun uaddr => askedMapping uaddr size accessRights flags res offsetInResource s.nextId
          let s' := (s.allocArena E).2
          if hasFlag (m hintUaddr).flags arenaMapFixed then
            (uvmmUnmap E s' hintUaddr (m hintUaddr).size).1 = 0 →
              Insertable E (uvmmUnmap E s' hintUaddr (m hintUaddr).size).2 (m hintUaddr)
          else
            let uaddr := findFirstFreeInterval s'.addressSpace.listArena hintUaddr (m hintUaddr).size
            uaddr ≠ 0 → Insertable E s' (m uaddr)) := by
      refine ⟨fun hall => hall res hcheck, fun hone res' hres' => ?_⟩
      rw [hcheck] at hres'
      rw [← Except.ok.inj hres']
      exact hone
    rw [hunfold, uvmmMap, hcheck]
    dsimp only
    by_cases halloc : (s.allocArena E).1 = true
    case neg =>
      rw [if_pos (by simpa using halloc)]
      exact iff_of_true (mapUndoLaw_failed (show (-3 : Int) ≠ 0 by decide) rfl (hcache.alloc s.world))
        fun htrue => absurd htrue halloc
    rw [if_neg (by simpa using halloc)]
    simp only [halloc, true_imp_iff]
    obtain ⟨s', hs'⟩ : ∃ s', s' = (s.allocArena E).2 := ⟨_, rfl⟩
    have hinv' : Inv s' := hs' ▸ h.allocArena E
    have has' : s'.addressSpace = s.addressSpace := by rw [hs']; rfl
    have hview' : view s'.world = view s.world := by rw [hs']; exact hcache.alloc s.world
    have hnext' : s'.nextId = s.nextId + 1 := by rw [hs']; rfl
    have hnew : ∀ a ∈ s.addressSpace.listArena, a.id ≠ s.nextId := fun a ha => Nat.ne_of_lt (h.distinct.lt a ha)
    have hfresh' : ∀ a ∈ s'.addressSpace.listArena, a.id ≠ s.nextId := by
      rw [has']
      exact hnew
    rw [← hs', uvmmMapPlace]
    dsimp only
    have hsize : (askedMapping hintUaddr size accessRights flags res offsetInResource s.nextId).size = pageAlignSup size :=
      rfl
    have hsal := pageAlignSup_aligned size
    by_cases hfixed : hasFlag (askedMapping hintUaddr size accessRights flags res offsetInResource s.nextId).flags
        arenaMapFixed = true
    · rw [if_pos hfixed, if_pos hfixed, hsize]
      have hback : ∀ {err : Int}, err ≠ 0 → ¬ Region hintUaddr (pageAlignSup size) →
          (MapUndoLaw view s size resource (err, 0, s'.freePreallocated E
              (askedMapping hintUaddr size accessRights flags res offsetInResource s.nextId).preId) ↔
            ((uvmmUnmap E s' hintUaddr (pageAlignSup size)).1 = 0 →
              Insertable E (uvmmUnmap E s' hintUaddr (pageAlignSup size)).2
                (askedMapping hintUaddr size accessRights flags res offsetInResource s.nextId))) := by
        intro err herr hnot
        refine iff_of_true (mapUndoLaw_failed herr has' ((hcache.free _ _).trans hview')) fun h0 => ?_
        exact absurd (uvmmUnmap_zero E hinv'.wellFormed hsal h0).1 hnot
      split_ifs with hlow hhigh hunmap
      · refine hback (by decide) fun hr => ?_
        have := hr.user
        rw [word_lt_iff, toNat_userOffset] at hlow
        omega
      · refine hback (by decide) fun hr => ?_
        have := hr.top
        rw [gt_iff_lt, word_lt_iff, word_sub, toNat_pagingTopUserAddress] at hhigh
        omega
      · obtain ⟨has, hview⟩ := uvmmUnmap_failed hcache s' hunmap
        exact iff_of_true (mapUndoLaw_failed hunmap (has.trans has') ((hcache.free _ _).trans (hview.trans hview')))
          fun h0 => absurd h0 hunmap
      · have hunmap := not_not.mp hunmap
        obtain ⟨hr, hpos, _, hlist⟩ := uvmmUnmap_zero E hinv'.wellFormed hsal hunmap
        have hinv₁ := hinv'.uvmmUnmap E hintUaddr (pageAlignSup size)
        have hfresh : ∀ a ∈ (uvmmUnmap E s' hintUaddr (pageAlignSup size)).2.addressSpace.listArena,
            a.id ≠ s.nextId := by
          rw [hlist]
          intro a ha
          rcases id_of_mem_flatMap_cut ha with ⟨b, hb, hid⟩ | hid
          · rw [hid]
            exact hfresh' b hb
          · rw [hid, hnext']
            exact Nat.succ_ne_self _
        have hiff := @mapUndoLaw_insert_iff W X E s view _ hinv₁
          (askedMapping hintUaddr size accessRights flags res offsetInResource s.nextId) size hfresh hnew hr.user hr.aligned
          hpos rfl
        rw [hres]
        exact hiff.trans (imp_iff_right hunmap).symm
    · rw [if_neg hfixed, if_neg hfixed, hsize]
      split_ifs with hfound
      · exact iff_of_true (mapUndoLaw_failed (show (-3 : Int) ≠ 0 by decide) has' ((hcache.free _ _).trans hview'))
          fun hne => absurd hfound hne
      · have hpos : 0 < (pageAlignSup size).toNat := by
          by_contra hz
          exact hfound (findFirstFreeInterval_zero _ _ (by omega))
        have hplace : 1073741824 ≤ (findFirstFreeInterval s'.addressSpace.listArena hintUaddr (pageAlignSup size)).toNat ∧
            (findFirstFreeInterval s'.addressSpace.listArena hintUaddr (pageAlignSup size)).toNat % 4096 = 0 :=
          findFirstFreeInterval_place hinv'.wellFormed halign hpos hsal hfound
        have hiff := @mapUndoLaw_insert_iff W X E s view _ hinv'
          (askedMapping (findFirstFreeInterval s'.addressSpace.listArena hintUaddr (pageAlignSup size)) size accessRights
            flags res offsetInResource s.nextId) size hfresh' hnew hplace.1 hplace.2 hpos rfl
        rw [hres]
        exact hiff.trans (imp_iff_right hfound).symm

end Undo

theorem uvmmMap_undo_first : MapUndoLaw id (uvmmCreateEmptyAs ()) 0x1000 (some zeroResource)
    (uvmmMap quietEnv (uvmmCreateEmptyAs ()) 0x40000000 0x1000 3 0 (some zeroResource) 0) := by
  refine (uvmmMap_undo_iff ⟨fun _ => rfl, fun _ _ => rfl⟩ (inv_uvmmCreateEmptyAs ()) _ _ _ _ _ _).mpr ?_
  intro res hcheck _
  obtain rfl : zeroResource = res := Except.ok.inj (hcheck.symm.trans rfl).symm
  dsimp only
  rw [if_neg (by decide)]
  refine fun _ => ⟨Or.inr (Or.inr rfl), by decide, ?_⟩
  rintro ⟨b, hl, -⟩
  cases hl

/-- A kernel whose resources refuse every mapping. -/
def refusingEnv : UvmmEnv Unit := { quietEnv with mmap := fun _ _ _ => (0xFFFFFFFF, none, ()) }

/-- The mapping of a page that is refused succeeds at address 0; mapped at a fixed address, it takes the page that was
there with it. -/
theorem uvmmMap_refused :
    (uvmmMap refusingEnv (uvmmCreateEmptyAs ()) 0x40000000 0x1000 3 0 (some fileResource) 0).1 = 0 ∧
      (uvmmMap refusingEnv (uvmmCreateEmptyAs ()) 0x40000000 0x1000 3 0 (some fileResource) 0).2.1 = 0 ∧
      ¬ MapUndoLaw id (uvmmCreateEmptyAs ()) 0x1000 (some fileResource)
        (uvmmMap refusingEnv (uvmmCreateEmptyAs ()) 0x40000000 0x1000 3 0 (some fileResource) 0) ∧
      (uvmmMap refusingEnv oneFilePage 0x40001000 0x1000 3 arenaMapFixed (some zeroResource) 0).1 = 0 ∧
      (uvmmMap refusingEnv oneFilePage 0x40001000 0x1000 3 arenaMapFixed (some zeroResource)
        0).2.2.addressSpace.listArena = [] := by
  have h0 : (uvmmMap refusingEnv (uvmmCreateEmptyAs ()) 0x40000000 0x1000 3 0 (some fileResource) 0).1 = 0 := by decide
  have hlist : (uvmmMap refusingEnv (uvmmCreateEmptyAs ()) 0x40000000 0x1000 3 0 (some fileResource)
      0).2.2.addressSpace.listArena = [] := by decide
  have hu : (uvmmMap refusingEnv (uvmmCreateEmptyAs ()) 0x40000000 0x1000 3 0 (some fileResource) 0).2.1 = 0 := by decide
  refine ⟨h0, hu, fun hlaw => ?_, by decide, by decide⟩
  obtain ⟨res, _, hshows⟩ := hlaw.1 h0
  rw [hlist, hu] at hshows
  exact not_showsResource_zero (fun a ha => absurd ha List.not_mem_nil) (by decide) _ hshows

end Desiros.Mem
