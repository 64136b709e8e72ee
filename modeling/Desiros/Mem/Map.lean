import Desiros.Mem.Unmap
import Desiros.Mem.FreeInterval

/-!
# What `uvmm_map` does to the list

`uvmm_map` fails before it touches the list, or it inserts a mapping at a chosen address
(`uvmmMap_cases`). At a free place the list splits into the arenas below and above, and the mapping is
merged with the last one below, the first one above, both or none of them (`uvmmMapInsert_cases`).
-/

namespace Desiros.Mem

open Desiros.Library

variable {W : Type}

/-- A mapping that fits the list: whole pages of user space that no arena meets, and a structure that is
on no list. -/
structure Placeable (l : List UvmmArena) (nextId : Nat) (m : NewMapping) : Prop where
  aligned : m.uaddr.toNat % 4096 = 0
  size_pos : 0 < m.size.toNat
  size_aligned : m.size.toNat % 4096 = 0
  user : 1073741824 ≤ m.uaddr.toNat
  top : m.uaddr.toNat + m.size.toNat ≤ 4294967296
  free : Free l m.uaddr.toNat m.size.toNat
  fresh : ∀ a ∈ l, a.id ≠ m.preId
  preId_lt : m.preId < nextId

/-! ## Neighbours -/

theorem wellFormed_insert {l₁ l₂ : List UvmmArena} {a : UvmmArena} :
    WellFormed (l₁ ++ a :: l₂) ↔ WellFormed l₁ ∧ WellFormed l₂ ∧ a.Ok ∧ (∀ b ∈ l₁, b.hi ≤ a.lo) ∧
      (∀ c ∈ l₂, a.hi ≤ c.lo) ∧ ∀ b ∈ l₁, ∀ c ∈ l₂, b.hi ≤ c.lo := by
  rw [wellFormed_append, wellFormed_cons]
  simp only [List.forall_mem_cons]
  constructor
  · rintro ⟨h1, ⟨h2, h3, h4⟩, h5⟩
    exact ⟨h1, h4, h2, fun b hb => (h5 b hb).1, h3, fun b hb => (h5 b hb).2⟩
  · rintro ⟨h1, h4, h2, h5, h3, h6⟩
    exact ⟨h1, ⟨h2, h3, h4⟩, fun b hb => ⟨h5 b hb, h6 b hb⟩⟩

/-- Around a free interval: the arenas before it end at or below it, the others start above it. -/
theorem arenasFrom_lo {l : List UvmmArena} (hwf : WellFormed l) {uaddr : UInt32} {size : Nat}
    (hfree : Free l uaddr.toNat size) : ∀ a ∈ arenasFrom l uaddr, uaddr.toNat + size ≤ a.lo := by
  intro a ha
  have hmem : a ∈ l := by
    rw [← arenasBefore_append_arenasFrom l uaddr]
    exact List.mem_append_right _ ha
  have := (arenasFrom_hi hwf uaddr).2 a ha
  have := hfree a hmem
  omega

/-- The neighbours at a free place are the last arena before it and the first one after it. -/
theorem mapNeighbours_eq {l : List UvmmArena} (hwf : WellFormed l) {uaddr : UInt32} {size : Nat}
    (hsize : 0 < size) (hfree : Free l uaddr.toNat size) :
    mapNeighbours l uaddr = ((arenasBefore l uaddr).getLast?, (arenasFrom l uaddr).head?) := by
  have happ := arenasBefore_append_arenasFrom l uaddr
  have hlo := arenasFrom_lo hwf hfree
  rw [mapNeighbours, findEnclosingOrNextArena_eq]
  cases hfrom : arenasFrom l uaddr with
  | nil =>
    rw [hfrom, List.append_nil] at happ
    rw [happ]
    rfl
  | cons next rest =>
    rw [hfrom] at happ hlo
    rw [List.head?_cons]
    refine Prod.ext ?_ rfl
    cases hlast : (arenasBefore l uaddr).getLast? with
    | none =>
      have hnil := List.getLast?_eq_none_iff.mp hlast
      rw [Option.none_or, Option.filter_eq_none_iff]
      intro a ha
      have hmem : a ∈ next :: rest := by
        rw [hnil, List.nil_append] at happ
        rw [happ]
        exact List.mem_of_getLast? ha
      have := hlo a hmem
      have hs : a.lo = a.start.toNat := rfl
      simp only [gt_iff_lt, word_lt_iff, Bool.not_eq_true', decide_eq_false_iff_not, not_not]
      omega
    | some prev =>
      have hmem := List.mem_of_getLast? hlast
      have hhi := (arenasFrom_hi hwf uaddr).1 prev hmem
      have hok := ((wellFormed_arenasFrom hwf uaddr).1.arenas prev hmem).lo_lt_hi
      have hs : prev.lo = prev.start.toNat := rfl
      rw [Option.some_or, Option.filter_eq_some_iff]
      refine ⟨rfl, ?_⟩
      simp only [gt_iff_lt, word_lt_iff, Bool.not_eq_true', decide_eq_false_iff_not]
      omega

/-! ## Merging -/

section Merge

variable {m : NewMapping} {a : UvmmArena}

theorem hi_of_mergeWithPreceding (h : mergeWithPreceding m a = true) (hok : a.Ok)
    (hu : 0 < m.uaddr.toNat) : a.hi = m.uaddr.toNat := by
  simp only [mergeWithPreceding, Bool.and_eq_true, beq_iff_eq] at h
  have hend := hok.toNat_end
  rw [h.1.1.2] at hend
  split_ifs at hend
  · omega
  · exact hend.symm

theorem lo_of_mergeWithNext (h : mergeWithNext m a = true) (hok : a.Ok)
    (htop : m.uaddr.toNat + m.size.toNat ≤ 4294967296) :
    a.lo = m.uaddr.toNat + m.size.toNat := by
  simp only [mergeWithNext, Bool.and_eq_true, beq_iff_eq] at h
  have huser := hok.user
  have hlo : a.lo = (m.uaddr + m.size).toNat := congrArg UInt32.toNat h.1.1.2.symm
  rw [word_add] at hlo
  omega

/-- The preceding arena gives the pages of the mapping the entries the mapping asks for. -/
theorem entry_of_mergeWithPreceding (h : mergeWithPreceding m a = true)
    (hhi : a.hi = m.uaddr.toNat) (p : Nat) : a.entry p = m.arena.entry p := by
  simp only [mergeWithPreceding, Bool.and_eq_true, beq_iff_eq] at h
  obtain ⟨⟨⟨⟨hres, hoff⟩, _⟩, hflags⟩, hrights⟩ := h
  have hu : UInt64.ofNat m.uaddr.toNat = UInt64.ofNat a.lo + UInt64.ofNat a.size.toNat := by
    rw [← hhi, ← UInt64.ofNat_add]
    rfl
  rw [toUInt64_eq] at hoff
  simp only [UvmmArena.entry, NewMapping.arena, UvmmArena.lo, PageEntry.mk.injEq] at *
  refine ⟨hres, ?_, hrights, hflags⟩
  rw [hu, ← hoff]
  grind

/-- So does the next one. -/
theorem entry_of_mergeWithNext (h : mergeWithNext m a = true)
    (hlo : a.lo = m.uaddr.toNat + m.size.toNat) (p : Nat) : a.entry p = m.arena.entry p := by
  simp only [mergeWithNext, Bool.and_eq_true, beq_iff_eq] at h
  obtain ⟨⟨⟨⟨hres, hoff⟩, _⟩, hflags⟩, hrights⟩ := h
  have hu : UInt64.ofNat a.lo = UInt64.ofNat m.uaddr.toNat + UInt64.ofNat m.size.toNat := by
    rw [hlo, ← UInt64.ofNat_add]
  rw [toUInt64_eq] at hoff
  simp only [UvmmArena.entry, NewMapping.arena, UvmmArena.lo, PageEntry.mk.injEq] at *
  refine ⟨hres, ?_, hrights, hflags⟩
  rw [hu, ← hoff]
  grind

end Merge

/-! ## Inserting a mapping -/

/-- How a mapping changes a list it fits: it is merged with both neighbours, one of them or none. -/
inductive Inserted (m : NewMapping) : List UvmmArena → List UvmmArena → Prop
  | both {l₁ l₂ : List UvmmArena} {prev next : UvmmArena}
      (hprev : mergeWithPreceding m prev = true) (hnext : mergeWithNext m next = true) :
      Inserted m (l₁ ++ prev :: next :: l₂)
        (l₁ ++ { prev with size := prev.size + (m.size + next.size) } :: l₂)
  | preceding {l₁ l₂ : List UvmmArena} {prev : UvmmArena}
      (hprev : mergeWithPreceding m prev = true)
      (hnext : ∀ next ∈ l₂.head?, mergeWithNext m next = false) :
      Inserted m (l₁ ++ prev :: l₂) (l₁ ++ { prev with size := prev.size + m.size } :: l₂)
  | next {l₁ l₂ : List UvmmArena} {next : UvmmArena}
      (hprev : ∀ prev ∈ l₁.getLast?, mergeWithPreceding m prev = false)
      (hnext : mergeWithNext m next = true) :
      Inserted m (l₁ ++ next :: l₂)
        (l₁ ++ { next with start := next.start - m.size, size := next.size + m.size } :: l₂)
  | new {l₁ l₂ : List UvmmArena} (ops : Option Nat)
      (hlo : ∀ b ∈ l₁, b.hi ≤ m.uaddr.toNat)
      (hhi : ∀ c ∈ l₂, m.uaddr.toNat + m.size.toNat ≤ c.lo)
      (hprev : ∀ prev ∈ l₁.getLast?, mergeWithPreceding m prev = false)
      (hnext : ∀ next ∈ l₂.head?, mergeWithNext m next = false) :
      Inserted m (l₁ ++ l₂) (l₁ ++ { m.arena with ops := ops } :: l₂)

section Done

variable (E : UvmmEnv W) (s : UvmmState W) (m : NewMapping) (arena : UvmmArena) (used : Bool)

@[simp] theorem mapDone_fst : (s.mapDone E m arena used).1 = 0 := rfl

@[simp] theorem mapDone_uaddr : (s.mapDone E m arena used).2.1 = m.uaddr := rfl

@[simp] theorem mapDone_nextId : (s.mapDone E m arena used).2.2.nextId = s.nextId := by
  cases used <;> rfl

@[simp] theorem mapDone_listArena :
    (s.mapDone E m arena used).2.2.addressSpace.listArena = s.addressSpace.listArena := by
  cases used <;> simp [UvmmState.mapDone]

end Done

/-- The ids of a list with a fresh structure inserted. -/
theorem nodup_insert {l₁ l₂ : List UvmmArena} {a : UvmmArena}
    (h : ((l₁ ++ l₂).map (·.id)).Nodup) (hfresh : ∀ b ∈ l₁ ++ l₂, b.id ≠ a.id) :
    ((l₁ ++ a :: l₂).map (·.id)).Nodup := by
  have hperm : ((l₁ ++ a :: l₂).map (·.id)).Perm (a.id :: (l₁ ++ l₂).map (·.id)) :=
    List.perm_middle.map _
  rw [hperm.nodup_iff, List.nodup_cons]
  refine ⟨fun hmem => ?_, h⟩
  obtain ⟨b, hb, he⟩ := List.mem_map.mp hmem
  exact hfresh b hb he

/-- Linking behind the last structure of `l₁`. -/
theorem linkArena_last {l₁ l₂ : List UvmmArena} (hids : ((l₁ ++ l₂).map (·.id)).Nodup) (arena : UvmmArena) :
    linkArena l₁.getLast? arena (l₁ ++ l₂) = l₁ ++ arena :: l₂ := by
  cases hlast : l₁.getLast? with
  | none =>
    rw [List.getLast?_eq_none_iff.mp hlast]
    rfl
  | some prev =>
    obtain ⟨l₁', rfl⟩ := List.getLast?_eq_some_iff.mp hlast
    rw [List.append_assoc, List.singleton_append] at hids ⊢
    show listInsertAfter prev.id arena _ = _
    rw [listInsertAfter_splice hids, List.append_assoc]
    rfl

/-- The branch of `uvmm_map` that inserts a new arena between `l₁` and `l₂`. -/
theorem uvmmMapNew_list (E : UvmmEnv W) {s : UvmmState W} {m : NewMapping}
    (hid : DistinctIds s.addressSpace.listArena s.nextId)
    (hm : Placeable s.addressSpace.listArena s.nextId m) {l₁ l₂ : List UvmmArena}
    (hl : s.addressSpace.listArena = l₁ ++ l₂) :
    ∃ ops, let l' := l₁ ++ { m.arena with ops := ops } :: l₂
      let r := uvmmMapNew E s m l₁.getLast?
      r.1 = 0 ∧ r.2.1 = m.uaddr ∧ r.2.2.addressSpace.listArena = l' ∧ r.2.2.nextId = s.nextId ∨
        ∃ s₁ : UvmmState W, s₁.addressSpace.listArena = l' ∧ s₁.nextId = s.nextId ∧
          (∃ a w, (E.mmap (m.resource.mmap.getD 0) a w).1 ≠ 0) ∧
          r = ((uvmmUnmap E s₁ m.uaddr m.size).1, 0, (uvmmUnmap E s₁ m.uaddr m.size).2) := by
  have hids := hid.nodup
  have hfresh := hm.fresh
  rw [hl] at hids hfresh
  have hinsert : linkArena l₁.getLast? m.arena s.addressSpace.listArena = l₁ ++ m.arena :: l₂ := by
    rw [hl]
    exact linkArena_last hids m.arena
  have hmodify (ops : Option Nat) : modifyArena m.preId (fun a => { a with ops := ops })
      (l₁ ++ m.arena :: l₂) = l₁ ++ { m.arena with ops := ops } :: l₂ :=
    modifyArena_splice (a := m.arena) (nodup_insert hids hfresh) _
  refine ⟨(E.mmap (m.resource.mmap.getD 0) m.arena (E.resourceAddTail m.arena s.world)).2.1, ?_⟩
  simp only [uvmmMapNew, hinsert, hmodify]
  by_cases hret : (E.mmap (m.resource.mmap.getD 0) m.arena
      (E.resourceAddTail m.arena s.world)).1 = 0
  · rw [if_neg (not_not.mpr hret)]
    refine .inl ⟨rfl, rfl, ?_, ?_⟩
    · rw [mapDone_listArena]
      rfl
    · rw [mapDone_nextId]
      rfl
  · rw [if_pos hret]
    refine .inr ⟨_, ?_, ?_, ⟨_, _, hret⟩, rfl⟩ <;> rfl

/-- **Inserting a mapping that fits** changes the list as `Inserted` says; where `mmap` fails the new
arena is unmapped again. -/
theorem uvmmMapInsert_inserted (E : UvmmEnv W) {s : UvmmState W} {m : NewMapping} (h : Inv s)
    (hm : Placeable s.addressSpace.listArena s.nextId m) :
    ∃ l', Inserted m s.addressSpace.listArena l' ∧
      ((uvmmMapInsert E s m).1 = 0 ∧ (uvmmMapInsert E s m).2.1 = m.uaddr ∧
          (uvmmMapInsert E s m).2.2.addressSpace.listArena = l' ∧
          (uvmmMapInsert E s m).2.2.nextId = s.nextId ∨
        ∃ s₁ : UvmmState W, s₁.addressSpace.listArena = l' ∧ s₁.nextId = s.nextId ∧
          (∃ a w, (E.mmap (m.resource.mmap.getD 0) a w).1 ≠ 0) ∧
          uvmmMapInsert E s m =
            ((uvmmUnmap E s₁ m.uaddr m.size).1, 0, (uvmmUnmap E s₁ m.uaddr m.size).2)) := by
  have hnb := mapNeighbours_eq h.wellFormed hm.size_pos hm.free
  have happ := arenasBefore_append_arenasFrom s.addressSpace.listArena m.uaddr
  have hids := h.distinct.nodup
  have hbefore := (arenasFrom_hi h.wellFormed m.uaddr).1
  have hfrom := arenasFrom_lo h.wellFormed hm.free
  obtain ⟨l₁, hl₁⟩ : ∃ l₁, l₁ = arenasBefore s.addressSpace.listArena m.uaddr := ⟨_, rfl⟩
  obtain ⟨l₂, hl₂⟩ : ∃ l₂, l₂ = arenasFrom s.addressSpace.listArena m.uaddr := ⟨_, rfl⟩
  rw [← hl₁, ← hl₂] at hnb happ
  rw [← hl₁] at hbefore
  rw [← hl₂] at hfrom
  simp only [uvmmMapInsert, hnb]
  cases hprev : l₁.getLast?.filter (mergeWithPreceding m) with
  | some prev =>
    obtain ⟨hlast, hp⟩ := Option.filter_eq_some_iff.mp hprev
    obtain ⟨l₁', rfl⟩ := List.getLast?_eq_some_iff.mp hlast
    rw [List.append_assoc, List.singleton_append] at happ
    rw [← happ] at hids ⊢
    cases hnext : l₂.head?.filter (mergeWithNext m) with
    | some next =>
      obtain ⟨hhead, hn⟩ := Option.filter_eq_some_iff.mp hnext
      obtain ⟨l₂', rfl⟩ := List.head?_eq_some_iff.mp hhead
      refine ⟨_, .both hp hn, .inl ⟨rfl, rfl, ?_, ?_⟩⟩
      · rw [mapDone_listArena]
        show listDelete next.id (modifyArena prev.id _ (l₁' ++ prev :: next :: l₂')) = _
        rw [modifyArena_splice hids, ← List.singleton_append, ← List.append_assoc,
          listDelete_splice, List.append_assoc]
        · rfl
        · simpa using hids
      · rw [mapDone_nextId]
        rfl
    | none =>
      refine ⟨_, .preceding hp ?_, .inl ⟨rfl, rfl, ?_, ?_⟩⟩
      · simpa [Option.filter_eq_none_iff] using hnext
      · rw [mapDone_listArena]
        exact modifyArena_splice hids _
      · rw [mapDone_nextId]
        rfl
  | none =>
    have hp : ∀ prev ∈ l₁.getLast?, mergeWithPreceding m prev = false := by
      simpa [Option.filter_eq_none_iff] using hprev
    cases hnext : l₂.head?.filter (mergeWithNext m) with
    | some next =>
      obtain ⟨hhead, hn⟩ := Option.filter_eq_some_iff.mp hnext
      obtain ⟨l₂', rfl⟩ := List.head?_eq_some_iff.mp hhead
      rw [← happ] at hids ⊢
      refine ⟨_, .next hp hn, .inl ⟨rfl, rfl, ?_, ?_⟩⟩
      · rw [mapDone_listArena]
        exact modifyArena_splice hids _
      · rw [mapDone_nextId]
        rfl
    | none =>
      have hn : ∀ next ∈ l₂.head?, mergeWithNext m next = false := by
        simpa [Option.filter_eq_none_iff] using hnext
      have hnew := uvmmMapNew_list E h.distinct hm happ.symm
      obtain ⟨ops, hnew⟩ := hnew
      refine ⟨l₁ ++ { m.arena with ops := ops } :: l₂, ?_, hnew⟩
      rw [← happ]
      exact .new ops hbefore hfrom hp hn

/-! ## The invariant -/

/-- A mapping merged with the arena before it: the arena keeps its start and reaches further. -/
theorem widen_ok {a : UvmmArena} (hok : a.Ok) {size : UInt32} (hsize : size.toNat % 4096 = 0)
    (htop : a.hi + size.toNat ≤ 4294967296) :
    ({ a with size := a.size + size } : UvmmArena).Ok ∧
      ({ a with size := a.size + size } : UvmmArena).hi = a.hi + size.toNat := by
  have huser := hok.user
  have hpos := hok.size_pos
  have hal := hok.size_aligned
  have hsum : (a.size + size).toNat = a.size.toNat + size.toNat := by
    rw [word_add]
    simp only [UvmmArena.lo, UvmmArena.hi] at *
    omega
  have hhi : ({ a with size := a.size + size } : UvmmArena).hi = a.hi + size.toNat := by
    simp only [UvmmArena.hi, hsum]
    omega
  exact ⟨⟨hok.start_aligned, by simp only [hsum]; omega, by simp only [hsum]; omega, huser,
    by rw [hhi]; exact htop⟩, hhi⟩

/-- A mapping merged with the arena after it: the arena keeps its end and starts earlier. -/
theorem widenDown_ok {a : UvmmArena} (hok : a.Ok) {uaddr size : UInt32}
    (haligned : uaddr.toNat % 4096 = 0) (huser : 1073741824 ≤ uaddr.toNat)
    (hlo : a.lo = uaddr.toNat + size.toNat) :
    ({ a with start := a.start - size, size := a.size + size } : UvmmArena).Ok ∧
      ({ a with start := a.start - size, size := a.size + size } : UvmmArena).lo = uaddr.toNat ∧
      ({ a with start := a.start - size, size := a.size + size } : UvmmArena).hi = a.hi := by
  have hpos := hok.size_pos
  have hal := hok.size_aligned
  have hst := hok.start_aligned
  have htop := hok.top
  have hw := word_lt a.start
  have hstart : (a.start - size).toNat = uaddr.toNat := by
    rw [word_sub]
    simp only [UvmmArena.lo] at *
    omega
  have hsum : (a.size + size).toNat = a.size.toNat + size.toNat := by
    rw [word_add]
    simp only [UvmmArena.lo, UvmmArena.hi] at *
    omega
  refine ⟨⟨?_, ?_, ?_, ?_, ?_⟩, ?_, ?_⟩ <;>
    simp only [UvmmArena.lo, UvmmArena.hi, hstart, hsum] at * <;> omega

theorem distinctIds_replace {l₁ l₂ : List UvmmArena} {a b : UvmmArena} {n : Nat} (hid : b.id = a.id)
    (h : DistinctIds (l₁ ++ a :: l₂) n) : DistinctIds (l₁ ++ b :: l₂) n := by
  refine ⟨?_, fun c hc => ?_⟩
  · have := h.nodup
    simp only [List.map_append, List.map_cons, hid] at *
    exact this
  · have hlt := h.lt
    simp only [List.mem_append, List.mem_cons] at hc hlt
    rcases hc with hc | rfl | hc
    · exact hlt c (.inl hc)
    · rw [hid]
      exact hlt a (.inr (.inl rfl))
    · exact hlt c (.inr (.inr hc))

theorem DistinctIds.sublist {l l' : List UvmmArena} {n : Nat} (h : DistinctIds l n)
    (hs : l'.Sublist l) : DistinctIds l' n :=
  ⟨h.nodup.sublist (hs.map _), fun a ha => h.lt a (hs.subset ha)⟩

theorem Inserted.inv {m : NewMapping} {l l' : List UvmmArena} {n : Nat} (h : Inserted m l l')
    (hwf : WellFormed l) (hid : DistinctIds l n) (hm : Placeable l n m) :
    WellFormed l' ∧ DistinctIds l' n := by
  have hu := hm.user
  have hsa := hm.size_aligned
  have htop := hm.top
  cases h with
  | both hprev hnext =>
    rename_i l₁ l₂ prev next
    obtain ⟨h1, h2, hok, h3, h4, h5⟩ := wellFormed_insert.mp hwf
    obtain ⟨hokn, h6, h7⟩ := wellFormed_cons.mp h2
    have hhi := hi_of_mergeWithPreceding hprev hok (by omega)
    have hlo := lo_of_mergeWithNext hnext hokn htop
    have hnhi : next.hi = next.lo + next.size.toNat := rfl
    have hntop := hokn.top
    have hnal := hokn.size_aligned
    have hsum : (m.size + next.size).toNat = m.size.toNat + next.size.toNat := by
      rw [word_add]
      omega
    have hsz : (m.size + next.size).toNat % 4096 = 0 := by omega
    obtain ⟨hok', hhi'⟩ := widen_ok hok hsz (by omega)
    refine ⟨wellFormed_insert.mpr ⟨h1, h7, hok', h3, fun c hc => ?_, fun b hb c hc =>
      h5 b hb c (List.mem_cons_of_mem _ hc)⟩, ?_⟩
    · have := h6 c hc
      rw [hhi']
      omega
    · refine distinctIds_replace (a := prev) rfl (hid.sublist ?_)
      exact (List.Sublist.refl l₁).append ((List.sublist_cons_self next l₂).cons_cons prev)
  | preceding hprev hnone =>
    rename_i l₁ l₂ prev
    obtain ⟨h1, h2, hok, h3, h4, h5⟩ := wellFormed_insert.mp hwf
    have hhi := hi_of_mergeWithPreceding hprev hok (by omega)
    obtain ⟨hok', hhi'⟩ := widen_ok hok hsa (by omega)
    refine ⟨wellFormed_insert.mpr ⟨h1, h2, hok', h3, fun c hc => ?_, h5⟩,
      distinctIds_replace (a := prev) rfl hid⟩
    have := h4 c hc
    have := hm.free c (by simp [hc])
    have := (h2.arenas c hc).lo_lt_hi
    rw [hhi']
    omega
  | next hnone hnext =>
    rename_i l₁ l₂ next
    obtain ⟨h1, h2, hok, h3, h4, h5⟩ := wellFormed_insert.mp hwf
    have hlo := lo_of_mergeWithNext hnext hok htop
    obtain ⟨hok', hlo', hhi'⟩ := widenDown_ok hok hm.aligned hm.user hlo
    refine ⟨wellFormed_insert.mpr ⟨h1, h2, hok', fun b hb => ?_, fun c hc => ?_, h5⟩,
      distinctIds_replace (a := next) rfl hid⟩
    · have := h3 b hb
      have := hm.free b (by simp [hb])
      have := (h1.arenas b hb).lo_lt_hi
      rw [hlo']
      omega
    · rw [hhi']
      exact h4 c hc
  | new ops hlo hhi _ _ =>
    rename_i l₁ l₂
    obtain ⟨h1, h2, h3⟩ := wellFormed_append.mp hwf
    refine ⟨wellFormed_insert.mpr ⟨h1, h2, ⟨hm.aligned, hm.size_pos, hsa, hu, htop⟩, hlo, hhi, h3⟩,
      ⟨nodup_insert hid.nodup hm.fresh, fun c hc => ?_⟩⟩
    rw [List.mem_append, List.mem_cons, or_left_comm, ← List.mem_append] at hc
    rcases hc with rfl | hc
    · exact hm.preId_lt
    · exact hid.lt c hc

/-- **Inserting a mapping that fits keeps the invariant.** -/
theorem Inv.uvmmMapInsert {s : UvmmState W} (h : Inv s) (E : UvmmEnv W) {m : NewMapping}
    (hm : Placeable s.addressSpace.listArena s.nextId m) : Inv (uvmmMapInsert E s m).2.2 := by
  obtain ⟨l', hins, hcases⟩ := uvmmMapInsert_inserted E h hm
  obtain ⟨hwf, hid⟩ := hins.inv h.wellFormed h.distinct hm
  rcases hcases with ⟨_, _, hl, hn⟩ | ⟨s₁, hl, hn, _, hr⟩
  · exact ⟨by rw [hl]; exact hwf, by rw [hl, hn]; exact hid⟩
  · rw [hr]
    have hs₁ : Inv s₁ := ⟨by rw [hl]; exact hwf, by rw [hl, hn]; exact hid⟩
    exact hs₁.uvmmUnmap E _ _

/-! ## Choosing the address -/

theorem pageAlignSup_aligned (size : UInt32) : (pageAlignSup size).toNat % 4096 = 0 := by
  rw [pageAlignSup, pageSize, toNat_alignSup]
  omega

/-- A size that wraps to `0` when it is rounded up finds no place. -/
theorem findFirstFreeInterval_zero (l : List UvmmArena) (hint : UInt32) {size : UInt32}
    (h : size.toNat = 0) : findFirstFreeInterval l hint size = 0 := by
  have hsize : size = 0 := word_eq_iff.mpr h
  rw [findFirstFreeInterval, if_pos]
  rw [hsize, gt_iff_lt, word_lt_iff]
  have h0 : (pagingTopUserAddress - 0 + 1).toNat = 0 := by decide
  rw [h0]
  split_ifs with hlt
  · rw [toNat_userOffset]
    omega
  · rw [word_lt_iff, toNat_userOffset] at hlt
    omega

theorem uvmmMapCheck_error {hintUaddr size accessRights flags : UInt32}
    {resource : Option UvmmMappedResource} {offsetInResource : UInt64} {err : Int}
    (h : uvmmMapCheck hintUaddr size accessRights flags resource offsetInResource = .error err) :
    err ≠ 0 := by
  cases resource with
  | none =>
    cases h
    decide
  | some res =>
    simp only [uvmmMapCheck] at h
    split_ifs at h <;> cases h <;> decide

theorem uvmmMapCheck_ok {hintUaddr size accessRights flags : UInt32}
    {resource : Option UvmmMappedResource} {offsetInResource : UInt64} {res : UvmmMappedResource}
    (h : uvmmMapCheck hintUaddr size accessRights flags resource offsetInResource = .ok res) :
    resource = some res ∧ hintUaddr.toNat % 4096 = 0 := by
  cases resource with
  | none => cases h
  | some res' =>
    simp only [uvmmMapCheck] at h
    by_cases h1 : isPageAligned hintUaddr = true
    · refine ⟨?_, (isAligned_iff _).mp h1⟩
      split_ifs at h <;> cases h <;> rfl
    · rw [Bool.not_eq_true] at h1
      simp only [h1, Bool.not_false, if_true] at h
      split_ifs at h

/-- The outcomes of `uvmm_map` once the structure is allocated: a failure, a mapping at the hint after
everything there was unmapped, or a mapping where the search found room. -/
theorem uvmmMapPlace_cases (E : UvmmEnv W) (s : UvmmState W) (hintUaddr : UInt32)
    (mapping : UInt32 → NewMapping) :
    let m := mapping hintUaddr
    let found := findFirstFreeInterval s.addressSpace.listArena hintUaddr m.size
    let r := uvmmMapPlace E s hintUaddr mapping
    (r.1 ≠ 0 ∧ (Inv s → Inv r.2.2)) ∨
    (hasFlag m.flags arenaMapFixed = true ∧ (uvmmUnmap E s hintUaddr m.size).1 = 0 ∧
      r = uvmmMapInsert E (uvmmUnmap E s hintUaddr m.size).2 m) ∨
    (hasFlag m.flags arenaMapFixed = false ∧ found ≠ 0 ∧ r = uvmmMapInsert E s (mapping found)) := by
  intro m found r
  obtain ⟨r', hr'⟩ : ∃ r', r' = uvmmMapPlace E s hintUaddr mapping := ⟨_, rfl⟩
  have hr : r = r' := hr'.symm
  rw [hr]
  simp only [uvmmMapPlace] at hr'
  by_cases hfixed : hasFlag m.flags arenaMapFixed = true
  · rw [if_pos hfixed] at hr'
    split_ifs at hr' with h1 h2 h3
    · rw [hr']
      exact .inl ⟨show (-1 : Int) ≠ 0 by decide, fun h => h.freePreallocated E _⟩
    · rw [hr']
      exact .inl ⟨show (-1 : Int) ≠ 0 by decide, fun h => h.freePreallocated E _⟩
    · rw [hr']
      exact .inl ⟨h3, fun h => (h.uvmmUnmap E _ _).freePreallocated E _⟩
    · exact .inr (.inl ⟨hfixed, not_not.mp h3, hr'⟩)
  · rw [if_neg hfixed] at hr'
    split_ifs at hr' with h1
    · rw [hr']
      exact .inl ⟨show (-3 : Int) ≠ 0 by decide, fun h => h.freePreallocated E _⟩
    · exact .inr (.inr ⟨Bool.not_eq_true _ ▸ hfixed, h1, hr'⟩)

/-- The outcomes of `uvmm_map`: a failure, a mapping at the hint after everything there was unmapped, or
a mapping where the search found room. -/
theorem uvmmMap_cases (E : UvmmEnv W) (s : UvmmState W)
    (hintUaddr size accessRights flags : UInt32) (resource : Option UvmmMappedResource)
    (offsetInResource : UInt64) :
    let r := uvmmMap E s hintUaddr size accessRights flags resource offsetInResource
    (r.1 ≠ 0 ∧ (Inv s → Inv r.2.2)) ∨
    ∃ res, uvmmMapCheck hintUaddr size accessRights flags resource offsetInResource = .ok res ∧
      (s.allocArena E).1 = true ∧
      let m := fun uaddr =>
        askedMapping uaddr size accessRights flags res offsetInResource s.nextId
      (hasFlag (flags &&& (arenaMapShared ||| arenaMapFixed)) arenaMapFixed = true ∧
          (uvmmUnmap E (s.allocArena E).2 hintUaddr (pageAlignSup size)).1 = 0 ∧
          r = uvmmMapInsert E (uvmmUnmap E (s.allocArena E).2 hintUaddr (pageAlignSup size)).2
            (m hintUaddr) ∨
        hasFlag (flags &&& (arenaMapShared ||| arenaMapFixed)) arenaMapFixed = false ∧
          findFirstFreeInterval s.addressSpace.listArena hintUaddr (pageAlignSup size) ≠ 0 ∧
          r = uvmmMapInsert E (s.allocArena E).2
            (m (findFirstFreeInterval s.addressSpace.listArena hintUaddr (pageAlignSup size)))) := by
  intro r
  obtain ⟨r', hr'⟩ : ∃ r', r' = uvmmMap E s hintUaddr size accessRights flags resource
    offsetInResource := ⟨_, rfl⟩
  have hr : r = r' := hr'.symm
  rw [hr]
  rw [uvmmMap] at hr'
  cases hcheck : uvmmMapCheck hintUaddr size accessRights flags resource offsetInResource with
  | error err =>
    rw [hcheck] at hr'
    rw [hr']
    exact .inl ⟨uvmmMapCheck_error hcheck, id⟩
  | ok res =>
    simp only [hcheck] at hr'
    by_cases halloc : (s.allocArena E).1 = true
    case neg =>
      rw [if_pos (by simpa using halloc)] at hr'
      rw [hr']
      exact .inl ⟨show (-3 : Int) ≠ 0 by decide, fun h => h.allocArena E⟩
    rw [if_neg (by simpa using halloc)] at hr'
    have hplace := uvmmMapPlace_cases E (s.allocArena E).2 hintUaddr fun uaddr =>
      askedMapping uaddr size accessRights flags res offsetInResource s.nextId
    rw [← hr'] at hplace
    rcases hplace with ⟨hne, hinv⟩ | h | h
    · exact .inl ⟨hne, fun h => hinv (h.allocArena E)⟩
    · exact .inr ⟨res, rfl, halloc, .inl h⟩
    · exact .inr ⟨res, rfl, halloc, .inr h⟩

/-- Where `uvmm_map` places a mapping correctly. At a fixed address: no arena that ends at the top of the
address space is in the way, as `uvmm_unmap` does not cut that one. At a hint: there is no room for the
hint at all, the first free interval is findable, or the only arena lies above the hint. -/
def MapGood (l : List UvmmArena) (hintUaddr size flags : UInt32) : Prop :=
  let n := (pageAlignSup size).toNat
  if hasFlag (flags &&& (arenaMapShared ||| arenaMapFixed)) arenaMapFixed then
    ∀ a ∈ l, a.hi = 4294967296 → hintUaddr.toNat + n ≤ a.lo
  else
    let h := searchStart hintUaddr
    4294967296 < h + n ∨ (∃ g, Findable l h n g) ∨ ∃ a, l = [a] ∧ h ≤ a.lo ∧ h + n < 4294967296

/-- Nothing meets the region once it is cut out, an arena up to the top of the address space apart. -/
theorem free_flatMap_cut {l : List UvmmArena} {uaddr size : UInt32} (hr : Region uaddr size)
    (htop : ∀ a ∈ l, a.hi = 4294967296 → uaddr.toNat + size.toNat ≤ a.lo) (preId : Nat) :
    Free (l.flatMap (cut uaddr size preId)) uaddr.toNat size.toNat := by
  intro b hb
  obtain ⟨a, ha, hba⟩ := List.mem_flatMap.mp hb
  have := htop a ha
  rcases mem_cut hba with ⟨rfl, h1⟩ | ⟨h1, _, rfl⟩ | ⟨h1, h2, h3, ⟨_, rfl⟩ | ⟨_, rfl⟩⟩
  · omega
  · exact .inl (splitLeft_hi h1).le
  · exact .inr (splitRight_lo hr).ge
  · exact .inr (shiftStart_lo hr h1).ge

theorem id_of_mem_flatMap_cut {l : List UvmmArena} {uaddr size : UInt32} {preId : Nat} {b : UvmmArena}
    (hb : b ∈ l.flatMap (cut uaddr size preId)) : (∃ a ∈ l, b.id = a.id) ∨ b.id = preId := by
  obtain ⟨a, ha, hba⟩ := List.mem_flatMap.mp hb
  rcases mem_cut hba with ⟨rfl, _⟩ | ⟨_, _, rfl⟩ | ⟨_, _, _, ⟨_, rfl⟩ | ⟨_, rfl⟩⟩
  · exact .inl ⟨b, ha, rfl⟩
  · exact .inl ⟨a, ha, rfl⟩
  · exact .inr rfl
  · exact .inl ⟨a, ha, rfl⟩

/-- A mapping at a fixed address fits the list that `uvmm_unmap` leaves. -/
theorem placeable_fixed (E : UvmmEnv W) {s : UvmmState W} (h : Inv s) {m : NewMapping}
    (hsize : m.size.toNat % 4096 = 0) (hid : m.preId = s.nextId)
    (hret : (uvmmUnmap E (s.allocArena E).2 m.uaddr m.size).1 = 0)
    (htop : ∀ a ∈ s.addressSpace.listArena, a.hi = 4294967296 →
      m.uaddr.toNat + m.size.toNat ≤ a.lo) :
    Placeable (uvmmUnmap E (s.allocArena E).2 m.uaddr m.size).2.addressSpace.listArena
      (uvmmUnmap E (s.allocArena E).2 m.uaddr m.size).2.nextId m := by
  obtain ⟨hr, hpos, hn, hl⟩ := uvmmUnmap_zero E (h.allocArena E).wellFormed hsize hret
  rw [hn, hl, allocArena_listArena, allocArena_nextId]
  refine ⟨hr.aligned, hpos, hsize, hr.user, hr.top.le, free_flatMap_cut hr htop _, fun b hb => ?_,
    by omega⟩
  rcases id_of_mem_flatMap_cut hb with ⟨a, ha, he⟩ | he
  · have := h.distinct.lt a ha
    omega
  · omega

/-- From a page on, whole pages fit at a page first. -/
theorem FirstFit.aligned {l : List UvmmArena} (hwf : WellFormed l) {hint : UInt32} {size g : Nat}
    (hhint : hint.toNat % 4096 = 0) (hsize : size % 4096 = 0) (hfit : FirstFit l (searchStart hint) size g) :
    g % 4096 = 0 := by
  -- the first fit is the start of the search or the end of an arena
  by_contra hmis
  have hstart : searchStart hint % 4096 = 0 := by
    simp only [searchStart]
    omega
  have hle := hfit.le
  refine hfit.first (g / 4096 * 4096) (by omega) (by omega) fun a ha => ?_
  have hfree := hfit.free a ha
  have := (hwf.arenas a ha).hi_aligned
  omega

/-- So does a mapping at a findable interval. -/
theorem placeable_found {s : UvmmState W} (h : Inv s) {m : NewMapping} {g : Nat} {hint : UInt32}
    (hhint : hint.toNat % 4096 = 0) (hsize : m.size.toNat % 4096 = 0) (hpos : 0 < m.size.toNat)
    (hid : m.preId = s.nextId) (hg : m.uaddr.toNat = g)
    (hfit : FirstFit s.addressSpace.listArena (searchStart hint) m.size.toNat g)
    (htop : g + m.size.toNat ≤ 4294967296) :
    Placeable s.addressSpace.listArena (s.nextId + 1) m := by
  refine ⟨?_, hpos, hsize, ?_, by omega, by rw [hg]; exact hfit.free, fun b hb => ?_, by omega⟩
  · rw [hg]
    exact hfit.aligned h.wellFormed hhint hsize
  · have := hfit.le
    simp only [searchStart] at this
    omega
  · have := h.distinct.lt b hb
    omega

/-- At a hint `MapGood` gives the mapping a place of its own. -/
theorem placeable_hint {s : UvmmState W} (h : Inv s) {m : NewMapping} {hintUaddr size flags : UInt32}
    (hgood : MapGood s.addressSpace.listArena hintUaddr size flags)
    (hfixed : ¬ hasFlag (flags &&& (arenaMapShared ||| arenaMapFixed)) arenaMapFixed = true)
    (hhint : hintUaddr.toNat % 4096 = 0) (hsize : m.size = pageAlignSup size) (hid : m.preId = s.nextId)
    (hu : m.uaddr = findFirstFreeInterval s.addressSpace.listArena hintUaddr (pageAlignSup size)) (hne : m.uaddr ≠ 0) :
    Placeable s.addressSpace.listArena (s.nextId + 1) m := by
  rw [MapGood, if_neg hfixed] at hgood
  rw [hu] at hne
  have hpos : 0 < (pageAlignSup size).toNat := by
    by_contra hz
    exact hne (findFirstFreeInterval_zero _ _ (by omega))
  have hal := pageAlignSup_aligned size
  rcases findFirstFreeInterval_cases h.wellFormed hintUaddr hpos with
    ⟨h0, _⟩ | ⟨_, htop, hfit⟩ | ⟨_, hle, hnone, hmany, _, _⟩
  · exact absurd (word_eq_iff.mpr h0) hne
  · rw [← hsize] at hpos hal htop hfit
    exact placeable_found h hhint hal hpos hid (by rw [hu, hsize]) hfit.fit htop
  · exfalso
    rcases hgood with hbig | ⟨g, hg⟩ | hsingle
    · omega
    · exact hnone g hg
    · exact hmany hsingle

/-- **`uvmm_map` keeps the invariant where it places the mapping correctly.** -/
theorem Inv.uvmmMap {s : UvmmState W} (h : Inv s) (E : UvmmEnv W)
    (hintUaddr size accessRights flags : UInt32) (resource : Option UvmmMappedResource)
    (offsetInResource : UInt64) (hgood : MapGood s.addressSpace.listArena hintUaddr size flags) :
    Inv (uvmmMap E s hintUaddr size accessRights flags resource offsetInResource).2.2 := by
  rcases uvmmMap_cases E s hintUaddr size accessRights flags resource offsetInResource with
    ⟨_, hinv⟩ | ⟨res, hcheck, _, ⟨hfixed, hret, hr⟩ | ⟨hfixed, hne, hr⟩⟩
  · exact hinv h
  · rw [MapGood, if_pos hfixed] at hgood
    rw [hr]
    refine ((h.allocArena E).uvmmUnmap E _ _).uvmmMapInsert E ?_
    exact placeable_fixed (m := askedMapping hintUaddr size accessRights flags res offsetInResource
      s.nextId) E h (pageAlignSup_aligned size) rfl hret hgood
  · rw [hr]
    refine (h.allocArena E).uvmmMapInsert E ?_
    exact placeable_hint h hgood (by rw [hfixed]; exact Bool.false_ne_true) (uvmmMapCheck_ok hcheck).2 rfl rfl rfl hne

end Desiros.Mem
