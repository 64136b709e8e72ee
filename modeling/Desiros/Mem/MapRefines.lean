import Desiros.Mem.Map

/-!
# `uvmm_map` against the override of a page map

An address space denotes a partial map from page addresses to entries (`meaning`). `uvmm_map` is meant
to override that map on `[u, u + size)`. It does where the mapping is placed correctly, unless the new
mapping is merged with the arena after it only: that arena keeps its offset while its start moves down,
so all of its pages show the resource `size` bytes too far (`Inserted.denotes_iff`).
-/

namespace Desiros.Mem

open Desiros.Library

variable {W : Type}

/-- The map `m`, replaced on `[u, u + n)`. -/
def override (m : Nat → Option PageEntry) (u n : Nat) (entry : Nat → PageEntry) (p : Nat) :
    Option PageEntry :=
  if u ≤ p ∧ p < u + n then some (entry p) else m p

/-! ## Entries of one page -/

section Entries

variable {l l₁ l₂ : List UvmmArena} {a : UvmmArena} {p : Nat}

theorem entriesAt_insert : entriesAt (l₁ ++ a :: l₂) p =
    entriesAt l₁ p ++ ((a.entryAt p).toList ++ entriesAt l₂ p) := by
  rw [entriesAt_append, entriesAt_cons]

/-- On a well-formed list an arena that contains a page gives its only entry. -/
theorem WellFormed.entriesAt_of_mem (hwf : WellFormed l) (ha : a ∈ l) (hp : a.Contains p) :
    entriesAt l p = [a.entry p] := by
  obtain ⟨l₁, l₂, rfl⟩ := List.append_of_mem ha
  obtain ⟨h1, h2, _, h3, h4, _⟩ := wellFormed_insert.mp hwf
  have hp1 := hp.1
  have hp2 := hp.2
  rw [entriesAt_insert, entryAt_of_contains hp, entriesAt_eq_nil fun b hb hc => ?_,
    entriesAt_eq_nil fun b hb hc => ?_]
  · rfl
  · have := h4 b hb
    have := hc.1
    omega
  · have := h3 b hb
    have := hc.2
    omega

theorem WellFormed.meaning_of_mem (hwf : WellFormed l) (ha : a ∈ l) (hp : a.Contains p) :
    meaning l p = some (a.entry p) := by
  rw [meaning, hwf.entriesAt_of_mem ha hp]
  rfl

theorem exists_of_meaning {e : PageEntry} (h : meaning l p = some e) :
    ∃ a ∈ l, a.Contains p ∧ a.entry p = e := by
  obtain ⟨a, ha, he⟩ := List.mem_filterMap.mp (List.mem_of_head? h)
  rw [UvmmArena.entryAt] at he
  split_ifs at he with hp
  exact ⟨a, ha, hp, Option.some.inj he⟩

theorem entriesAt_of_free {u n : Nat} (hf : Free l u n) (h1 : u ≤ p) (h2 : p < u + n) :
    entriesAt l p = [] := by
  refine entriesAt_eq_nil fun a ha hc => ?_
  have := hf a ha
  have := hc.1
  have := hc.2
  omega

end Entries

/-! ## The neighbours of a mapping, read off the map -/

section Neighbours

variable {m : NewMapping} {a : UvmmArena}

theorem mergeWithPreceding_of_entry (hok : a.Ok) (hu : m.uaddr.toNat < 4294967296)
    (hhi : a.hi = m.uaddr.toNat) {p : Nat} (h : a.entry p = m.arena.entry p) :
    mergeWithPreceding m a = true := by
  have hend := hok.toNat_end
  rw [if_neg (by omega)] at hend
  simp only [UvmmArena.entry, NewMapping.arena, UvmmArena.lo, PageEntry.mk.injEq] at h
  obtain ⟨hres, hoff, hrights, hflags⟩ := h
  have hu64 : UInt64.ofNat m.uaddr.toNat =
      UInt64.ofNat a.start.toNat + UInt64.ofNat a.size.toNat := by
    rw [← hhi, ← UInt64.ofNat_add]
    rfl
  simp only [mergeWithPreceding, Bool.and_eq_true, beq_iff_eq]
  refine ⟨⟨⟨⟨hres, ?_⟩, word_eq_iff.mpr (by omega)⟩, hflags⟩, hrights⟩
  rw [hu64] at hoff
  rw [toUInt64_eq]
  grind

theorem mergeWithNext_of_entry (hlo : a.lo = m.uaddr.toNat + m.size.toNat) {p : Nat}
    (h : a.entry p = m.arena.entry p) : mergeWithNext m a = true := by
  have hw : a.lo < 4294967296 := word_lt a.start
  have hs : a.lo = a.start.toNat := rfl
  simp only [UvmmArena.entry, NewMapping.arena, UvmmArena.lo, PageEntry.mk.injEq] at h
  obtain ⟨hres, hoff, hrights, hflags⟩ := h
  have hu64 : UInt64.ofNat a.start.toNat =
      UInt64.ofNat m.uaddr.toNat + UInt64.ofNat m.size.toNat := by
    rw [← UInt64.ofNat_add, ← hlo]
    rfl
  simp only [mergeWithNext, Bool.and_eq_true, beq_iff_eq]
  refine ⟨⟨⟨⟨hres, ?_⟩, word_eq_iff.mpr (by rw [word_add]; omega)⟩, hflags⟩, hrights⟩
  rw [hu64] at hoff
  rw [toUInt64_eq]
  grind

end Neighbours

/-- The page after the mapping already shows what the mapping would show there, and the page before it
does not: the mapping is merged with the next arena only. -/
def ContinuesAfter (old : Nat → Option PageEntry) (u n : Nat) (entry : Nat → PageEntry) : Prop :=
  old (u + n) = some (entry (u + n)) ∧ old (u - 4096) ≠ some (entry (u - 4096))

/-- The entries a mapping gives its pages, from an offset. -/
def NewMapping.shows (m : NewMapping) (offset : UInt64) (p : Nat) : PageEntry :=
  ⟨m.resource.addr, offset + UInt64.ofNat p - UInt64.ofNat m.uaddr.toNat, m.accessRights, m.flags⟩

theorem shows_injective {m : NewMapping} {o o' : UInt64} {p : Nat} (h : m.shows o p = m.shows o' p) :
    o = o' := by
  simp only [NewMapping.shows, PageEntry.mk.injEq, true_and, and_true] at h
  grind

section Inserted

variable {m : NewMapping} {l l' : List UvmmArena} {n : Nat}

/-- A list that gives the pages of the mapping its entries and every other page the old ones. -/
theorem denotes_of_cases (hwf : WellFormed l)
    (hin : ∀ p, m.uaddr.toNat ≤ p → p < m.uaddr.toNat + m.size.toNat →
      entriesAt l' p = [m.arena.entry p])
    (hout : ∀ p, ¬ (m.uaddr.toNat ≤ p ∧ p < m.uaddr.toNat + m.size.toNat) →
      entriesAt l' p = entriesAt l p) :
    Denotes l' (override (meaning l) m.uaddr.toNat m.size.toNat (m.shows m.offsetInResource)) := by
  intro p hp
  rw [override]
  by_cases h : m.uaddr.toNat ≤ p ∧ p < m.uaddr.toNat + m.size.toNat
  · rw [if_pos h, hin p h.1 h.2]
    rfl
  · rw [if_neg h, hout p h]
    exact hwf.denotes p hp

/-- An arena whose end alone was moved shows the same entries. -/
theorem entryAt_withSize {a : UvmmArena} {size : UInt32} {hi : Nat}
    (h : ({ a with size := size } : UvmmArena).hi = hi) (p : Nat) :
    ({ a with size := size } : UvmmArena).entryAt p =
      if a.lo ≤ p ∧ p < hi then some (a.entry p) else none := by
  subst h
  rfl

theorem denotes_both {l₁ l₂ : List UvmmArena} {prev next : UvmmArena}
    (hprev : mergeWithPreceding m prev = true) (hnext : mergeWithNext m next = true)
    (hwf : WellFormed (l₁ ++ prev :: next :: l₂)) (hm : Placeable (l₁ ++ prev :: next :: l₂) n m) :
    Denotes (l₁ ++ { prev with size := prev.size + (m.size + next.size) } :: l₂)
      (override (meaning (l₁ ++ prev :: next :: l₂)) m.uaddr.toNat m.size.toNat
        (m.shows m.offsetInResource)) := by
  obtain ⟨h1, h2, hok, h3, h4, h5⟩ := wellFormed_insert.mp hwf
  obtain ⟨hokn, h6, h7⟩ := wellFormed_cons.mp h2
  have hu := hm.user
  have hsa := hm.size_aligned
  have hhi := hi_of_mergeWithPreceding hprev hok (by omega)
  have hlo := lo_of_mergeWithNext hnext hokn hm.top
  have hnhi : next.hi = next.lo + next.size.toNat := rfl
  have hntop := hokn.top
  have hnal := hokn.size_aligned
  have hplo := hok.lo_lt_hi
  have hsum : (m.size + next.size).toNat = m.size.toNat + next.size.toNat := by
    rw [word_add]
    omega
  have hsz : (m.size + next.size).toNat % 4096 = 0 := by omega
  obtain ⟨_, hhi'⟩ := widen_ok hok hsz (by omega)
  have hfree := free_append.mp hm.free
  have hfree₂ := (free_cons.mp (free_cons.mp hfree.2).2).2
  refine denotes_of_cases hwf (fun p hp1 hp2 => ?_) fun p hp => ?_
  · rw [entriesAt_insert, entriesAt_of_free hfree.1 hp1 hp2, entriesAt_of_free hfree₂ hp1 hp2,
      entryAt_withSize hhi', if_pos ⟨by omega, by omega⟩]
    exact congrArg ([·]) (entry_of_mergeWithPreceding hprev hhi p)
  · rw [entriesAt_insert, entriesAt_insert, entriesAt_cons, entryAt_withSize hhi',
      prev.entryAt_eq, next.entryAt_eq, ← List.append_assoc (Option.toList _)]
    congr 2
    by_cases hpu : p < m.uaddr.toNat
    · rw [if_neg (show ¬ (next.lo ≤ p ∧ p < next.hi) by omega)]
      by_cases hpl : prev.lo ≤ p
      · rw [if_pos ⟨hpl, by omega⟩, if_pos ⟨hpl, by omega⟩]
        rfl
      · rw [if_neg fun h => hpl h.1, if_neg fun h => hpl h.1]
        rfl
    · rw [if_neg (show ¬ (prev.lo ≤ p ∧ p < prev.hi) by omega)]
      by_cases hpn : p < next.hi
      · rw [if_pos ⟨by omega, by omega⟩, if_pos ⟨by omega, hpn⟩,
          entry_of_mergeWithPreceding hprev hhi, entry_of_mergeWithNext hnext hlo]
        rfl
      · rw [if_neg (by omega), if_neg (by omega)]
        rfl

theorem denotes_preceding {l₁ l₂ : List UvmmArena} {prev : UvmmArena}
    (hprev : mergeWithPreceding m prev = true) (hwf : WellFormed (l₁ ++ prev :: l₂))
    (hm : Placeable (l₁ ++ prev :: l₂) n m) :
    Denotes (l₁ ++ { prev with size := prev.size + m.size } :: l₂)
      (override (meaning (l₁ ++ prev :: l₂)) m.uaddr.toNat m.size.toNat
        (m.shows m.offsetInResource)) := by
  obtain ⟨h1, h2, hok, h3, h4, h5⟩ := wellFormed_insert.mp hwf
  have hu := hm.user
  have htop := hm.top
  have hhi := hi_of_mergeWithPreceding hprev hok (by omega)
  have hplo := hok.lo_lt_hi
  obtain ⟨_, hhi'⟩ := widen_ok hok hm.size_aligned (by omega)
  have hfree := free_append.mp hm.free
  have hfree₂ := (free_cons.mp hfree.2).2
  refine denotes_of_cases hwf (fun p hp1 hp2 => ?_) fun p hp => ?_
  · rw [entriesAt_insert, entriesAt_of_free hfree.1 hp1 hp2, entriesAt_of_free hfree₂ hp1 hp2,
      entryAt_withSize hhi', if_pos ⟨by omega, by omega⟩]
    exact congrArg ([·]) (entry_of_mergeWithPreceding hprev hhi p)
  · rw [entriesAt_insert, entriesAt_insert, entryAt_withSize hhi', prev.entryAt_eq]
    congr 2
    by_cases hpl : prev.lo ≤ p ∧ p < prev.hi
    · rw [if_pos hpl, if_pos ⟨hpl.1, by omega⟩]
    · rw [if_neg hpl, if_neg (by omega)]

theorem denotes_new {l₁ l₂ : List UvmmArena} (ops : Option Nat) (hwf : WellFormed (l₁ ++ l₂))
    (hm : Placeable (l₁ ++ l₂) n m) :
    Denotes (l₁ ++ { m.arena with ops := ops } :: l₂)
      (override (meaning (l₁ ++ l₂)) m.uaddr.toNat m.size.toNat (m.shows m.offsetInResource)) := by
  have hfree := free_append.mp hm.free
  refine denotes_of_cases hwf (fun p hp1 hp2 => ?_) fun p hp => ?_
  · rw [entriesAt_insert, entriesAt_of_free hfree.1 hp1 hp2, entriesAt_of_free hfree.2 hp1 hp2,
      entryAt_of_contains ⟨hp1, hp2⟩]
    rfl
  · rw [entriesAt_insert, entriesAt_append,
      entryAt_of_not_contains (a := { m.arena with ops := ops }) (p := p) hp]
    rfl

section Around

variable {l₁ l₂ : List UvmmArena} (hwf : WellFormed (l₁ ++ l₂)) (hm : Placeable (l₁ ++ l₂) n m)
  (hbelow : ∀ b ∈ l₁, b.hi ≤ m.uaddr.toNat) (habove : ∀ c ∈ l₂, m.uaddr.toNat ≤ c.lo)

include hwf hm hbelow habove

/-- An arena that shows what the mapping would show on the page before it is the neighbour the code looks
at. -/
theorem exists_preceding
    (h : meaning (l₁ ++ l₂) (m.uaddr.toNat - 4096) = some (m.arena.entry (m.uaddr.toNat - 4096))) :
    ∃ prev ∈ l₁.getLast?, mergeWithPreceding m prev = true := by
  obtain ⟨a, ha, hc, he⟩ := exists_of_meaning h
  have hu := hm.user
  have hok := hwf.arenas a ha
  have hc1 := hc.1
  have hc2 := hc.2
  have hal := hok.hi_aligned
  have hua := hm.aligned
  have hfree := hm.free a ha
  have hhi : a.hi = m.uaddr.toNat := by omega
  have hmerge := mergeWithPreceding_of_entry hok (word_lt _) hhi he
  have ha₁ : a ∈ l₁ := by
    rcases List.mem_append.mp ha with h1 | h2
    · exact h1
    · have := habove a h2
      omega
  rcases List.eq_nil_or_concat' l₁ with rfl | ⟨l, b, rfl⟩
  · cases ha₁
  refine ⟨b, List.getLast?_concat, ?_⟩
  have hblo := (hwf.arenas b (by simp)).lo_lt_hi
  rcases List.mem_append.mp ha₁ with h1 | h1
  · have := (wellFormed_append.mp (wellFormed_append.mp hwf).1).2.2 a h1 b (by simp)
    have := hbelow b (by simp)
    omega
  · rw [← List.mem_singleton.mp h1]
    exact hmerge

/-- The same for the page after it. -/
theorem exists_next
    (h : meaning (l₁ ++ l₂) (m.uaddr.toNat + m.size.toNat) =
      some (m.arena.entry (m.uaddr.toNat + m.size.toNat))) :
    ∃ next ∈ l₂.head?, mergeWithNext m next = true := by
  obtain ⟨a, ha, hc, he⟩ := exists_of_meaning h
  have hpos := hm.size_pos
  have hc1 := hc.1
  have hc2 := hc.2
  have hfree := hm.free a ha
  have ha₂ : a ∈ l₂ := by
    rcases List.mem_append.mp ha with h1 | h2
    · have := hbelow a h1
      omega
    · exact h2
  have hmerge := mergeWithNext_of_entry (m := m) (by omega) he
  cases l₂ with
  | nil => cases ha₂
  | cons c l₂ =>
    refine ⟨c, rfl, ?_⟩
    rcases List.mem_cons.mp ha₂ with rfl | h2
    · exact hmerge
    · have := (wellFormed_cons.mp (wellFormed_append.mp hwf).2.1).2.1 a h2
      have := (hwf.arenas c (by simp)).lo_lt_hi
      have := hm.free c (by simp)
      have := habove c List.mem_cons_self
      omega

end Around

/-- A mapping merged with the arena after it only moves the offsets of that arena's pages. -/
theorem not_denotes_next {l₁ l₂ : List UvmmArena} {next : UvmmArena}
    (hnext : mergeWithNext m next = true) (hwf : WellFormed (l₁ ++ next :: l₂))
    (hm : Placeable (l₁ ++ next :: l₂) n m) (spec : Nat → PageEntry) :
    ¬ Denotes (l₁ ++ { next with start := next.start - m.size, size := next.size + m.size } :: l₂)
      (override (meaning (l₁ ++ next :: l₂)) m.uaddr.toNat m.size.toNat spec) := by
  intro hden
  obtain ⟨h1, h2, hok, h3, h4, h5⟩ := wellFormed_insert.mp hwf
  have hlo := lo_of_mergeWithNext hnext hok hm.top
  have hpos := hm.size_pos
  have hlohi := hok.lo_lt_hi
  obtain ⟨hok', hlo', hhi'⟩ := widenDown_ok hok hm.aligned hm.user hlo
  have hcontains : next.Contains next.lo := ⟨le_rfl, hlohi⟩
  have hcontains' : ({ next with start := next.start - m.size, size := next.size + m.size } :
      UvmmArena).Contains next.lo := ⟨by rw [hlo']; omega, by rw [hhi']; exact hlohi⟩
  have hp := hden next.lo hok.start_aligned
  rw [override, if_neg (by omega), hwf.meaning_of_mem (by simp) hcontains, entriesAt_insert,
    entryAt_of_contains hcontains', entriesAt_eq_nil fun b hb hc => ?_,
    entriesAt_eq_nil fun b hb hc => ?_] at hp
  · -- the only entry is `size` bytes too far
    have he := List.singleton_inj.mp hp
    have hoff := congrArg PageEntry.offsetInResource he
    simp only [UvmmArena.entry, hlo'] at hoff
    have hu64 : UInt64.ofNat next.lo =
        UInt64.ofNat m.uaddr.toNat + UInt64.ofNat m.size.toNat := by
      rw [hlo, ← UInt64.ofNat_add]
    have hzero : UInt64.ofNat m.size.toNat = 0 := by
      rw [hu64] at hoff
      grind
    have := congrArg UInt64.toNat hzero
    rw [UInt64.toNat_ofNat_of_lt'] at this
    · have h0 : (0 : UInt64).toNat = 0 := rfl
      omega
    · have := word_lt m.size
      have h64 : UInt64.size = 18446744073709551616 := rfl
      omega
  · have := h4 b hb
    have := hc.1
    omega
  · have := h3 b hb
    have := hc.2
    omega

/-- With the arena before it merged, the page before the mapping shows what the mapping continues. -/
theorem not_continuesAfter {l₁ l₂ : List UvmmArena} {prev : UvmmArena}
    (hprev : mergeWithPreceding m prev = true) (hwf : WellFormed (l₁ ++ prev :: l₂))
    (hm : Placeable (l₁ ++ prev :: l₂) n m) :
    ¬ ContinuesAfter (meaning (l₁ ++ prev :: l₂)) m.uaddr.toNat m.size.toNat
      (m.shows m.offsetInResource) := by
  rintro ⟨_, hne⟩
  have hok := hwf.arenas prev (by simp)
  have hu := hm.user
  have hua := hm.aligned
  have hhi := hi_of_mergeWithPreceding hprev hok (by omega)
  have hst := hok.start_aligned
  have hlohi := hok.lo_lt_hi
  refine hne ?_
  rw [hwf.meaning_of_mem (a := prev) (by simp) ⟨by omega, by omega⟩,
    entry_of_mergeWithPreceding hprev hhi]
  rfl

/-- **A mapping that fits is inserted as the page map asks**, except when it continues into the arena
after it only. -/
theorem Inserted.denotes_iff (h : Inserted m l l') (hwf : WellFormed l) (hm : Placeable l n m)
    (offset : UInt64) :
    Denotes l' (override (meaning l) m.uaddr.toNat m.size.toNat (m.shows offset)) ↔
      offset = m.offsetInResource ∧
        ¬ ContinuesAfter (meaning l) m.uaddr.toNat m.size.toNat (m.shows m.offsetInResource) := by
  have hu := hm.user
  have hpos := hm.size_pos
  have hiff (hden : Denotes l' (override (meaning l) m.uaddr.toNat m.size.toNat
      (m.shows m.offsetInResource))) :
      Denotes l' (override (meaning l) m.uaddr.toNat m.size.toNat (m.shows offset)) ↔
        offset = m.offsetInResource := by
    constructor
    · intro hden'
      have hp := hden' m.uaddr.toNat hm.aligned
      rw [hden m.uaddr.toNat hm.aligned, override, override, if_pos ⟨le_rfl, by omega⟩,
        if_pos ⟨le_rfl, by omega⟩] at hp
      exact (shows_injective (List.singleton_inj.mp hp)).symm
    · rintro rfl
      exact hden
  cases h with
  | both hprev hnext =>
    rename_i l₁ l₂ prev next
    rw [hiff (denotes_both hprev hnext hwf hm), and_iff_left (not_continuesAfter hprev hwf hm)]
  | preceding hprev hnone =>
    rename_i l₁ l₂ prev
    rw [hiff (denotes_preceding hprev hwf hm), and_iff_left (not_continuesAfter hprev hwf hm)]
  | next hnone hnext =>
    rename_i l₁ l₂ next
    obtain ⟨h1, h2, hok, h3, h4, h5⟩ := wellFormed_insert.mp hwf
    have hlo := lo_of_mergeWithNext hnext hok hm.top
    have hlohi := hok.lo_lt_hi
    refine iff_of_false (not_denotes_next hnext hwf hm _) fun hc => hc.2 ⟨?_, fun hp => ?_⟩
    · rw [hwf.meaning_of_mem (a := next) (by simp) ⟨by omega, by omega⟩,
        entry_of_mergeWithNext hnext hlo]
      rfl
    · have hbelow : ∀ b ∈ l₁, b.hi ≤ m.uaddr.toNat := fun b hb => by
        have := h3 b hb
        have := (h1.arenas b hb).lo_lt_hi
        have := hm.free b (by simp [hb])
        omega
      have habove : ∀ c ∈ next :: l₂, m.uaddr.toNat ≤ c.lo := fun c hc => by
        rcases List.mem_cons.mp hc with rfl | hc
        · omega
        · have := h4 c hc
          omega
      obtain ⟨prev, hprev, hmerge⟩ := exists_preceding hwf hm hbelow habove hp
      rw [hnone prev hprev] at hmerge
      cases hmerge
  | new ops hlo hhi hprev hnext =>
    rename_i l₁ l₂
    rw [hiff (denotes_new ops hwf hm), and_iff_left]
    rintro ⟨hn, _⟩
    obtain ⟨next, hmem, hmerge⟩ := exists_next hwf hm hlo (fun c hc => by
      have := hhi c hc
      omega) hn
    rw [hnext next hmem] at hmerge
    cases hmerge

end Inserted

/-! ## A mapping over an arena -/

section Over

variable {L : List UvmmArena} {m : NewMapping} {b : UvmmArena}

theorem length_le_one {old : Nat → Option PageEntry} (h : Denotes L old) {p : Nat}
    (hp : p % 4096 = 0) : (entriesAt L p).length ≤ 1 := by
  rw [h p hp]
  cases old p <;> simp

theorem linkArena_perm {prev : Option UvmmArena} (hid : (L.map (·.id)).Nodup)
    (hprev : ∀ a ∈ prev, a ∈ L) (arena : UvmmArena) : (linkArena prev arena L).Perm (arena :: L) := by
  cases prev with
  | none => exact List.Perm.refl _
  | some a =>
    obtain ⟨l₁, l₂, rfl⟩ := List.append_of_mem (hprev a rfl)
    rw [linkArena, listInsertAfter_splice hid, ← List.singleton_append, ← List.append_assoc]
    refine List.perm_middle.trans ?_
    rw [List.append_assoc, List.singleton_append]

theorem entriesAt_modify_ops (id : Nat) (ops : Option Nat) (l : List UvmmArena) (p : Nat) :
    entriesAt (modifyArena id (fun a => { a with ops := ops }) l) p = entriesAt l p := by
  induction l with
  | nil => rfl
  | cons a l ih =>
    rw [modifyArena, List.map_cons, entriesAt_cons, entriesAt_cons, ← ih, modifyArena]
    split_ifs <;> rfl

/-- Two arenas that contain a page give it two entries. -/
theorem two_le_length {l : List UvmmArena} {a : UvmmArena} {p : Nat} (ha : a.Contains p) (hb : b ∈ l)
    (hbp : b.Contains p) : 2 ≤ (entriesAt (a :: l) p).length := by
  rw [entriesAt_cons, entryAt_of_contains ha, List.length_append]
  have hmem : b.entry p ∈ entriesAt l p :=
    List.mem_filterMap.mpr ⟨b, hb, entryAt_of_contains hbp⟩
  have := List.length_pos_of_mem hmem
  simp only [Option.toList_some, List.length_singleton]
  omega

/-- The arena the mapping runs into is the next one, and they are not merged. -/
theorem blocked_next (hwf : WellFormed L) (hblk : Blocked L m.size.toNat m.uaddr.toNat b) :
    (arenasFrom L m.uaddr).head? = some b ∧ mergeWithNext m b = false := by
  have happ := arenasBefore_append_arenasFrom L m.uaddr
  have hhi := arenasFrom_hi hwf m.uaddr
  have hb := hblk.mem
  have hlt := hblk.lt_hi
  refine ⟨?_, ?_⟩
  · cases hfrom : arenasFrom L m.uaddr with
    | nil =>
      rw [← happ, hfrom, List.append_nil] at hb
      have := hhi.1 b hb
      omega
    | cons next rest =>
      have hfromwf := (wellFormed_arenasFrom hwf m.uaddr).2
      rw [hfrom] at happ hhi hfromwf
      have hnext : next ∈ L := by rw [← happ]; simp
      have hfirst := hblk.first next hnext (hhi.2 next List.mem_cons_self)
      have hlohi := (hwf.arenas next hnext).lo_lt_hi
      rw [← happ, List.mem_append] at hb
      rcases hb with hb | hb
      · have := hhi.1 b hb
        omega
      · rcases List.mem_cons.mp hb with rfl | hb
        · rfl
        · have := (wellFormed_cons.mp hfromwf).2.1 b hb
          omega
  · have hlo := hblk.lo_lt
    have hw := hblk.no_wrap
    have huser := (hwf.arenas b hb).user
    have hs : b.lo = b.start.toNat := rfl
    have hsz := word_lt m.size
    by_contra hmerge
    rw [Bool.not_eq_false] at hmerge
    simp only [mergeWithNext, Bool.and_eq_true, beq_iff_eq] at hmerge
    have hst := congrArg UInt32.toNat hmerge.1.1.2
    rw [word_add] at hst
    omega

theorem mem_of_mapNeighbours {l : List UvmmArena} {u : UInt32} {prev : UvmmArena}
    (h : prev ∈ (mapNeighbours l u).1) : prev ∈ l := by
  rw [mapNeighbours] at h
  cases hnext : findEnclosingOrNextArena l u with
  | none =>
    rw [hnext] at h
    exact List.mem_of_getLast? h
  | some next =>
    rw [hnext] at h
    obtain ⟨h, _⟩ := Option.filter_eq_some_iff.mp h
    rcases Option.or_eq_some_iff.mp h with h | ⟨_, h⟩
    · exact List.takeWhile_subset _ (List.mem_of_getLast? h)
    · exact List.mem_of_getLast? h

/-- Widening the arena before the mapping over `b`: it meets `b`, or its 32-bit size wraps and it loses
its last page. -/
theorem not_denotes_widened {l₁ l₂ : List UvmmArena} {a : UvmmArena} {u : Nat} {size : UInt32}
    (hwf : WellFormed (l₁ ++ a :: l₂)) (hahi : a.hi = u) (hsize : size.toNat % 4096 = 0)
    (hpos : 0 < size.toNat) (hb : b ∈ l₁ ++ a :: l₂) (hlo : b.lo < u + size.toNat) (hlt : u < b.hi)
    {new : Nat → Option PageEntry} (hnew : ∀ p, p < u → new p = meaning (l₁ ++ a :: l₂) p) :
    ¬ Denotes (l₁ ++ { a with size := a.size + size } :: l₂) new := by
  intro hden
  obtain ⟨h1, h2, hok, h3, h4, _⟩ := wellFormed_insert.mp hwf
  have hbok := hwf.arenas b hb
  have hblo := hbok.lo_lt_hi
  have halo := hok.lo_lt_hi
  have hhi : a.hi = a.lo + a.size.toNat := rfl
  have hal := hok.hi_aligned
  have hst := hok.start_aligned
  have hsz := word_lt size
  have hasz := word_lt a.size
  have hb₂ : b ∈ l₂ := by
    rcases List.mem_append.mp hb with hb | hb
    · have := h3 b hb
      omega
    · rcases List.mem_cons.mp hb with rfl | hb
      · omega
      · exact hb
  by_cases hwrap : a.size.toNat + size.toNat < 4294967296
  · have hhi' : ({ a with size := a.size + size } : UvmmArena).hi = u + size.toNat := by
      show a.lo + (a.size + size).toNat = _
      rw [word_add]
      omega
    have hble := h4 b hb₂
    have hlen := length_le_one hden hbok.start_aligned
    have h2len := two_le_length (a := { a with size := a.size + size }) (p := b.lo)
      ⟨by show a.lo ≤ b.lo; omega, by rw [hhi']; exact hlo⟩ hb₂ ⟨le_rfl, hblo⟩
    rw [entriesAt_append, List.length_append] at hlen
    omega
  · have hhi' : ({ a with size := a.size + size } : UvmmArena).hi + 4294967296 = u + size.toNat := by
      show a.lo + (a.size + size).toNat + _ = _
      rw [word_add]
      omega
    have hp := hden (u - 4096) (by omega)
    rw [hnew _ (by omega), hwf.meaning_of_mem (a := a) (by simp) ⟨by omega, by omega⟩,
      entriesAt_eq_nil fun c hc hcp => ?_] at hp
    · cases hp
    · have hc1 := hcp.1
      have hc2 := hcp.2
      rcases List.mem_append.mp hc with hc | hc
      · have := h3 c hc
        omega
      · rcases List.mem_cons.mp hc with rfl | hc
        · omega
        · have := h4 c hc
          omega

/-- **A mapping that runs into an arena** leaves a list that denotes no map at all, or loses the page
before the mapping. -/
theorem not_denotes_of_blocked (E : UvmmEnv W) {s : UvmmState W}
    (hwf : WellFormed s.addressSpace.listArena)
    (hid : (s.addressSpace.listArena.map (·.id)).Nodup)
    (haligned : m.uaddr.toNat % 4096 = 0) (hsize : m.size.toNat % 4096 = 0)
    (hpos : 0 < m.size.toNat) (huser : 1073741824 ≤ m.uaddr.toNat)
    (hblk : Blocked s.addressSpace.listArena m.size.toNat m.uaddr.toNat b)
    (hmmap : ∀ a w, (E.mmap (m.resource.mmap.getD 0) a w).1 = 0) {new : Nat → Option PageEntry}
    (hnew : ∀ p, p < m.uaddr.toNat → new p = meaning s.addressSpace.listArena p) :
    ¬ Denotes (uvmmMapInsert E s m).2.2.addressSpace.listArena new := by
  intro hden
  obtain ⟨hhead, hnext⟩ := blocked_next hwf hblk
  have hnb : (mapNeighbours s.addressSpace.listArena m.uaddr).2 = some b := by
    rw [mapNeighbours, findEnclosingOrNextArena_eq, hhead]
  have hmem : ∀ prev ∈ (mapNeighbours s.addressSpace.listArena m.uaddr).1,
      prev ∈ s.addressSpace.listArena := fun _ => mem_of_mapNeighbours
  obtain ⟨prev, hprev⟩ : ∃ prev, prev = (mapNeighbours s.addressSpace.listArena m.uaddr).1 :=
    ⟨_, rfl⟩
  rw [← hprev] at hmem
  have hpair : mapNeighbours s.addressSpace.listArena m.uaddr = (prev, some b) :=
    Prod.ext hprev.symm hnb
  have hbok := hwf.arenas b hblk.mem
  have hblo := hbok.lo_lt_hi
  have hbal := hbok.start_aligned
  have hlt := hblk.lt_hi
  have hlo := hblk.lo_lt
  have hfilter : (some b).filter (mergeWithNext m) = none := by simp [hnext]
  simp only [uvmmMapInsert, hpair, hfilter] at hden
  cases hp : prev.filter (mergeWithPreceding m) with
  | some a =>
    obtain ⟨hmem', hmerge⟩ := Option.filter_eq_some_iff.mp hp
    have ha := hmem a hmem'
    have hahi := hi_of_mergeWithPreceding hmerge (hwf.arenas a ha) (by omega)
    obtain ⟨l₁, l₂, hl⟩ := List.append_of_mem ha
    rw [hp, mapDone_listArena] at hden
    have hwf' : WellFormed (l₁ ++ a :: l₂) := hl ▸ hwf
    refine not_denotes_widened hwf' hahi hsize hpos (hl ▸ hblk.mem) hlo hlt (hl ▸ hnew) ?_
    have hsplice := modifyArena_splice (hl ▸ hid) fun c : UvmmArena =>
      { c with size := c.size + m.size }
    rw [← hsplice, ← hl]
    exact hden
  | none =>
    have hlist : (uvmmMapNew E s m prev).2.2.addressSpace.listArena =
        modifyArena m.preId
          (fun a => { a with ops := (E.mmap (m.resource.mmap.getD 0) m.arena
            (E.resourceAddTail m.arena s.world)).2.1 })
          (linkArena prev m.arena s.addressSpace.listArena) := by
      simp only [uvmmMapNew]
      rw [if_neg (not_not.mpr (hmmap _ _)), mapDone_listArena]
      rfl
    simp only [hp] at hden
    rw [hlist] at hden
    -- the new arena and the one it runs into both contain this page
    obtain ⟨p, hp'⟩ : ∃ p, p = max m.uaddr.toNat b.lo := ⟨_, rfl⟩
    have hlen := length_le_one hden (p := p) (by omega)
    have hperm := (linkArena_perm hid hmem m.arena).filterMap (·.entryAt p)
    have h2len := two_le_length (a := m.arena) (p := p)
      ⟨by show m.uaddr.toNat ≤ p; omega, by show p < m.uaddr.toNat + m.size.toNat; omega⟩ hblk.mem
      ⟨by omega, by omega⟩
    rw [entriesAt_modify_ops] at hlen
    have := hperm.length_eq
    simp only [entriesAt] at hlen h2len
    omega

end Over

/-! ## The whole call -/

/-- The entries asked for: from the offset given, or from the address itself for an anonymous
resource. -/
def askedEntry (uaddr accessRights flags : UInt32) (resource : UvmmMappedResource)
    (offsetInResource : UInt64) (p : Nat) : PageEntry where
  resource := resource.addr
  offsetInResource :=
    (if hasFlag resource.flags mappedResourceAnonymous then uaddr.toUInt64 else offsetInResource) +
      UInt64.ofNat p - UInt64.ofNat uaddr.toNat
  accessRights := accessRights &&& (pRead ||| pWrite ||| pUser)
  flags := flags &&& (arenaMapShared ||| arenaMapFixed)

/-- Where a mapping goes: to a fixed address, with no arena up to the top of the address space in the way,
or to the first fit where the search finds it. -/
def MapsAt (l : List UvmmArena) (hintUaddr size flags uaddr : UInt32) : Prop :=
  if hasFlag (flags &&& (arenaMapShared ||| arenaMapFixed)) arenaMapFixed then
    uaddr = hintUaddr ∧ ∀ a ∈ l, a.hi = 4294967296 →
      hintUaddr.toNat + (pageAlignSup size).toNat ≤ a.lo
  else Findable l (searchStart hintUaddr) (pageAlignSup size).toNat uaddr.toNat

/-- When a call overrides the page map as asked: its place is free, it does not continue into the arena
after it only, and an anonymous resource is not given another offset by a call from `uvmm_resize`. -/
def MapRefines (l : List UvmmArena) (hintUaddr size accessRights flags : UInt32)
    (resource : UvmmMappedResource) (offsetInResource : UInt64) : Prop :=
  ∃ uaddr, MapsAt l hintUaddr size flags uaddr ∧
    (hasFlag resource.flags mappedResourceAnonymous →
      hasFlag flags internalMapCalledFromMremap → offsetInResource = uaddr.toUInt64) ∧
    ¬ ContinuesAfter (meaning l) uaddr.toNat (pageAlignSup size).toNat
      (askedEntry uaddr accessRights flags resource offsetInResource)

/-- The offset recorded is the one asked for, unless the call comes from `uvmm_resize`. -/
theorem asked_offset_eq_iff {uaddr size accessRights flags : UInt32} {resource : UvmmMappedResource}
    {offsetInResource : UInt64} {preId : Nat} :
    (if hasFlag resource.flags mappedResourceAnonymous then uaddr.toUInt64 else offsetInResource) =
        (askedMapping uaddr size accessRights flags resource offsetInResource
          preId).offsetInResource ↔
      (hasFlag resource.flags mappedResourceAnonymous →
        hasFlag flags internalMapCalledFromMremap → offsetInResource = uaddr.toUInt64) := by
  simp only [askedMapping]
  cases hasFlag resource.flags mappedResourceAnonymous <;>
    cases hasFlag flags internalMapCalledFromMremap <;> simp [eq_comm]

section Region

variable {l : List UvmmArena} {uaddr size : UInt32}

/-- Cutting a region out of a list removes the entries of its pages, an arena up to the top of the address
space apart. -/
theorem entriesAt_flatMap_cut (hr : Region uaddr size) (hok : ∀ a ∈ l, a.Ok)
    (htop : ∀ a ∈ l, a.hi = 4294967296 → uaddr.toNat + size.toNat ≤ a.lo) (preId p : Nat) :
    entriesAt (l.flatMap (cut uaddr size preId)) p =
      if uaddr.toNat ≤ p ∧ p < uaddr.toNat + size.toNat then [] else entriesAt l p := by
  induction l with
  | nil => simp
  | cons a l ih =>
    rw [List.forall_mem_cons] at hok htop
    rw [List.flatMap_cons, entriesAt_append, entriesAt_cut hr hok.1, ih hok.2 htop.2, entriesAt_cons]
    by_cases hp : uaddr.toNat ≤ p ∧ p < uaddr.toNat + size.toNat
    · rw [if_pos hp, if_pos hp, List.append_nil]
      by_cases hhi : a.hi = 4294967296
      · rw [if_neg fun h => h.1 hhi, entryAt_of_not_contains fun hc => ?_]
        · rfl
        · have := htop.1 hhi
          have := hc.1
          omega
      · rw [if_pos ⟨hhi, hp⟩]
    · rw [if_neg hp, if_neg hp, if_neg fun h => hp h.2]

/-- Outside the region the pages keep their entries in any case. -/
theorem meaning_flatMap_cut (hr : Region uaddr size) (hok : ∀ a ∈ l, a.Ok) (preId : Nat) {p : Nat}
    (hp : ¬ (uaddr.toNat ≤ p ∧ p < uaddr.toNat + size.toNat)) :
    meaning (l.flatMap (cut uaddr size preId)) p = meaning l p := by
  have h : entriesAt (l.flatMap (cut uaddr size preId)) p = entriesAt l p := by
    induction l with
    | nil => rfl
    | cons a l ih =>
      rw [List.forall_mem_cons] at hok
      rw [List.flatMap_cons, entriesAt_append, entriesAt_cut hr hok.1, if_neg fun h => hp h.2,
        ih hok.2, entriesAt_cons]
  rw [meaning, meaning, h]

end Region

theorem MapsAt.unique {l : List UvmmArena} {hintUaddr size flags u u' : UInt32}
    (h : MapsAt l hintUaddr size flags u) (h' : MapsAt l hintUaddr size flags u') : u = u' := by
  rw [MapsAt] at h h'
  split_ifs at h h' with hfixed
  · rw [h.1, h'.1]
  · exact word_eq_iff.mpr (h.fit.unique h'.fit)

/-- What is left of the condition once the place is known, in terms of the mapping inserted there. -/
theorem mapRefines_iff {l : List UvmmArena} {hintUaddr size accessRights flags u : UInt32}
    {resource : UvmmMappedResource} {offsetInResource : UInt64} (preId : Nat)
    (h : MapsAt l hintUaddr size flags u) :
    let m := askedMapping u size accessRights flags resource offsetInResource preId
    MapRefines l hintUaddr size accessRights flags resource offsetInResource ↔
      (if hasFlag resource.flags mappedResourceAnonymous then u.toUInt64 else offsetInResource) =
          m.offsetInResource ∧
        ¬ ContinuesAfter (meaning l) m.uaddr.toNat m.size.toNat (m.shows m.offsetInResource) := by
  intro m
  constructor
  · rintro ⟨u', hu', hoff, hcont⟩
    obtain rfl := h.unique hu'
    have heq := (@asked_offset_eq_iff u size accessRights flags resource offsetInResource preId).mpr hoff
    refine ⟨heq, ?_⟩
    rw [← heq]
    exact hcont
  · rintro ⟨heq, hcont⟩
    refine ⟨u, h, asked_offset_eq_iff.mp heq, ?_⟩
    rw [← heq] at hcont
    exact hcont

/-- A mapping inserted where it fits, in a list that agrees with the old one outside of it. -/
theorem insert_refines_iff (E : UvmmEnv W) {s₁ s' : UvmmState W} (h₁ : Inv s₁) {l : List UvmmArena}
    {hintUaddr size accessRights flags u uaddr : UInt32} {resource : UvmmMappedResource}
    {offsetInResource : UInt64} {preId : Nat}
    (hmmap : ∀ a w, (E.mmap (resource.mmap.getD 0) a w).1 = 0)
    (hm : Placeable s₁.addressSpace.listArena s₁.nextId
      (askedMapping u size accessRights flags resource offsetInResource preId))
    (hat : MapsAt l hintUaddr size flags u)
    (hagree : ∀ p, ¬ (u.toNat ≤ p ∧ p < u.toNat + (pageAlignSup size).toNat) →
      meaning s₁.addressSpace.listArena p = meaning l p)
    (hret : (0, uaddr, s') = uvmmMapInsert E s₁
      (askedMapping u size accessRights flags resource offsetInResource preId)) :
    Denotes s'.addressSpace.listArena
        (override (meaning l) uaddr.toNat (pageAlignSup size).toNat
          (askedEntry uaddr accessRights flags resource offsetInResource)) ↔
      MapRefines l hintUaddr size accessRights flags resource offsetInResource := by
  obtain ⟨l', hins, ⟨_, huaddr, hl', _⟩ | ⟨_, _, _, ⟨a, w, hfail⟩, _⟩⟩ :=
    uvmmMapInsert_inserted E h₁ hm
  swap
  · exact absurd (hmmap a w) hfail
  rw [← hret] at huaddr hl'
  obtain rfl : uaddr = u := huaddr
  have hpos := hm.size_pos
  have huser := hm.user
  have hover : ∀ entry, override (meaning s₁.addressSpace.listArena) uaddr.toNat
      (pageAlignSup size).toNat entry =
      override (meaning l) uaddr.toNat (pageAlignSup size).toNat entry := by
    intro entry
    funext p
    rw [override, override]
    split_ifs with hp
    · rfl
    · exact hagree p hp
  have hcont : ∀ entry, ContinuesAfter (meaning s₁.addressSpace.listArena) uaddr.toNat
      (pageAlignSup size).toNat entry ↔
      ContinuesAfter (meaning l) uaddr.toNat (pageAlignSup size).toNat entry := by
    intro entry
    have hu : 1073741824 ≤ uaddr.toNat := huser
    rw [ContinuesAfter, ContinuesAfter, hagree _ (by omega), hagree _ (by omega)]
  refine Iff.trans ?_ (mapRefines_iff preId hat).symm
  rw [hl']
  have hden := hins.denotes_iff h₁.wellFormed hm
    (if hasFlag resource.flags mappedResourceAnonymous then uaddr.toUInt64 else offsetInResource)
  have hover' := hover (askedEntry uaddr accessRights flags resource offsetInResource)
  rw [← hover']
  exact hden.trans (and_congr_right fun _ => not_congr (hcont _))

/-- An arena up to the top of the address space is still in the way after `uvmm_unmap`. -/
theorem blocked_top {l : List UvmmArena} {uaddr size : UInt32} (preId : Nat) {b : UvmmArena}
    (hr : Region uaddr size) (hwf : WellFormed l) (hb : b ∈ l) (htop : b.hi = 4294967296)
    (hlt : b.lo < uaddr.toNat + size.toNat) :
    Blocked (l.flatMap (cut uaddr size preId)) size.toNat uaddr.toNat b := by
  have hw := word_lt uaddr
  have hrt := hr.top
  refine ⟨List.mem_flatMap.mpr ⟨b, hb, ?_⟩, hlt, by omega, fun a ha halt => ?_, .inr (by omega)⟩
  · rw [cut, if_pos (.inr (.inr htop))]
    exact List.mem_singleton_self b
  · obtain ⟨c, hc, hac⟩ := List.mem_flatMap.mp ha
    have hblo : b.lo < 4294967296 := word_lt b.start
    rcases mem_cut hac with ⟨rfl, h1⟩ | ⟨h1, _, rfl⟩ | ⟨h1, h2, _, ⟨_, rfl⟩ | ⟨_, rfl⟩⟩
    · by_contra hlo
      have := hwf.hi_le_lo hc hb (not_le.mp hlo)
      omega
    · rw [splitLeft_hi h1] at halt
      omega
    · rw [splitRight_lo hr]
      omega
    · rw [shiftStart_lo hr h1]
      omega

/-- The address a successful insertion returns. -/
theorem uvmmMapInsert_uaddr (E : UvmmEnv W) (s : UvmmState W) {m : NewMapping}
    (hmmap : ∀ a w, (E.mmap (m.resource.mmap.getD 0) a w).1 = 0) :
    (uvmmMapInsert E s m).2.1 = m.uaddr := by
  simp only [uvmmMapInsert]
  split
  · rfl
  · rfl
  · rfl
  · simp only [uvmmMapNew]
    rw [if_neg (not_not.mpr (hmmap _ _))]
    rfl

/-- A mapping inserted over an arena. -/
theorem not_refines_of_blocked (E : UvmmEnv W) {s₁ s' : UvmmState W} (h₁ : Inv s₁)
    {l : List UvmmArena} {size accessRights flags u uaddr : UInt32} {resource : UvmmMappedResource}
    {offsetInResource : UInt64} {preId : Nat} {b : UvmmArena}
    (hmmap : ∀ a w, (E.mmap (resource.mmap.getD 0) a w).1 = 0)
    (haligned : u.toNat % 4096 = 0) (hpos : 0 < (pageAlignSup size).toNat)
    (huser : 1073741824 ≤ u.toNat)
    (hblk : Blocked s₁.addressSpace.listArena (pageAlignSup size).toNat u.toNat b)
    (hagree : ∀ p, p < u.toNat → meaning l p = meaning s₁.addressSpace.listArena p)
    (hret : (0, uaddr, s') = uvmmMapInsert E s₁
      (askedMapping u size accessRights flags resource offsetInResource preId)) :
    ¬ Denotes s'.addressSpace.listArena
        (override (meaning l) uaddr.toNat (pageAlignSup size).toNat
          (askedEntry uaddr accessRights flags resource offsetInResource)) := by
  have huaddr := uvmmMapInsert_uaddr E s₁ (m := askedMapping u size accessRights flags resource
    offsetInResource preId) hmmap
  rw [← hret] at huaddr
  obtain rfl : uaddr = u := huaddr
  have hnew : ∀ p, p < uaddr.toNat → override (meaning l) uaddr.toNat (pageAlignSup size).toNat
      (askedEntry uaddr accessRights flags resource offsetInResource) p =
        meaning s₁.addressSpace.listArena p := by
    intro p hp
    rw [override, if_neg (fun h => absurd h.1 (not_le.mpr hp)), hagree p hp]
  have hden := not_denotes_of_blocked (m := askedMapping uaddr size accessRights flags resource
    offsetInResource preId) E h₁.wellFormed h₁.distinct.nodup haligned (pageAlignSup_aligned size)
    hpos huser hblk hmmap hnew
  rw [← hret] at hden
  exact hden

/-- **`uvmm_map` against the override**: a successful call leaves exactly the page map asked for if and
only if `MapRefines` holds before it. -/
theorem uvmmMap_refines_iff (E : UvmmEnv W) {s s' : UvmmState W} (h : Inv s)
    {hintUaddr size accessRights flags uaddr : UInt32} {resource : UvmmMappedResource}
    {offsetInResource : UInt64} (hmmap : ∀ a w, (E.mmap (resource.mmap.getD 0) a w).1 = 0)
    (hret : uvmmMap E s hintUaddr size accessRights flags (some resource) offsetInResource =
      (0, uaddr, s')) :
    Denotes s'.addressSpace.listArena
        (override (meaning s.addressSpace.listArena) uaddr.toNat (pageAlignSup size).toNat
          (askedEntry uaddr accessRights flags resource offsetInResource)) ↔
      MapRefines s.addressSpace.listArena hintUaddr size accessRights flags resource
        offsetInResource := by
  have hsize := pageAlignSup_aligned size
  rcases uvmmMap_cases E s hintUaddr size accessRights flags (some resource) offsetInResource with
    ⟨hne, _⟩ | ⟨res, hcheck, _, ⟨hfixed, hunmap, hr⟩ | ⟨hfixed, hne, hr⟩⟩
  · rw [hret] at hne
    exact absurd rfl hne
  · obtain rfl : resource = res := Option.some.inj (uvmmMapCheck_ok hcheck).1
    rw [hret] at hr
    have h₁ := (h.allocArena E).uvmmUnmap E hintUaddr (pageAlignSup size)
    obtain ⟨hreg, hpos, _, hl₁⟩ := uvmmUnmap_zero E (h.allocArena E).wellFormed hsize hunmap
    by_cases htop : ∀ a ∈ s.addressSpace.listArena, a.hi = 4294967296 →
        hintUaddr.toNat + (pageAlignSup size).toNat ≤ a.lo
    · have hat : MapsAt s.addressSpace.listArena hintUaddr size flags hintUaddr := by
        rw [MapsAt, if_pos hfixed]
        exact ⟨rfl, htop⟩
      have hm := placeable_fixed (m := askedMapping hintUaddr size accessRights flags resource
        offsetInResource s.nextId) E h hsize rfl hunmap htop
      refine insert_refines_iff E h₁ hmmap hm hat (fun p hp => ?_) hr
      rw [hl₁, meaning_flatMap_cut hreg (h.allocArena E).wellFormed.arenas _ hp]
      rfl
    · -- an arena up to the top of the address space is in the way
      have hnot : ¬ MapRefines s.addressSpace.listArena hintUaddr size accessRights flags resource
          offsetInResource := by
        rintro ⟨u, hat, _⟩
        rw [MapsAt, if_pos hfixed] at hat
        exact htop hat.2
      refine iff_of_false (fun hden => ?_) hnot
      push Not at htop
      obtain ⟨b, hb, hbhi, hblt⟩ := htop
      have hblk := blocked_top (s.nextId + 1) hreg h.wellFormed hb hbhi hblt
      refine not_refines_of_blocked E h₁ hmmap hreg.aligned hpos hreg.user (b := b) ?_
        (fun p hp => ?_) hr hden
      · rw [hl₁]
        exact hblk
      · rw [hl₁]
        exact (meaning_flatMap_cut hreg h.wellFormed.arenas _ (by omega)).symm
  · obtain rfl : resource = res := Option.some.inj (uvmmMapCheck_ok hcheck).1
    rw [hret] at hr
    have hpos : 0 < (pageAlignSup size).toNat := by
      by_contra hz
      exact hne (findFirstFreeInterval_zero _ _ (by omega))
    have hhint := (uvmmMapCheck_ok hcheck).2
    rcases findFirstFreeInterval_cases h.wellFormed hintUaddr hpos with
      ⟨h0, _⟩ | ⟨_, htop, hfit⟩ | ⟨hle, _, hnone, _, hstart, b, hb⟩
    · exact absurd (word_eq_iff.mpr h0) hne
    · have hat : MapsAt s.addressSpace.listArena hintUaddr size flags
          (findFirstFreeInterval s.addressSpace.listArena hintUaddr (pageAlignSup size)) := by
        rw [MapsAt, hfixed, if_neg Bool.false_ne_true]
        exact hfit
      have hm : Placeable s.addressSpace.listArena (s.nextId + 1) (askedMapping
          (findFirstFreeInterval s.addressSpace.listArena hintUaddr (pageAlignSup size)) size
          accessRights flags resource offsetInResource s.nextId) :=
        placeable_found h hhint hsize hpos rfl rfl hfit.fit htop
      exact insert_refines_iff E (h.allocArena E) hmmap hm hat (fun _ _ => rfl) hr
    · -- the search answered an address inside or below an arena
      have hnot : ¬ MapRefines s.addressSpace.listArena hintUaddr size accessRights flags resource
          offsetInResource := by
        rintro ⟨u, hat, _⟩
        rw [MapsAt, hfixed, if_neg Bool.false_ne_true] at hat
        exact hnone _ hat
      refine iff_of_false (fun hden => ?_) hnot
      have hlow : 1073741824 ≤ searchStart hintUaddr := by
        simp only [searchStart]
        omega
      refine not_refines_of_blocked E (h.allocArena E) hmmap ?_ hpos (by omega) (b := b) hb
        (fun _ _ => rfl) hr hden
      rcases hstart with he | ⟨a, ha, he⟩
      · rw [he]
        simp only [searchStart]
        omega
      · rw [he]
        exact (h.wellFormed.arenas a ha).hi_aligned

/-! ## One call that refines the override, and one that does not -/

theorem uvmmMap_refines_first :
    Denotes (uvmmMap quietEnv (uvmmCreateEmptyAs ()) 0x40000000 0x2000 3 0 (some zeroResource)
        0).2.2.addressSpace.listArena
      (override (meaning []) 0x40000000 0x2000
        (askedEntry 0x40000000 3 0 zeroResource 0)) := by
  have hret : uvmmMap quietEnv (uvmmCreateEmptyAs ()) 0x40000000 0x2000 3 0 (some zeroResource) 0 =
      (0, 0x40000000, (uvmmMap quietEnv (uvmmCreateEmptyAs ()) 0x40000000 0x2000 3 0
        (some zeroResource) 0).2.2) := Prod.ext (by decide) (Prod.ext (by decide) rfl)
  have hinv : Inv (uvmmCreateEmptyAs ()) := ⟨wellFormed_nil, List.nodup_nil, fun _ h => by cases h⟩
  refine (uvmmMap_refines_iff quietEnv hinv (fun _ _ => rfl) hret).mpr ⟨0x40000000, ?_, ?_, ?_⟩
  · rw [MapsAt, if_neg (by decide)]
    exact ⟨⟨by decide, fun a ha => (by cases ha), fun g h1 h2 => absurd h2 (not_lt.mpr h1)⟩,
      .inl fun a ha => by cases ha⟩
  · decide
  · rintro ⟨h, _⟩
    cases h

/-- One page of a file, at offset `0x1000`. -/
def oneFilePage : UvmmState Unit where
  addressSpace := { listArena := [⟨0, 0x40001000, 0x1000, 3, 0, some 1, fileResource, 0x1000⟩] }
  freed := []
  nextId := 1
  world := ()

/-- Mapping the page of the file before it shifts the page that was there: it shows offset `0x2000`. -/
theorem uvmmMap_shifts_next :
    Inv oneFilePage ∧
      (uvmmMap quietEnv oneFilePage 0x40000000 0x1000 3 0 (some fileResource) 0).1 = 0 ∧
      (uvmmMap quietEnv oneFilePage 0x40000000 0x1000 3 0 (some fileResource) 0).2.1 =
        0x40000000 ∧
      ¬ Denotes (uvmmMap quietEnv oneFilePage 0x40000000 0x1000 3 0 (some fileResource)
          0).2.2.addressSpace.listArena
        (override (meaning oneFilePage.addressSpace.listArena) 0x40000000 0x1000
          (askedEntry 0x40000000 3 0 fileResource 0)) := by
  refine ⟨⟨wellFormed_cons.mpr ⟨⟨by decide, by decide, by decide, by decide, by decide⟩,
    fun b hb => (by cases hb), wellFormed_nil⟩, ⟨by decide, by decide⟩⟩, by decide, by decide,
    fun h => ?_⟩
  have hpage := h 0x40001000 (by decide)
  revert hpage
  decide

end Desiros.Mem
