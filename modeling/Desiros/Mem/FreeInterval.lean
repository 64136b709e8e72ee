import Desiros.Mem.ArenaMap

/-!
# What `find_first_free_interval` finds

The search wants the first free interval of `size` bytes at or after an address `h` (the hint, or
`USER_OFFSET` for a lower one). `Findable` says when it gets there: the interval lies below an arena, or
no arena ends above `h`. In every other case the loop comes to the tail of the list, tests the room up to
the top of user space with the hint it had *before* the tail, and answers an address the tail covers
(`findFirstFreeInterval_spec`). It answers `0` near the top of user space, and where the only arena starts behind
the hint, whatever room there is elsewhere (`findFirstFreeInterval_null_iff`).
-/

namespace Desiros.Mem

open Desiros.Library

/-- No arena meets `[g, g + size)`. -/
def Free (l : List UvmmArena) (g size : Nat) : Prop := ∀ a ∈ l, a.hi ≤ g ∨ g + size ≤ a.lo

/-- Where the search starts. -/
def searchStart (hint : UInt32) : Nat := max hint.toNat 1073741824

/-- `g` is the first place at or after `h` with `size` free bytes. -/
structure FirstFit (l : List UvmmArena) (h size g : Nat) : Prop where
  le : h ≤ g
  free : Free l g size
  first : ∀ g', h ≤ g' → g' < g → ¬ Free l g' size

theorem FirstFit.unique {l : List UvmmArena} {h size g g' : Nat} (h1 : FirstFit l h size g)
    (h2 : FirstFit l h size g') : g = g' := by
  rcases Nat.lt_trichotomy g g' with hlt | heq | hlt
  · exact absurd h1.free (h2.first g h1.le hlt)
  · exact heq
  · exact absurd h2.free (h1.first g' h2.le hlt)

/-- The first fit is below an arena, or there is no arena above `h`. -/
structure Findable (l : List UvmmArena) (h size g : Nat) : Prop where
  fit : FirstFit l h size g
  below : (∀ a ∈ l, a.hi ≤ h) ∨ ∃ a ∈ l, g + size ≤ a.lo

/-- `r` is no place for `size` bytes: it runs into the first arena that ends above it. -/
structure Blocked (l : List UvmmArena) (size r : Nat) (b : UvmmArena) : Prop where
  mem : b ∈ l
  lo_lt : b.lo < r + size
  lt_hi : r < b.hi
  first : ∀ a ∈ l, r < a.hi → b.lo ≤ a.lo
  no_wrap : r ≤ b.lo ∨ r + size ≤ 4294967296

theorem free_cons {a : UvmmArena} {l : List UvmmArena} {g size : Nat} :
    Free (a :: l) g size ↔ (a.hi ≤ g ∨ g + size ≤ a.lo) ∧ Free l g size := List.forall_mem_cons

theorem free_append {l l' : List UvmmArena} {g size : Nat} :
    Free (l ++ l') g size ↔ Free l g size ∧ Free l' g size := List.forall_mem_append

/-- From an arena on, with a hint below its end: the loop finds the first fit below an arena, or else
there is none and it answers a blocked address. `initial` or the arenas behind the tail start below every
hint the loop reaches. -/
theorem freeIntervalScan_spec {size : UInt32} (initial : UvmmArena) (before : List UvmmArena) :
    ∀ (rest : List UvmmArena) (a : UvmmArena) (hint : UInt32), WellFormed (a :: rest) →
      hint.toNat < a.hi → (hint.toNat ≤ a.lo ∨ hint.toNat + size.toNat ≤ 4294967296) →
      (before.headD initial).start.toNat < a.hi →
      (rest = [] → (before.headD initial).start.toNat < hint.toNat) →
      let r := (freeIntervalScan size initial hint (a :: rest ++ before)).toNat
      hint.toNat ≤ r ∧ (r = hint.toNat ∨ ∃ b ∈ a :: rest, r = b.hi) ∧
      ((FirstFit (a :: rest) hint.toNat size.toNat r ∧ ∃ b ∈ a :: rest, r + size.toNat ≤ b.lo) ∨
        (∀ g, hint.toNat ≤ g → Free (a :: rest) g size.toNat →
          ∀ b ∈ a :: rest, ¬ g + size.toNat ≤ b.lo) ∧ ∃ b, Blocked (a :: rest) size.toNat r b) := by
  intro rest
  induction rest with
  | nil =>
    intro a hint hwf hlt hwrap _ hnext
    have hw := word_lt a.start
    have hs : a.lo = a.start.toNat := rfl
    have hsz := word_lt size
    rw [List.cons_append, List.nil_append, freeIntervalScan]
    by_cases h1 : hint + size ≤ a.start
    · rw [if_pos h1]
      rw [word_le_iff, word_add] at h1
      refine ⟨le_rfl, .inl rfl, ?_⟩
      by_cases h2 : hint.toNat + size.toNat ≤ a.lo
      · refine .inl ⟨⟨le_rfl, ?_, fun g' h h' => absurd h (by omega)⟩, a, by simp, h2⟩
        exact free_cons.mpr ⟨.inr h2, by simp [Free]⟩
      · refine .inr ⟨fun g hg _ b hb => ?_, a, by simp, by omega, hlt, by simp, hwrap⟩
        rw [List.mem_singleton.mp hb]
        omega
    · rw [if_neg h1, if_neg (by rw [ge_iff_le, word_le_iff]; exact not_le.mpr (hnext rfl))]
      rw [word_le_iff, word_add] at h1
      rw [if_pos (by
        rw [word_le_iff, word_sub, toNat_pagingTopUserAddress]
        omega)]
      refine ⟨le_rfl, .inl rfl, .inr ⟨fun g hg _ b hb => ?_, a, by simp, by omega, hlt, by simp,
        hwrap⟩⟩
      rw [List.mem_singleton.mp hb]
      omega
  | cons c rest ih =>
    intro a hint hwf hlt hwrap hbefore _
    obtain ⟨hok, hlo, hl⟩ := wellFormed_cons.mp hwf
    have hac := hlo c List.mem_cons_self
    have hlohi := hok.lo_lt_hi
    have hc := (hl.arenas c List.mem_cons_self).lo_lt_hi
    have hw := word_lt a.start
    have hs : a.lo = a.start.toNat := rfl
    have hsc : c.lo = c.start.toNat := rfl
    have hwc := word_lt c.start
    have hsz := word_lt size
    have habove : ∀ b ∈ c :: rest, a.hi ≤ b.lo := hlo
    rw [List.cons_append, freeIntervalScan]
    by_cases h1 : hint + size ≤ a.start
    · rw [if_pos h1]
      rw [word_le_iff, word_add] at h1
      refine ⟨le_rfl, .inl rfl, ?_⟩
      by_cases h2 : hint.toNat + size.toNat ≤ a.lo
      · refine .inl ⟨⟨le_rfl, ?_, fun g' h h' => absurd h (by omega)⟩, a, by simp, h2⟩
        refine free_cons.mpr ⟨.inr h2, fun b hb => ?_⟩
        have := habove b hb
        omega
      · refine .inr ⟨fun g hg _ b hb => ?_, a, by simp, by omega, hlt, fun b hb _ => ?_, hwrap⟩
        swap
        · rcases List.mem_cons.mp hb with rfl | hb
          · exact le_rfl
          · have := habove b hb
            omega
        have : b.lo < 4294967296 := word_lt b.start
        omega
    · have hnext : ((c :: rest ++ before).headD initial).start ≥ hint := by
        rw [ge_iff_le, word_le_iff]
        show hint.toNat ≤ c.start.toNat
        omega
      rw [if_neg h1, if_pos hnext]
      rw [word_le_iff, word_add] at h1
      have hend : (a.start + a.size).toNat = a.hi := by
        rw [hok.toNat_end, if_neg (by omega)]
      have hih := ih c (a.start + a.size) hl (by omega) (.inl (by omega)) (by omega)
        (fun _ => by omega)
      rw [hend] at hih
      obtain ⟨hle, hend', hcases⟩ := hih
      refine ⟨by omega, .inr ?_, ?_⟩
      · rcases hend' with he | ⟨b, hb, he⟩
        · exact ⟨a, by simp, he⟩
        · exact ⟨b, List.mem_cons_of_mem _ hb, he⟩
      rcases hcases with ⟨hfit, b, hb, hbelow⟩ | ⟨hnone, b, hb⟩
      · refine .inl ⟨⟨by omega, free_cons.mpr ⟨.inl hle, hfit.free⟩, fun g' hg' hlt' hfree => ?_⟩, b,
          List.mem_cons_of_mem _ hb, hbelow⟩
        rw [free_cons] at hfree
        rcases hfree.1 with h | h
        · exact hfit.first g' h hlt' hfree.2
        · omega
      · refine .inr ⟨fun g hg hfree b' hb' hbelow => ?_, b, List.mem_cons_of_mem _ hb.mem, hb.lo_lt,
          hb.lt_hi, fun b' hb' hlt' => ?_, hb.no_wrap⟩
        swap
        · rcases List.mem_cons.mp hb' with rfl | hb'
          · omega
          · exact hb.first b' hb' hlt'
        rw [free_cons] at hfree
        rcases hfree.1 with h | h
        · rcases List.mem_cons.mp hb' with rfl | hb'
          · omega
          · exact hnone g h hfree.2 b' hb' hbelow
        · omega

/-- Which intervals are free depends on the arenas above the start of the search only. -/
theorem free_append_of_le {before rest : List UvmmArena} {h size g : Nat}
    (hbefore : ∀ a ∈ before, a.hi ≤ h) (hle : h ≤ g) :
    Free (before ++ rest) g size ↔ Free rest g size := by
  have hb : Free before g size := fun a ha => .inl ((hbefore a ha).trans hle)
  rw [free_append, and_iff_right hb]

/-- What the search answers: `0`, the first fit where it is findable, or a blocked address. -/
theorem findFirstFreeInterval_cases {l : List UvmmArena} (hwf : WellFormed l) (hint : UInt32)
    {size : UInt32} (hsize : 0 < size.toNat) :
    let h := searchStart hint
    let r := (findFirstFreeInterval l hint size).toNat
    (r = 0 ∧ (4294967296 < h + size.toNat ∨ ∃ a, l = [a] ∧ h ≤ a.lo ∧ a.lo < h + size.toNat ∧
      h + size.toNat < 4294967296)) ∨
    (h ≤ r ∧ r + size.toNat ≤ 4294967296 ∧ Findable l h size.toNat r) ∨
    (h ≤ r ∧ h + size.toNat ≤ 4294967296 ∧ (∀ g, ¬ Findable l h size.toNat g) ∧
      (¬ ∃ a, l = [a] ∧ h ≤ a.lo ∧ h + size.toNat < 4294967296) ∧
      (r = h ∨ ∃ a ∈ l, r = a.hi) ∧ ∃ b, Blocked l size.toNat r b) := by
  intro h r
  have hsz := word_lt size
  have hw := word_lt hint
  obtain ⟨hint', hint'_eq⟩ : ∃ x : UInt32, x = if hint < userOffset then userOffset else hint :=
    ⟨_, rfl⟩
  have hh : hint'.toNat = h := by
    rw [hint'_eq]
    simp only [h, searchStart, word_lt_iff, toNat_userOffset]
    split_ifs with hlt
    · rw [toNat_userOffset]
      omega
    · omega
  have hr : r = (findFirstFreeInterval l hint size).toNat := rfl
  rw [findFirstFreeInterval, ← hint'_eq] at hr
  by_cases hbig : 4294967296 < h + size.toNat
  · have : hint' > pagingTopUserAddress - size + 1 := by
      rw [gt_iff_lt, word_lt_iff, word_add, word_sub, toNat_pagingTopUserAddress]
      have : (1 : UInt32).toNat = 1 := rfl
      omega
    rw [if_pos this] at hr
    exact .inl ⟨hr, .inl hbig⟩
  have hsmall : ¬ hint' > pagingTopUserAddress - size + 1 := by
    rw [gt_iff_lt, word_lt_iff, word_add, word_sub, toNat_pagingTopUserAddress]
    have : (1 : UInt32).toNat = 1 := rfl
    omega
  rw [if_neg hsmall] at hr
  have hhi := arenasFrom_hi hwf hint'
  rw [hh] at hhi
  have hfrom := (wellFormed_arenasFrom hwf hint').2
  have happ := arenasBefore_append_arenasFrom l hint'
  cases hrest : arenasFrom l hint' with
  | nil =>
    rw [hrest] at hr happ
    have hall : ∀ a ∈ l, a.hi ≤ h := by
      rw [← happ, List.append_nil]
      exact hhi.1
    right; left
    rw [hr, hh]
    exact ⟨le_rfl, by omega, ⟨le_rfl, fun a ha => .inl (hall a ha), fun g' h1 h2 => by omega⟩,
      .inl hall⟩
  | cons initial rest =>
    rw [hrest] at hr happ hhi hfrom
    change r = (freeIntervalScan size initial hint'
      (initial :: rest ++ arenasBefore l hint')).toNat at hr
    have hinit := hhi.2 initial List.mem_cons_self
    obtain ⟨hok, hlo, _⟩ := wellFormed_cons.mp hfrom
    have hs : initial.lo = initial.start.toNat := rfl
    have hlohi := hok.lo_lt_hi
    have hnotall : ¬ ∀ a ∈ l, a.hi ≤ h := fun hall => by
      have := hall initial (by rw [← happ]; simp)
      omega
    by_cases hsingle : rest = [] ∧ arenasBefore l hint' = [] ∧ h ≤ initial.lo
    · -- a single arena above the hint: the turn ends behind it
      obtain ⟨rfl, hnil, hle⟩ := hsingle
      rw [hnil, List.nil_append] at happ
      rw [hnil, List.append_nil, freeIntervalScan, freeIntervalScan] at hr
      by_cases h1 : hint' + size ≤ initial.start
      · rw [if_pos h1] at hr
        rw [word_le_iff, word_add] at h1
        by_cases h2 : h + size.toNat ≤ initial.lo
        · right; left
          rw [hr, hh, ← happ]
          exact ⟨le_rfl, by omega, ⟨le_rfl, free_cons.mpr ⟨.inr h2, by simp [Free]⟩,
            fun g' h3 h4 => by omega⟩, .inr ⟨initial, by simp, h2⟩⟩
        · right; right
          rw [hr, hh]
          refine ⟨le_rfl, by omega, fun g hg => ?_, fun ⟨_, _, _, h3⟩ => by omega, .inl rfl, initial,
            by rw [← happ]; simp, by omega, by omega, by rw [← happ]; simp, .inr (by omega)⟩
          rcases hg.below with hall | ⟨b, hb, hbelow⟩
          · exact hnotall hall
          · rw [← happ, List.mem_singleton] at hb
            have := hg.fit.le
            rw [hb] at hbelow
            omega
      · rw [if_neg h1, if_pos (by
          rw [ge_iff_le, word_le_iff]
          show hint'.toNat ≤ initial.start.toNat
          omega)] at hr
        rw [word_le_iff, word_add] at h1
        exact .inl ⟨hr, .inr ⟨initial, happ.symm, hle, by omega, by omega⟩⟩
    · have hhead : ((arenasBefore l hint').headD initial).start.toNat < initial.hi ∧
          (rest = [] → ((arenasBefore l hint').headD initial).start.toNat < hint'.toNat) := by
        cases hb : arenasBefore l hint' with
        | nil =>
          refine ⟨by simp only [List.headD_nil]; omega, fun hrestnil => ?_⟩
          have : ¬ h ≤ initial.lo := fun hle => hsingle ⟨hrestnil, hb, hle⟩
          simp only [List.headD_nil]
          omega
        | cons b before =>
          have hbmem : b ∈ arenasBefore l hint' := by rw [hb]; exact List.mem_cons_self
          have hbhi := hhi.1 b hbmem
          have hblo := ((wellFormed_arenasFrom hwf hint').1.arenas b hbmem).lo_lt_hi
          have hbs : b.lo = b.start.toNat := rfl
          refine ⟨?_, fun _ => ?_⟩ <;> simp only [List.headD_cons] <;> omega
      obtain ⟨hle, hstart, hcases⟩ := @freeIntervalScan_spec size initial (arenasBefore l hint') rest
        initial hint' hfrom (by omega) (.inr (by omega)) hhead.1 hhead.2
      rw [← hr, hh] at hle hstart hcases
      rcases hcases with ⟨hfit, b, hb, hbelow⟩ | ⟨hnone, b, hb⟩
      · right; left
        refine ⟨hle, ?_, ⟨hfit.le, ?_, fun g' h1 h2 hfree => ?_⟩, .inr ⟨b, ?_, hbelow⟩⟩
        · have : b.lo < 4294967296 := word_lt b.start
          omega
        · rw [← happ]
          exact (free_append_of_le hhi.1 hle).mpr hfit.free
        · rw [← happ] at hfree
          exact hfit.first g' h1 h2 ((free_append_of_le hhi.1 h1).mp hfree)
        · rw [← happ]
          exact List.mem_append_right _ hb
      · right; right
        refine ⟨hle, by omega, fun g hg => ?_, ?_, ?_, b, ?_, hb.lo_lt, hb.lt_hi, fun b' hb' hlt => ?_,
          hb.no_wrap⟩
        · rcases hg.below with hall | ⟨b', hb', hbelow⟩
          · exact hnotall hall
          · have hfree := hg.fit.free
            have hg1 := hg.fit.le
            rw [← happ, free_append_of_le hhi.1 hg1] at hfree
            rw [← happ, List.mem_append] at hb'
            rcases hb' with hb' | hb'
            · have := hhi.1 b' hb'
              have hb'mem : b' ∈ l := by rw [← happ]; exact List.mem_append_left _ hb'
              have := (hwf.arenas b' hb'mem).lo_lt_hi
              omega
            · exact hnone g hg1 hfree b' hb' hbelow
        · rintro ⟨a, hl, hlo, _⟩
          rw [← happ, List.append_eq_singleton_iff] at hl
          rcases hl with ⟨hnil, hcons⟩ | ⟨_, hcons⟩
          · obtain ⟨rfl, hrest'⟩ := List.cons.inj hcons
            exact hsingle ⟨hrest', hnil, hlo⟩
          · cases hcons
        · refine hstart.imp_right fun ⟨b', hb', he⟩ => ⟨b', ?_, he⟩
          rw [← happ]
          exact List.mem_append_right _ hb'
        · rw [← happ]
          exact List.mem_append_right _ hb.mem
        · rw [← happ, List.mem_append] at hb'
          rcases hb' with hb' | hb'
          · have := hhi.1 b' hb'
            omega
          · exact hb.first b' hb' hlt

/-! ## When it finds nothing -/

/-- No `size` bytes from a page of user space on are free. -/
def NoRoom (l : List UvmmArena) (size : Nat) : Prop :=
  ∀ g, g % 4096 = 0 → 1073741824 ≤ g → g + size ≤ 4294967296 → ¬ Free l g size

/-- The lengths of the gaps from `lo` up to the top of user space, around the arenas of a list. -/
def gapsFrom : Nat → List UvmmArena → List Nat
  | lo, [] => [4294967296 - lo]
  | lo, a :: l => (a.lo - lo) :: gapsFrom a.hi l

/-- There is room from `lo` on exactly if a gap is large enough. -/
theorem exists_free_iff_gap {size : Nat} {l : List UvmmArena} : ∀ {lo : Nat}, WellFormed l →
    lo % 4096 = 0 → lo ≤ 4294967296 → (∀ a ∈ l, lo ≤ a.lo) →
    ((∃ g, g % 4096 = 0 ∧ lo ≤ g ∧ g + size ≤ 4294967296 ∧ Free l g size) ↔ ∃ x ∈ gapsFrom lo l, size ≤ x) := by
  induction l with
  | nil =>
    intro lo _ hal hle _
    rw [gapsFrom]
    constructor
    · rintro ⟨g, -, hlo, htop, -⟩
      exact ⟨_, List.mem_cons_self, by omega⟩
    · rintro ⟨x, hx, hle'⟩
      obtain rfl := List.mem_singleton.mp hx
      exact ⟨lo, hal, Nat.le_refl lo, by omega, fun a ha => absurd ha List.not_mem_nil⟩
  | cons a l ih =>
    intro lo hwf hal hle hlo
    obtain ⟨hok, habove, hl⟩ := wellFormed_cons.mp hwf
    have hlohi := hok.lo_lt_hi
    have hloa := hlo a List.mem_cons_self
    have htop := hok.top
    have hrest := ih hl hok.hi_aligned htop habove
    rw [gapsFrom]
    constructor
    · rintro ⟨g, hgal, hg, hgtop, hfree⟩
      obtain ⟨ha, hfree⟩ := free_cons.mp hfree
      rcases ha with hbehind | hbefore
      · obtain ⟨x, hx, hle'⟩ := hrest.mp ⟨g, hgal, hbehind, hgtop, hfree⟩
        exact ⟨x, List.mem_cons_of_mem _ hx, hle'⟩
      · exact ⟨_, List.mem_cons_self, by omega⟩
    · rintro ⟨x, hx, hle'⟩
      rcases List.mem_cons.mp hx with rfl | hx
      · refine ⟨lo, hal, Nat.le_refl lo, by omega, free_cons.mpr ⟨Or.inr (by omega), fun b hb => Or.inr ?_⟩⟩
        have := habove b hb
        omega
      · obtain ⟨g, hgal, hg, hgtop, hfree⟩ := hrest.mpr ⟨x, hx, hle'⟩
        exact ⟨g, hgal, by omega, hgtop, free_cons.mpr ⟨Or.inl hg, hfree⟩⟩

theorem noRoom_iff {l : List UvmmArena} (hwf : WellFormed l) {size : Nat} :
    NoRoom l size ↔ ∀ x ∈ gapsFrom 1073741824 l, x < size := by
  have hgap := @exists_free_iff_gap size l 1073741824 hwf (by decide) (by decide) fun a ha => (hwf.arenas a ha).user
  constructor
  · intro hno x hx
    by_contra hlt
    obtain ⟨g, hal, hg, htop, hfree⟩ := hgap.mpr ⟨x, hx, Nat.not_lt.mp hlt⟩
    exact hno g hal hg htop hfree
  · intro hall g hal hg htop hfree
    obtain ⟨x, hx, hle⟩ := hgap.mp ⟨g, hal, hg, htop, hfree⟩
    exact absurd (hall x hx) (Nat.not_lt.mpr hle)

/-- The only arena starts at or behind `h`, and less than `size` bytes behind it. -/
def OnlyArenaBehind (l : List UvmmArena) (h size : Nat) : Prop :=
  ∃ a, l = [a] ∧ h ≤ a.lo ∧ a.lo < h + size ∧ h + size < 4294967296

theorem findFirstFreeInterval_eq_zero {l : List UvmmArena} (hwf : WellFormed l) (hint : UInt32) {size : UInt32}
    (hsize : 0 < size.toNat) :
    findFirstFreeInterval l hint size = 0 ↔
      4294967296 < searchStart hint + size.toNat ∨ OnlyArenaBehind l (searchStart hint) size.toNat := by
  have hlow : 1073741824 ≤ searchStart hint := by
    unfold searchStart
    omega
  have hzero : findFirstFreeInterval l hint size = 0 ↔ (findFirstFreeInterval l hint size).toNat = 0 := word_eq_iff
  rw [hzero]
  constructor
  · intro h0
    rcases findFirstFreeInterval_cases hwf hint hsize with ⟨_, hcase⟩ | ⟨hle, _⟩ | ⟨hle, _⟩
    · exact hcase
    · omega
    · omega
  · intro hcase
    rcases findFirstFreeInterval_cases hwf hint hsize with ⟨h0, _⟩ | ⟨hle, htop, hfit⟩ | ⟨_, htop, _, hnot, _⟩
    · exact h0
    · rcases hcase with hbig | ⟨a, rfl, hlo, hlt, _⟩
      · omega
      · have hpos := (hwf.arenas a (List.mem_singleton_self a)).lo_lt_hi
        rcases hfit.below with hall | ⟨b, hb, hbelow⟩
        · have := hall a (List.mem_singleton_self a)
          omega
        · obtain rfl := List.mem_singleton.mp hb
          omega
    · rcases hcase with hbig | ⟨a, hl, hlo, _, hbound⟩
      · omega
      · exact absurd ⟨a, hl, hlo, hbound⟩ hnot

/-- **The search fails for lack of room only**: exactly if the interval at the hint lies in user space and no only
arena lies behind the hint, or if no gap is large enough. -/
theorem findFirstFreeInterval_null_iff {l : List UvmmArena} (hwf : WellFormed l) (hint : UInt32) {size : UInt32}
    (hsize : 0 < size.toNat) :
    (findFirstFreeInterval l hint size = 0 → NoRoom l size.toNat) ↔
      (searchStart hint + size.toNat ≤ 4294967296 ∧ ¬ OnlyArenaBehind l (searchStart hint) size.toNat) ∨
        ∀ x ∈ gapsFrom 1073741824 l, x < size.toNat := by
  rw [findFirstFreeInterval_eq_zero hwf hint hsize, noRoom_iff hwf, ← Nat.not_lt, ← not_or]
  exact imp_iff_not_or

theorem findFirstFreeInterval_null_empty :
    findFirstFreeInterval [] 0x40000000 0x1000 ≠ 0 ∨ NoRoom [] (0x1000 : UInt32).toNat :=
  imp_iff_not_or.mp ((findFirstFreeInterval_null_iff wellFormed_nil 0x40000000 (by decide)).mpr
    (Or.inl ⟨by decide, fun ⟨_, hl, _⟩ => by cases hl⟩))

/-- A page at the bottom of user space. -/
def bottomPage : UvmmArena := ⟨0, 0x40000000, 0x1000, 3, 0, some 1, ⟨1, 7, mappedResourceAnonymous, some 1⟩, 0x40000000⟩

/-- A second page with the same hint is refused, although the next page is free. -/
theorem findFirstFreeInterval_same_hint :
    WellFormed [bottomPage] ∧ isPageAligned 0x40000000 = true ∧
      findFirstFreeInterval [bottomPage] 0x40000000 0x1000 = 0 ∧ Free [bottomPage] 0x40001000 0x1000 ∧
      ¬ NoRoom [bottomPage] 0x1000 := by
  have hwf : WellFormed [bottomPage] :=
    wellFormed_cons.mpr ⟨⟨by decide, by decide, by decide, by decide, by decide⟩, fun _ hb => absurd hb List.not_mem_nil,
      wellFormed_nil⟩
  have hfree : Free [bottomPage] 0x40001000 0x1000 := List.forall_mem_singleton.mpr (by decide)
  exact ⟨hwf, by decide, by decide, hfree, fun h => h 0x40001000 (by decide) (by decide) (by decide) hfree⟩

end Desiros.Mem
