import Desiros.Mem.Arena

/-!
# The meaning of a list of arenas

An arena covers the addresses `[lo, hi)`, computed without wrap-around. `WellFormed` is the invariant
of the arena list of an address space. The meaning of the list is a partial map from page addresses
to what the page shows (`PageEntry`): `entryAt` for one arena, `meaning` for a list, and `Denotes` when
the list gives each page at most one entry.
-/

namespace Desiros.Mem

open Desiros.Library

@[simp] theorem toNat_pageSize : pageSize.toNat = 4096 := rfl
@[simp] theorem toNat_userOffset : userOffset.toNat = 1073741824 := rfl
@[simp] theorem toNat_pagingTopUserAddress : pagingTopUserAddress.toNat = 4294967295 := rfl

namespace UvmmArena

/-- First address of the arena. -/
def lo (a : UvmmArena) : Nat := a.start.toNat

/-- First address after the arena. -/
def hi (a : UvmmArena) : Nat := a.start.toNat + a.size.toNat

def Contains (a : UvmmArena) (p : Nat) : Prop := a.lo ≤ p ∧ p < a.hi

instance (a : UvmmArena) (p : Nat) : Decidable (a.Contains p) := inferInstanceAs (Decidable (_ ∧ _))

/-- A non-empty sequence of whole pages of user space. -/
structure Ok (a : UvmmArena) : Prop where
  start_aligned : a.lo % 4096 = 0
  size_pos : 0 < a.size.toNat
  size_aligned : a.size.toNat % 4096 = 0
  user : 1073741824 ≤ a.lo
  top : a.hi ≤ 4294967296

theorem Ok.lo_lt_hi {a : UvmmArena} (h : a.Ok) : a.lo < a.hi := by
  have := h.size_pos
  simp only [lo, hi]
  omega

theorem Ok.hi_aligned {a : UvmmArena} (h : a.Ok) : a.hi % 4096 = 0 := by
  have h1 := h.start_aligned
  have h2 := h.size_aligned
  simp only [lo, hi] at *
  omega

/-- The 32-bit end of an arena wraps to `0` only at the top of the address space. -/
theorem Ok.toNat_end {a : UvmmArena} (h : a.Ok) :
    (a.start + a.size).toNat = if a.hi = 4294967296 then 0 else a.hi := by
  have h1 := h.top
  have h2 : a.hi = a.start.toNat + a.size.toNat := rfl
  rw [word_add]
  by_cases htop : a.hi = 4294967296
  · rw [if_pos htop]
    omega
  · rw [if_neg htop]
    omega

theorem Ok.reaches_iff {a : UvmmArena} (h : a.Ok) (uaddr : UInt32) :
    a.reaches uaddr = true ↔ uaddr.toNat < a.hi := by
  have h1 := h.top
  have h2 := h.size_pos
  have hu := word_lt uaddr
  have one : (1 : UInt32).toNat = 1 := rfl
  rw [reaches, decide_eq_true_eq, word_le_iff, word_add, word_sub, one]
  simp only [hi] at *
  omega

end UvmmArena

/-- The invariant of the arena list of an address space. -/
structure WellFormed (l : List UvmmArena) : Prop where
  ascending : l.Pairwise fun a b => a.start < b.start
  arenas : ∀ a ∈ l, a.Ok
  disjoint : l.Pairwise fun a b => ∀ p, ¬ (a.Contains p ∧ b.Contains p)

/-- Each arena ends before the next ones start. -/
def Sorted (l : List UvmmArena) : Prop := l.Pairwise fun a b => a.hi ≤ b.lo

theorem WellFormed.sorted {l : List UvmmArena} (h : WellFormed l) : Sorted l := by
  refine (h.ascending.and h.disjoint).imp_of_mem fun {a b} ha hb hab => ?_
  by_contra hlt
  have hstart := word_lt_iff.mp hab.1
  have hlo := (h.arenas b hb).lo_lt_hi
  refine hab.2 b.lo ⟨⟨?_, by omega⟩, le_rfl, hlo⟩
  simp only [UvmmArena.lo]
  omega

theorem wellFormed_iff {l : List UvmmArena} :
    WellFormed l ↔ (∀ a ∈ l, a.Ok) ∧ Sorted l := by
  constructor
  · intro h
    exact ⟨h.arenas, h.sorted⟩
  · rintro ⟨hok, hs⟩
    refine ⟨?_, hok, ?_⟩
    · refine hs.imp_of_mem fun {a b} ha _ hab => ?_
      have := (hok a ha).lo_lt_hi
      rw [word_lt_iff]
      simp only [UvmmArena.lo] at *
      omega
    · refine hs.imp fun {a b} hab p => ?_
      rintro ⟨h1, h2⟩
      have := h1.2
      have := h2.1
      omega

theorem wellFormed_nil : WellFormed [] :=
  wellFormed_iff.mpr ⟨fun _ h => by simp at h, List.Pairwise.nil⟩

theorem Sorted.append {l l' : List UvmmArena} :
    Sorted (l ++ l') ↔ Sorted l ∧ Sorted l' ∧ ∀ a ∈ l, ∀ b ∈ l', a.hi ≤ b.lo :=
  List.pairwise_append

theorem Sorted.cons {a : UvmmArena} {l : List UvmmArena} :
    Sorted (a :: l) ↔ (∀ b ∈ l, a.hi ≤ b.lo) ∧ Sorted l :=
  List.pairwise_cons

theorem wellFormed_cons {a : UvmmArena} {l : List UvmmArena} :
    WellFormed (a :: l) ↔ a.Ok ∧ (∀ b ∈ l, a.hi ≤ b.lo) ∧ WellFormed l := by
  simp only [wellFormed_iff, List.forall_mem_cons, Sorted.cons]
  tauto

theorem wellFormed_append {l l' : List UvmmArena} :
    WellFormed (l ++ l') ↔ WellFormed l ∧ WellFormed l' ∧ ∀ a ∈ l, ∀ b ∈ l', a.hi ≤ b.lo := by
  simp only [wellFormed_iff, List.forall_mem_append, Sorted.append]
  tauto

/-- Of two arenas, the one that starts first ends before the other starts. -/
theorem WellFormed.hi_le_lo {l : List UvmmArena} (h : WellFormed l) {a b : UvmmArena} (ha : a ∈ l)
    (hb : b ∈ l) (hlt : a.lo < b.lo) : a.hi ≤ b.lo := by
  induction l with
  | nil => cases ha
  | cons c l ih =>
    obtain ⟨hok, hlo, hl⟩ := wellFormed_cons.mp h
    have hc := hok.lo_lt_hi
    rcases List.mem_cons.mp ha with rfl | ha' <;> rcases List.mem_cons.mp hb with rfl | hb'
    · omega
    · exact hlo b hb'
    · have := hlo a ha'
      omega
    · exact ih hl ha' hb'

theorem WellFormed.eq_of_lo {l : List UvmmArena} (h : WellFormed l) {a b : UvmmArena} (ha : a ∈ l)
    (hb : b ∈ l) (heq : a.lo = b.lo) : a = b := by
  induction l with
  | nil => cases ha
  | cons c l ih =>
    obtain ⟨hok, hlo, hl⟩ := wellFormed_cons.mp h
    have hc := hok.lo_lt_hi
    rcases List.mem_cons.mp ha with rfl | ha' <;> rcases List.mem_cons.mp hb with rfl | hb'
    · rfl
    · have := hlo b hb'
      omega
    · have := hlo a ha'
      omega
    · exact ih hl ha' hb'

/-! ## Distinct structures -/

/-- The structures on the list are distinct and were all allocated. -/
structure DistinctIds (l : List UvmmArena) (nextId : Nat) : Prop where
  nodup : (l.map (·.id)).Nodup
  lt : ∀ a ∈ l, a.id < nextId

theorem DistinctIds.mono {l : List UvmmArena} {n m : Nat} (h : DistinctIds l n) (hnm : n ≤ m) :
    DistinctIds l m :=
  ⟨h.nodup, fun a ha => lt_of_lt_of_le (h.lt a ha) hnm⟩

theorem id_ne_of_nodup {l₁ l₂ : List UvmmArena} {a : UvmmArena}
    (h : ((l₁ ++ a :: l₂).map (·.id)).Nodup) :
    (∀ b ∈ l₁, b.id ≠ a.id) ∧ ∀ b ∈ l₂, b.id ≠ a.id := by
  rw [List.map_append, List.map_cons, List.nodup_append] at h
  obtain ⟨_, h2, h3⟩ := h
  refine ⟨fun b hb => ?_, fun b hb he => ?_⟩
  · exact h3 _ (List.mem_map_of_mem hb) _ (by simp)
  · exact (List.nodup_cons.mp h2).1 (List.mem_map.mpr ⟨b, hb, he⟩)

theorem modifyArena_of_ne {l : List UvmmArena} {id : Nat} (h : ∀ b ∈ l, b.id ≠ id)
    (f : UvmmArena → UvmmArena) : modifyArena id f l = l := by
  rw [modifyArena, List.map_congr_left fun b hb => if_neg (h b hb), List.map_id']

theorem listInsertAfter_of_ne {l : List UvmmArena} {id : Nat} (h : ∀ b ∈ l, b.id ≠ id)
    (item : UvmmArena) : listInsertAfter id item l = l := by
  induction l with
  | nil => rfl
  | cons b l ih =>
    rw [List.forall_mem_cons] at h
    rw [listInsertAfter, List.flatMap_cons, if_neg h.1]
    exact congrArg (b :: ·) (ih h.2)

theorem listDelete_of_ne {l : List UvmmArena} {id : Nat} (h : ∀ b ∈ l, b.id ≠ id) :
    listDelete id l = l :=
  List.filter_eq_self.mpr fun b hb => decide_eq_true (h b hb)

section Splice

variable {l₁ l₂ : List UvmmArena} {a : UvmmArena} (h : ((l₁ ++ a :: l₂).map (·.id)).Nodup)

include h

theorem modifyArena_splice (f : UvmmArena → UvmmArena) :
    modifyArena a.id f (l₁ ++ a :: l₂) = l₁ ++ f a :: l₂ := by
  obtain ⟨h1, h2⟩ := id_ne_of_nodup h
  have e : modifyArena a.id f (l₁ ++ a :: l₂) =
      modifyArena a.id f l₁ ++ f a :: modifyArena a.id f l₂ := by
    simp only [modifyArena, List.map_append, List.map_cons, if_true]
  rw [e, modifyArena_of_ne h1, modifyArena_of_ne h2]

theorem listInsertAfter_splice (item : UvmmArena) :
    listInsertAfter a.id item (l₁ ++ a :: l₂) = l₁ ++ a :: item :: l₂ := by
  obtain ⟨h1, h2⟩ := id_ne_of_nodup h
  have e : listInsertAfter a.id item (l₁ ++ a :: l₂) =
      listInsertAfter a.id item l₁ ++ a :: item :: listInsertAfter a.id item l₂ := by
    simp only [listInsertAfter, List.flatMap_append, List.flatMap_cons, if_true, List.cons_append,
      List.nil_append]
  rw [e, listInsertAfter_of_ne h1, listInsertAfter_of_ne h2]

theorem listDelete_splice : listDelete a.id (l₁ ++ a :: l₂) = l₁ ++ l₂ := by
  obtain ⟨h1, h2⟩ := id_ne_of_nodup h
  have e : listDelete a.id (l₁ ++ a :: l₂) = listDelete a.id l₁ ++ listDelete a.id l₂ := by
    simp [listDelete, List.filter_append]
  rw [e, listDelete_of_ne h1, listDelete_of_ne h2]

end Splice

/-! ## Before and from an address -/

theorem arenasBefore_append_arenasFrom (l : List UvmmArena) (uaddr : UInt32) :
    arenasBefore l uaddr ++ arenasFrom l uaddr = l :=
  List.takeWhile_append_dropWhile

/-- On a well-formed list the two halves are the arenas that end at or below `uaddr`, and the others. -/
theorem arenasFrom_hi {l : List UvmmArena} (h : WellFormed l) (uaddr : UInt32) :
    (∀ a ∈ arenasBefore l uaddr, a.hi ≤ uaddr.toNat) ∧
      ∀ a ∈ arenasFrom l uaddr, uaddr.toNat < a.hi := by
  induction l with
  | nil => simp [arenasBefore, arenasFrom]
  | cons a l ih =>
    obtain ⟨hok, hlt, hl⟩ := wellFormed_cons.mp h
    by_cases ha : a.reaches uaddr = true
    · have hu := (hok.reaches_iff uaddr).mp ha
      have e1 : arenasBefore (a :: l) uaddr = [] := by simp [arenasBefore, ha]
      have e2 : arenasFrom (a :: l) uaddr = a :: l := by simp [arenasFrom, ha]
      rw [e1, e2]
      refine ⟨by simp, List.forall_mem_cons.mpr ⟨hu, fun b hb => ?_⟩⟩
      have := hlt b hb
      have := (hl.arenas b hb).lo_lt_hi
      omega
    · have hu := mt (hok.reaches_iff uaddr).mpr ha
      have e1 : arenasBefore (a :: l) uaddr = a :: arenasBefore l uaddr := by
        simp [arenasBefore, ha]
      have e2 : arenasFrom (a :: l) uaddr = arenasFrom l uaddr := by simp [arenasFrom, ha]
      rw [e1, e2]
      exact ⟨List.forall_mem_cons.mpr ⟨by omega, (ih hl).1⟩, (ih hl).2⟩

theorem wellFormed_arenasFrom {l : List UvmmArena} (h : WellFormed l) (uaddr : UInt32) :
    WellFormed (arenasBefore l uaddr) ∧ WellFormed (arenasFrom l uaddr) := by
  rw [← arenasBefore_append_arenasFrom l uaddr, wellFormed_append] at h
  exact ⟨h.1, h.2.1⟩

theorem findEnclosingOrNextArena_eq (l : List UvmmArena) (uaddr : UInt32) :
    findEnclosingOrNextArena l uaddr = (arenasFrom l uaddr).head? := by
  have h : ¬ uaddr > pagingTopUserAddress := by
    have := word_lt uaddr
    rw [gt_iff_lt, word_lt_iff, toNat_pagingTopUserAddress]
    omega
  rw [findEnclosingOrNextArena, if_neg h, arenasFrom]
  induction l with
  | nil => rfl
  | cons a l ih => cases ha : a.reaches uaddr <;> simp [ha, ih]

/-! ## What an address space denotes -/

/-- What a page of an address space shows. -/
structure PageEntry where
  resource : Nat
  offsetInResource : UInt64
  accessRights : UInt32
  flags : UInt32
deriving DecidableEq, Repr

/-- A page `p` of an arena shows the resource at `offset_in_resource + (p - start)`. -/
def UvmmArena.entry (a : UvmmArena) (p : Nat) : PageEntry :=
  ⟨a.mappedResource.addr, a.offsetInResource + UInt64.ofNat p - UInt64.ofNat a.lo, a.accessRights,
    a.flags⟩

def UvmmArena.entryAt (a : UvmmArena) (p : Nat) : Option PageEntry :=
  if a.Contains p then some (a.entry p) else none

theorem UvmmArena.entryAt_eq (a : UvmmArena) (p : Nat) :
    a.entryAt p = if a.lo ≤ p ∧ p < a.hi then some (a.entry p) else none := rfl

/-- Every entry the arenas of a list give the page `p`. -/
def entriesAt (l : List UvmmArena) (p : Nat) : List PageEntry := l.filterMap (·.entryAt p)

/-- The map from page addresses to entries an arena list stands for. -/
def meaning (l : List UvmmArena) (p : Nat) : Option PageEntry := (entriesAt l p).head?

/-- The list gives each page exactly the entry of the map `m`: none where `m` is undefined, and
never two. -/
def Denotes (l : List UvmmArena) (m : Nat → Option PageEntry) : Prop :=
  ∀ p, p % 4096 = 0 → entriesAt l p = (m p).toList

@[simp] theorem entriesAt_nil (p : Nat) : entriesAt [] p = [] := rfl

theorem entriesAt_cons (a : UvmmArena) (l : List UvmmArena) (p : Nat) :
    entriesAt (a :: l) p = (a.entryAt p).toList ++ entriesAt l p := by
  rw [entriesAt, List.filterMap_cons]
  cases h : a.entryAt p <;> rfl

@[simp] theorem entriesAt_append (l l' : List UvmmArena) (p : Nat) :
    entriesAt (l ++ l') p = entriesAt l p ++ entriesAt l' p := List.filterMap_append

theorem entryAt_of_contains {a : UvmmArena} {p : Nat} (h : a.Contains p) :
    a.entryAt p = some (a.entry p) := if_pos h

theorem entryAt_of_not_contains {a : UvmmArena} {p : Nat} (h : ¬ a.Contains p) :
    a.entryAt p = none := if_neg h

theorem entriesAt_eq_nil {l : List UvmmArena} {p : Nat} (h : ∀ a ∈ l, ¬ a.Contains p) :
    entriesAt l p = [] := by
  rw [entriesAt, List.filterMap_eq_nil_iff]
  exact fun a ha => entryAt_of_not_contains (h a ha)

/-- A well-formed list gives each page at most one entry. -/
theorem WellFormed.denotes {l : List UvmmArena} (h : WellFormed l) : Denotes l (meaning l) := by
  intro p _
  induction l with
  | nil => rfl
  | cons a l ih =>
    obtain ⟨_, hlt, hl⟩ := wellFormed_cons.mp h
    rw [meaning, entriesAt_cons]
    by_cases hp : a.Contains p
    · have hnil : entriesAt l p = [] := entriesAt_eq_nil fun b hb hb' => by
        have := hlt b hb
        have := hp.2
        have := hb'.1
        omega
      rw [entryAt_of_contains hp, hnil]
      rfl
    · rw [entryAt_of_not_contains hp]
      exact ih hl

end Desiros.Mem
