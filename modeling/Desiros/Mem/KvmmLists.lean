import Desiros.Mem.Kvmm
import Mathlib.Data.List.Pairwise
import Mathlib.Data.List.Nodup

/-!
# Lists of ranges

The list operations of `kvmm.c` on lists in ascending order without repeated structures: where
`insert_range` puts a range, what `prev` and `next` are, what deleting and writing to a range leave alone.
-/

namespace Desiros.Mem

namespace KvmmRange

def Covers (r : KvmmRange) (a : Nat) : Prop := r.base ≤ a ∧ a < r.top

/-- No address lies in both ranges. -/
def Apart (r r' : KvmmRange) : Prop := r.top ≤ r'.base ∨ r'.top ≤ r.base

variable {r r' : KvmmRange} {a : Nat}

theorem Apart.symm (h : r.Apart r') : r'.Apart r := Or.symm h

theorem base_le_top (r : KvmmRange) : r.base ≤ r.top := Nat.le_add_right _ _

theorem base_lt_top (h : 0 < r.nbPages) : r.base < r.top := by
  have : 0 < r.nbPages * nbBytesPerPage := Nat.mul_pos h (by decide)
  unfold top
  omega

theorem Apart.not_covers (h : r.Apart r') (ha : r.Covers a) : ¬ r'.Covers a := by
  unfold Apart at h
  unfold Covers at *
  omega

/-- Ranges apart are in the order of their bases. -/
theorem Apart.top_le (h : r.Apart r') (hlt : r.base < r'.base) : r.top ≤ r'.base := by
  have := base_le_top r'
  unfold Apart at h
  omega

end KvmmRange

/-- The list is in strictly ascending order. -/
def Ascending (l : List KvmmRange) : Prop := l.Pairwise fun r r' => r.base < r'.base

/-- No two ranges of the list touch. -/
def Gaps (l : List KvmmRange) : Prop := l.Pairwise fun r r' => r.top < r'.base

/-- No structure is twice in the list. -/
def AddrNodup (l : List KvmmRange) : Prop := (l.map (·.addr)).Nodup

variable {l pre post : List KvmmRange} {r a p q : KvmmRange} {vaddr addr : Nat}

theorem AddrNodup.eq_of_addr (h : AddrNodup l) (hr : r ∈ l) (ha : a ∈ l) (he : r.addr = a.addr) : r = a :=
  List.inj_on_of_nodup_map h hr ha he

theorem addrNodup_split : AddrNodup (pre ++ r :: post) ↔
    (∀ x ∈ pre ++ post, x.addr ≠ r.addr) ∧ AddrNodup (pre ++ post) := by
  unfold AddrNodup
  rw [((List.perm_middle (a := r)).map _).nodup_iff, List.map_cons, List.nodup_cons, List.mem_map]
  constructor
  · rintro ⟨h, hn⟩
    exact ⟨fun x hx he => h ⟨x, hx, he⟩, hn⟩
  · rintro ⟨h, hn⟩
    refine ⟨?_, hn⟩
    rintro ⟨x, hx, he⟩
    exact h x hx he

/-! ## Searching -/

theorem getClosestPrecedingLoop_append (hpre : ∀ x ∈ pre, x.base ≤ vaddr) (ret : Option KvmmRange) :
    getClosestPrecedingLoop vaddr ret (pre ++ l) =
      getClosestPrecedingLoop vaddr (pre.getLast?.or ret) l := by
  induction pre generalizing ret with
  | nil => rfl
  | cons x pre ih =>
    have hx : ¬ vaddr < x.base := Nat.not_lt.mpr (hpre x List.mem_cons_self)
    rw [List.cons_append, getClosestPrecedingLoop, if_neg hx, ih fun y hy => hpre y (List.mem_cons_of_mem _ hy)]
    cases pre with
    | nil => rfl
    | cons y pre => rw [List.getLast?_cons_cons, List.getLast?_cons]; rfl

/-- The last range that starts at or before the address. -/
theorem getClosestPrecedingLoop_mem : ∀ {l : List KvmmRange} {ret : Option KvmmRange},
    getClosestPrecedingLoop vaddr ret l = some r → ret = some r ∨ r ∈ l := by
  intro l
  induction l with
  | nil => exact fun h => .inl h
  | cons x l ih =>
    intro ret h
    unfold getClosestPrecedingLoop at h
    split_ifs at h
    · exact .inl h
    · cases ih h with
      | inl he => exact .inr (List.mem_cons.mpr (.inl (Option.some.inj he).symm))
      | inr hin => exact .inr (List.mem_cons_of_mem _ hin)

theorem mem_of_getClosestPreceding {l : List KvmmRange} (h : getClosestPrecedingKvmmRange l vaddr = some r) : r ∈ l :=
  (getClosestPrecedingLoop_mem h).resolve_left (Option.some_ne_none r).symm

theorem getClosestPrecedingKvmmRange_append (hpre : ∀ x ∈ pre, x.base ≤ vaddr)
    (hpost : ∀ x ∈ post, vaddr < x.base) :
    getClosestPrecedingKvmmRange (pre ++ post) vaddr = pre.getLast? := by
  unfold getClosestPrecedingKvmmRange
  rw [getClosestPrecedingLoop_append hpre, Option.or_none]
  cases post with
  | nil => rfl
  | cons x post => rw [getClosestPrecedingLoop, if_pos (hpost x List.mem_cons_self)]

/-- An ascending list split at an address. -/
theorem Ascending.split (h : Ascending l) (vaddr : Nat) : ∃ pre post, l = pre ++ post ∧
    (∀ x ∈ pre, x.base ≤ vaddr) ∧ ∀ x ∈ post, vaddr < x.base := by
  induction l with
  | nil => exact ⟨[], [], rfl, fun x hx => absurd hx List.not_mem_nil, fun x hx => absurd hx List.not_mem_nil⟩
  | cons r l ih =>
    have hr := List.pairwise_cons.mp h
    by_cases hlt : vaddr < r.base
    · refine ⟨[], r :: l, rfl, fun x hx => absurd hx List.not_mem_nil, fun x hx => ?_⟩
      rcases List.mem_cons.mp hx with rfl | hx
      · exact hlt
      · exact Nat.lt_trans hlt (hr.1 x hx)
    · obtain ⟨pre, post, rfl, hpre, hpost⟩ := ih hr.2
      refine ⟨r :: pre, post, rfl, fun x hx => ?_, hpost⟩
      rcases List.mem_cons.mp hx with rfl | hx
      · exact Nat.not_lt.mp hlt
      · exact hpre x hx

/-- The range that covers an address is found, where none that starts behind it overlaps it. -/
theorem getClosestPrecedingKvmmRange_of_covers (h : Ascending l) (hr : r ∈ l)
    (hapart : ∀ x ∈ l, r.base < x.base → x.Apart r) (ha : r.Covers vaddr) :
    getClosestPrecedingKvmmRange l vaddr = some r := by
  obtain ⟨pre, post, rfl⟩ := List.append_of_mem hr
  have hsplit := List.pairwise_append.mp h
  have hcons := List.pairwise_cons.mp hsplit.2.1
  have hpre : ∀ x ∈ pre ++ [r], x.base ≤ vaddr := by
    intro x hx
    rcases List.mem_append.mp hx with hx | hx
    · exact Nat.le_of_lt (Nat.lt_of_lt_of_le (hsplit.2.2 x hx r List.mem_cons_self) ha.1)
    · rw [List.mem_singleton.mp hx]
      exact ha.1
  have hpost : ∀ x ∈ post, vaddr < x.base := by
    intro x hx
    have hlt := hcons.1 x hx
    have hap := hapart x (List.mem_append_right _ (List.mem_cons_of_mem _ hx)) hlt
    have h1 := ha.1
    have h2 := ha.2
    unfold KvmmRange.Apart KvmmRange.top at hap
    unfold KvmmRange.top at h2
    omega
  have := getClosestPrecedingKvmmRange_append hpre hpost
  rwa [List.append_assoc, List.singleton_append, List.getLast?_append, List.getLast?_singleton,
    Option.some_or] at this

/-- Two ranges of the list start at different addresses. -/
theorem Ascending.eq_of_base (h : Ascending l) (hr : r ∈ l) (ha : a ∈ l) (hbase : r.base = a.base) : r = a := by
  have hnodup : (l.map KvmmRange.base).Nodup := List.pairwise_map.mpr (h.imp Nat.ne_of_lt)
  exact List.inj_on_of_nodup_map hnodup hr ha hbase

/-! ## Inserting -/

theorem insertAfter_append (hpre : ∀ x ∈ pre, x.addr ≠ p.addr) :
    insertAfter (pre ++ p :: post) p a = pre ++ p :: a :: post := by
  induction pre with
  | nil => rw [List.nil_append, insertAfter, if_pos rfl, List.nil_append]
  | cons x pre ih =>
    have hx : x.addr ≠ p.addr := hpre x List.mem_cons_self
    rw [List.cons_append, insertAfter, if_neg hx, ih fun y hy => hpre y (List.mem_cons_of_mem _ hy),
      List.cons_append]

/-- `insert_range` puts the range between those that start before it and those that start after it. -/
theorem insertRange_eq (h : Ascending l) (hn : AddrNodup l) : ∃ pre post, l = pre ++ post ∧
    insertRange l a = pre ++ a :: post ∧ (∀ x ∈ pre, x.base ≤ a.base) ∧ ∀ x ∈ post, a.base < x.base := by
  obtain ⟨pre, post, rfl, hpre, hpost⟩ := h.split a.base
  refine ⟨pre, post, rfl, ?_, hpre, hpost⟩
  unfold insertRange
  rw [getClosestPrecedingKvmmRange_append hpre hpost]
  rcases List.eq_nil_or_concat pre with rfl | ⟨pre, p, rfl⟩
  · rfl
  · rw [List.concat_eq_append, List.append_assoc, List.singleton_append] at hn
    rw [List.concat_eq_append, List.getLast?_append, List.getLast?_singleton, Option.some_or, List.append_assoc,
      List.singleton_append, List.append_assoc, List.singleton_append]
    exact insertAfter_append fun x hx => (addrNodup_split.mp hn).1 x (List.mem_append_left _ hx)

/-! ## Neighbours -/

theorem takeWhile_addr (hpre : ∀ x ∈ pre, x.addr ≠ r.addr) :
    (pre ++ r :: post).takeWhile (fun x => x.addr != r.addr) = pre := by
  rw [List.takeWhile_append_of_pos fun x hx => by simpa using hpre x hx]
  simp

theorem dropWhile_addr (hpre : ∀ x ∈ pre, x.addr ≠ r.addr) :
    (pre ++ r :: post).dropWhile (fun x => x.addr != r.addr) = r :: post := by
  rw [List.dropWhile_append_of_pos fun x hx => by simpa using hpre x hx]
  simp

theorem listPrev_of_ne_nil (hn : AddrNodup (pre ++ p :: r :: post)) :
    listPrev (pre ++ p :: r :: post) r = some p := by
  have hpre : ∀ x ∈ pre ++ [p], x.addr ≠ r.addr := by
    intro x hx
    have hn' : AddrNodup ((pre ++ [p]) ++ r :: post) := by
      rwa [List.append_assoc, List.singleton_append]
    exact (addrNodup_split.mp hn').1 x (List.mem_append_left _ hx)
  have htake : (pre ++ p :: r :: post).takeWhile (fun x => x.addr != r.addr) = pre ++ [p] := by
    have := @takeWhile_addr _ post r hpre
    rwa [List.append_assoc, List.singleton_append] at this
  unfold listPrev
  rw [htake, List.getLast?_append, List.getLast?_singleton]
  rfl

theorem listPrev_head : listPrev (r :: post) r = (r :: post).getLast? := by
  have htake : (r :: post).takeWhile (fun x => x.addr != r.addr) = [] := by simp
  unfold listPrev
  rw [htake]
  rfl

theorem listNext_of_ne_nil (hn : AddrNodup (pre ++ r :: q :: post)) :
    listNext (pre ++ r :: q :: post) r = some q := by
  unfold listNext
  rw [dropWhile_addr fun x hx => (addrNodup_split.mp hn).1 x (List.mem_append_left _ hx)]
  rfl

theorem listNext_last (hn : AddrNodup (pre ++ [r])) : listNext (pre ++ [r]) r = (pre ++ [r]).head? := by
  unfold listNext
  rw [dropWhile_addr fun x hx => (addrNodup_split.mp hn).1 x (List.mem_append_left _ hx)]
  rfl

/-! ## Deleting and writing -/

theorem deleteRange_append (hn : AddrNodup (pre ++ r :: post)) :
    deleteRange (pre ++ r :: post) r.addr = pre ++ post := by
  have hne := (addrNodup_split.mp hn).1
  unfold deleteRange
  rw [List.filter_append, List.filter_cons_of_neg (by simp), ← List.filter_append, List.filter_eq_self]
  intro x hx
  simpa using hne x hx

theorem writeRange_append {f : KvmmRange → KvmmRange} (hn : AddrNodup (pre ++ r :: post)) :
    writeRange (pre ++ r :: post) r.addr f = pre ++ f r :: post := by
  have hne := (addrNodup_split.mp hn).1
  have hid : ∀ l : List KvmmRange, (∀ x ∈ l, x.addr ≠ r.addr) →
      l.map (fun x => if x.addr = r.addr then f x else x) = l := by
    intro l hl
    refine (List.map_congr_left fun x hx => ?_).trans (List.map_id l)
    exact if_neg (hl x hx)
  unfold writeRange
  rw [List.map_append, List.map_cons, if_pos rfl, hid pre fun x hx => hne x (List.mem_append_left _ hx),
    hid post fun x hx => hne x (List.mem_append_right _ hx)]

theorem findRange_of_mem (hn : AddrNodup l) (hr : r ∈ l) : findRange l r.addr = some r := by
  unfold findRange
  cases hf : l.find? (fun x => x.addr = r.addr) with
  | none =>
    rw [List.find?_eq_none] at hf
    exact absurd (by simp) (hf r hr)
  | some x =>
    have hx := List.find?_some hf
    rw [decide_eq_true_eq] at hx
    rw [hn.eq_of_addr (List.mem_of_find?_eq_some hf) hr hx]

theorem mem_of_findRange (h : findRange l addr = some r) : r ∈ l ∧ r.addr = addr := by
  have hx := List.find?_some h
  rw [decide_eq_true_eq] at hx
  exact ⟨List.mem_of_find?_eq_some h, hx⟩

theorem deleteRange_perm (hn : AddrNodup l) (hr : r ∈ l) : l.Perm (r :: deleteRange l r.addr) := by
  obtain ⟨pre, post, rfl⟩ := List.append_of_mem hr
  rw [deleteRange_append hn]
  exact List.perm_middle

theorem mem_deleteRange {x : KvmmRange} (hn : AddrNodup l) (hr : r ∈ l) :
    x ∈ deleteRange l r.addr ↔ x ∈ l ∧ x ≠ r := by
  rw [deleteRange, List.mem_filter, bne_iff_ne]
  refine and_congr_right fun hx => not_congr ⟨hn.eq_of_addr hx hr, ?_⟩
  rintro rfl
  rfl

theorem Ascending.deleteRange (h : Ascending l) (addr : Nat) : Ascending (deleteRange l addr) :=
  List.Pairwise.sublist List.filter_sublist h

end Desiros.Mem
