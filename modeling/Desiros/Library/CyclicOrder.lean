import Mathlib.Data.Finset.Card
import Mathlib.Data.List.Chain
import Mathlib.Data.List.Nodup
import Mathlib.Data.List.Range
import Mathlib.Data.Nat.ModEq

/-!
# Taking turns

In a finite set of a linear order every element has a next one, with the least behind the greatest (`NextInTurn`).
Elements that follow each other in this way come round in the order of their ranks, so any of them in a row, as many as
there are in the set, are all of them (`count_turns`).
-/

namespace Desiros.Library

variable {α : Type*} [LinearOrder α] {S : Finset α} {x y : α} {l : List α}

/-- `y` is the first element behind `x`, and behind the greatest element comes the least; `x` itself comes last. -/
structure NextInTurn (S : Finset α) (x y : α) : Prop where
  mem : y ∈ S
  first : (x < y ∧ ∀ z ∈ S, x < z → y ≤ z) ∨ (∀ z ∈ S, ¬ x < z) ∧ ∀ z ∈ S, y ≤ z

/-- The number of elements below `x`. -/
def rank (S : Finset α) (x : α) : Nat := (S.filter (· < x)).card

theorem rank_lt (hx : x ∈ S) : rank S x < S.card := by
  apply Finset.card_lt_card
  rw [Finset.filter_ssubset]
  exact ⟨x, hx, lt_irrefl x⟩

theorem rank_lt_rank (hx : x ∈ S) (h : x < y) : rank S x < rank S y := by
  apply Finset.card_lt_card
  rw [Finset.ssubset_iff_of_subset]
  · exact ⟨x, Finset.mem_filter.mpr ⟨hx, h⟩, fun hmem => lt_irrefl x (Finset.mem_filter.mp hmem).2⟩
  · intro z hz
    obtain ⟨hzS, hzx⟩ := Finset.mem_filter.mp hz
    exact Finset.mem_filter.mpr ⟨hzS, hzx.trans h⟩

theorem rank_inj (hx : x ∈ S) (hy : y ∈ S) (h : rank S x = rank S y) : x = y := by
  rcases lt_trichotomy x y with hlt | heq | hlt
  · exact absurd h (rank_lt_rank hx hlt).ne
  · exact heq
  · exact absurd h (rank_lt_rank hy hlt).ne'

/-- **The next element** has the next rank. -/
theorem NextInTurn.rank_eq (h : NextInTurn S x y) (hx : x ∈ S) : rank S y = (rank S x + 1) % S.card := by
  rcases h.first with ⟨hlt, hfirst⟩ | ⟨hlast, hleast⟩
  · have hbelow : S.filter (· < y) = insert x (S.filter (· < x)) := by
      ext z
      rw [Finset.mem_insert, Finset.mem_filter, Finset.mem_filter]
      constructor
      · rintro ⟨hz, hzy⟩
        rcases lt_trichotomy z x with hzx | heq | hxz
        · exact .inr ⟨hz, hzx⟩
        · exact .inl heq
        · exact absurd (hfirst z hz hxz) (not_le.mpr hzy)
      · rintro (rfl | ⟨hz, hzx⟩)
        · exact ⟨hx, hlt⟩
        · exact ⟨hz, hzx.trans hlt⟩
    have hnot : x ∉ S.filter (· < x) := fun hmem => lt_irrefl x (Finset.mem_filter.mp hmem).2
    have hrank : rank S y = rank S x + 1 := by
      unfold rank
      rw [hbelow, Finset.card_insert_of_notMem hnot]
    rw [hrank, Nat.mod_eq_of_lt (hrank ▸ rank_lt h.mem)]
  · have hbelow : S.filter (· < y) = ∅ :=
      Finset.filter_eq_empty_iff.mpr fun z hz => not_lt.mpr (hleast z hz)
    have hothers : S.filter (· < x) = S.erase x := by
      ext z
      rw [Finset.mem_filter, Finset.mem_erase, and_comm]
      exact and_congr_left fun hz => ⟨ne_of_lt, fun hne => lt_of_le_of_ne (not_lt.mp (hlast z hz)) hne⟩
    have hrank : rank S x + 1 = S.card := by
      unfold rank
      rw [hothers, Finset.card_erase_add_one hx]
    rw [hrank, Nat.mod_self]
    unfold rank
    rw [hbelow, Finset.card_empty]

/-- The ranks of elements that take turns count up. -/
theorem turns_rank (h : (x :: l).IsChain (NextInTurn S)) (hx : x ∈ S) :
    (x :: l).map (rank S) = (List.range (l.length + 1)).map fun i => (rank S x + i) % S.card := by
  induction l generalizing x with
  | nil =>
    rw [List.length_nil, Nat.zero_add, List.range_one, List.map_singleton, List.map_singleton, Nat.add_zero,
      Nat.mod_eq_of_lt (rank_lt hx)]
  | cons y l ih =>
    obtain ⟨hxy, hchain⟩ := List.isChain_cons_cons.mp h
    have hsplit : List.range ((y :: l).length + 1) = 0 :: (List.range (l.length + 1)).map Nat.succ :=
      List.range_succ_eq_map
    rw [List.map_cons, ih hchain hxy.mem, hsplit, List.map_cons, List.map_map, hxy.rank_eq hx]
    congr 1
    · exact (Nat.mod_eq_of_lt (rank_lt hx)).symm
    · apply List.map_congr_left
      intro i _
      rw [Function.comp_apply, Nat.mod_add_mod, Nat.add_assoc, Nat.add_comm 1 i]

/-- No element comes twice in a row of at most as many as there are. -/
theorem turns_nodup (h : l.IsChain (NextInTurn S)) (hmem : ∀ x ∈ l, x ∈ S) (hlen : l.length ≤ S.card) : l.Nodup := by
  cases l with
  | nil => exact List.nodup_nil
  | cons x l =>
    apply List.Nodup.of_map (rank S)
    rw [turns_rank h (hmem x List.mem_cons_self)]
    apply List.Nodup.map_on ?_ List.nodup_range
    intro i hi j hj heq
    rw [List.mem_range] at hi hj
    rw [List.length_cons] at hlen
    have hcong : i ≡ j [MOD S.card] := Nat.ModEq.add_left_cancel' (rank S x) heq
    exact hcong.eq_of_lt_of_lt (Nat.lt_of_lt_of_le hi hlen) (Nat.lt_of_lt_of_le hj hlen)

/-- **As many turns as there are elements** take each of them exactly once. -/
theorem count_turns (h : l.IsChain (NextInTurn S)) (hmem : ∀ x ∈ l, x ∈ S) (hlen : l.length = S.card) (hx : x ∈ S) :
    l.count x = 1 := by
  have hnodup := turns_nodup h hmem hlen.le
  have hall : l.toFinset = S := by
    apply Finset.eq_of_subset_of_card_le
    · exact fun z hz => hmem z (List.mem_toFinset.mp hz)
    · rw [List.toFinset_card_of_nodup hnodup, hlen]
  exact List.count_eq_one_of_mem hnodup (List.mem_toFinset.mp (hall.symm ▸ hx))

end Desiros.Library
