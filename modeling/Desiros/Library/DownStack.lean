import Desiros.Library.Bytes
import Mathlib.Data.List.GetD

/-!
# A stack that grows down

`DownStack.push` stores a block right below the top of the stack, which is its address from then on. What was pushed
stays readable below everything that was there before (`pushAll_block`, `pushAll_mem`), and the blocks do not overlap
(`spans_apart`). `leBytes` are the bytes of a word.
-/

namespace Desiros.Library

/-- The bytes of `bs` stored at `pos`. -/
def storeList (m : Bytes) (pos : Nat) (bs : List UInt8) : Bytes :=
  fun v => if pos ≤ v ∧ v < pos + bs.length then bs.getD (v - pos) 0 else m v

/-- The `n` low bytes of `v`. -/
def leBytes (v n : Nat) : List UInt8 := (List.range n).map fun i => UInt8.ofNat (v / 256 ^ i)

section

variable {m : Bytes} {pos v n : Nat} {bs : List UInt8}

@[simp] theorem leBytes_length : (leBytes v n).length = n := by
  rw [leBytes, List.length_map, List.length_range]

theorem storeList_of_ne (h : v < pos ∨ pos + bs.length ≤ v) : storeList m pos bs v = m v := if_neg (by omega)

theorem storeList_at {i : Nat} (h : i < bs.length) : storeList m pos bs (pos + i) = bs.getD i 0 := by
  unfold storeList
  rw [if_pos (by omega), Nat.add_sub_cancel_left]

theorem storeList_leBytes : storeList m pos (leBytes v n) = storeLe m pos n v := by
  funext t
  unfold storeList storeLe
  rw [leBytes_length]
  by_cases h : pos ≤ t ∧ t < pos + n
  · have hlt : t - pos < (leBytes v n).length := by
      rw [leBytes_length]
      omega
    rw [if_pos h, if_pos h, List.getD_eq_getElem _ _ hlt]
    simp [leBytes]
  · rw [if_neg h, if_neg h]

theorem slice_storeList : slice (storeList m pos bs) pos bs.length = bs := by
  unfold slice
  apply List.ext_getElem
  · rw [List.length_map, List.length_range]
  · intro i hi hi'
    rw [List.getElem_map, List.getElem_range, storeList_at hi', List.getD_eq_getElem _ _ hi']

end

structure DownStack where
  top : Nat
  mem : Bytes
  /-- The position and length of each block, in the order of the pushes. -/
  writes : List (Nat × Nat)

namespace DownStack

def push (s : DownStack) (bs : List UInt8) : DownStack where
  top := s.top - bs.length
  mem := storeList s.mem (s.top - bs.length) bs
  writes := s.writes ++ [(s.top - bs.length, bs.length)]

def pushAll (s : DownStack) (blocks : List (List UInt8)) : DownStack := blocks.foldl push s

def size (blocks : List (List UInt8)) : Nat := (blocks.map List.length).sum

/-- Where the blocks come to stand. -/
def spans : Nat → List (List UInt8) → List (Nat × Nat)
  | _, [] => []
  | top, bs :: blocks => (top - bs.length, bs.length) :: spans (top - bs.length) blocks

variable {s : DownStack} {bs : List UInt8} {blocks : List (List UInt8)} {v : Nat}

@[simp] theorem size_nil : size [] = 0 := rfl

@[simp] theorem size_cons : size (bs :: blocks) = bs.length + size blocks := by
  rw [size, size, List.map_cons, List.sum_cons]

theorem size_append (blocks' : List (List UInt8)) : size (blocks ++ blocks') = size blocks + size blocks' := by
  rw [size, List.map_append, List.sum_append]
  rfl

@[simp] theorem pushAll_nil : s.pushAll [] = s := rfl

@[simp] theorem pushAll_cons : s.pushAll (bs :: blocks) = (s.push bs).pushAll blocks := rfl

theorem pushAll_append (blocks' : List (List UInt8)) :
    s.pushAll (blocks ++ blocks') = (s.pushAll blocks).pushAll blocks' := List.foldl_append

theorem pushAll_top : (s.pushAll blocks).top = s.top - size blocks := by
  induction blocks generalizing s with
  | nil => rfl
  | cons bs blocks ih =>
    rw [pushAll_cons, ih, size_cons]
    exact Nat.sub_sub _ _ _

/-- Nothing changes from the top upwards. -/
theorem pushAll_mem (h : size blocks ≤ s.top) (hv : s.top ≤ v) : (s.pushAll blocks).mem v = s.mem v := by
  induction blocks generalizing s with
  | nil => rfl
  | cons bs blocks ih =>
    rw [size_cons] at h
    have hrest : size blocks ≤ (s.push bs).top := Nat.le_sub_of_add_le (by omega)
    rw [pushAll_cons, ih hrest (Nat.le_trans (Nat.sub_le _ _) hv)]
    exact storeList_of_ne (Or.inr (by omega))

/-- **A block that was pushed** is read at its address, whatever is pushed behind it. -/
theorem pushAll_block (h : bs.length + size blocks ≤ s.top) :
    slice ((s.push bs).pushAll blocks).mem (s.top - bs.length) bs.length = bs := by
  have hrest : size blocks ≤ (s.push bs).top := Nat.le_sub_of_add_le (by omega)
  refine Eq.trans ?_ (@slice_storeList s.mem (s.top - bs.length) bs)
  exact slice_congr fun i _ => pushAll_mem hrest (Nat.le_add_right _ i)

theorem pushAll_writes : (s.pushAll blocks).writes = s.writes ++ spans s.top blocks := by
  induction blocks generalizing s with
  | nil => exact (List.append_nil _).symm
  | cons bs blocks ih =>
    rw [pushAll_cons, ih]
    exact List.append_assoc s.writes _ _

theorem spans_within {top : Nat} (h : size blocks ≤ top) : ∀ w ∈ spans top blocks,
    top - size blocks ≤ w.1 ∧ w.1 + w.2 ≤ top := by
  induction blocks generalizing top with
  | nil => exact fun w hw => absurd hw List.not_mem_nil
  | cons bs blocks ih =>
    rw [size_cons] at h ⊢
    intro w hw
    cases List.mem_cons.mp hw with
    | inl he =>
      subst he
      dsimp only
      omega
    | inr hin =>
      have := ih (show size blocks ≤ top - bs.length by omega) w hin
      omega

/-- The blocks do not overlap. -/
theorem spans_apart {top : Nat} (h : size blocks ≤ top) :
    (spans top blocks).Pairwise fun p q => q.1 + q.2 ≤ p.1 := by
  induction blocks generalizing top with
  | nil => exact List.Pairwise.nil
  | cons bs blocks ih =>
    rw [size_cons] at h
    have hrest : size blocks ≤ top - bs.length := by omega
    exact List.pairwise_cons.mpr ⟨fun q hq => (spans_within hrest q hq).2, ih hrest⟩

/-! ## Words -/

def wordBlocks (words : List Nat) : List (List UInt8) := words.map fun w => leBytes w 4

theorem size_wordBlocks (words : List Nat) : size (wordBlocks words) = 4 * words.length := by
  induction words with
  | nil => rfl
  | cons w words ih =>
    rw [wordBlocks, List.map_cons, size_cons, leBytes_length, List.length_cons]
    rw [wordBlocks] at ih
    omega

/-- Word `k` of those that were pushed. -/
theorem pushAll_words {words : List Nat} (h : 4 * words.length ≤ s.top) {k : Nat} (hk : k < words.length) :
    le32 (s.pushAll (wordBlocks words)).mem (s.top - 4 * (k + 1)) = words[k] % 4294967296 := by
  induction words generalizing s k with
  | nil => exact absurd hk (Nat.not_lt_zero k)
  | cons w words ih =>
    rw [List.length_cons] at h hk
    have htop : (s.push (leBytes w 4)).top = s.top - 4 := by
      show s.top - (leBytes w 4).length = _
      rw [leBytes_length]
    have hrest : size (wordBlocks words) ≤ (s.push (leBytes w 4)).top := by
      rw [size_wordBlocks, htop]
      omega
    rw [wordBlocks, List.map_cons, pushAll_cons]
    cases k with
    | zero =>
      have hmem : ∀ i < 4, ((s.push (leBytes w 4)).pushAll (wordBlocks words)).mem (s.top - 4 + i) =
          (s.push (leBytes w 4)).mem (s.top - 4 + i) := by
        intro i _
        exact pushAll_mem hrest (by omega)
      have hread : le32 (s.push (leBytes w 4)).mem (s.top - 4) = w % 4294967296 := by
        show leWord (storeList s.mem (s.top - (leBytes w 4).length) (leBytes w 4)) (s.top - 4) 4 = _
        rw [leBytes_length, storeList_leBytes, leWord_storeLe]
        norm_num
      exact (leWord_congr 4 _ hmem).trans hread
    | succ k =>
      have hword := @ih (s.push (leBytes w 4)) (by rw [htop]; omega) k (by omega)
      rw [htop, show s.top - 4 - 4 * (k + 1) = s.top - 4 * (k + 1 + 1) by omega] at hword
      exact hword

end DownStack

end Desiros.Library
