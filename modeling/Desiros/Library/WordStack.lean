import Desiros.Library.Bytes
import Desiros.Library.Words
import Mathlib.Data.List.GetD

/-!
# Words on a stack that grows down

`pushWords m top ws` is the memory after the words `ws` were pushed, one below the other, from the address `top` on.
They are read where they were pushed (`wordAt_pushWords`), and no other byte changes (`pushWords_of_ne`), if there is
room for them below `top`. `WordsBelow m top ws` says that they stand there.
-/

namespace Desiros.Library

/-- The word at an address. -/
def wordAt (m : Bytes) (a : UInt32) : UInt32 := UInt32.ofNat (le32 m a.toNat)

def pushWords (m : Bytes) (top : UInt32) : List UInt32 → Bytes
  | [] => m
  | w :: ws => pushWords (storeLe m (top - 4).toNat 4 w.toNat) (top - 4) ws

section

variable {m m' : Bytes} {top a w : UInt32} {ws ws' : List UInt32} {v k : Nat}

@[simp] theorem pushWords_nil (m : Bytes) (top : UInt32) : pushWords m top [] = m := rfl

@[simp] theorem pushWords_cons (m : Bytes) (top w : UInt32) (ws : List UInt32) :
    pushWords m top (w :: ws) = pushWords (storeLe m (top - 4).toNat 4 w.toNat) (top - 4) ws := rfl

theorem sub_four (h : 4 ≤ top.toNat) : (top - 4).toNat = top.toNat - 4 := by
  have hlt := word_lt top
  rw [word_sub, show (4 : UInt32).toNat = 4 from rfl]
  omega

theorem pushWords_append : pushWords m top (ws ++ ws') =
    pushWords (pushWords m top ws) (top - UInt32.ofNat (4 * ws.length)) ws' := by
  induction ws generalizing m top with
  | nil =>
    have hzero : top - UInt32.ofNat (4 * 0) = top := UInt32.sub_zero top
    rw [List.nil_append, List.length_nil, hzero, pushWords_nil]
  | cons w ws ih =>
    have htop : top - 4 - UInt32.ofNat (4 * ws.length) = top - UInt32.ofNat (4 * (ws.length + 1)) := by
      rw [Nat.mul_succ, UInt32.ofNat_add, UInt32.add_comm, sub_add_eq_sub_sub]
      rfl
    rw [List.cons_append, pushWords_cons, pushWords_cons, ih, List.length_cons, htop]

/-- Nothing changes from the top upwards, or below the last word. -/
theorem pushWords_of_ne (h : 4 * ws.length ≤ top.toNat) (hv : v < top.toNat - 4 * ws.length ∨ top.toNat ≤ v) :
    pushWords m top ws v = m v := by
  induction ws generalizing m top with
  | nil => rfl
  | cons w ws ih =>
    rw [List.length_cons] at h hv
    have hsub := sub_four (show 4 ≤ top.toNat by omega)
    rw [pushWords_cons, ih (by omega) (by omega)]
    exact storeLe_of_ne (by omega)

theorem wordAt_congr (h : ∀ v, a.toNat ≤ v → v < a.toNat + 4 → m v = m' v) : wordAt m a = wordAt m' a := by
  unfold wordAt
  exact congrArg UInt32.ofNat (leWord_congr 4 _ fun i hi => h _ (by omega) (by omega))

theorem wordAt_storeLe : wordAt (storeLe m a.toNat 4 w.toNat) a = w := by
  have hw : w.toNat % 256 ^ 4 = w.toNat := Nat.mod_eq_of_lt (word_lt w)
  unfold wordAt
  rw [le32, leWord_storeLe, hw, UInt32.ofNat_toNat]

/-- **A word is read where it was pushed.** -/
theorem wordAt_pushWords (h : 4 * ws.length ≤ top.toNat) (hk : k < ws.length)
    (ha : a.toNat + 4 * (k + 1) = top.toNat) : wordAt (pushWords m top ws) a = ws.getD k 0 := by
  induction ws generalizing m top k with
  | nil => exact absurd hk (Nat.not_lt_zero k)
  | cons w ws ih =>
    rw [List.length_cons] at h hk
    have hsub := sub_four (show 4 ≤ top.toNat by omega)
    rw [pushWords_cons]
    cases k with
    | zero =>
      have haddr : a = top - 4 := word_eq_iff.mpr (by omega)
      have hkept : wordAt (pushWords (storeLe m (top - 4).toNat 4 w.toNat) (top - 4) ws) a =
          wordAt (storeLe m (top - 4).toNat 4 w.toNat) a :=
        wordAt_congr fun v hv _ => pushWords_of_ne (by omega) (by omega)
      rw [hkept, haddr, wordAt_storeLe]
      rfl
    | succ k => exact ih (by omega) (by omega) (by omega)

/-! ## Words that stand below an address -/

/-- The words `ws` stand one below the other, from `top` on. -/
def WordsBelow (m : Bytes) (top : UInt32) (ws : List UInt32) : Prop :=
  ∀ k < ws.length, ∀ a : UInt32, a.toNat + 4 * (k + 1) = top.toNat → wordAt m a = ws.getD k 0

theorem wordsBelow_pushWords (h : 4 * ws.length ≤ top.toNat) : WordsBelow (pushWords m top ws) top ws :=
  fun _ hk _ ha => wordAt_pushWords h hk ha

theorem WordsBelow.congr (h : WordsBelow m top ws)
    (hsame : ∀ v, top.toNat - 4 * ws.length ≤ v → v < top.toNat → m' v = m v) : WordsBelow m' top ws := by
  intro k hk a ha
  rw [← h k hk a ha]
  exact wordAt_congr fun v hv hlt => hsame v (by omega) (by omega)

theorem WordsBelow.left (h : WordsBelow m top (ws ++ ws')) : WordsBelow m top ws := by
  intro k hk a ha
  rw [h k (by rw [List.length_append]; omega) a ha, List.getD_append _ _ _ _ hk]

/-- One of the words is stored anew. -/
theorem WordsBelow.set (h : WordsBelow m top ws) (hk : k < ws.length) (ha : a.toNat + 4 * (k + 1) = top.toNat) (w : UInt32) :
    WordsBelow (storeLe m a.toNat 4 w.toNat) top (ws.set k w) := by
  intro j hj b hb
  rw [List.length_set] at hj
  by_cases hjk : j = k
  · subst hjk
    have hab : b = a := word_eq_iff.mpr (by omega)
    rw [hab, wordAt_storeLe, List.getD_eq_getElem _ _ (by rwa [List.length_set]), List.getElem_set_self]
  · have hother : wordAt (storeLe m a.toNat 4 w.toNat) b = wordAt m b :=
      wordAt_congr fun v hv hlt => storeLe_of_ne (by omega)
    rw [hother, h j hj b hb]
    simp [List.getD_eq_getElem?_getD, List.getElem?_set_ne (Ne.symm hjk)]

/-- The word that lies `i` words above the lowest of `n` words. -/
theorem WordsBelow.word (h : WordsBelow m top ws) {n i : Nat} (ha : a.toNat + 4 * n = top.toNat)
    (hn : n ≤ ws.length) (hi : i < n) : wordAt m (a + UInt32.ofNat (4 * i)) = ws.getD (n - 1 - i) 0 := by
  have htop := word_lt top
  have hoffset : (UInt32.ofNat (4 * i)).toNat = 4 * i := UInt32.toNat_ofNat_of_lt' (show 4 * i < 4294967296 by omega)
  apply h _ (by omega)
  rw [word_add, hoffset]
  omega

end

end Desiros.Library
