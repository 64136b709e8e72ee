import Desiros.Library.WordStack

/-!
# Strings and vectors in memory

`CStringAt m a s` says that the string `s` stands at the address `a`, with its NUL behind it, and `CStringsAt m a ss` that
a vector of pointers to the strings `ss` does, with a null pointer behind them. Who changes other bytes only keeps them
(`CStringAt.congr`, `CStringsAt.congr`).
-/

namespace Desiros.Library

/-- Behind its last byte a list has zeroes for `getD`, as a string has its NUL. -/
structure CStringAt (m : Bytes) (a : UInt32) (s : List UInt8) : Prop where
  byte : ∀ i ≤ s.length, m (a.toNat + i) = s.getD i 0
  notMem : 0 ∉ s
  fits : a.toNat + s.length < 4294967296

/-- The words `ws` stand one above the other, from `a` on. -/
structure WordsAt (m : Bytes) (a : UInt32) (ws : List UInt32) : Prop where
  word : ∀ i < ws.length, wordAt m (a + UInt32.ofNat (4 * i)) = ws.getD i 0
  fits : a.toNat + 4 * ws.length ≤ 4294967296

section

variable {m m' : Bytes} {a : UInt32} {s s' : List UInt8} {ws : List UInt32} {i : Nat}

theorem CStringAt.congr (h : CStringAt m a s) (hsame : ∀ v, a.toNat ≤ v → v ≤ a.toNat + s.length → m' v = m v) :
    CStringAt m' a s :=
  ⟨fun i hi => (hsame _ (by omega) (by omega)).trans (h.byte i hi), h.notMem, h.fits⟩

theorem CStringAt.nul (h : CStringAt m a s) : m (a.toNat + s.length) = 0 := by
  rw [h.byte _ (Nat.le_refl _)]
  exact List.getD_eq_default _ _ (Nat.le_refl _)

theorem CStringAt.byte_ne (h : CStringAt m a s) (hi : i < s.length) : m (a.toNat + i) ≠ 0 := by
  rw [h.byte i (Nat.le_of_lt hi), List.getD_eq_getElem _ _ hi]
  exact fun h0 => h.notMem (h0 ▸ List.getElem_mem hi)

theorem CStringAt.toNat_add (h : CStringAt m a s) (hi : i ≤ s.length) : (a + UInt32.ofNat i).toNat = a.toNat + i := by
  have hfits := h.fits
  rw [word_add, UInt32.toNat_ofNat_of_lt' (show i < 4294967296 by omega)]
  omega

theorem WordsAt.toNat_add (h : WordsAt m a ws) (hi : i < ws.length) :
    (a + UInt32.ofNat (4 * i)).toNat = a.toNat + 4 * i := by
  have hfits := h.fits
  have ha := word_lt a
  rw [word_add, UInt32.toNat_ofNat_of_lt' (show 4 * i < 4294967296 by omega)]
  omega

theorem WordsAt.congr (h : WordsAt m a ws) (hsame : ∀ v, a.toNat ≤ v → v < a.toNat + 4 * ws.length → m' v = m v) :
    WordsAt m' a ws := by
  refine ⟨fun i hi => ?_, h.fits⟩
  have hi' := h.toNat_add hi
  rw [← h.word i hi]
  exact wordAt_congr fun v hv hlt => hsame v (by omega) (by omega)

end

/-! ## Vectors of strings -/

/-- The pointers `ps` point to the strings. -/
def PointTo (m : Bytes) (ps : List UInt32) (ss : List (List UInt8)) : Prop :=
  List.Forall₂ (fun p s => p ≠ 0 ∧ CStringAt m p s) ps ss

def CStringsAt (m : Bytes) (a : UInt32) (ss : List (List UInt8)) : Prop :=
  ∃ ps, WordsAt m a (ps ++ [0]) ∧ PointTo m ps ss

end Desiros.Library
