import Desiros.Library.CStrings
import Desiros.Library.Loop

/-!
# Strings (`strlen` and `strcpy` of `klibc.c`, `uacess.c`)

Loops over a string in memory, which come back to where they started in as many turns as there are addresses
(`addressSpace`). They find a string (`strlen_eq`) and copy it (`strcpy_eq`); `strzcpy_from_user` cuts a string that has
no room in its buffer (`strzcpyFromUser_eq`). A copy does not touch the bytes beside the buffer.
-/

namespace Desiros.Klibc

open Desiros.Library

/-! ## The functions -/

def addressSpace : Nat := 4294967296

/-- `while (*p) p++;` -/
def strlenTurn (m : Bytes) (p : UInt32) : Option UInt32 := if m p.toNat = 0 then none else some (p + 1)

def strlen (m : Bytes) (s : UInt32) : Option UInt32 := (loop (strlenTurn m) addressSpace s).map (· - s)

/-- `*dest++ = *src++` -/
def strcpyTurn : Bytes × UInt32 × UInt32 → Option (Bytes × UInt32 × UInt32)
  | (m, dest, src) =>
    if m src.toNat = 0 then none else some (Function.update m dest.toNat (m src.toNat), dest + 1, src + 1)

def strcpy (m : Bytes) (dest src : UInt32) : Option Bytes :=
  (loop strcpyTurn addressSpace (m, dest, src)).map fun (m, dest, _) => Function.update m dest.toNat 0

/-- The loop of `nocheck_user_strzcpy`, for the next `n` bytes. -/
def strzcpyLoop (dst src : UInt32) : Nat → Nat → Bytes → Bytes
  | 0, _, m => m
  | n + 1, i, m =>
    let m := Function.update m (dst + UInt32.ofNat i).toNat (m (src + UInt32.ofNat i).toNat)
    if m (src + UInt32.ofNat i).toNat = 0 then m else strzcpyLoop dst src n (i + 1) m

def nocheckUserStrzcpy (m : Bytes) (dst src len : UInt32) : Bytes :=
  Function.update (strzcpyLoop dst src len.toNat 0 m) (dst + (len - 1)).toNat 0

/-- `PAGING_USER_SPACE_SIZE` -/
def pagingUserSpaceSize : UInt32 := 0xC0000000

def strzcpyFromUser (m : Bytes) (kernelTo userFrom maxLen : UInt32) : Int × Bytes :=
  if maxLen < 1 ∨ maxLen > pagingUserSpaceSize then (-1, m) else (0, nocheckUserStrzcpy m kernelTo userFrom maxLen)

section

variable {m : Bytes} {a dst src len : UInt32} {s : List UInt8} {n i : Nat}

/-! ## What they do -/

theorem add_ofNat_succ (a : UInt32) (i : Nat) : a + UInt32.ofNat i + 1 = a + UInt32.ofNat (i + 1) := by
  rw [UInt32.ofNat_add, ← UInt32.add_assoc]
  rfl

theorem strlen_eq (h : CStringAt m a s) : strlen m a = some (UInt32.ofNat s.length) := by
  have hloop := @loop_states _ (strlenTurn m) (fun i => a + UInt32.ofNat i) s.length addressSpace (fun i hi => by
      unfold strlenTurn
      rw [h.toNat_add (Nat.le_of_lt hi), if_neg (h.byte_ne hi), add_ofNat_succ]) (by
      unfold strlenTurn
      rw [h.toNat_add (Nat.le_refl _), if_pos h.nul]) (by
      have hfits := h.fits
      show s.length < 4294967296
      omega)
  have hstart : a + UInt32.ofNat 0 = a := UInt32.add_zero a
  rw [hstart] at hloop
  unfold strlen
  rw [hloop, Option.map_some, UInt32.add_comm, UInt32.add_sub_cancel]

/-- The buffer of a string lies beside the string that is copied to it. -/
def Beside (dst n src : Nat) (s : List UInt8) : Prop := dst + n ≤ src ∨ src + s.length < dst

/-- **A string is copied.** -/
theorem strcpy_eq (h : CStringAt m src s) (hbeside : Beside dst.toNat (s.length + 1) src.toNat s)
    (hfits : dst.toNat + s.length < 4294967296) : ∃ m', strcpy m dst src = some m' ∧ CStringAt m' dst s ∧
      ∀ v, v < dst.toNat ∨ dst.toNat + s.length < v → m' v = m v := by
  -- what memory holds behind the first bytes
  obtain ⟨copied, hcopied⟩ : ∃ copied : Nat → Bytes, ∀ i v, copied i v =
    if dst.toNat ≤ v ∧ v < dst.toNat + i then s.getD (v - dst.toNat) 0 else m v := ⟨_, fun _ _ => rfl⟩
  have hdst : ∀ i ≤ s.length, (dst + UInt32.ofNat i).toNat = dst.toNat + i := by
    intro i hi
    rw [word_add, UInt32.toNat_ofNat_of_lt' (show i < 4294967296 by omega)]
    omega
  have hread : ∀ i ≤ s.length, copied i (src + UInt32.ofNat i).toNat = s.getD i 0 := by
    intro i hi
    unfold Beside at hbeside
    rw [h.toNat_add hi, hcopied, ← h.byte i hi]
    exact if_neg (by omega)
  have hstep : ∀ i < s.length, Function.update (copied i) (dst.toNat + i) (s.getD i 0) = copied (i + 1) := by
    intro i hi
    funext v
    rw [hcopied]
    by_cases hv : v = dst.toNat + i
    · rw [hv, Function.update_self, if_pos (by omega), Nat.add_sub_cancel_left]
    · rw [Function.update_of_ne hv, hcopied]
      exact if_congr (by omega) rfl rfl
  have hloop := @loop_states _ strcpyTurn (fun i => (copied i, dst + UInt32.ofNat i, src + UInt32.ofNat i)) s.length
    addressSpace (fun i hi => by
      have hread' := hread i (Nat.le_of_lt hi)
      have hbyte : ¬ copied i (src + UInt32.ofNat i).toNat = 0 := by
        rw [hread', ← h.byte i (Nat.le_of_lt hi)]
        exact h.byte_ne hi
      refine (if_neg hbyte).trans ?_
      rw [hread', hdst i (Nat.le_of_lt hi), hstep i hi, add_ofNat_succ, add_ofNat_succ]) (by
      have hbyte : copied s.length (src + UInt32.ofNat s.length).toNat = 0 := by
        rw [hread _ (Nat.le_refl _)]
        exact List.getD_eq_default _ _ (Nat.le_refl _)
      exact if_pos hbyte) (by
      show s.length < 4294967296
      omega)
  have hstart : (copied 0, dst + UInt32.ofNat 0, src + UInt32.ofNat 0) = (m, dst, src) := by
    have hnone : copied 0 = m := by
      funext v
      rw [hcopied]
      exact if_neg (by omega)
    rw [hnone]
    exact congrArg₂ (fun d s => (m, d, s)) (UInt32.add_zero dst) (UInt32.add_zero src)
  have hend : ∀ v, Function.update (copied s.length) (dst.toNat + s.length) 0 v =
      if dst.toNat ≤ v ∧ v ≤ dst.toNat + s.length then s.getD (v - dst.toNat) 0 else m v := by
    intro v
    by_cases hv : v = dst.toNat + s.length
    · rw [hv, Function.update_self, if_pos (by omega), Nat.add_sub_cancel_left]
      exact (List.getD_eq_default _ _ (Nat.le_refl _)).symm
    · rw [Function.update_of_ne hv, hcopied]
      exact if_congr (by omega) rfl rfl
  rw [hstart] at hloop
  refine ⟨_, congrArg _ hloop, ⟨fun i hi => ?_, h.notMem, hfits⟩, fun v hv => ?_⟩
  · dsimp only
    rw [hdst _ (Nat.le_refl _), hend, if_pos (by omega), Nat.add_sub_cancel_left]
  · dsimp only
    rw [hdst _ (Nat.le_refl _), hend]
    exact if_neg (by omega)

/-- The loop copies what is left of the string, as far as there is room. -/
theorem strzcpyLoop_eq (h : CStringAt m src s) (hi : i ≤ s.length) (hbeside : Beside dst.toNat (i + n) src.toNat s)
    (hfits : dst.toNat + (i + n) ≤ 4294967296) (v : Nat) : strzcpyLoop dst src n i m v =
      if dst.toNat + i ≤ v ∧ v < dst.toNat + (i + n) ∧ v ≤ dst.toNat + s.length then s.getD (v - dst.toNat) 0
      else m v := by
  induction n generalizing i m with
  | zero => exact (if_neg (by omega)).symm
  | succ n ih =>
    have hdst : (dst + UInt32.ofNat i).toNat = dst.toNat + i := by
      rw [word_add, UInt32.toNat_ofNat_of_lt' (show i < 4294967296 by omega)]
      omega
    have hsame : ∀ w, src.toNat ≤ w → w ≤ src.toNat + s.length →
        Function.update m (dst.toNat + i) (s.getD i 0) w = m w :=
      fun w hw hle => Function.update_of_ne (by unfold Beside at hbeside; omega) _ _
    have hstored := h.congr hsame
    unfold strzcpyLoop
    dsimp only
    rw [hdst, h.toNat_add hi, h.byte i hi, hstored.byte i hi]
    by_cases hend : i = s.length
    · rw [if_pos (hend ▸ List.getD_eq_default _ _ (Nat.le_refl _))]
      by_cases hv : v = dst.toNat + i
      · rw [hv, Function.update_self, if_pos (by omega), Nat.add_sub_cancel_left]
      · rw [Function.update_of_ne hv]
        exact (if_neg (by omega)).symm
    · have hbyte : ¬ s.getD i 0 = 0 := fun h0 => h.byte_ne (show i < s.length by omega) ((h.byte i hi).trans h0)
      rw [if_neg hbyte, ih hstored (by omega) (by unfold Beside at hbeside ⊢; omega) (by omega)]
      by_cases hv : v = dst.toNat + i
      · rw [if_neg (by omega), if_pos (by omega), hv, Function.update_self, Nat.add_sub_cancel_left]
      · rw [Function.update_of_ne hv]
        exact if_congr (by omega) rfl rfl

/-- **A string of a program arrives in its buffer**, cut where the buffer ends. -/
theorem strzcpyFromUser_eq (h : CStringAt m src s) (hlen : 0 < len.toNat) (hmax : len ≤ pagingUserSpaceSize)
    (hbeside : Beside dst.toNat len.toNat src.toNat s) (hfits : dst.toNat + len.toNat ≤ 4294967296) :
    ∃ m', strzcpyFromUser m dst src len = (0, m') ∧ CStringAt m' dst (s.take (len.toNat - 1)) ∧
      ∀ v, v < dst.toNat ∨ dst.toNat + len.toNat ≤ v → m' v = m v := by
  have hmax' : ¬ (len < 1 ∨ len > pagingUserSpaceSize) := by
    have hone : (1 : UInt32).toNat = 1 := rfl
    rw [word_lt_iff, gt_iff_lt, word_lt_iff]
    rw [word_le_iff] at hmax
    omega
  have hlast : (dst + (len - 1)).toNat = dst.toNat + (len.toNat - 1) := by
    have hlt := word_lt len
    rw [word_add, word_sub, show (1 : UInt32).toNat = 1 from rfl]
    omega
  have hloop := @strzcpyLoop_eq m dst src s len.toNat 0 h (Nat.zero_le _) (by rwa [Nat.zero_add]) (by omega)
  obtain ⟨m', hm'⟩ : ∃ m', m' = nocheckUserStrzcpy m dst src len := ⟨_, rfl⟩
  have hbyte : ∀ v, m' v = if v = dst.toNat + (len.toNat - 1) then 0
      else if dst.toNat ≤ v ∧ v < dst.toNat + len.toNat ∧ v ≤ dst.toNat + s.length then s.getD (v - dst.toNat) 0
      else m v := by
    intro v
    rw [hm', nocheckUserStrzcpy, hlast]
    by_cases hv : v = dst.toNat + (len.toNat - 1)
    · rw [hv, Function.update_self, if_pos rfl]
    · rw [Function.update_of_ne hv, if_neg hv, hloop]
      exact if_congr (by omega) rfl rfl
  refine ⟨m', by rw [hm', strzcpyFromUser, if_neg hmax'], ⟨fun i hi => ?_, fun h0 => h.notMem (List.mem_of_mem_take h0), ?_⟩,
    fun v hv => ?_⟩
  · rw [List.length_take] at hi
    rw [hbyte]
    by_cases hcut : i = len.toNat - 1
    · rw [if_pos (by omega)]
      exact (List.getD_eq_default _ _ (by rw [List.length_take]; omega)).symm
    · rw [if_neg (by omega), if_pos (by omega), Nat.add_sub_cancel_left]
      simp [List.getD_eq_getElem?_getD, show i < len.toNat - 1 by omega]
  · rw [List.length_take]
    omega
  · rw [hbyte, if_neg (by omega), if_neg (by omega)]

end

end Desiros.Klibc
