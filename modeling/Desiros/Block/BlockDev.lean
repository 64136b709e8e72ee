import Desiros.Library.Words
import Mathlib.Logic.Function.Basic

/-!
# Block-device writes (`block_dev.c`)

`blockdev_generic_write` writes the blocks its range meets, each from a freshly allocated buffer into
which the bytes of the range are copied. It neither reads the rest of a partially covered block nor
advances the source address, so what it leaves is `writtenBlocks`: the bytes of the range in each block
are the *first* bytes of the source, the other bytes of the block are what the allocator returned.
-/

namespace Desiros.Block

open Desiros.Library

/-- `struct blockdev_instance`, of a disk or a partition. `blockdev_register_disk` refuses empty blocks;
the drivers register fewer than `2 ^ 32` blocks of 512 bytes, so that byte offsets in a device are 64-bit
words. -/
structure Blockdev where
  blockSize : UInt32
  numberOfBlocks : UInt64
  indexOfFirstBlock : UInt64
  blockSize_pos : 0 < blockSize.toNat
  size_lt : numberOfBlocks.toNat * blockSize.toNat < 18446744073709551616
  last_lt : indexOfFirstBlock.toNat + numberOfBlocks.toNat < 18446744073709551616

/-- The content of the disk a device lies on: block, byte in the block. -/
abbrev Disk := Nat → Nat → UInt8

/-- `operations->write_block` when it succeeds. -/
def writeBlock (d : Disk) (blockId : UInt64) (blockData : Nat → UInt8) : Disk :=
  Function.update d blockId.toNat blockData

/-- `memcpy(block_data + offset_in_block, buff_addr, usrbytes)` into a buffer with content `garbage`. -/
def copyInto (garbage : Nat → UInt8) (offsetInBlock usrbytes : Nat) (buff : Nat → UInt8) (i : Nat) :
    UInt8 :=
  if offsetInBlock ≤ i ∧ i < offsetInBlock + usrbytes then buff (i - offsetInBlock) else garbage i

/-- The loop of `blockdev_generic_write`, `fuel` turns at most; `garbage` is what the buffer `kmalloc`
returns for a block contains. Returns `wrbytes` and the disk. -/
def writeLoop (b : Blockdev) (garbage : Nat → Nat → UInt8) (buff : Nat → UInt8) (len : UInt32) :
    Nat → UInt32 → UInt64 → Disk → UInt32 × Disk
  | 0, wrbytes, _, d => (wrbytes, d)
  | fuel + 1, wrbytes, offsetInDevice, d =>
    if ¬ wrbytes < len then (wrbytes, d)
    else
      let blockId := offsetInDevice / b.blockSize.toUInt64
      if blockId ≥ b.numberOfBlocks then (wrbytes, d)
      else
        let blockId := blockId + b.indexOfFirstBlock
        let offsetInBlock := (offsetInDevice % b.blockSize.toUInt64).toUInt32
        let usrbytes := b.blockSize - offsetInBlock
        let usrbytes := if len - wrbytes < usrbytes then len - wrbytes else usrbytes
        let blockData := copyInto (garbage blockId.toNat) offsetInBlock.toNat usrbytes.toNat buff
        writeLoop b garbage buff len fuel (wrbytes + usrbytes) (offsetInDevice + usrbytes.toUInt64)
          (writeBlock d blockId blockData)

/-- Each turn writes at least one byte. Returns `*len` and the disk. -/
def blockdevGenericWrite (b : Blockdev) (garbage : Nat → Nat → UInt8) (d : Disk)
    (offsetInDevice : UInt64) (buff : Nat → UInt8) (len : UInt32) : UInt32 × Disk :=
  writeLoop b garbage buff len len.toNat 0 offsetInDevice d

/-! ## Closed form -/

/-- The size of a device in bytes. -/
def Blockdev.size (b : Blockdev) : Nat := b.numberOfBlocks.toNat * b.blockSize.toNat

/-- What writing `m` bytes at `o` leaves. -/
def writtenBlocks (b : Blockdev) (garbage : Nat → Nat → UInt8) (buff : Nat → UInt8) (o m : Nat)
    (d : Disk) : Disk := fun id =>
  let bs := b.blockSize.toNat
  let j := id - b.indexOfFirstBlock.toNat
  if b.indexOfFirstBlock.toNat ≤ id ∧ 0 < m ∧ o / bs ≤ j ∧ j * bs < o + m then
    let s := if j = o / bs then o % bs else 0
    copyInto (garbage id) s (min bs (o + m - j * bs) - s) buff
  else d id

theorem toNat_div (o : UInt64) (bs : UInt32) : (o / bs.toUInt64).toNat = o.toNat / bs.toNat := by
  rw [UInt64.toNat_div, UInt32.toNat_toUInt64]

theorem toNat_mod (o : UInt64) {bs : UInt32} (h : 0 < bs.toNat) :
    (o % bs.toUInt64).toUInt32.toNat = o.toNat % bs.toNat := by
  have h1 := Nat.mod_lt o.toNat h
  have h2 := word_lt bs
  rw [UInt64.toNat_toUInt32, UInt64.toNat_mod, UInt32.toNat_toUInt64]
  omega

theorem writtenBlocks_zero (b : Blockdev) (garbage : Nat → Nat → UInt8) (buff : Nat → UInt8)
    (o : Nat) (d : Disk) : writtenBlocks b garbage buff o 0 d = d := by
  funext id
  rw [writtenBlocks, if_neg (by omega)]

/-- One turn of the loop: the bytes of the first block, then the rest. -/
theorem writtenBlocks_step (b : Blockdev) (garbage : Nat → Nat → UInt8) (buff : Nat → UInt8)
    {o m c : Nat} (d : Disk) (hm : 0 < m) (hc : c = min (b.blockSize.toNat - o % b.blockSize.toNat) m) :
    let id := b.indexOfFirstBlock.toNat + o / b.blockSize.toNat
    writtenBlocks b garbage buff (o + c) (m - c) (Function.update d id
        (copyInto (garbage id) (o % b.blockSize.toNat) c buff)) =
      writtenBlocks b garbage buff o m d := by
  intro id
  obtain ⟨bs, hbs⟩ : ∃ bs, bs = b.blockSize.toNat := ⟨_, rfl⟩
  have hpos := b.blockSize_pos
  rw [← hbs] at hc hpos
  have hmod := Nat.mod_lt o hpos
  have hdiv := Nat.div_add_mod o bs
  obtain ⟨k, hk⟩ : ∃ k, k = o / bs := ⟨_, rfl⟩
  rw [← hk] at hdiv
  have hnext : c = bs - o % bs → (o + c) / bs = k + 1 ∧ (o + c) % bs = 0 := by
    intro he
    have : o + c = (k + 1) * bs := by rw [Nat.add_mul, Nat.one_mul, Nat.mul_comm k]; omega
    rw [this]
    exact ⟨Nat.mul_div_cancel _ hpos, Nat.mul_mod_left _ _⟩
  funext x
  simp only [writtenBlocks, id, ← hbs, ← hk]
  by_cases hx : x = b.indexOfFirstBlock.toNat + k
  · have hj : x - b.indexOfFirstBlock.toNat = k := by omega
    rw [hx, Nat.add_sub_cancel_left, Function.update_self, if_neg, if_pos, if_pos rfl]
    · have : min bs (o + m - k * bs) - o % bs = c := by
        rw [Nat.mul_comm k]
        omega
      rw [this]
    · rw [Nat.mul_comm k]
      exact ⟨by omega, hm, le_rfl, by omega⟩
    · rintro ⟨_, h1, h2, _⟩
      have he : c = bs - o % bs := by omega
      have := (hnext he).1
      omega
  · rw [Function.update_of_ne hx]
    obtain ⟨j, hj⟩ : ∃ j, j = x - b.indexOfFirstBlock.toNat := ⟨_, rfl⟩
    rw [← hj]
    have hsum : o + c + (m - c) = o + m := by omega
    rw [hsum]
    by_cases hlt : b.indexOfFirstBlock.toNat ≤ x ∧ k + 1 ≤ j ∧ j * bs < o + m
    · have hle : (k + 1) * bs ≤ j * bs := Nat.mul_le_mul_right bs hlt.2.1
      rw [Nat.add_mul, Nat.one_mul, Nat.mul_comm k] at hle
      have he : c = bs - o % bs := by omega
      obtain ⟨hq, hr⟩ := hnext he
      rw [hq, hr, ite_self, if_pos ⟨hlt.1, by omega, hlt.2.1, hlt.2.2⟩,
        if_pos ⟨hlt.1, by omega, by omega, hlt.2.2⟩, if_neg (by omega)]
    · rw [if_neg, if_neg]
      · rintro ⟨h1, h2, h3, h4⟩
        exact hlt ⟨h1, by omega, h4⟩
      · rintro ⟨h1, h2, h3, h4⟩
        have he : c = bs - o % bs := by omega
        rw [(hnext he).1] at h3
        exact hlt ⟨h1, h3, h4⟩

/-- **The loop in closed form**: it writes as many of the remaining bytes as the device has room for. -/
theorem writeLoop_eq (b : Blockdev) (garbage : Nat → Nat → UInt8) (buff : Nat → UInt8) (len : UInt32) :
    ∀ (fuel : Nat) (w : UInt32) (o : UInt64) (d : Disk), w.toNat ≤ len.toNat →
      len.toNat - w.toNat ≤ fuel →
      let m := min (len.toNat - w.toNat) (b.size - o.toNat)
      (writeLoop b garbage buff len fuel w o d).1.toNat = w.toNat + m ∧
        (writeLoop b garbage buff len fuel w o d).2 =
          writtenBlocks b garbage buff o.toNat m d := by
  intro fuel
  induction fuel with
  | zero =>
    intro w o d hw hfuel m
    have hm : m = 0 := by omega
    rw [hm, writtenBlocks_zero]
    exact ⟨rfl, rfl⟩
  | succ fuel ih =>
    intro w o d hw hfuel m
    have hmdef : m = min (len.toNat - w.toNat) (b.size - o.toNat) := rfl
    rw [writeLoop]
    by_cases hlt : w < len
    swap
    · have hm : m = 0 := by
        rw [word_lt_iff] at hlt
        omega
      rw [if_pos hlt, hm, writtenBlocks_zero]
      exact ⟨rfl, rfl⟩
    rw [if_neg (not_not.mpr hlt)]
    rw [word_lt_iff] at hlt
    have hpos := b.blockSize_pos
    have hbs := word_lt b.blockSize
    have hdiv := Nat.div_add_mod o.toNat b.blockSize.toNat
    have hmod := Nat.mod_lt o.toNat hpos
    by_cases hend : o / b.blockSize.toUInt64 ≥ b.numberOfBlocks
    · have hm : m = 0 := by
        rw [ge_iff_le, UInt64.le_iff_toNat_le, toNat_div] at hend
        have := (Nat.le_div_iff_mul_le hpos).mp hend
        rw [hmdef, Blockdev.size]
        omega
      simp only [hend, if_true]
      rw [hm, writtenBlocks_zero]
      exact ⟨rfl, rfl⟩
    simp only [hend, if_false]
    rw [ge_iff_le, UInt64.le_iff_toNat_le, toNat_div, not_le] at hend
    -- the rest of the first block lies inside the device
    have hroom : b.blockSize.toNat * (o.toNat / b.blockSize.toNat) + b.blockSize.toNat ≤ b.size := by
      have h := Nat.mul_le_mul_right b.blockSize.toNat hend
      rw [Nat.succ_mul, Nat.mul_comm (o.toNat / _)] at h
      exact h
    have hsize : b.size < 18446744073709551616 := b.size_lt
    obtain ⟨c, hc⟩ : ∃ c, c = if len - w < b.blockSize - (o % b.blockSize.toUInt64).toUInt32 then
        len - w else b.blockSize - (o % b.blockSize.toUInt64).toUInt32 := ⟨_, rfl⟩
    rw [← hc]
    have hcnat : c.toNat = min (b.blockSize.toNat - o.toNat % b.blockSize.toNat) m := by
      rw [hc]
      have h1 : (len - w).toNat = len.toNat - w.toNat := by
        rw [word_sub]
        have := word_lt len
        omega
      have h2 : (b.blockSize - (o % b.blockSize.toUInt64).toUInt32).toNat =
          b.blockSize.toNat - o.toNat % b.blockSize.toNat := by
        rw [word_sub, toNat_mod o hpos]
        omega
      split_ifs with h <;> rw [word_lt_iff, h1, h2] at h
      · rw [h1]
        omega
      · rw [h2]
        omega
    have hw' : (w + c).toNat = w.toNat + c.toNat := by
      rw [word_add]
      have := word_lt len
      omega
    have ho' : (o + c.toUInt64).toNat = o.toNat + c.toNat := by
      rw [UInt64.toNat_add, UInt32.toNat_toUInt64]
      omega
    obtain ⟨h1, h2⟩ := ih (w + c) (o + c.toUInt64) (writeBlock d
      (o / b.blockSize.toUInt64 + b.indexOfFirstBlock) (copyInto (garbage
        (o / b.blockSize.toUInt64 + b.indexOfFirstBlock).toNat)
        (o % b.blockSize.toUInt64).toUInt32.toNat c.toNat buff)) (by omega) (by omega)
    rw [h1, h2, hw', ho']
    have hm' : min (len.toNat - (w.toNat + c.toNat)) (b.size - (o.toNat + c.toNat)) = m - c.toNat := by
      omega
    have hid : (o / b.blockSize.toUInt64 + b.indexOfFirstBlock).toNat =
        b.indexOfFirstBlock.toNat + o.toNat / b.blockSize.toNat := by
      rw [UInt64.toNat_add, toNat_div, Nat.add_comm, Nat.mod_eq_of_lt]
      exact lt_trans (Nat.add_lt_add_left hend _) b.last_lt
    rw [hm']
    refine ⟨by omega, ?_⟩
    rw [writeBlock, hid, toNat_mod o hpos]
    exact writtenBlocks_step b garbage buff d (by omega) hcnat

/-! ## What a write is meant to do -/

/-- The number of bytes a write has room for. -/
def writeLength (b : Blockdev) (offsetInDevice : UInt64) (len : UInt32) : Nat :=
  min len.toNat (b.size - offsetInDevice.toNat)

/-- The length is returned, the bytes of the range are the ones of the buffer, all others of the disk are
the old ones. -/
def WriteCorrect (b : Blockdev) (d : Disk) (offsetInDevice : UInt64) (buff : Nat → UInt8)
    (len : UInt32) (r : UInt32 × Disk) : Prop :=
  let o := offsetInDevice.toNat
  let n := writeLength b offsetInDevice len
  r.1.toNat = n ∧ ∀ id i, i < b.blockSize.toNat →
    let x := (id - b.indexOfFirstBlock.toNat) * b.blockSize.toNat + i
    r.2 id i = if b.indexOfFirstBlock.toNat ≤ id ∧ o ≤ x ∧ x < o + n then buff (x - o) else d id i

/-- When a write is correct: it writes nothing, or whole blocks from a buffer that repeats its first
block. -/
def WriteGood (b : Blockdev) (offsetInDevice : UInt64) (buff : Nat → UInt8) (len : UInt32) : Prop :=
  let n := writeLength b offsetInDevice len
  n = 0 ∨ b.blockSize.toNat ∣ offsetInDevice.toNat ∧ b.blockSize.toNat ∣ n ∧
    ∀ i < n, buff i = buff (i % b.blockSize.toNat)

theorem blockdevGenericWrite_eq (b : Blockdev) (garbage : Nat → Nat → UInt8) (d : Disk)
    (offsetInDevice : UInt64) (buff : Nat → UInt8) (len : UInt32) :
    (blockdevGenericWrite b garbage d offsetInDevice buff len).1.toNat =
        writeLength b offsetInDevice len ∧
      (blockdevGenericWrite b garbage d offsetInDevice buff len).2 =
        writtenBlocks b garbage buff offsetInDevice.toNat (writeLength b offsetInDevice len) d := by
  obtain ⟨h1, h2⟩ := writeLoop_eq b garbage buff len len.toNat 0 offsetInDevice d
    (Nat.zero_le _) (Nat.sub_le _ _)
  have h0 : (0 : UInt32).toNat = 0 := rfl
  rw [h0, Nat.sub_zero] at h1 h2
  exact ⟨h1.trans (Nat.zero_add _), h2⟩

section Bytes

variable {b : Blockdev} {buff : Nat → UInt8} {o n : Nat} {d : Disk}

/-- A block the range meets, from its start on where the range starts at a block boundary. -/
theorem writtenBlocks_block (garbage : Nat → Nat → UInt8) {j : Nat} (hn : 0 < n)
    (h1 : o / b.blockSize.toNat ≤ j) (h2 : j * b.blockSize.toNat < o + n) (i : Nat) :
    writtenBlocks b garbage buff o n d (b.indexOfFirstBlock.toNat + j) i =
      copyInto (garbage (b.indexOfFirstBlock.toNat + j))
        (if j = o / b.blockSize.toNat then o % b.blockSize.toNat else 0)
        (min b.blockSize.toNat (o + n - j * b.blockSize.toNat) -
          if j = o / b.blockSize.toNat then o % b.blockSize.toNat else 0) buff i := by
  simp only [writtenBlocks, Nat.add_sub_cancel_left]
  rw [if_pos ⟨Nat.le_add_right _ _, hn, h1, h2⟩]

/-- Memory that differs from the disk everywhere. -/
theorem add_one_ne (x : UInt8) : x + 1 ≠ x := by
  intro h
  have := congrArg UInt8.toNat h
  rw [UInt8.toNat_add] at this
  have h1 : (1 : UInt8).toNat = 1 := rfl
  have := x.toNat_lt
  omega

end Bytes

/-- **Block-device writes**: a write is correct whatever `kmalloc` returns if and only if `WriteGood`. -/
theorem blockdevGenericWrite_correct_iff (b : Blockdev) (d : Disk) (offsetInDevice : UInt64)
    (buff : Nat → UInt8) (len : UInt32) :
    (∀ garbage, WriteCorrect b d offsetInDevice buff len
        (blockdevGenericWrite b garbage d offsetInDevice buff len)) ↔
      WriteGood b offsetInDevice buff len := by
  obtain ⟨o, ho⟩ : ∃ o, o = offsetInDevice.toNat := ⟨_, rfl⟩
  obtain ⟨n, hn⟩ : ∃ n, n = writeLength b offsetInDevice len := ⟨_, rfl⟩
  obtain ⟨bs, hbs⟩ : ∃ bs, bs = b.blockSize.toNat := ⟨_, rfl⟩
  have hpos := b.blockSize_pos
  simp only [WriteCorrect, WriteGood, (blockdevGenericWrite_eq b _ d offsetInDevice buff len).1,
    (blockdevGenericWrite_eq b _ d offsetInDevice buff len).2, true_and]
  rw [← hbs] at hpos
  rw [← ho, ← hn, ← hbs]
  have hblock : ∀ garbage j, 0 < n → o / bs ≤ j → j * bs < o + n → ∀ i,
      writtenBlocks b garbage buff o n d (b.indexOfFirstBlock.toNat + j) i =
        copyInto (garbage (b.indexOfFirstBlock.toNat + j)) (if j = o / bs then o % bs else 0)
          (min bs (o + n - j * bs) - if j = o / bs then o % bs else 0) buff i := by
    intro garbage j hn h1 h2 i
    rw [hbs] at h1 h2 ⊢
    exact writtenBlocks_block garbage hn h1 h2 i
  have hmod := Nat.mod_lt o hpos
  have hdiv := Nat.div_add_mod o bs
  constructor
  · intro h
    rcases Nat.eq_zero_or_pos n with hzero | hnpos
    · exact .inl hzero
    right
    have hfirst : o % bs = 0 := by
      by_contra hne
      -- the byte at the start of the first block lies before the range
      have hb := h (fun id i => d id i + 1) (b.indexOfFirstBlock.toNat + o / bs) 0 hpos
      rw [Nat.add_sub_cancel_left, Nat.mul_comm (o / bs)] at hb
      rw [hblock _ _ hnpos le_rfl (by rw [Nat.mul_comm]; omega), if_pos rfl, copyInto,
        if_neg (by omega), if_neg (by omega)] at hb
      exact add_one_ne _ hb
    have hs : ∀ j, (if j = o / bs then o % bs else 0) = 0 := fun j => by rw [hfirst, ite_self]
    have hlast : n % bs = 0 := by
      by_contra hne
      -- the byte right behind the range lies in its last block
      have hmod' := Nat.mod_lt (o + n) hpos
      have hdiv' := Nat.div_add_mod (o + n) bs
      have hrem : (o + n) % bs = n % bs := by
        rw [Nat.add_mod, hfirst, Nat.zero_add, Nat.mod_mod]
      have hb := h (fun id i => d id i + 1) (b.indexOfFirstBlock.toNat + (o + n) / bs)
        ((o + n) % bs) hmod'
      have hlt : (o + n) / bs * bs < o + n := by
        rw [Nat.mul_comm]
        omega
      rw [Nat.add_sub_cancel_left, hblock _ _ hnpos (Nat.div_le_div_right (Nat.le_add_right _ _)) hlt,
        hs, copyInto, if_neg (by rw [Nat.mul_comm]; omega), if_neg (by rw [Nat.mul_comm]; omega)] at hb
      exact add_one_ne _ hb
    refine ⟨Nat.dvd_of_mod_eq_zero hfirst, Nat.dvd_of_mod_eq_zero hlast, fun i hi => ?_⟩
    have hmod' := Nat.mod_lt (o + i) hpos
    have hdiv' := Nat.div_add_mod (o + i) bs
    have hrem : (o + i) % bs = i % bs := by
      rw [Nat.add_mod, hfirst, Nat.zero_add, Nat.mod_mod]
    have hb := h (fun _ _ => 0) (b.indexOfFirstBlock.toNat + (o + i) / bs) ((o + i) % bs) hmod'
    have hx : (o + i) / bs * bs + (o + i) % bs = o + i := by
      rw [Nat.mul_comm]
      exact hdiv'
    have hlt : (o + i) / bs * bs < o + n := by omega
    rw [Nat.add_sub_cancel_left, hblock _ _ hnpos (Nat.div_le_div_right (Nat.le_add_right _ _)) hlt, hs,
      hx, if_pos ⟨Nat.le_add_right _ _, by omega, by omega⟩, copyInto, if_pos ⟨by omega, by omega⟩,
      Nat.sub_zero, Nat.add_sub_cancel_left, hrem] at hb
    exact hb.symm
  · rintro (hzero | ⟨⟨q, hq⟩, ⟨t, ht⟩, hperiodic⟩) garbage id i hi
    · rw [hzero, writtenBlocks_zero, if_neg (by omega)]
    have hfirst : o % bs = 0 := by rw [hq, Nat.mul_mod_right]
    have hoq : o / bs = q := by rw [hq, Nat.mul_div_cancel_left _ hpos]
    have hs : ∀ j, (if j = o / bs then o % bs else 0) = 0 := fun j => by rw [hfirst, ite_self]
    by_cases hid : b.indexOfFirstBlock.toNat ≤ id
    swap
    · rw [if_neg fun h => hid h.1, writtenBlocks, if_neg fun h => hid h.1]
    obtain ⟨j, rfl⟩ := Nat.exists_eq_add_of_le hid
    rw [Nat.add_sub_cancel_left]
    -- a block lies in the range as a whole or not at all
    have hlow : q ≤ j ↔ o ≤ j * bs + i := by
      rw [hq, Nat.mul_comm j]
      constructor
      · intro h
        have := Nat.mul_le_mul_left bs h
        omega
      · intro h
        by_contra hlt
        have := Nat.mul_le_mul_left bs (Nat.succ_le_of_lt (Nat.lt_of_not_le hlt))
        rw [Nat.mul_succ] at this
        omega
    have hhigh : j * bs < o + n → j + 1 ≤ q + t := by
      intro h
      rw [hq, ht, ← Nat.mul_add, Nat.mul_comm j] at h
      by_contra hlt
      have := Nat.mul_le_mul_left bs (Nat.le_of_lt_succ (Nat.lt_of_not_le hlt))
      omega
    have hfull : j + 1 ≤ q + t → j * bs + bs ≤ o + n := by
      intro h
      have := Nat.mul_le_mul_left bs h
      rw [Nat.mul_add bs q t, ← hq, ← ht, Nat.mul_succ, Nat.mul_comm bs j] at this
      exact this
    by_cases hin : o ≤ j * bs + i ∧ j * bs + i < o + n
    · have hend := hfull (hhigh (by omega))
      rw [if_pos ⟨hid, hin.1, hin.2⟩, hblock garbage j (by omega) (hoq ▸ hlow.mpr hin.1) (by omega),
        hs, copyInto, if_pos ⟨Nat.zero_le _, by omega⟩, Nat.sub_zero,
        hperiodic (j * bs + i - o) (by omega)]
      have hdist : j * bs + i - o = i + bs * (j - q) := by
        have := Nat.mul_sub bs j q
        rw [Nat.mul_comm bs j, ← hq] at this
        have := Nat.mul_le_mul_left bs (hlow.mpr hin.1)
        rw [Nat.mul_comm bs j, ← hq] at this
        omega
      rw [hdist, Nat.add_mul_mod_self_left, Nat.mod_eq_of_lt hi]
    · rw [if_neg fun h => hin h.2]
      rw [writtenBlocks, Nat.add_sub_cancel_left, if_neg]
      rintro ⟨_, hnpos, hj, hlt⟩
      rw [← hbs] at hj hlt
      have hle : j + 1 ≤ q + t := hhigh hlt
      exact hin ⟨hlow.mp (hoq ▸ hj), by have := hfull hle; omega⟩

/-- A disk of two blocks of 512 bytes. -/
def smallDisk : Blockdev where
  blockSize := 512
  numberOfBlocks := 2
  indexOfFirstBlock := 0
  blockSize_pos := by decide
  size_lt := by decide
  last_lt := by decide

/-- Writing one byte at offset 0 changes the rest of the block. -/
theorem blockdevGenericWrite_one_byte :
    ¬ ∀ (b : Blockdev) (d : Disk) (offsetInDevice : UInt64) (buff : Nat → UInt8) (len : UInt32)
      (garbage : Nat → Nat → UInt8), WriteCorrect b d offsetInDevice buff len
        (blockdevGenericWrite b garbage d offsetInDevice buff len) := by
  intro h
  have hb := (h smallDisk (fun _ _ => 0) 0 (fun _ => 7) 1 (fun _ _ => 1)).2 0 1 (by decide)
  revert hb
  decide

end Desiros.Block
