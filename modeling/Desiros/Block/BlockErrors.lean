import Desiros.Block.BlockRead

/-!
# Errors of the driver in block-device transfers (`block_dev.c`)

`blockdev_generic_read` and `blockdev_generic_write` print an error of the driver and go on: they return `OK` and the
whole length, and `blockdev_wrap_read` and `blockdev_wrap_write` pass on the `OK` alone. So an error is reported exactly
if there is none (`block_errors_reported`).
-/

namespace Desiros.Block

open Desiros.Library

/-! ## Writes -/

/-- The variables of the loop of `blockdev_generic_write`, the disk, and the calls made. -/
structure WriteState where
  wrbytes : UInt32
  offsetInDevice : UInt64
  disk : Disk
  calls : List BlockCall

structure WriteResult where
  retval : Int
  len : UInt32
  disk : Disk
  calls : List BlockCall

section

variable (b : BlockdevInstance) (ops : BlockOps) (garbage : Nat → Bytes) (buff : Bytes) (len : UInt32)

/-- One turn; the error is only reported by `debug`. -/
def writeTurn (s : WriteState) : Option WriteState :=
  if ¬ s.wrbytes < len then none
  else
    let blockId := s.offsetInDevice / b.blockSize.toUInt64
    if blockId ≥ b.numberOfBlocks then none
    else
      let blockId := blockId + b.indexOfFirstBlock
      let offsetInBlock := (s.offsetInDevice % b.blockSize.toUInt64).toUInt32
      let usrbytes := b.blockSize - offsetInBlock
      let usrbytes := if len - s.wrbytes < usrbytes then len - s.wrbytes else usrbytes
      let blockData := copyInto (garbage blockId.toNat) offsetInBlock.toNat usrbytes.toNat buff
      let r := ops.writeBlock s.calls.length blockId
      some
        { wrbytes := s.wrbytes + usrbytes
          offsetInDevice := s.offsetInDevice + usrbytes.toUInt64
          disk := r.2 blockData s.disk
          calls := s.calls ++ [⟨blockId, r.1, s.wrbytes⟩] }

/-- `blockdev_generic_write`, over a driver whose calls may fail. -/
def genericWrite (fuel : Nat) (offsetInDevice : UInt64) (disk : Disk) : Option WriteResult :=
  (loop (writeTurn b ops garbage buff len) fuel ⟨0, offsetInDevice, disk, []⟩).map fun s =>
    ⟨OK, s.wrbytes, s.disk, s.calls⟩

end

/-! ## What the file system sees -/

structure WrapRead where
  retval : Int
  buf : Bytes
  calls : List BlockCall

structure WrapWrite where
  retval : Int
  disk : Disk
  calls : List BlockCall

section

variable (r : Registry) (deviceClass deviceInstance : UInt32) (ops : BlockOps) (count : UInt32) (fuel : Nat)

/-- The device of an inode. Both functions dereference the pointer without looking at it. -/
def wrapDevice : Option BlockdevInstance :=
  (lookupBlockdevInstance r deviceClass deviceInstance).bind fun d => r.instances[d]?

/-- The number of bytes read is in the parameter `count`, which the caller does not see. -/
def blockdevWrapRead (buf : Bytes) (offset : UInt64) : Option WrapRead :=
  (wrapDevice r deviceClass deviceInstance).bind fun b =>
    (blockdevGenericRead b ops count fuel offset buf).map fun t => ⟨t.retval, t.dest, t.calls⟩

def blockdevWrapWrite (garbage : Nat → Bytes) (buf : Bytes) (offset : UInt64) (disk : Disk) : Option WrapWrite :=
  (wrapDevice r deviceClass deviceInstance).bind fun b =>
    (genericWrite b ops garbage buf count fuel offset disk).map fun t => ⟨t.retval, t.disk, t.calls⟩

end

/-! ## Reports -/

/-- The bytes of a block whose call has failed are not reported as transferred. -/
def ReportsErrors (retval : Int) (len : UInt32) (calls : List BlockCall) : Prop :=
  ∀ c ∈ calls, c.retval ≠ OK → retval ≠ OK ∨ len ≤ c.done

/-- Without the length, only the return value can tell. -/
def StatusReportsErrors (retval : Int) (calls : List BlockCall) : Prop :=
  ∀ c ∈ calls, c.retval ≠ OK → retval ≠ OK

/-- The blocks of the disk that a request meets, in order. -/
def requestBlocks (b : BlockdevInstance) (offset : UInt64) (len : UInt32) : List UInt64 :=
  accessLoop b len len.toNat 0 offset

/-- No block of the request fails; `retvals` are the values the driver returns. -/
def NoFailure (retvals : Nat → UInt64 → Int) (blocks : List UInt64) : Prop :=
  ∀ k id, blocks[k]? = some id → retvals k id = OK

/-! ## The calls of a request -/

/-- While a loop runs: the calls made, and those that are left. -/
structure Logged (b : BlockdevInstance) (len : UInt32) (offset : UInt64) (retvals : Nat → UInt64 → Int)
    (done : UInt32) (position : UInt64) (calls : List BlockCall) : Prop where
  le : done.toNat ≤ len.toNat
  length : calls.length ≤ done.toNat
  before : ∀ c ∈ calls, c.done < done
  retval : ∀ k c, calls[k]? = some c → c.retval = retvals k c.blockId
  blocks : ∀ fuel, calls.map BlockCall.blockId ++ accessLoop b len fuel done position =
    accessLoop b len (calls.length + fuel) 0 offset

section

variable {b : BlockdevInstance} {len done : UInt32} {offset position : UInt64} {retvals : Nat → UInt64 → Int}
  {calls : List BlockCall}

theorem logged_start : Logged b len offset retvals 0 offset [] := by
  refine ⟨Nat.zero_le _, Nat.le_refl 0, fun c hc => absurd hc List.not_mem_nil, fun k c hc => ?_, fun fuel => ?_⟩
  · cases hc
  · show accessLoop b len fuel 0 offset = accessLoop b len (0 + fuel) 0 offset
    rw [Nat.zero_add]

/-- The chunk of a turn. -/
def chunk (b : BlockdevInstance) (len done : UInt32) (position : UInt64) : UInt32 :=
  let n := b.blockSize - (position % b.blockSize.toUInt64).toUInt32
  if len - done < n then len - done else n

theorem accessLoop_stop (h : ¬ (done < len ∧ ¬ position / b.blockSize.toUInt64 ≥ b.numberOfBlocks)) (fuel : Nat) :
    accessLoop b len fuel done position = [] := by
  cases fuel with
  | zero => rfl
  | succ fuel =>
    unfold accessLoop
    by_cases hlen : done < len
    · have hend : position / b.blockSize.toUInt64 ≥ b.numberOfBlocks := not_not.mp fun hend => h ⟨hlen, hend⟩
      rw [if_neg (not_not.mpr hlen)]
      exact if_pos hend
    · exact if_pos hlen

theorem accessLoop_turn (hlen : done < len) (hend : ¬ position / b.blockSize.toUInt64 ≥ b.numberOfBlocks) (fuel : Nat) :
    accessLoop b len (fuel + 1) done position = (position / b.blockSize.toUInt64 + b.indexOfFirstBlock) ::
      accessLoop b len fuel (done + chunk b len done position) (position + (chunk b len done position).toUInt64) := by
  conv => lhs; unfold accessLoop
  rw [if_neg (not_not.mpr hlen)]
  exact if_neg hend

/-- A turn makes the next call. -/
theorem Logged.turn (h : Logged b len offset retvals done position calls) (hsize : 0 < b.blockSize.toNat)
    (hlen : done < len) (hend : ¬ position / b.blockSize.toUInt64 ≥ b.numberOfBlocks) :
    let id := position / b.blockSize.toUInt64 + b.indexOfFirstBlock
    Logged b len offset retvals (done + chunk b len done position) (position + (chunk b len done position).toUInt64)
        (calls ++ [⟨id, retvals calls.length id, done⟩]) ∧
      done.toNat < (done + chunk b len done position).toNat := by
  intro id
  have hmore := word_lt_iff.mp hlen
  obtain ⟨hn, hsum, hpos⟩ := wrbytes_spec (n := chunk b len done position) hsize hmore position rfl
  have hlength := h.length
  have hlist : (calls ++ [⟨id, retvals calls.length id, done⟩] : List BlockCall).length = calls.length + 1 :=
    List.length_append
  refine ⟨⟨by omega, by omega, fun c hc => ?_, fun k c hc => ?_, fun fuel => ?_⟩, by omega⟩
  · rw [word_lt_iff, hsum]
    rcases List.mem_append.mp hc with hold | hnew
    · have hlt := word_lt_iff.mp (h.before c hold)
      omega
    · rw [List.mem_singleton.mp hnew]
      show done.toNat < done.toNat + _
      omega
  · rcases Nat.lt_or_ge k calls.length with hk | hk
    · rw [List.getElem?_append_left hk] at hc
      exact h.retval k c hc
    · have hlt := (List.getElem?_eq_some_iff.mp hc).1
      obtain rfl : k = calls.length := by omega
      rw [List.getElem?_append_right hk, Nat.sub_self] at hc
      obtain rfl := Option.some.inj hc
      rfl
  · rw [List.map_append, List.append_assoc, hlist, Nat.add_assoc, Nat.add_comm 1, ← h.blocks (fuel + 1),
      accessLoop_turn hlen hend]
    rfl

/-- Behind the loop, the calls are those of the request. -/
theorem Logged.blocks_eq (h : Logged b len offset retvals done position calls)
    (hstop : ¬ (done < len ∧ ¬ position / b.blockSize.toUInt64 ≥ b.numberOfBlocks)) :
    calls.map BlockCall.blockId = requestBlocks b offset len := by
  have hlength := h.length
  have hle := h.le
  have hblocks := h.blocks (len.toNat - calls.length)
  have hfuel : calls.length + (len.toNat - calls.length) = len.toNat := by omega
  rw [accessLoop_stop hstop, List.append_nil, hfuel] at hblocks
  exact hblocks

theorem Logged.noFailure_iff (h : Logged b len offset retvals done position calls)
    (hstop : ¬ (done < len ∧ ¬ position / b.blockSize.toUInt64 ≥ b.numberOfBlocks)) :
    (∀ c ∈ calls, c.retval = OK) ↔ NoFailure retvals (requestBlocks b offset len) := by
  unfold NoFailure
  rw [← h.blocks_eq hstop]
  constructor
  · intro hok k id hid
    obtain ⟨c, hc, rfl⟩ := Option.map_eq_some_iff.mp (List.getElem?_map ▸ hid)
    rw [← h.retval k c hc]
    exact hok c (List.mem_of_getElem? hc)
  · intro hok c hc
    obtain ⟨k, hk⟩ := List.mem_iff_getElem?.mp hc
    rw [h.retval k c hk]
    apply hok k
    rw [List.getElem?_map, hk]
    rfl

/-- A transfer that returns `OK` and its whole length reports no error. -/
theorem Logged.reports_iff (h : Logged b len offset retvals done position calls)
    (hstop : ¬ (done < len ∧ ¬ position / b.blockSize.toUInt64 ≥ b.numberOfBlocks)) :
    (ReportsErrors OK done calls ↔ NoFailure retvals (requestBlocks b offset len)) ∧
      (StatusReportsErrors OK calls ↔ NoFailure retvals (requestBlocks b offset len)) := by
  rw [← h.noFailure_iff hstop]
  constructor
  · constructor
    · intro hreports c hc
      by_contra hfailed
      rcases hreports c hc hfailed with hok | hle
      · exact hok rfl
      · have hlt := word_lt_iff.mp (h.before c hc)
        rw [word_le_iff] at hle
        omega
    · exact fun hok c hc hfailed => absurd (hok c hc) hfailed
  · constructor
    · exact fun hreports c hc => by_contra fun hfailed => hreports c hc hfailed rfl
    · exact fun hok c hc hfailed => absurd (hok c hc) hfailed

end

/-! ## The loops -/

section

variable {b : BlockdevInstance} {ops : BlockOps} {garbage : Nat → Bytes} {buff : Bytes} {len : UInt32} {offset : UInt64}

/-- The turns of a loop call the driver and advance by chunks, up to the end of the request or of the device. -/
def Advances {σ : Type} (b : BlockdevInstance) (len : UInt32) (retvals : Nat → UInt64 → Int) (turn : σ → Option σ)
    (done : σ → UInt32) (position : σ → UInt64) (calls : σ → List BlockCall) : Prop :=
  ∀ s, (turn s = none ∧ ¬ (done s < len ∧ ¬ position s / b.blockSize.toUInt64 ≥ b.numberOfBlocks)) ∨
    ∃ s', turn s = some s' ∧ done s < len ∧ ¬ position s / b.blockSize.toUInt64 ≥ b.numberOfBlocks ∧
      done s' = done s + chunk b len (done s) (position s) ∧
      position s' = position s + (chunk b len (done s) (position s)).toUInt64 ∧
      let id := position s / b.blockSize.toUInt64 + b.indexOfFirstBlock
      calls s' = calls s ++ [⟨id, retvals (calls s).length id, done s⟩]

theorem advances_of_turn {σ : Type} {retvals : Nat → UInt64 → Int} {turn : σ → Option σ} {next : σ → σ}
    {done : σ → UInt32} {position : σ → UInt64} {calls : σ → List BlockCall}
    (hturn : ∀ s, turn s = if ¬ done s < len then none
      else if position s / b.blockSize.toUInt64 ≥ b.numberOfBlocks then none else some (next s))
    (hdone : ∀ s, done (next s) = done s + chunk b len (done s) (position s))
    (hposition : ∀ s, position (next s) = position s + (chunk b len (done s) (position s)).toUInt64)
    (hcalls : ∀ s, let id := position s / b.blockSize.toUInt64 + b.indexOfFirstBlock
      calls (next s) = calls s ++ [⟨id, retvals (calls s).length id, done s⟩]) :
    Advances b len retvals turn done position calls := by
  intro s
  rw [hturn]
  by_cases hlen : done s < len
  swap
  · rw [if_pos hlen]
    exact .inl ⟨rfl, fun h => hlen h.1⟩
  rw [if_neg (not_not.mpr hlen)]
  by_cases hend : position s / b.blockSize.toUInt64 ≥ b.numberOfBlocks
  · rw [if_pos hend]
    exact .inl ⟨rfl, fun h => h.2 hend⟩
  · rw [if_neg hend]
    exact .inr ⟨next s, rfl, hlen, hend, hdone s, hposition s, hcalls s⟩

theorem readTurn_advances : Advances b len (fun k id => (ops.readBlock k id).1) (readTurn b ops len)
    ReadState.rdbytes ReadState.offsetInDevice ReadState.calls :=
  advances_of_turn (fun _ => rfl) (fun _ => rfl) (fun _ => rfl) fun _ => rfl

theorem writeTurn_advances : Advances b len (fun k id => (ops.writeBlock k id).1) (writeTurn b ops garbage buff len)
    WriteState.wrbytes WriteState.offsetInDevice WriteState.calls :=
  advances_of_turn (fun _ => rfl) (fun _ => rfl) (fun _ => rfl) fun _ => rfl

/-- The calls of such a loop are those of the request. -/
theorem loop_logged {σ : Type} {turn : σ → Option σ} {done : σ → UInt32} {position : σ → UInt64}
    {calls : σ → List BlockCall} {retvals : Nat → UInt64 → Int} (hsize : 0 < b.blockSize.toNat)
    (hturn : Advances b len retvals turn done position calls)
    {fuel : Nat} (hfuel : len.toNat < fuel) (s : σ) (hdone : done s = 0) (hposition : position s = offset)
    (hcalls : calls s = []) : ∃ t, loop turn fuel s = some t ∧
      (ReportsErrors OK (done t) (calls t) ↔ NoFailure retvals (requestBlocks b offset len)) ∧
      (StatusReportsErrors OK (calls t) ↔ NoFailure retvals (requestBlocks b offset len)) := by
  have hstart : Logged b len offset retvals (done s) (position s) (calls s) := by
    rw [hdone, hposition, hcalls]
    exact logged_start
  have hstep : ∀ s s', Logged b len offset retvals (done s) (position s) (calls s) → turn s = some s' →
      Logged b len offset retvals (done s') (position s') (calls s') ∧ (done s).toNat < (done s').toNat := by
    intro s s' h hs
    rcases hturn s with ⟨hnone, -⟩ | ⟨s'', hsome, hlen, hend, hdone, hposition, hcalls⟩
    · rw [hnone] at hs
      cases hs
    · rw [hsome] at hs
      obtain rfl := Option.some.inj hs
      rw [hdone, hposition, hcalls]
      exact h.turn hsize hlen hend
  have hless : ∀ s s', Logged b len offset retvals (done s) (position s) (calls s) → turn s = some s' →
      Logged b len offset retvals (done s') (position s') (calls s') ∧
        len.toNat - (done s').toNat < len.toNat - (done s).toNat := by
    intro s s' h hs
    obtain ⟨hnext, hmore⟩ := hstep s s' h hs
    have hle := hnext.le
    exact ⟨hnext, by omega⟩
  have hends := loop_isSome _ hless hstart (Nat.lt_of_le_of_lt (Nat.sub_le _ _) hfuel)
  obtain ⟨t, ht⟩ := Option.isSome_iff_exists.mp hends
  obtain ⟨hlog, hnone⟩ := loop_invariant (fun s s' h hs => (hless s s' h hs).1) ht hstart
  refine ⟨t, ht, hlog.reports_iff ?_⟩
  rcases hturn t with ⟨-, hstop⟩ | ⟨t', hsome, -⟩
  · exact hstop
  · rw [hnone] at hsome
    cases hsome

/-- A read reports the errors of the driver exactly if there are none. -/
theorem blockdevGenericRead_reports (hsize : 0 < b.blockSize.toNat) (ops : BlockOps) (offset : UInt64) (dest : Bytes)
    {fuel : Nat} (hfuel : len.toNat < fuel) : ∃ r, blockdevGenericRead b ops len fuel offset dest = some r ∧
      (ReportsErrors r.retval r.len r.calls ↔
        NoFailure (fun k id => (ops.readBlock k id).1) (requestBlocks b offset len)) ∧
      (StatusReportsErrors r.retval r.calls ↔
        NoFailure (fun k id => (ops.readBlock k id).1) (requestBlocks b offset len)) := by
  obtain ⟨t, ht, hreports⟩ := loop_logged hsize (@readTurn_advances b ops len) hfuel ⟨0, offset, dest, []⟩ rfl rfl
    rfl
  refine ⟨⟨OK, t.rdbytes, t.buff, t.calls⟩, ?_, hreports⟩
  unfold blockdevGenericRead
  rw [ht]
  rfl

/-- So does a write. -/
theorem genericWrite_reports (hsize : 0 < b.blockSize.toNat) (ops : BlockOps) (garbage : Nat → Bytes) (buff : Bytes)
    (offset : UInt64) (disk : Disk) {fuel : Nat} (hfuel : len.toNat < fuel) :
    ∃ r, genericWrite b ops garbage buff len fuel offset disk = some r ∧
      (ReportsErrors r.retval r.len r.calls ↔
        NoFailure (fun k id => (ops.writeBlock k id).1) (requestBlocks b offset len)) ∧
      (StatusReportsErrors r.retval r.calls ↔
        NoFailure (fun k id => (ops.writeBlock k id).1) (requestBlocks b offset len)) := by
  obtain ⟨t, ht, hreports⟩ := loop_logged hsize (@writeTurn_advances b ops garbage buff len) hfuel ⟨0, offset, disk, []⟩ rfl
    rfl rfl
  refine ⟨⟨OK, t.wrbytes, t.disk, t.calls⟩, ?_, hreports⟩
  unfold genericWrite
  rw [ht]
  rfl

/-! ## The blocks of a request -/

/-- The number of blocks that `m` bytes at `o` meet. -/
def blocksMet (blockSize o m : Nat) : Nat := if m = 0 then 0 else (o + m - 1) / blockSize - o / blockSize + 1

/-- One block, and those behind it. -/
theorem blocksMet_step {bs o m c : Nat} (hbs : 0 < bs) (hm : 0 < m) (hc : c = min m (bs - o % bs)) :
    blocksMet bs o m = blocksMet bs (o + c) (m - c) + 1 ∧ (m - c ≠ 0 → (o + c) / bs = o / bs + 1) := by
  have hmod := Nat.mod_lt o hbs
  have hdiv := Nat.div_add_mod o bs
  unfold blocksMet
  rw [if_neg (Nat.ne_of_gt hm)]
  by_cases hlast : m ≤ bs - o % bs
  · obtain rfl : c = m := by omega
    have hsame : (o + c - 1) / bs = o / bs := by
      have hsum : o + c - 1 = bs * (o / bs) + (o % bs + c - 1) := by omega
      have hlt : o % bs + c - 1 < bs := by omega
      rw [hsum, Nat.mul_add_div hbs, Nat.div_eq_of_lt hlt, Nat.add_zero]
    rw [hsame, Nat.sub_self, Nat.sub_self]
    exact ⟨rfl, fun hne => absurd rfl hne⟩
  · obtain rfl : c = bs - o % bs := by omega
    have hnext : (o + (bs - o % bs)) / bs = o / bs + 1 := by
      have hsum : o + (bs - o % bs) = bs * (o / bs) + bs := by omega
      rw [hsum, Nat.mul_add_div hbs, Nat.div_self hbs]
    have hend : o / bs + 1 ≤ (o + m - 1) / bs := by
      rw [← hnext]
      apply Nat.div_le_div_right
      omega
    have hsum : o + (bs - o % bs) + (m - (bs - o % bs)) - 1 = o + m - 1 := by omega
    rw [if_neg (by omega), hnext, hsum]
    exact ⟨by omega, fun _ => rfl⟩

theorem accessLoop_eq (hb : b.WellFormed) : ∀ (fuel : Nat) (done : UInt32) (position : UInt64),
    let m := min (len.toNat - done.toNat) (b.size - position.toNat)
    m ≤ fuel → accessLoop b len fuel done position =
      (List.range (blocksMet b.blockSize.toNat position.toNat m)).map fun k =>
        UInt64.ofNat (b.indexOfFirstBlock.toNat + position.toNat / b.blockSize.toNat + k) := by
  have hsize : b.size = b.numberOfBlocks.toNat * b.blockSize.toNat := rfl
  intro fuel
  induction fuel with
  | zero =>
    intro done position m hm
    rw [Nat.le_zero.mp hm]
    rfl
  | succ fuel ih =>
    intro done position m hm
    by_cases hmore : done < len ∧ ¬ position / b.blockSize.toUInt64 ≥ b.numberOfBlocks
    swap
    · have hzero : m = 0 := by
        rcases Decidable.not_and_iff_or_not.mp hmore with hlen | hend
        · rw [word_lt_iff] at hlen
          omega
        · have hend' := not_not.mp hend
          rw [ge_iff_le, UInt64.le_iff_toNat_le, toNat_div] at hend'
          have hmul := (Nat.le_div_iff_mul_le hb.blockSize).mp hend'
          omega
      rw [accessLoop_stop hmore, hzero]
      rfl
    obtain ⟨hlen, hend⟩ := hmore
    rw [accessLoop_turn hlen hend]
    rw [ge_iff_le, UInt64.le_iff_toNat_le, toNat_div, not_le] at hend
    obtain ⟨hchunk, hsum, hpos⟩ := wrbytes_spec (n := chunk b len done position) hb.blockSize (word_lt_iff.mp hlen)
      position rfl
    obtain ⟨c, hc⟩ : ∃ c, c = chunk b len done position := ⟨_, rfl⟩
    rw [← hc] at hchunk hsum hpos ⊢
    have hmod := Nat.mod_lt position.toNat hb.blockSize
    have hdiv := Nat.div_add_mod position.toNat b.blockSize.toNat
    have hroom : b.blockSize.toNat * (position.toNat / b.blockSize.toNat) + b.blockSize.toNat ≤ b.size := by
      have hmul := Nat.mul_le_mul_right b.blockSize.toNat hend
      rw [Nat.succ_mul, Nat.mul_comm (_ / b.blockSize.toNat)] at hmul
      exact hmul
    have hbytes := hb.bytes
    have hposition : (position + c.toUInt64).toNat = position.toNat + c.toNat := by
      rw [UInt64.toNat_add, UInt32.toNat_toUInt64]
      omega
    have hmin : c.toNat = min m (b.blockSize.toNat - position.toNat % b.blockSize.toNat) := by omega
    have hrest : min (len.toNat - (done + c).toNat) (b.size - (position + c.toUInt64).toNat) = m - c.toNat := by
      rw [hposition, hsum]
      omega
    obtain ⟨hmet, hnext⟩ := blocksMet_step (m := m) hb.blockSize (by omega) hmin
    rw [ih _ _ (by rw [hrest]; omega), hrest, hposition, hmet, List.range_succ_eq_map, List.map_cons, List.map_map]
    congr 1
    · apply UInt64.toNat_inj.mp
      rw [UInt64.toNat_add, toNat_div, UInt64.toNat_ofNat', Nat.add_zero, Nat.add_comm]
    · apply List.map_congr_left
      intro k hk
      have hne : m - c.toNat ≠ 0 := by
        rintro hzero
        rw [hzero] at hk
        exact absurd hk List.not_mem_nil
      rw [hnext hne]
      show UInt64.ofNat _ = UInt64.ofNat _
      congr 1
      omega

/-- The blocks that the bytes of a request lie in, one after the other. -/
theorem requestBlocks_eq (hb : b.WellFormed) (offset : UInt64) (len : UInt32) : requestBlocks b offset len =
    (List.range (blocksMet b.blockSize.toNat offset.toNat (readLength b offset len))).map fun k =>
      UInt64.ofNat (b.indexOfFirstBlock.toNat + offset.toNat / b.blockSize.toNat + k) :=
  accessLoop_eq hb len.toNat 0 offset (Nat.min_le_left _ _)

/-- **Errors of the driver** are reported exactly if no block of the request fails, by the transfers and by what the
file system sees of them. -/
theorem block_errors_reported (b : BlockdevInstance) (hsize : 0 < b.blockSize.toNat) (ops : BlockOps)
    (offset : UInt64) (len : UInt32) (fuel : Nat) (hfuel : len.toNat < fuel) :
    let readsWell := NoFailure (fun k id => (ops.readBlock k id).1) (requestBlocks b offset len)
    let writesWell := NoFailure (fun k id => (ops.writeBlock k id).1) (requestBlocks b offset len)
    (∀ dest, ∃ r, blockdevGenericRead b ops len fuel offset dest = some r ∧
      (ReportsErrors r.retval r.len r.calls ↔ readsWell)) ∧
    (∀ garbage buff disk, ∃ r, genericWrite b ops garbage buff len fuel offset disk = some r ∧
      (ReportsErrors r.retval r.len r.calls ↔ writesWell)) ∧
    (∀ reg cls inst, wrapDevice reg cls inst = some b →
      (∀ buf, ∃ r, blockdevWrapRead reg cls inst ops len fuel buf offset = some r ∧
        (StatusReportsErrors r.retval r.calls ↔ readsWell)) ∧
      ∀ garbage buf disk, ∃ r, blockdevWrapWrite reg cls inst ops len fuel garbage buf offset disk = some r ∧
        (StatusReportsErrors r.retval r.calls ↔ writesWell)) ∧
    (b.WellFormed → requestBlocks b offset len =
      (List.range (blocksMet b.blockSize.toNat offset.toNat (readLength b offset len))).map fun k =>
        UInt64.ofNat (b.indexOfFirstBlock.toNat + offset.toNat / b.blockSize.toNat + k)) := by
  refine ⟨fun dest => ?_, fun garbage buff disk => ?_, fun reg cls inst hdev => ⟨fun buf => ?_, fun garbage buf disk => ?_⟩,
    fun hb => requestBlocks_eq hb offset len⟩
  · obtain ⟨r, hr, hreports, -⟩ := blockdevGenericRead_reports hsize ops offset dest hfuel
    exact ⟨r, hr, hreports⟩
  · obtain ⟨r, hr, hreports, -⟩ := genericWrite_reports hsize ops garbage buff offset disk hfuel
    exact ⟨r, hr, hreports⟩
  · obtain ⟨r, hr, -, hstatus⟩ := blockdevGenericRead_reports hsize ops offset buf hfuel
    refine ⟨⟨r.retval, r.dest, r.calls⟩, ?_, hstatus⟩
    unfold blockdevWrapRead
    rw [hdev, Option.bind_some, hr]
    rfl
  · obtain ⟨r, hr, -, hstatus⟩ := genericWrite_reports hsize ops garbage buf offset disk hfuel
    refine ⟨⟨r.retval, r.disk, r.calls⟩, ?_, hstatus⟩
    unfold blockdevWrapWrite
    rw [hdev, Option.bind_some, hr]
    rfl

end

/-! ## A driver without errors -/

section

variable (b : Blockdev)

/-- The instance of a device. -/
def Blockdev.toInstance : BlockdevInstance where
  blockSize := b.blockSize
  numberOfBlocks := b.numberOfBlocks
  parentBlockdev := none
  indexOfFirstBlock := b.indexOfFirstBlock
  deviceClass := 0
  deviceInstance := 0
  customData := 0

variable {ops : BlockOps} {garbage : Nat → Bytes} {buff : Bytes} {len : UInt32}

theorem writeLoop_of_loop (hops : ∀ call id, ops.writeBlock call id = (OK, fun blockData d => writeBlock d id blockData)) :
    ∀ (fuel : Nat) (s t : WriteState), loop (writeTurn b.toInstance ops garbage buff len) (fuel + 1) s = some t →
      writeLoop b garbage buff len fuel s.wrbytes s.offsetInDevice s.disk = (t.wrbytes, t.disk) := by
  intro fuel
  induction fuel with
  | zero =>
    intro s t h
    cases hturn : writeTurn b.toInstance ops garbage buff len s with
    | none =>
      rw [loop_stop hturn] at h
      obtain rfl := Option.some.inj h
      rfl
    | some s' =>
      rw [loop_turn hturn] at h
      cases h
  | succ fuel ih =>
    intro s t h
    unfold writeLoop
    by_cases hlen : s.wrbytes < len
    swap
    · have hturn : writeTurn b.toInstance ops garbage buff len s = none := by
        unfold writeTurn
        exact if_pos hlen
      rw [loop_stop hturn] at h
      obtain rfl := Option.some.inj h
      exact if_pos hlen
    rw [if_neg (not_not.mpr hlen)]
    dsimp only
    by_cases hend : s.offsetInDevice / b.blockSize.toUInt64 ≥ b.numberOfBlocks
    · have hturn : writeTurn b.toInstance ops garbage buff len s = none := by
        unfold writeTurn
        rw [if_neg (not_not.mpr hlen)]
        exact if_pos hend
      rw [loop_stop hturn] at h
      obtain rfl := Option.some.inj h
      exact if_pos hend
    · have hend' : ¬ s.offsetInDevice / b.toInstance.blockSize.toUInt64 ≥ b.toInstance.numberOfBlocks := hend
      have hturn : ∃ s', writeTurn b.toInstance ops garbage buff len s = some s' := by
        unfold writeTurn
        rw [if_neg (not_not.mpr hlen)]
        dsimp only
        rw [if_neg hend']
        exact ⟨_, rfl⟩
      obtain ⟨s', hturn⟩ := hturn
      rw [loop_turn hturn] at h
      rw [if_neg hend, ← ih s' t h]
      unfold writeTurn at hturn
      rw [if_neg (not_not.mpr hlen)] at hturn
      dsimp only at hturn
      rw [if_neg hend', hops] at hturn
      obtain rfl := Option.some.inj hturn
      rfl

/-- Then `genericWrite` is `blockdevGenericWrite`. -/
theorem genericWrite_eq (hops : ∀ call id, ops.writeBlock call id = (OK, fun blockData d => writeBlock d id blockData))
    {offset : UInt64} {disk : Disk} {r : WriteResult}
    (h : genericWrite b.toInstance ops garbage buff len (len.toNat + 1) offset disk = some r) :
    blockdevGenericWrite b garbage disk offset buff len = (r.len, r.disk) := by
  obtain ⟨t, ht, rfl⟩ := Option.map_eq_some_iff.mp h
  exact writeLoop_of_loop b hops len.toNat _ t ht

end

/-! ## A bad block -/

/-- A disk whose block 1 cannot be read or written; the buffer keeps what it contains. -/
def badBlockOps : BlockOps where
  readBlock _ blockId := if blockId = 1 then (-6, fun _ => 0xff) else (OK, fun _ => 0)
  writeBlock _ blockId := if blockId = 1 then (-6, fun _ d => d) else (OK, fun data d => writeBlock d blockId data)

/-- A disk of two blocks. -/
def twoBlocks : BlockdevInstance := ⟨512, 2, none, 0, 3, 0, 0⟩

/-- Reading both blocks returns `OK` and all 1024 bytes. -/
theorem blockdevGenericRead_bad_block :
    (∃ r, blockdevGenericRead twoBlocks badBlockOps 1024 1025 0 (fun _ => 0) = some r ∧ r.retval = OK ∧ r.len = 1024 ∧
      r.dest 512 = 0xff) ∧
    ¬ ∀ (b : BlockdevInstance) (ops : BlockOps) (offset : UInt64) (len : UInt32) (dest : Bytes) (r : ReadResult),
      0 < b.blockSize.toNat → blockdevGenericRead b ops len (len.toNat + 1) offset dest = some r →
      ReportsErrors r.retval r.len r.calls := by
  have hread : ∃ r, blockdevGenericRead twoBlocks badBlockOps 1024 1025 0 (fun _ => 0) = some r ∧ r.retval = OK ∧
      r.len = 1024 ∧ r.dest 512 = 0xff ∧ ⟨1, -6, 512⟩ ∈ r.calls := by
    refine ⟨_, rfl, rfl, rfl, rfl, ?_⟩
    exact List.mem_cons_of_mem _ List.mem_cons_self
  obtain ⟨r, hr, hretval, hlen, hdest, hcall⟩ := hread
  refine ⟨⟨r, hr, hretval, hlen, hdest⟩, fun hclaim => ?_⟩
  rcases hclaim twoBlocks badBlockOps 0 1024 (fun _ => 0) r (by decide) hr _ hcall (by decide) with hne | hle
  · exact hne hretval
  · rw [hlen] at hle
    exact absurd hle (by decide)

/-- Reading the first block reports everything there is to report. -/
theorem twoBlocks_first_block_reported : ∃ r, blockdevGenericRead twoBlocks badBlockOps 512 513 0 (fun _ => 7) = some r ∧
    ReportsErrors r.retval r.len r.calls := by
  have hwell : NoFailure (fun k id => (badBlockOps.readBlock k id).1) (requestBlocks twoBlocks 0 512) := by
    have hblocks : requestBlocks twoBlocks 0 512 = [0] := by
      rw [requestBlocks_eq ⟨by decide, by decide, by decide⟩]
      decide
    rw [hblocks]
    intro k id hid
    obtain rfl := List.mem_singleton.mp (List.mem_of_getElem? hid)
    rfl
  obtain ⟨r, hr, hreports⟩ := (block_errors_reported twoBlocks (by decide) badBlockOps 0 512 513 (by decide)).1 fun _ => 7
  exact ⟨r, hr, hreports.mpr hwell⟩

end Desiros.Block
