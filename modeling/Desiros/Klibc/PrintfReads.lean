import Desiros.Klibc.Printf

/-!
# What `do_printf` reads of its format

`Mode` is what a scanner knows that reads the format once, a character at a time. At the head of the loop the state of
`do_printf` is that of its mode (`switchState_agrees`), but behind a `%` and behind the flag `0` the loop never comes to
its head: there the next character is taken for granted. So `do_printf` stays inside the formats that do not end there:
`doPrintf_reads_iff`.
-/

namespace Desiros.Klibc

/-! ## The modes -/

inductive Mode where
  | text
  /-- Behind the `%` of a conversion. -/
  | percent
  /-- Behind its `-`. -/
  | minus
  /-- Behind its flag `0`. -/
  | zero
  | width
  | modifier
deriving DecidableEq, Repr

namespace Mode

def behindModifiers (c : UInt8) : Mode :=
  if c = ch 'F' ∨ c = ch 'N' ∨ c = ch 'l' ∨ c = ch 'h' then modifier else text

def behindWidth (c : UInt8) : Mode := if c ≥ ch '0' ∧ c ≤ ch '9' then width else behindModifiers c

def next (m : Mode) (c : UInt8) : Mode :=
  match m with
  | text => if c = ch '%' then percent else text
  | percent =>
    if c = ch '%' then text else if c = ch '-' then minus else if c = ch '0' then zero else behindWidth c
  | minus => if c = ch '%' ∨ c = ch '-' then text else if c = ch '0' then zero else behindWidth c
  | zero => behindWidth c
  | width => behindWidth c
  | modifier => behindModifiers c

/-- Another character is taken for granted. -/
def Pending (m : Mode) : Prop := m = percent ∨ m = zero

instance : DecidablePred Pending := fun m => inferInstanceAs (Decidable (m = percent ∨ m = zero))

end Mode

/-- The format does not end behind a `%` or a flag `0`. -/
def Complete (format : List UInt8) : Prop := ¬ (format.foldl Mode.next .text).Pending

/-- The mode at a place. -/
def modeOf (fmt : Nat → UInt8) : Nat → Mode
  | 0 => .text
  | p + 1 => (modeOf fmt p).next (fmt p)

theorem modeOf_textAt (format : List UInt8) (after : Nat → UInt8) :
    modeOf (textAt format after) format.length = format.foldl Mode.next .text := by
  have htake : ∀ p ≤ format.length, modeOf (textAt format after) p = (format.take p).foldl Mode.next .text := by
    intro p hp
    induction p with
    | zero => rfl
    | succ p ih =>
      rw [modeOf, ih (Nat.le_of_succ_le hp), textAt_of_lt (Nat.lt_of_succ_le hp),
        List.take_succ_eq_append_getElem (Nat.lt_of_succ_le hp), List.foldl_append]
      rfl
  rw [htake _ (le_refl _), List.take_length]

/-! ## The state and the mode -/

variable {e : Call} {s : Printf}

/-- At the head of the loop. -/
def Agrees (s : Printf) : Mode → Prop
  | .text => s.state = 0 ∧ s.flags.prLJ = false
  | .minus => s.state = 1 ∧ s.flags.prLJ = true
  | .width => s.state = 2
  | .modifier => s.state = 3
  | .percent => False
  | .zero => False

/-- The places up to the one where the pointer stands have been read. -/
def Logged (s : Printf) : Prop := ∀ i, i ∈ s.reads ↔ i ≤ s.fmt

theorem Logged.next (h : Logged s) : Logged s.next := by
  intro i
  change i ∈ (s.fmt + 1) :: s.reads ↔ i ≤ s.fmt + 1
  rw [List.mem_cons, h i]
  omega

structure AtHead (e : Call) (s : Printf) : Prop where
  logged : Logged s
  sign : s.flags.prWS = false
  agrees : Agrees s (modeOf e.fmt s.fmt)

/-- How a turn ends: the pointer has passed no other places than those where a character is taken for granted. -/
structure TurnEnds (e : Call) (s s' : Printf) : Prop where
  sign : s'.flags.prWS = false
  logged : Logged s'
  agrees : Agrees s'.next (modeOf e.fmt (s'.fmt + 1))
  forward : s.fmt ≤ s'.fmt
  passed : ∀ i, s.fmt < i → i ≤ s'.fmt → (modeOf e.fmt i).Pending

theorem TurnEnds.of_fmt {t s' : Printf} (h : TurnEnds e t s') (hfmt : t.fmt = s.fmt) : TurnEnds e s s' where
  sign := h.sign
  logged := h.logged
  agrees := h.agrees
  forward := hfmt ▸ h.forward
  passed := hfmt ▸ h.passed

theorem TurnEnds.behind {t s' : Printf} (h : TurnEnds e t s') (hfmt : t.fmt = s.fmt + 1)
    (hpending : (modeOf e.fmt t.fmt).Pending) : TurnEnds e s s' where
  sign := h.sign
  logged := h.logged
  agrees := h.agrees
  forward := by
    have := h.forward
    omega
  passed := by
    intro i hlow hhigh
    by_cases hi : i = t.fmt
    · rw [hi]
      exact hpending
    · exact h.passed i (by omega) hhigh

/-- A turn that leaves the pointer where it is. -/
theorem TurnEnds.here {s' : Printf} (hfmt : s'.fmt = s.fmt) (hlogged : Logged s') (hsign : s'.flags.prWS = false)
    (hagrees : Agrees s'.next (modeOf e.fmt (s.fmt + 1))) : TurnEnds e s s' where
  sign := hsign
  logged := hlogged
  agrees := hfmt.symm ▸ hagrees
  forward := le_of_eq hfmt.symm
  passed := fun i hlow hhigh => absurd hlow (by omega)

theorem doNum_keeps {radix : UInt32} (hlow : 8 ≤ radix.toNat) (hhigh : radix.toNat ≤ 16)
    (hsign : s.flags.prWS = false) : ∃ s', doNum e s radix = some s' ∧ s'.fmt = s.fmt ∧ s'.reads = s.reads := by
  obtain ⟨flags, hnum⟩ := doNum_eq e s hlow hhigh hsign
  exact ⟨_, hnum, rfl, rfl⟩

/-- A conversion prints, and does not touch the pointer. -/
theorem convert_keeps (hsign : s.flags.prWS = false) :
    ∃ s', convert e s = some s' ∧ s'.fmt = s.fmt ∧ s'.reads = s.reads := by
  unfold convert
  dsimp only
  split_ifs
  · exact doNum_keeps (s := { s with flags := { s.flags with prCA := true } }) (by decide) (by decide) hsign
  · exact doNum_keeps (by decide) (by decide) hsign
  · exact doNum_keeps (s := { s with flags := { s.flags with prSG := true } }) (by decide) (by decide) hsign
  · exact doNum_keeps (by decide) (by decide) hsign
  · exact doNum_keeps (by decide) (by decide) hsign
  · rw [Printf.emit2_eq]
    exact ⟨_, rfl, rfl, rfl⟩
  · rw [Printf.emit_eq _ (e.string (e.args s.args)).noNul (by
      dsimp only
      rw [hsign]
      exact (e.string (e.args s.args)).short)]
    exact ⟨_, rfl, rfl, rfl⟩
  · exact ⟨s, rfl, rfl, rfl⟩

theorem conversion_ends (hlogged : Logged s) (hsign : s.flags.prWS = false)
    (hmode : modeOf e.fmt (s.fmt + 1) = .text) : ∃ s', conversion e s = some s' ∧ TurnEnds e s s' := by
  obtain ⟨s', hs', hfmt, hreads⟩ := convert_keeps (e := e) hsign
  refine ⟨s'.reset, congrArg (Option.map Printf.reset) hs', TurnEnds.here hfmt ?_ rfl ?_⟩
  · intro i
    change i ∈ s'.reads ↔ i ≤ s'.fmt
    rw [hreads, hfmt]
    exact hlogged i
  · rw [hmode]
    exact ⟨rfl, rfl⟩

/-- A modifier sets a flag or none. -/
theorem modifiers_flags
    (h : e.fmt s.fmt = ch 'F' ∨ e.fmt s.fmt = ch 'N' ∨ e.fmt s.fmt = ch 'l' ∨ e.fmt s.fmt = ch 'h') :
    ∃ flags : Flags, flags.prWS = s.flags.prWS ∧ modifiers e s = some { s with flags := flags } := by
  unfold modifiers
  dsimp only
  split_ifs with hF hN hl hh
  · exact ⟨{ s.flags with prFP := true }, rfl, rfl⟩
  · exact ⟨s.flags, rfl, rfl⟩
  · exact ⟨{ s.flags with pr32 := true }, rfl, rfl⟩
  · exact ⟨{ s.flags with pr16 := true }, rfl, rfl⟩
  · exact absurd h (by tauto)

theorem modifiers_ends (hlogged : Logged s) (hsign : s.flags.prWS = false) (hstate : s.state = 3)
    (hmode : modeOf e.fmt (s.fmt + 1) = Mode.behindModifiers (e.fmt s.fmt)) :
    ∃ s', modifiers e s = some s' ∧ TurnEnds e s s' := by
  unfold Mode.behindModifiers at hmode
  by_cases hmodifier : e.fmt s.fmt = ch 'F' ∨ e.fmt s.fmt = ch 'N' ∨ e.fmt s.fmt = ch 'l' ∨ e.fmt s.fmt = ch 'h'
  · rw [if_pos hmodifier] at hmode
    obtain ⟨flags, hflags, hs'⟩ := modifiers_flags hmodifier
    exact ⟨_, hs', TurnEnds.here rfl hlogged (hflags.trans hsign) (hmode ▸ hstate)⟩
  · rw [if_neg hmodifier] at hmode
    rw [not_or, not_or, not_or] at hmodifier
    unfold modifiers
    rw [if_neg hmodifier.1, if_neg hmodifier.2.1, if_neg hmodifier.2.2.1, if_neg hmodifier.2.2.2]
    obtain ⟨s', hs', hends⟩ := conversion_ends (s := { s with state := s.state + 1 }) hlogged hsign hmode
    exact ⟨s', hs', hends.of_fmt rfl⟩

theorem width_ends (hlogged : Logged s) (hsign : s.flags.prWS = false) (hstate : s.state = 2)
    (hmode : modeOf e.fmt (s.fmt + 1) = Mode.behindWidth (e.fmt s.fmt)) :
    ∃ s', width e s = some s' ∧ TurnEnds e s s' := by
  unfold Mode.behindWidth at hmode
  unfold width
  by_cases hdigit : e.fmt s.fmt ≥ ch '0' ∧ e.fmt s.fmt ≤ ch '9'
  · rw [if_pos hdigit] at hmode
    rw [if_pos hdigit]
    exact ⟨_, rfl, TurnEnds.here rfl hlogged hsign (hmode ▸ hstate)⟩
  · rw [if_neg hdigit] at hmode
    rw [if_neg hdigit]
    obtain ⟨s', hs', hends⟩ := modifiers_ends (s := { s with state := s.state + 1 }) hlogged hsign
      (congrArg (· + 1) hstate) hmode
    exact ⟨s', hs', hends.of_fmt rfl⟩

theorem afterPercent_ends (hlogged : Logged s) (hsign : s.flags.prWS = false) (hstate : s.state = 1)
    (hmode : modeOf e.fmt s.fmt = if s.flags.prLJ then .minus else .percent) :
    ∃ s', afterPercent e s = some s' ∧ TurnEnds e s s' := by
  have hnext : modeOf e.fmt (s.fmt + 1) = (modeOf e.fmt s.fmt).next (e.fmt s.fmt) := rfl
  rw [hmode] at hnext
  unfold afterPercent
  by_cases hpercent : e.fmt s.fmt = ch '%'
  · rw [if_pos hpercent]
    refine ⟨_, rfl, TurnEnds.here rfl hlogged rfl ?_⟩
    rw [hnext, hpercent]
    cases s.flags.prLJ <;> exact ⟨rfl, rfl⟩
  by_cases hminus : e.fmt s.fmt = ch '-'
  · rw [if_neg hpercent, if_pos hminus]
    cases hleft : s.flags.prLJ with
    | true =>
      refine ⟨_, rfl, TurnEnds.here rfl hlogged rfl ?_⟩
      rw [hnext, hminus, hleft]
      exact ⟨rfl, rfl⟩
    | false =>
      refine ⟨_, rfl, TurnEnds.here rfl hlogged hsign ?_⟩
      rw [hnext, hminus, hleft]
      exact ⟨hstate, rfl⟩
  rw [if_neg hpercent, if_neg hminus]
  by_cases hzero : e.fmt s.fmt = ch '0'
  · have hflag : modeOf e.fmt (s.fmt + 1) = .zero := by
      rw [hnext, hzero]
      cases s.flags.prLJ <;> rfl
    rw [if_pos hzero]
    obtain ⟨s', hs', hends⟩ := width_ends (e := e)
      (s := { Printf.next { s with state := s.state + 1 } with flags := { s.flags with prLZ := true } })
      (Logged.next (s := s) hlogged) hsign (congrArg (· + 1) hstate) (by
        change (modeOf e.fmt (s.fmt + 1)).next (e.fmt (s.fmt + 1)) = _
        rw [hflag]
        rfl)
    exact ⟨s', hs', hends.behind rfl (Or.inr hflag)⟩
  · rw [if_neg hzero]
    obtain ⟨s', hs', hends⟩ := width_ends (e := e) (s := { s with state := s.state + 1 }) hlogged hsign
      (congrArg (· + 1) hstate) (by
        dsimp only
        rw [hnext]
        cases s.flags.prLJ with
        | true => exact (if_neg (by tauto)).trans (if_neg hzero)
        | false => exact (if_neg hpercent).trans ((if_neg hminus).trans (if_neg hzero)))
    exact ⟨s', hs', hends.of_fmt rfl⟩

theorem ordinary_ends (hlogged : Logged s) (hsign : s.flags.prWS = false) (hstate : s.state = 0)
    (hleft : s.flags.prLJ = false) (hmode : modeOf e.fmt s.fmt = .text) :
    ∃ s', ordinary e s = some s' ∧ TurnEnds e s s' := by
  have hnext : modeOf e.fmt (s.fmt + 1) = (modeOf e.fmt s.fmt).next (e.fmt s.fmt) := rfl
  rw [hmode] at hnext
  by_cases hpercent : e.fmt s.fmt = ch '%'
  · have hbegin : modeOf e.fmt (s.fmt + 1) = .percent := by
      rw [hnext, hpercent]
      rfl
    rw [ordinary_percent e hpercent]
    obtain ⟨s', hs', hends⟩ := afterPercent_ends (e := e) (s := Printf.next { s with state := s.state + 1 })
      (Logged.next (s := s) hlogged) hsign (congrArg (· + 1) hstate) (by
        change modeOf e.fmt (s.fmt + 1) = if s.flags.prLJ then Mode.minus else Mode.percent
        rw [hbegin, hleft]
        rfl)
    exact ⟨s', hs', hends.behind rfl (Or.inl hbegin)⟩
  · unfold ordinary
    rw [if_pos hpercent]
    refine ⟨_, rfl, TurnEnds.here rfl hlogged hsign ?_⟩
    rw [hnext, show Mode.text.next (e.fmt s.fmt) = .text from if_neg hpercent]
    exact ⟨hstate, hleft⟩

/-- **One turn**: the state follows the mode. -/
theorem switchState_ends (h : AtHead e s) : ∃ s', switchState e s = some s' ∧ TurnEnds e s s' := by
  have hagrees := h.agrees
  cases hmode : modeOf e.fmt s.fmt with
  | text =>
    rw [hmode] at hagrees
    rw [switchState_ordinary e hagrees.1]
    exact ordinary_ends h.logged h.sign hagrees.1 hagrees.2 hmode
  | minus =>
    rw [hmode] at hagrees
    rw [switchState_afterPercent e hagrees.1]
    exact afterPercent_ends h.logged h.sign hagrees.1 (by rw [hmode, hagrees.2]; rfl)
  | width =>
    rw [hmode] at hagrees
    rw [switchState_width e hagrees]
    exact width_ends h.logged h.sign hagrees (by rw [modeOf, hmode]; rfl)
  | modifier =>
    rw [hmode] at hagrees
    rw [switchState_modifiers e hagrees]
    exact modifiers_ends h.logged h.sign hagrees (by rw [modeOf, hmode]; rfl)
  | percent =>
    rw [hmode] at hagrees
    exact hagrees.elim
  | zero =>
    rw [hmode] at hagrees
    exact hagrees.elim

/-! ## The whole scan -/

theorem atHead_start (e : Call) : AtHead e {} := by
  refine ⟨fun i => ?_, rfl, rfl, rfl⟩
  change i ∈ [0] ↔ i ≤ 0
  rw [List.mem_singleton, Nat.le_zero]

theorem TurnEnds.atHead {s' : Printf} (h : TurnEnds e s s') : AtHead e s'.next :=
  ⟨h.logged.next, h.sign, h.agrees⟩

/-- Where the scan ends, it is at the head of the loop. -/
theorem scan_atHead {fuel : Nat} {t : Printf} (h : AtHead e s) (hscan : scan e fuel s = .ok t) :
    AtHead e t ∧ e.fmt t.fmt = 0 := by
  induction fuel generalizing s with
  | zero => cases hscan
  | succ fuel ih =>
    rw [scan] at hscan
    by_cases hnul : e.fmt s.fmt = 0
    · rw [if_pos hnul] at hscan
      obtain rfl := Except.ok.inj hscan
      exact ⟨h, hnul⟩
    · obtain ⟨s', hs', hends⟩ := switchState_ends h
      rw [if_neg hnul, hs'] at hscan
      exact ih hends.atHead hscan

/-- The scan comes to the NUL, where no character is taken for granted there. -/
theorem scan_ends {n : Nat} (hchars : ∀ i < n, e.fmt i ≠ 0) (hnul : e.fmt n = 0) (hmode : ¬ (modeOf e.fmt n).Pending)
    {fuel : Nat} (h : AtHead e s) (hs : s.fmt ≤ n) (hfuel : n - s.fmt < fuel) :
    ∃ t, scan e fuel s = .ok t ∧ AtHead e t ∧ t.fmt = n := by
  induction fuel generalizing s with
  | zero => exact absurd hfuel (Nat.not_lt_zero _)
  | succ fuel ih =>
    rw [scan]
    rcases Nat.lt_or_eq_of_le hs with hlt | heq
    · obtain ⟨s', hs', hends⟩ := switchState_ends h
      have hless : s'.fmt < n := by
        rw [← not_le]
        exact fun hle => hmode (hends.passed n hlt hle)
      have hforward := hends.forward
      rw [if_neg (hchars s.fmt hlt), hs']
      refine ih hends.atHead ?_ ?_
      · change s'.fmt + 1 ≤ n
        exact hless
      · change n - (s'.fmt + 1) < fuel
        omega
    · rw [if_pos (by rw [heq]; exact hnul)]
      exact ⟨s, rfl, h, heq⟩

theorem Agrees.not_pending {m : Mode} (h : Agrees s m) : ¬ m.Pending := by
  rintro (rfl | rfl) <;> exact h

/-- **`do_printf` stays inside its format**, and ends, exactly if the format is complete. -/
theorem doPrintf_reads_iff (fmt : CString) (after : Nat → UInt8) (args : Nat → UInt32) (string : UInt32 → CString) :
    (∃ n, ∀ fuel ≥ n, ∃ s, doPrintf ⟨textAt fmt.bytes after, args, string⟩ fuel = .ok s ∧
      ∀ i ∈ s.reads, i ≤ fmt.bytes.length) ↔ Complete fmt.bytes := by
  have hchars : ∀ i < fmt.bytes.length, textAt fmt.bytes after i ≠ 0 := by
    intro i hi hzero
    rw [textAt_of_lt hi] at hzero
    exact fmt.noNul (hzero ▸ List.getElem_mem hi)
  unfold Complete
  rw [← modeOf_textAt fmt.bytes after]
  constructor
  · rintro ⟨n, hn⟩ hpending
    obtain ⟨t, ht, hreads⟩ := hn n (le_refl n)
    obtain ⟨hhead, hnul⟩ := scan_atHead (atHead_start _) ht
    -- The pointer is neither in front of the NUL, where no character is one, nor on it.
    have hle := hreads t.fmt ((hhead.logged t.fmt).mpr (le_refl _))
    rcases Nat.lt_or_eq_of_le hle with hlt | heq
    · exact hchars t.fmt hlt hnul
    · exact hhead.agrees.not_pending (heq ▸ hpending)
  · intro hmode
    refine ⟨fmt.bytes.length + 1, fun fuel hfuel => ?_⟩
    obtain ⟨t, ht, hhead, hfmt⟩ := scan_ends (e := ⟨textAt fmt.bytes after, args, string⟩) hchars
      (textAt_length fmt.bytes after) hmode (atHead_start _) (Nat.zero_le _) hfuel
    exact ⟨t, ht, fun i hi => hfmt ▸ (hhead.logged i).mp hi⟩

theorem noNul_percent : (0 : UInt8) ∉ [ch '%'] := by
  decide

theorem short_percent : [ch '%'].length < 4294967296 := by
  decide

/-- A format that ends in a percent sign: what stands behind its NUL is read and printed. -/
theorem doPrintf_reads_behind :
    ¬ ∃ n, ∀ fuel ≥ n, ∃ s,
      doPrintf ⟨textAt (CString.mk [ch '%'] noNul_percent short_percent).bytes fun i => if i = 2 then ch 'A' else 0,
        fun _ => 0, noStrings⟩ fuel = .ok s ∧
      ∀ i ∈ s.reads, i ≤ [ch '%'].length := by
  rintro ⟨n, hn⟩
  obtain ⟨s, hs, hreads⟩ := hn (n + 4) (Nat.le_add_right n 4)
  have hrun : doPrintf ⟨textAt [ch '%'] fun i => if i = 2 then ch 'A' else 0, fun _ => 0, noStrings⟩ (n + 4) =
      .ok { fmt := 3, count := 1, out := [ch 'A'], reads := [3, 2, 1, 0] } := rfl
  rw [hrun] at hs
  obtain rfl := Except.ok.inj hs
  exact absurd (hreads 2 (by decide)) (by decide)

end Desiros.Klibc
