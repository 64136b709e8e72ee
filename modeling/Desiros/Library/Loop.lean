import Mathlib.Logic.Basic

/-!
# Loops

`loop turn fuel s` repeats `turn` until it has nothing left to do (`none`), in `fuel` turns at most; `none` means that
the fuel ran out. An invariant of a turn holds behind the loop (`loop_invariant`), and a measure that each turn
decreases bounds the fuel it needs (`loop_isSome`). A loop whose states are known stops in the last one (`loop_states`).
-/

namespace Desiros.Library

variable {σ : Type*}

/-- The state in which `turn` stops. -/
def loop (turn : σ → Option σ) : Nat → σ → Option σ
  | 0, _ => none
  | fuel + 1, s =>
    match turn s with
    | none => some s
    | some s' => loop turn fuel s'

section

variable {turn : σ → Option σ} {inv : σ → Prop}

theorem loop_stop {fuel : Nat} {s : σ} (h : turn s = none) : loop turn (fuel + 1) s = some s := by
  unfold loop
  rw [h]

theorem loop_turn {fuel : Nat} {s s' : σ} (h : turn s = some s') : loop turn (fuel + 1) s = loop turn fuel s' := by
  conv => lhs; unfold loop
  rw [h]

theorem loop_of_stop {fuel : Nat} {s t : σ} (h : turn s = none) (hloop : loop turn fuel s = some t) : s = t := by
  cases fuel with
  | zero => cases hloop
  | succ fuel =>
    rw [loop_stop h] at hloop
    exact Option.some.inj hloop

/-- What each turn keeps holds behind the loop, where `turn` has nothing left to do. -/
theorem loop_invariant (hturn : ∀ s s', inv s → turn s = some s' → inv s') : ∀ {fuel : Nat} {s t : σ},
    loop turn fuel s = some t → inv s → inv t ∧ turn t = none := by
  intro fuel
  induction fuel with
  | zero =>
    intro s t h
    cases h
  | succ fuel ih =>
    intro s t h hs
    cases hstep : turn s with
    | none =>
      rw [loop_stop hstep] at h
      obtain rfl := Option.some.inj h
      exact ⟨hs, hstep⟩
    | some s' =>
      rw [loop_turn hstep] at h
      exact ih h (hturn s s' hs hstep)

/-- Fuel above a measure that each turn decreases is enough. -/
theorem loop_isSome (measure : σ → Nat)
    (hturn : ∀ s s', inv s → turn s = some s' → inv s' ∧ measure s' < measure s) : ∀ {fuel : Nat} {s : σ},
    inv s → measure s < fuel → (loop turn fuel s).isSome = true := by
  intro fuel
  induction fuel with
  | zero =>
    intro s _ hfuel
    exact absurd hfuel (Nat.not_lt_zero _)
  | succ fuel ih =>
    intro s hs hfuel
    cases hstep : turn s with
    | none =>
      rw [loop_stop hstep]
      rfl
    | some s' =>
      obtain ⟨hs', hless⟩ := hturn s s' hs hstep
      rw [loop_turn hstep]
      exact ih hs' (Nat.lt_of_lt_of_le hless (Nat.le_of_lt_succ hfuel))

/-- The states of a loop, one after the other. -/
theorem loop_states (state : Nat → σ) {n fuel : Nat} (hturn : ∀ i < n, turn (state i) = some (state (i + 1)))
    (hstop : turn (state n) = none) (hfuel : n < fuel) : loop turn fuel (state 0) = some (state n) := by
  induction n generalizing state fuel with
  | zero =>
    obtain ⟨fuel, rfl⟩ := Nat.exists_eq_succ_of_ne_zero (Nat.ne_of_gt hfuel)
    exact loop_stop hstop
  | succ n ih =>
    obtain ⟨fuel, rfl⟩ := Nat.exists_eq_succ_of_ne_zero (Nat.ne_of_gt (Nat.zero_lt_of_lt hfuel))
    rw [loop_turn (hturn 0 n.succ_pos)]
    exact ih (fun i => state (i + 1)) (fun i hi => hturn (i + 1) (Nat.succ_lt_succ hi)) hstop (Nat.lt_of_succ_lt_succ hfuel)

end

end Desiros.Library
