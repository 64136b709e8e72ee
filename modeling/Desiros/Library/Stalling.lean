import Mathlib.Logic.Relation

/-!
# Loops that end and loops that stall

A loop is a function `next : σ → Option σ`, which gives the state after a turn, or nothing where the loop is left.
`runLoop next fuel s` is the state in which it is left. Where stalled states lead to stalled states, and every other
turn lowers a measure, the loop is left exactly if it comes to no stalled state (`runLoop_ends_iff`).
-/

namespace Desiros.Library

variable {σ : Type*}

/-- The state in which the loop is left, within `fuel` turns. -/
def runLoop (next : σ → Option σ) : Nat → σ → Option σ
  | 0, _ => none
  | fuel + 1, s =>
    match next s with
    | none => some s
    | some t => runLoop next fuel t

/-- The loop comes from `s` to `t`. -/
def ComesTo (next : σ → Option σ) : σ → σ → Prop := Relation.ReflTransGen fun s t => next s = some t

section

variable {next : σ → Option σ} {s t u : σ}

theorem ComesTo.refl : ComesTo next s s := Relation.ReflTransGen.refl

theorem ComesTo.head (h : next s = some t) (hrest : ComesTo next t u) : ComesTo next s u :=
  Relation.ReflTransGen.head h hrest

theorem ComesTo.eq_of_done (hdone : next s = none) (h : ComesTo next s t) : t = s := by
  rcases Relation.ReflTransGen.cases_head h with rfl | ⟨u, hturn, -⟩
  · rfl
  · rw [hdone] at hturn
    exact absurd hturn (by simp)

theorem runLoop_done (h : next s = none) (fuel : Nat) : runLoop next (fuel + 1) s = some s := by
  rw [runLoop, h]

theorem runLoop_turn (h : next s = some t) (fuel : Nat) : runLoop next (fuel + 1) s = runLoop next fuel t := by
  rw [runLoop, h]

variable {stalled : σ → Prop}

/-- From a stalled state the loop is not left. -/
theorem runLoop_stalled (hstalled : ∀ s, stalled s → ∃ t, next s = some t ∧ stalled t) :
    ∀ {fuel : Nat} {s : σ}, stalled s → runLoop next fuel s = none := by
  intro fuel
  induction fuel with
  | zero => exact fun _ => rfl
  | succ fuel ih =>
    intro s hs
    obtain ⟨t, hturn, ht⟩ := hstalled s hs
    rw [runLoop_turn hturn]
    exact ih ht

theorem runLoop_comesTo (h : ComesTo next s t) {fuel : Nat} (hend : (runLoop next fuel s).isSome) :
    ∃ fuel', (runLoop next fuel' t).isSome := by
  induction h using Relation.ReflTransGen.head_induction_on generalizing fuel with
  | refl => exact ⟨fuel, hend⟩
  | head hturn _ ih =>
    cases fuel with
    | zero => exact absurd hend (by simp [runLoop])
    | succ fuel =>
      rw [runLoop_turn hturn] at hend
      exact ih hend

/-- **A loop is left** exactly if it comes to no stalled state. -/
theorem runLoop_ends_iff (hstalled : ∀ s, stalled s → ∃ t, next s = some t ∧ stalled t) (measure : σ → Nat)
    (hlower : ∀ s t, next s = some t → ¬ stalled s → measure t < measure s) (s : σ) :
    (∃ fuel, (runLoop next fuel s).isSome) ↔ ∀ t, ComesTo next s t → ¬ stalled t := by
  constructor
  · rintro ⟨fuel, hend⟩ t hcomes ht
    obtain ⟨fuel', hend'⟩ := runLoop_comesTo hcomes hend
    rw [runLoop_stalled hstalled ht] at hend'
    exact absurd hend' (by simp)
  · induction hm : measure s using Nat.strongRecOn generalizing s with
    | ind m ih =>
      intro hnot
      cases hturn : next s with
      | none => exact ⟨1, by rw [runLoop_done hturn]; rfl⟩
      | some t =>
        have hlt := hlower s t hturn (hnot s ComesTo.refl)
        obtain ⟨fuel, hend⟩ := ih (measure t) (hm ▸ hlt) t rfl fun u hu => hnot u (ComesTo.head hturn hu)
        exact ⟨fuel + 1, by rw [runLoop_turn hturn]; exact hend⟩

end

end Desiros.Library
