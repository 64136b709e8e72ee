import Mathlib.Data.List.Basic

/-!
# Runs of a deterministic system

A system is a step function `step : σ → ι → σ` (state, operation). `run step s ops` performs the
operations of a list in order. `Guarded step guard s ops` says that each operation meets `guard` in
the state it is performed in. The one induction every safety result uses is `invariant_run`: an
invariant that each guarded step keeps holds after every guarded run.
-/

namespace Desiros.Library

variable {σ ι : Type*}

/-- The state after performing `ops` in order from `s`. -/
def run (step : σ → ι → σ) (s : σ) (ops : List ι) : σ := ops.foldl step s

/-- Every operation of the run meets `guard` in the state it is performed in. -/
def Guarded (step : σ → ι → σ) (guard : σ → ι → Prop) : σ → List ι → Prop
  | _, [] => True
  | s, op :: ops => guard s op ∧ Guarded step guard (step s op) ops

@[simp] theorem run_nil (step : σ → ι → σ) (s : σ) : run step s [] = s := rfl

@[simp] theorem run_cons (step : σ → ι → σ) (s : σ) (op : ι) (ops : List ι) :
    run step s (op :: ops) = run step (step s op) ops := rfl

theorem run_append (step : σ → ι → σ) (s : σ) (ops ops' : List ι) :
    run step s (ops ++ ops') = run step (run step s ops) ops' := List.foldl_append

@[simp] theorem guarded_nil (step : σ → ι → σ) (guard : σ → ι → Prop) (s : σ) :
    Guarded step guard s [] := trivial

@[simp] theorem guarded_cons (step : σ → ι → σ) (guard : σ → ι → Prop) (s : σ) (op : ι)
    (ops : List ι) : Guarded step guard s (op :: ops) ↔
      guard s op ∧ Guarded step guard (step s op) ops := Iff.rfl

theorem guarded_append {step : σ → ι → σ} {guard : σ → ι → Prop} : ∀ {ops ops' : List ι} {s : σ},
    Guarded step guard s (ops ++ ops') ↔ Guarded step guard s ops ∧ Guarded step guard (run step s ops) ops' := by
  intro ops
  induction ops with
  | nil =>
    intro ops' s
    exact ⟨fun h => ⟨trivial, h⟩, And.right⟩
  | cons op ops ih =>
    intro ops' s
    rw [List.cons_append, guarded_cons, guarded_cons, run_cons, ih, and_assoc]

/-- Operations that every state allows. -/
theorem guarded_of_forall {step : σ → ι → σ} {guard : σ → ι → Prop} : ∀ {ops : List ι} {s : σ},
    (∀ op ∈ ops, ∀ s, guard s op) → Guarded step guard s ops := by
  intro ops
  induction ops with
  | nil => exact fun _ => trivial
  | cons op ops ih => exact fun h => ⟨h op List.mem_cons_self _, ih fun o ho => h o (List.mem_cons_of_mem _ ho)⟩

/-- An invariant kept by every guarded step holds after every guarded run. -/
theorem invariant_run {step : σ → ι → σ} {guard : σ → ι → Prop} {inv : σ → Prop}
    (hstep : ∀ s op, inv s → guard s op → inv (step s op)) :
    ∀ (ops : List ι) (s : σ), inv s → Guarded step guard s ops → inv (run step s ops) := by
  intro ops
  induction ops with
  | nil => intro s hs _; exact hs
  | cons op ops ih =>
    intro s hs hg
    exact ih _ (hstep s op hs hg.1) hg.2

theorem guarded_and {step : σ → ι → σ} {guard guard' : σ → ι → Prop} : ∀ {ops : List ι} {s : σ},
    Guarded step guard s ops → Guarded step guard' s ops →
      Guarded step (fun s op => guard s op ∧ guard' s op) s ops := by
  intro ops
  induction ops with
  | nil => exact fun _ _ => trivial
  | cons op ops ih => exact fun h h' => ⟨⟨h.1, h'.1⟩, ih h.2 h'.2⟩

/-- Where each guarded step keeps an invariant and obeys a law, every step of a guarded run obeys it. -/
theorem guarded_of_invariant {step : σ → ι → σ} {guard law : σ → ι → Prop} {inv : σ → Prop}
    (hstep : ∀ s op, inv s → guard s op → law s op ∧ inv (step s op)) : ∀ (ops : List ι) (s : σ), inv s →
    Guarded step guard s ops → Guarded step law s ops := by
  intro ops
  induction ops with
  | nil => exact fun _ _ _ => trivial
  | cons op ops ih =>
    intro s hs hg
    obtain ⟨hlaw, hnext⟩ := hstep s op hs hg.1
    exact ⟨hlaw, ih _ hnext hg.2⟩

/-- `P` holds in every state of the run. -/
def Always (step : σ → ι → σ) (P : σ → Prop) : σ → List ι → Prop
  | s, [] => P s
  | s, op :: ops => P s ∧ Always step P (step s op) ops

theorem Always.head {step : σ → ι → σ} {P : σ → Prop} {s : σ} {ops : List ι} (h : Always step P s ops) :
    P s := by
  cases ops with
  | nil => exact h
  | cons op ops => exact h.1

/-- If guarded steps keep an invariant that gives `P`, and a step that is not guarded leads out of `P`, then
`P` holds along exactly the guarded runs. -/
theorem always_iff_guarded {step : σ → ι → σ} {allowed guard : σ → ι → Prop} {inv P : σ → Prop}
    (hP : ∀ s, inv s → P s) (hstep : ∀ s op, inv s → allowed s op → guard s op → inv (step s op))
    (hbad : ∀ s op, inv s → allowed s op → ¬ guard s op → ¬ P (step s op)) :
    ∀ (ops : List ι) (s : σ), inv s → Guarded step allowed s ops →
      (Always step P s ops ↔ Guarded step guard s ops) := by
  intro ops
  induction ops with
  | nil => exact fun s hs _ => iff_of_true (hP s hs) trivial
  | cons op ops ih =>
    intro s hs hallowed
    constructor
    · intro halways
      have hguard : guard s op := by
        by_contra hguard
        exact hbad s op hs hallowed.1 hguard halways.2.head
      exact ⟨hguard, (ih _ (hstep s op hs hallowed.1 hguard) hallowed.2).mp halways.2⟩
    · intro hguarded
      exact ⟨hP s hs, (ih _ (hstep s op hs hallowed.1 hguarded.1) hallowed.2).mpr hguarded.2⟩

/-- Where each allowed step keeps `P` exactly if it meets `guard`, the whole run does. -/
theorem run_iff_guarded {step : σ → ι → σ} {allowed guard : σ → ι → Prop} {inv P : σ → Prop}
    (hinv : ∀ s op, inv s → allowed s op → inv (step s op))
    (hstep : ∀ s op, inv s → allowed s op → (P (step s op) ↔ P s ∧ guard s op)) : ∀ (ops : List ι) (s : σ),
    inv s → Guarded step allowed s ops → (P (run step s ops) ↔ P s ∧ Guarded step guard s ops) := by
  intro ops
  induction ops with
  | nil => exact fun s _ _ => (and_iff_left trivial).symm
  | cons op ops ih =>
    intro s hs hallowed
    rw [run_cons, ih _ (hinv s op hs hallowed.1) hallowed.2, hstep s op hs hallowed.1, and_assoc]
    rfl

end Desiros.Library
