import Mathlib.Data.List.Basic

/-!
# Memory as a history of accesses

A `MemHistory` tells of each event of a type `ε` which cell it accesses, whether it writes, and the value
read or written. `lastValue` is the value a cell has after a history (latest event first), `ReadsLast` says
that every read of a history returned the value its cell had. Both depend on the cells only up to equality
(`readsLast_congr`), so that the same history can be judged by coarser or finer names of the same cells.
-/

namespace Desiros.Library

variable {ε κ κ' V : Type*}

structure MemHistory (ε κ V : Type*) where
  cell : ε → κ
  isWrite : ε → Bool
  value : ε → V

/-- The cell was written. -/
def Written (M : MemHistory ε κ V) (c : κ) (es : List ε) : Prop :=
  ∃ e ∈ es, M.isWrite e ∧ M.cell e = c

theorem not_written_cons {M : MemHistory ε κ V} {c : κ} {e : ε} {es : List ε} :
    ¬ Written M c (e :: es) ↔ ¬ (M.isWrite e = true ∧ M.cell e = c) ∧ ¬ Written M c es := by
  simp only [Written, List.mem_cons, exists_eq_or_imp, not_or]

section

variable [DecidableEq κ] (M : MemHistory ε κ V) (init : V)

/-- The value of a cell: that of the latest write to it, `init` if there is none. -/
def lastValue (c : κ) : List ε → V
  | [] => init
  | e :: es => if M.isWrite e ∧ M.cell e = c then M.value e else lastValue c es

/-- Every read returned the value of its cell. -/
def ReadsLast : List ε → Prop
  | [] => True
  | e :: es => (M.isWrite e = false → M.value e = lastValue M init (M.cell e) es) ∧ ReadsLast es

variable {M init}

theorem lastValue_cons_of_read {c : κ} {e : ε} (es : List ε) (h : M.isWrite e = false) :
    lastValue M init c (e :: es) = lastValue M init c es := by
  rw [lastValue, if_neg fun h' => Bool.false_ne_true (h.symm.trans h'.1)]

theorem lastValue_cons_self {e : ε} (es : List ε) (h : M.isWrite e = true) :
    lastValue M init (M.cell e) (e :: es) = M.value e := if_pos ⟨h, rfl⟩

theorem lastValue_cons_of_ne {c : κ} {e : ε} (es : List ε) (h : M.cell e ≠ c) :
    lastValue M init c (e :: es) = lastValue M init c es := if_neg fun h' => h h'.2

theorem lastValue_of_not_written {c : κ} : ∀ {es : List ε}, ¬ Written M c es →
    lastValue M init c es = init := by
  intro es
  induction es with
  | nil => intro _; rfl
  | cons e es ih =>
    intro h
    have htail : ¬ Written M c es := fun ⟨e', he', h'⟩ => h ⟨e', List.mem_cons_of_mem _ he', h'⟩
    rw [lastValue, if_neg fun h' => h ⟨e, List.mem_cons_self, h'⟩, ih htail]

/-- Two names for the cells that separate the events in the same way. -/
theorem readsLast_congr [DecidableEq κ'] (M : MemHistory ε κ V) (M' : MemHistory ε κ' V)
    (hwrite : ∀ e, M'.isWrite e = M.isWrite e) (hvalue : ∀ e, M'.value e = M.value e) :
    ∀ {es : List ε}, (∀ e e', M'.cell e = M'.cell e' ↔ M.cell e = M.cell e') →
      ReadsLast M init es → ReadsLast M' init es := by
  intro es hcell
  have hlast : ∀ (e : ε) (es : List ε),
      lastValue M' init (M'.cell e) es = lastValue M init (M.cell e) es := by
    intro e es
    induction es with
    | nil => rfl
    | cons e' es ih => simp only [lastValue, hwrite, hvalue, hcell, ih]
  induction es with
  | nil => intro _; trivial
  | cons e es ih =>
    rintro ⟨h1, h2⟩
    refine ⟨fun h => ?_, ih h2⟩
    rw [hvalue, hlast]
    exact h1 ((hwrite e).symm.trans h)

end

end Desiros.Library
