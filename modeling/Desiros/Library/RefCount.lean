import Mathlib.Data.List.Perm.Basic
import Mathlib.Data.List.Perm.Lattice
import Mathlib.Logic.Function.Basic

/-!
# Reference counts

A resource counts its references and lists its holders `τ`; when the count drops to 0 it is freed. `Counter.Ok`
says that a counter agrees with the references there are, and that the resource was freed once if it was referenced
and no longer is, else never. A table of counters for the resources `ρ` is `Balanced` with a list of references.
Adding and removing a reference keep that, except that a freed resource must not be referenced again.
-/

namespace Desiros.Library

/-! ## One resource -/

structure Counter (τ : Type*) where
  refCnt : Int := 0
  holders : List τ := []
  /-- The resource was referenced once. -/
  used : Bool := false
  frees : Nat := 0
deriving DecidableEq

variable {ρ τ : Type*}

def Counter.ref (c : Counter τ) : Counter τ := { c with refCnt := c.refCnt + 1, used := true }

def Counter.unref (c : Counter τ) : Counter τ :=
  { c with
    refCnt := c.refCnt - 1
    frees := if c.refCnt - 1 = 0 then c.frees + 1 else c.frees }

def Counter.addHolder (c : Counter τ) (t : τ) : Counter τ := { c with holders := c.holders ++ [t] }

def Counter.deleteHolder [DecidableEq τ] (c : Counter τ) (t : τ) : Counter τ :=
  { c with holders := c.holders.erase t }

/-- The counter of a resource with the references `refs`. -/
structure Counter.Ok (c : Counter τ) (refs : List τ) : Prop where
  refCnt : c.refCnt = refs.length
  holders : c.holders.Perm refs
  used : refs ≠ [] → c.used = true
  frees : c.frees = if c.used = true ∧ refs = [] then 1 else 0

section

variable {c : Counter τ} {refs refs' : List τ} {t : τ}

theorem Counter.ok_new : ({} : Counter τ).Ok [] := ⟨rfl, List.Perm.refl _, fun h => absurd rfl h, rfl⟩

theorem Counter.Ok.perm (h : c.Ok refs) (hperm : refs.Perm refs') : c.Ok refs' := by
  have hnil : refs' = [] ↔ refs = [] := ⟨fun he => (he ▸ hperm).eq_nil, fun he => (he ▸ hperm.symm).eq_nil⟩
  refine ⟨?_, h.holders.trans hperm, fun hne => ?_, ?_⟩
  · rw [h.refCnt, hperm.length_eq]
  · exact h.used fun he => hne (hnil.mpr he)
  · rw [h.frees]
    simp only [hnil]

/-- A referenced resource has not been freed. -/
theorem Counter.Ok.not_freed (h : c.Ok refs) (hne : refs ≠ []) : c.frees = 0 := by
  rw [h.frees, if_neg fun hc => hne hc.2]

theorem Counter.Ok.add (h : c.Ok refs) (hlive : c.frees = 0) (t : τ) : (c.addHolder t).ref.Ok (t :: refs) := by
  refine ⟨?_, ?_, fun _ => rfl, ?_⟩
  · show c.refCnt + 1 = _
    rw [h.refCnt, List.length_cons]
    rfl
  · exact (h.holders.append_right [t]).trans (List.perm_append_singleton t refs)
  · show c.frees = _
    rw [hlive, if_neg fun hc => absurd hc.2 (List.cons_ne_nil _ _)]

variable [DecidableEq τ]

theorem Counter.Ok.remove (h : c.Ok (t :: refs)) : (c.deleteHolder t).unref.Ok refs := by
  have hcnt : c.refCnt - 1 = refs.length := by
    rw [h.refCnt, List.length_cons]
    omega
  have hholders : (c.holders.erase t).Perm refs := by
    have herase := h.holders.erase t
    rwa [List.erase_cons_head] at herase
  have hused := h.used (List.cons_ne_nil _ _)
  have hfrees := h.not_freed (List.cons_ne_nil _ _)
  refine ⟨hcnt, hholders, fun _ => hused, ?_⟩
  show (if c.refCnt - 1 = 0 then c.frees + 1 else c.frees) = if c.used = true ∧ refs = [] then 1 else 0
  have hlast : c.refCnt - 1 = 0 ↔ refs = [] := by
    rw [hcnt, Int.natCast_eq_zero, List.length_eq_zero_iff]
  simp only [hfrees, hused, hlast, true_and, Nat.zero_add]

end

/-! ## Many resources -/

section

variable [DecidableEq ρ]

/-- The references to a resource. -/
def refsTo (T : List (ρ × τ)) (r : ρ) : List τ := (T.filter (·.1 = r)).map Prod.snd

def Balanced (T : List (ρ × τ)) (c : ρ → Counter τ) : Prop := ∀ r, (c r).Ok (refsTo T r)

/-- A change of one counter. -/
def updateCounter (c : ρ → Counter τ) (r : ρ) (f : Counter τ → Counter τ) : ρ → Counter τ :=
  Function.update c r (f (c r))

variable {T T' : List (ρ × τ)} {c : ρ → Counter τ} {r : ρ} {t : τ}

@[simp] theorem refsTo_cons_self (r : ρ) (t : τ) (T : List (ρ × τ)) : refsTo ((r, t) :: T) r = t :: refsTo T r := by
  simp [refsTo]

theorem refsTo_cons_of_ne {r r' : ρ} (hne : r' ≠ r) (t : τ) (T : List (ρ × τ)) :
    refsTo ((r, t) :: T) r' = refsTo T r' := by
  simp [refsTo, hne.symm]

theorem refsTo_append (T T' : List (ρ × τ)) (r : ρ) : refsTo (T ++ T') r = refsTo T r ++ refsTo T' r := by
  simp [refsTo]

theorem refsTo_perm (h : T.Perm T') (r : ρ) : (refsTo T r).Perm (refsTo T' r) := (h.filter _).map _

theorem refsTo_ne_nil (h : (r, t) ∈ T) : refsTo T r ≠ [] := by
  apply List.ne_nil_of_mem (a := t)
  exact List.mem_map.mpr ⟨(r, t), List.mem_filter.mpr ⟨h, decide_eq_true rfl⟩, rfl⟩

theorem Balanced.perm (h : Balanced T c) (hperm : T.Perm T') : Balanced T' c :=
  fun r => (h r).perm (refsTo_perm hperm r)

/-- A new reference, to a resource that has not been freed. -/
theorem Balanced.add (h : Balanced T c) (hlive : (c r).frees = 0) (t : τ) :
    Balanced ((r, t) :: T) (updateCounter (updateCounter c r (·.addHolder t)) r (·.ref)) := by
  intro r'
  unfold updateCounter
  rw [Function.update_idem, Function.update_self]
  by_cases hne : r' = r
  · rw [hne, Function.update_self, refsTo_cons_self]
    exact (h r).add hlive t
  · rw [Function.update_of_ne hne, refsTo_cons_of_ne hne]
    exact h r'

/-- The holders alone: each resource lists those that refer to it. -/
def Lists (T : List (ρ × τ)) (c : ρ → Counter τ) : Prop := ∀ r, (c r).holders.Perm (refsTo T r)

theorem Balanced.lists (h : Balanced T c) : Lists T c := fun r => (h r).holders

theorem Lists.perm (h : Lists T c) (hperm : T.Perm T') : Lists T' c :=
  fun r => (h r).trans (refsTo_perm hperm r)

theorem Lists.congr {c' : ρ → Counter τ} (h : Lists T c) (hc : ∀ r, (c' r).holders = (c r).holders) :
    Lists T c' := by
  intro r
  rw [hc r]
  exact h r

theorem Lists.add (h : Lists T c) (r : ρ) (t : τ) : Lists ((r, t) :: T) (updateCounter c r (·.addHolder t)) := by
  intro r'
  unfold updateCounter
  by_cases hne : r' = r
  · rw [hne, Function.update_self, refsTo_cons_self]
    exact ((h r).append_right [t]).trans (List.perm_append_singleton t _)
  · rw [Function.update_of_ne hne, refsTo_cons_of_ne hne]
    exact h r'

theorem Lists.remove [DecidableEq τ] (h : Lists ((r, t) :: T) c) :
    Lists T (updateCounter c r (·.deleteHolder t)) := by
  intro r'
  have hr' := h r'
  unfold updateCounter
  by_cases hne : r' = r
  · rw [hne, refsTo_cons_self] at hr'
    rw [hne, Function.update_self]
    have herase := hr'.erase t
    rwa [List.erase_cons_head] at herase
  · rw [refsTo_cons_of_ne hne] at hr'
    rw [Function.update_of_ne hne]
    exact hr'

theorem Balanced.remove [DecidableEq τ] (h : Balanced ((r, t) :: T) c) :
    Balanced T (updateCounter (updateCounter c r (·.deleteHolder t)) r (·.unref)) := by
  intro r'
  have hr' := h r'
  unfold updateCounter
  rw [Function.update_idem, Function.update_self]
  by_cases hne : r' = r
  · rw [hne, refsTo_cons_self] at hr'
    rw [hne, Function.update_self]
    exact hr'.remove
  · rw [refsTo_cons_of_ne hne] at hr'
    rw [Function.update_of_ne hne]
    exact hr'

end

end Desiros.Library
