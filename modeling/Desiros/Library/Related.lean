import Mathlib.Data.List.Forall2

/-!
# Lists related element by element

What `List.Forall₂ R l l'` says of the elements of the second list: each has a partner in the first, and pairs of them
are related as the pairs of their partners are.
-/

namespace Desiros.Library

variable {α β : Type*} {R : α → β → Prop} {l : List α} {l' : List β}

theorem exists_left_of_forall₂ (h : List.Forall₂ R l l') {b : β} (hb : b ∈ l') : ∃ a ∈ l, R a b := by
  induction h with
  | nil => cases hb
  | @cons a b' l l' hab _ ih =>
    cases List.mem_cons.mp hb with
    | inl he => exact ⟨a, List.mem_cons_self, he ▸ hab⟩
    | inr hin =>
      obtain ⟨x, hx, hr⟩ := ih hin
      exact ⟨x, List.mem_cons_of_mem _ hx, hr⟩

theorem exists_right_of_forall₂ (h : List.Forall₂ R l l') {a : α} (ha : a ∈ l) : ∃ b ∈ l', R a b :=
  exists_left_of_forall₂ h.flip ha

theorem forall₂_imp_of_mem {S : α → β → Prop} (h : List.Forall₂ R l l') (hrs : ∀ a, ∀ b ∈ l', R a b → S a b) :
    List.Forall₂ S l l' := by
  induction h with
  | nil => exact .nil
  | @cons a b l l' hab _ ih =>
    exact .cons (hrs a b List.mem_cons_self hab) (ih fun a b hb => hrs a b (List.mem_cons_of_mem _ hb))

theorem pairwise_of_forall₂ {P : α → α → Prop} {Q : β → β → Prop} (h : List.Forall₂ R l l') (hl : l.Pairwise P)
    (hpq : ∀ a a' b b', a ∈ l → a' ∈ l → R a b → R a' b' → P a a' → Q b b') : l'.Pairwise Q := by
  induction h with
  | nil => exact List.Pairwise.nil
  | @cons a b l l' hab hrest ih =>
    obtain ⟨hhead, htail⟩ := List.pairwise_cons.mp hl
    refine List.pairwise_cons.mpr ⟨fun y hy => ?_, ih htail fun a a' b b' ha ha' =>
      hpq a a' b b' (List.mem_cons_of_mem _ ha) (List.mem_cons_of_mem _ ha')⟩
    obtain ⟨x, hx, hr⟩ := exists_left_of_forall₂ hrest hy
    exact hpq a x b y List.mem_cons_self (List.mem_cons_of_mem _ hx) hab hr (hhead x hx)

theorem forall₂_append {k : List α} {k' : List β} (h : List.Forall₂ R l l') (hk : List.Forall₂ R k k') :
    List.Forall₂ R (l ++ k) (l' ++ k') := by
  induction h with
  | nil => exact hk
  | cons hab _ ih => exact .cons hab ih

end Desiros.Library
