import Mathlib.Algebra.Field.Rat
import Mathlib.Algebra.Order.Field.Basic
import Mathlib.Algebra.Order.Ring.Rat
import Mathlib.Data.List.Induction
import Mathlib.Tactic.Linarith
import Mathlib.Tactic.NormNum
import ProviderScout.Number.Quantity

namespace ProviderScout.Quantity

theorem isZero_iff (x : Rat) : isZero x = true ↔ x = 0 := by
  have hzero : (0.0 : Rat) = 0 := by norm_num
  rw [isZero, Bool.and_eq_true, decide_eq_true_iff, decide_eq_true_iff]
  change x ≤ 0.0 ∧ 0.0 ≤ x ↔ x = 0
  rw [hzero, le_antisymm_iff]

theorem larger_eq_max (a b : Rat) : larger a b = max a b := by
  change (if a < b then b else a) = max a b
  split
  · rename_i h
    exact (max_eq_right h.le).symm
  · rename_i h
    exact (max_eq_left (not_lt.1 h)).symm

theorem largest_snoc (xs : List Rat) (x : Rat) : largest (xs ++ [x]) = max (largest xs) x := by
  rw [largest, List.foldl_append, ← larger_eq_max]
  rfl

theorem largest_le_iff {xs : List Rat} {bound : Rat} :
    largest xs ≤ bound ↔ 0 ≤ bound ∧ ∀ x ∈ xs, x ≤ bound := by
  induction xs using List.reverseRecOn with
  | nil =>
    have hzero : (largest [] : Rat) = 0 := by decide +kernel
    rw [hzero]
    exact (and_iff_left (List.forall_mem_nil _)).symm
  | append_singleton xs x ih =>
    rw [largest_snoc, max_le_iff, ih, List.forall_mem_append, List.forall_mem_singleton, and_assoc]

theorem largest_nonneg (xs : List Rat) : 0 ≤ largest xs := (largest_le_iff.1 (le_refl _)).1

theorem le_largest {xs : List Rat} {x : Rat} (h : x ∈ xs) : x ≤ largest xs :=
  (largest_le_iff.1 (le_refl _)).2 x h

theorem largest_mem {xs : List Rat} (h : 0 < largest xs) : largest xs ∈ xs := by
  induction xs using List.reverseRecOn with
  | nil => exact absurd h (by decide +kernel)
  | append_singleton xs x ih =>
    rw [largest_snoc] at h ⊢
    rw [List.mem_append, List.mem_singleton]
    rcases max_cases (largest xs) x with ⟨hmax, _⟩ | ⟨hmax, _⟩
    · rw [hmax] at h ⊢
      exact .inl (ih h)
    · exact .inr hmax

end ProviderScout.Quantity
