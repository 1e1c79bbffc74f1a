import Mathlib.Tactic.SplitIfs
import ProviderScout.Config.Validation

namespace ProviderScout.Config

theorem validate_iff_fault? (c : Config) : c.validate = .ok () ↔ c.fault? = none := by
  rw [validate]
  cases c.fault? with
  | none => exact iff_of_true rfl rfl
  | some f => exact iff_of_false nofun nofun

/-- Settings are accepted if no interval is zero, a batch holds at least one event, the exploration
rate is from 0 to 1 and the weight of a new speed is above 0 and at most 1. -/
theorem validate_iff (c : Config) :
    c.validate = .ok () ↔
      (∀ i ∈ c.intervals, i.2.isZero = false) ∧ c.usage.batchSize ≠ 0 ∧
      ((0 : Float) ≤ c.affinity.explorationRate ∧ c.affinity.explorationRate ≤ 1) ∧
      ((0 : Float) < c.affinity.ewmaAlpha ∧ c.affinity.ewmaAlpha ≤ 1) := by
  rw [validate_iff_fault?, fault?]
  cases hfind : c.intervals.find? fun i => i.2.isZero with
  | some i =>
    refine iff_of_false nofun fun h => ?_
    have hzero := List.find?_some hfind
    rw [h.1 i (List.mem_of_find?_eq_some hfind)] at hzero
    cases hzero
  | none =>
    have hpositive : ∀ i ∈ c.intervals, i.2.isZero = false := fun i hi =>
      eq_false_of_ne_true (List.find?_eq_none.1 hfind i hi)
    dsimp only
    rw [and_iff_right hpositive]
    split_ifs with hsize hrate halpha
    · exact iff_of_false nofun fun h => h.1 (eq_of_beq hsize)
    · refine iff_of_false nofun fun h => ?_
      simp [h.2.1] at hrate
    · refine iff_of_false nofun fun h => ?_
      simp [h.2.2] at halpha
    · refine iff_of_true rfl ⟨fun h => hsize (beq_iff_eq.2 h), ?_, ?_⟩
      · simpa using hrate
      · simpa using halpha

end ProviderScout.Config
