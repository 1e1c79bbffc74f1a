import ProviderScout.Proofs.Selection.Ranking

namespace ProviderScout

namespace Policy

variable {α : Type}

theorem eligible_of_perm (p : Policy) {models other : List (Nat × Performance α)}
    (hperm : other.Perm models) (hdistinct : (models.map (·.1)).Nodup) :
    p.eligible other = p.eligible models := by
  have hother : (other.map (·.1)).Nodup := (hperm.map _).nodup_iff.2 hdistinct
  have heligible : (p.eligible other).Perm (p.eligible models) := by
    have hfilter := hperm.filter p.isEligible
    exact (List.mergeSort_perm _ _).trans (hfilter.trans (List.mergeSort_perm _ _).symm)
  apply heligible.eq_of_pairwise _ (p.eligible_ascending hother) (p.eligible_ascending hdistinct)
  intro a b _ _ hab hba
  exact absurd hba (Nat.lt_asymm hab)

variable [Quantity α]

theorem ranking_of_perm (p : Policy) {models other : List (Nat × Performance α)}
    (hperm : other.Perm models) (hdistinct : (models.map (·.1)).Nodup)
    (benchmarks : BenchmarkCache α) :
    p.ranking other benchmarks = p.ranking models benchmarks := by
  rw [ranking, ranking, scored, scored, p.eligible_of_perm hperm hdistinct]

end Policy

namespace Engine

theorem ranking_of_perm_performances (e : Engine) (job : String) (total : Nat)
    {models : List (Nat × Performance Float)} (h : models.Perm (e.performances job)) :
    (e.policy total).ranking models e.benchmarks = e.ranking job total := by
  rw [ranking_eq]
  exact (e.policy total).ranking_of_perm h (e.providers_nodup job) e.benchmarks

end Engine

end ProviderScout
