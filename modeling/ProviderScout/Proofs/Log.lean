import Mathlib.Data.List.Induction

namespace ProviderScout

/-- Whether an entry is in a log and none that decides comes after it. -/
def LastOf {α : Type} (decides : α → Prop) (entry : α) (log : List α) : Prop :=
  ∃ before later, log = before ++ entry :: later ∧ ∀ a ∈ later, ¬ decides a

theorem lastOf_snoc_iff {α : Type} {decides : α → Prop} {entry last : α} {log : List α} :
    LastOf decides entry (log ++ [last]) ↔
      last = entry ∨ ¬ decides last ∧ LastOf decides entry log := by
  constructor
  · rintro ⟨before, later, hlog, hlater⟩
    cases later using List.reverseRecOn with
    | nil =>
      obtain ⟨_, hlast⟩ := List.append_inj' hlog rfl
      exact .inl (List.singleton_inj.1 hlast)
    | append_singleton later final _ =>
      rw [← List.cons_append, ← List.append_assoc] at hlog
      obtain ⟨hlog, hlast⟩ := List.append_inj' hlog rfl
      rw [List.forall_mem_append, List.forall_mem_singleton, ← List.singleton_inj.1 hlast] at hlater
      exact .inr ⟨hlater.2, before, later, hlog, hlater.1⟩
  · rintro (rfl | ⟨hlast, before, later, rfl, hlater⟩)
    · exact ⟨log, [], rfl, nofun⟩
    · refine ⟨before, later ++ [last], by rw [List.append_assoc, List.cons_append], ?_⟩
      rw [List.forall_mem_append]
      exact ⟨hlater, List.forall_mem_singleton.2 hlast⟩

end ProviderScout
