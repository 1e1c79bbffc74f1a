import ProviderScout.Proofs.Store.Contract
import ProviderScout.Store.Memory

namespace ProviderScout

/-- A storage whose failed calls change nothing. -/
class AtomicModelStore (σ : Type) [ModelStore σ] extends LawfulModelStore σ where
  table_of_refused {rows : List StatsRow} {s : σ} {err : Error} :
    (ModelStore.upsertRows rows s).1 = .error err →
      table (ModelStore.upsertRows rows s).2 = table s

instance : AtomicModelStore Database where
  table_of_refused := Database.stored_of_upsertRows_error

/-- A storage that cannot be reached at times: `reached` tells it of the next calls, and calls after
those get through. -/
structure Remote (σ : Type) where
  store : σ
  reached : List Bool

namespace Remote

variable {σ α : Type}

def call (f : σ → Except Error α × σ) (s : Remote σ) : Except Error α × Remote σ :=
  match s.reached with
  | false :: rest => (.error storeOffline, ⟨s.store, rest⟩)
  | reached => ((f s.store).1, ⟨(f s.store).2, reached.tail⟩)

theorem call_cases (f : σ → Except Error α × σ) (s : Remote σ) :
    ((s.call f).1 = .error storeOffline ∧ (s.call f).2.store = s.store) ∨
      ((s.call f).1 = (f s.store).1 ∧ (s.call f).2.store = (f s.store).2) := by
  obtain ⟨store, _ | ⟨_ | _, _⟩⟩ := s
  · exact .inr ⟨rfl, rfl⟩
  · exact .inl ⟨rfl, rfl⟩
  · exact .inr ⟨rfl, rfl⟩

instance [ModelStore σ] : ModelStore (Remote σ) where
  loadRows := call ModelStore.loadRows
  upsertRows rows := call (ModelStore.upsertRows rows)
  deleteRows job := call (ModelStore.deleteRows job)
  latestSpeeds now := call (ModelStore.latestSpeeds now)

variable [ModelStore σ] [AtomicModelStore σ]

open LawfulModelStore in
instance : AtomicModelStore (Remote σ) where
  table s := table s.store
  table_loadRows s := by
    rcases call_cases ModelStore.loadRows s with ⟨_, h⟩ | ⟨_, h⟩
    · exact congrArg table h
    · exact (congrArg table h).trans (table_loadRows s.store)
  perm_of_loadRows {s rows} hok := by
    rcases call_cases ModelStore.loadRows s with ⟨h, _⟩ | ⟨h, _⟩
    · cases h.symm.trans hok
    · exact perm_of_loadRows (h.symm.trans hok)
  table_upsertRows {rows s} hok := by
    rcases call_cases (ModelStore.upsertRows rows) s with ⟨h, _⟩ | ⟨h, hs⟩
    · cases h.symm.trans hok
    · exact (congrArg table hs).trans (table_upsertRows (h.symm.trans hok))
  table_upsertRows_error {rows s err} herr := by
    rcases call_cases (ModelStore.upsertRows rows) s with ⟨_, hs⟩ | ⟨h, hs⟩
    · exact ⟨[], List.nil_sublist _, congrArg table hs⟩
    · obtain ⟨part, hpart, ht⟩ := table_upsertRows_error (h.symm.trans herr)
      exact ⟨part, hpart, (congrArg table hs).trans ht⟩
  table_deleteRows {job s n} hok := by
    rcases call_cases (ModelStore.deleteRows job) s with ⟨h, _⟩ | ⟨h, hs⟩
    · cases h.symm.trans hok
    · obtain ⟨ht, hn⟩ := table_deleteRows (h.symm.trans hok)
      exact ⟨(congrArg table hs).trans ht, hn⟩
  table_deleteRows_error {job s err} herr := by
    rcases call_cases (ModelStore.deleteRows job) s with ⟨_, hs⟩ | ⟨h, hs⟩
    · exact congrArg table hs
    · exact (congrArg table hs).trans (table_deleteRows_error (h.symm.trans herr))
  table_latestSpeeds now s := by
    rcases call_cases (ModelStore.latestSpeeds now) s with ⟨_, h⟩ | ⟨_, h⟩
    · exact congrArg table h
    · exact (congrArg table h).trans (table_latestSpeeds now s.store)
  table_of_refused {rows s err} herr := by
    rcases call_cases (ModelStore.upsertRows rows) s with ⟨_, hs⟩ | ⟨h, hs⟩
    · exact congrArg table hs
    · exact (congrArg table hs).trans (AtomicModelStore.table_of_refused (h.symm.trans herr))

end Remote

end ProviderScout
