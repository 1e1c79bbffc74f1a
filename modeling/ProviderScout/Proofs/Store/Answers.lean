import ProviderScout.Proofs.Store.Transactions

namespace ProviderScout

namespace Database

/-- What calls about rows leave as it is. -/
def frame (d : Database) : Bool × Bool × Option BenchmarkTable :=
  (d.isOpen, d.schema.stats.isSome, d.schema.benchmarks)

def holdsRows (d : Database) : Bool := d.isOpen && d.schema.stats.isSome

theorem isOk_statsTable (d : Database) : d.statsTable.isOk = d.holdsRows := by
  obtain ⟨⟨_ | _, _, _, _, _⟩, _ | _⟩ := d <;> rfl

theorem frame_withStats {d : Database} {t : StatsTable} (h : d.statsTable = .ok t)
    (t' : StatsTable) : (d.withStats t').frame = d.frame := by
  have hholds := d.isOk_statsTable
  rw [h] at hholds
  have hsome : d.schema.stats.isSome = true := (Bool.and_eq_true_iff.1 hholds.symm).2
  rw [frame, frame, hsome]
  rfl

theorem frame_upsertRows (rows : List StatsRow) (d : Database) :
    (d.upsertRows rows).2.frame = d.frame := by
  rw [upsertRows]
  split
  · rfl
  · split
    · rfl
    · exact frame_withStats ‹_› _

theorem frame_deleteRows (job : Option String) (d : Database) :
    (d.deleteRows job).2.frame = d.frame := by
  rw [deleteRows]
  split
  · rfl
  · exact frame_withStats ‹_› _

theorem isOk_loadRows (d : Database) : d.loadRows.isOk = d.holdsRows := by
  rw [← isOk_statsTable, loadRows]
  cases d.statsTable <;> rfl

theorem isOk_upsertRows {rows : List StatsRow} (h : rows ≠ []) (d : Database) :
    (d.upsertRows rows).1.isOk = d.holdsRows := by
  rw [← isOk_statsTable, upsertRows, if_neg fun he => h (List.isEmpty_iff.1 he)]
  cases d.statsTable <;> rfl

theorem isOk_deleteRows (job : Option String) (d : Database) :
    (d.deleteRows job).1.isOk = d.holdsRows := by
  rw [← isOk_statsTable, deleteRows]
  cases d.statsTable <;> rfl

end Database

namespace Remote

def answers (s : Remote Database) : Bool := s.reached.headD true && s.store.holdsRows

section Call

variable {σ α : Type}

theorem isOk_call (f : σ → Except Error α × σ) (s : Remote σ) :
    (s.call f).1.isOk = (s.reached.headD true && (f s.store).1.isOk) := by
  obtain ⟨store, _ | ⟨_ | _, _⟩⟩ := s <;> rfl

theorem reached_call (f : σ → Except Error α × σ) (s : Remote σ) :
    (s.call f).2.reached = s.reached.tail := by
  obtain ⟨store, _ | ⟨_ | _, _⟩⟩ := s <;> rfl

end Call

theorem frame_call {α : Type} {f : Database → Except Error α × Database}
    (hf : ∀ d, (f d).2.frame = d.frame) (s : Remote Database) :
    (s.call f).2.store.frame = s.store.frame := by
  rcases s.call_cases f with ⟨_, h⟩ | ⟨_, h⟩
  · rw [h]
  · rw [h]
    exact hf s.store

theorem isOk_loadRows (s : Remote Database) : (ModelStore.loadRows s).1.isOk = s.answers :=
  (isOk_call ModelStore.loadRows s).trans (congrArg _ s.store.isOk_loadRows)

theorem isOk_upsertRows {rows : List StatsRow} (h : rows ≠ []) (s : Remote Database) :
    (ModelStore.upsertRows rows s).1.isOk = s.answers :=
  (isOk_call (ModelStore.upsertRows rows) s).trans (congrArg _ (Database.isOk_upsertRows h s.store))

theorem isOk_deleteRows (job : Option String) (s : Remote Database) :
    (ModelStore.deleteRows job s).1.isOk = s.answers :=
  (isOk_call (ModelStore.deleteRows job) s).trans (congrArg _ (s.store.isOk_deleteRows job))

theorem isOk_latestSpeeds (now : Instant) (s : Remote Database) :
    (ModelStore.latestSpeeds now s).1.isOk =
      (s.reached.headD true && (s.store.frame.1 && s.store.frame.2.2.isSome)) := by
  have hread : (s.store.latestSpeeds now).isOk = (s.store.frame.1 && s.store.frame.2.2.isSome) := by
    obtain ⟨⟨⟨_, _, _ | _, _, _⟩, _ | _⟩, _⟩ := s <;> rfl
  exact (isOk_call (ModelStore.latestSpeeds now) s).trans (congrArg _ hread)

end Remote

end ProviderScout
