import ProviderScout.Proofs.Engine.Alike

namespace ProviderScout

/-- What is shown of a job and stored for it, apart from times. -/
structure JobView where
  reports : List PerformanceReport
  /-- The providers that fail too often, by samples and rate. -/
  lowSuccess : Nat → Float → List Nat
  /-- The providers to try out, by how many there are. -/
  unexplored : Nat → List Nat
  /-- The ranking, by how many providers there are. -/
  ranking : Nat → Option (List (Scored Float))
  /-- All outcomes of a selection, by how many providers there are. -/
  choices : Nat → UsageKind → List (Option (Option Nat))
  /-- The providers that have a model, with whether something happened since its last save. -/
  unsaved : List (Nat × Bool)
  rows : List StatsRow

def Session.view (job : String) (s : Session (Remote Database)) : JobView where
  reports := s.engine.jobReports job
  lowSuccess := s.engine.lowSuccess job
  unexplored total := (s.engine.policy total).unexplored (s.engine.performances job)
  ranking := s.engine.ranking job
  choices := s.engine.choices job
  unsaved := (s.engine.models.entries.filter fun m => m.1.job == job).map fun m =>
    (m.1.provider, m.2.dirty)
  rows := (s.table.jobRows job).map StatsRow.untimed

namespace Engine

def modelsOf (job : String) (e : Engine) : SortedMap ModelKey (Model Float) :=
  (e.models.filter fun k _ => k.job == job).map fun _ m => m.untimed

theorem modelsOf_congr {job : String} {e e' : Engine}
    (h : ∀ k : ModelKey, k.job = job →
      (e.model? k).map Model.untimed = (e'.model? k).map Model.untimed) :
    e.modelsOf job = e'.modelsOf job := by
  have hget (e : Engine) (k : ModelKey) : (e.modelsOf job).get? k =
      if k.job = job then (e.model? k).map Model.untimed else none := by
    rw [modelsOf, SortedMap.get?_map, SortedMap.get?_filter, model?]
    by_cases hk : k.job = job <;> cases e.models.get? k <;> simp [hk]
  apply SortedMap.ext_get?
  intro k
  rw [hget, hget]
  split
  · exact h k ‹_›
  · rfl

theorem performances_eq (e : Engine) (job : String) :
    e.performances job = (e.modelsOf job).entries.map fun m => (m.1.provider, m.2.performance) := by
  rw [performances, modelsOf, SortedMap.map, SortedMap.filter, List.map_map]
  rfl

theorem unsaved_eq (e : Engine) (job : String) :
    ((e.models.entries.filter fun m => m.1.job == job).map fun m => (m.1.provider, m.2.dirty)) =
      (e.modelsOf job).entries.map fun m => (m.1.provider, m.2.dirty) := by
  rw [modelsOf, SortedMap.map, SortedMap.filter, List.map_map]
  rfl

end Engine

namespace StatsTable

def rowsOf (job : String) (t : StatsTable) : SortedMap StatsKey StatsRow :=
  (t.rows.filter fun _ r => r.job == job).map fun _ r => r.untimed

theorem rowsOf_congr {job : String} {t t' : StatsTable}
    (h : ∀ key : StatsKey, key.job = job →
      (t.get? key).map StatsRow.untimed = (t'.get? key).map StatsRow.untimed) :
    t.rowsOf job = t'.rowsOf job := by
  have hget (t : StatsTable) (key : StatsKey) : (t.rowsOf job).get? key =
      if key.job = job then (t.get? key).map StatsRow.untimed else none := by
    rw [rowsOf, SortedMap.get?_map, SortedMap.get?_filter, ← get?]
    cases hr : t.get? key with
    | none => simp
    | some r =>
      have hjob : r.job = key.job := congrArg StatsKey.job (key_of_get? hr)
      by_cases hk : key.job = job <;> simp [Option.filter, hjob, hk]
  apply SortedMap.ext_get?
  intro key
  rw [hget, hget]
  split
  · exact h key ‹_›
  · rfl

theorem jobRows_eq (t : StatsTable) (job : String) :
    (t.jobRows job).map StatsRow.untimed = (t.rowsOf job).values := by
  rw [jobRows, rowsOf, SortedMap.map, SortedMap.filter, SortedMap.values, SortedMap.values,
    List.map_map, List.filter_map, List.map_map]
  rfl

theorem get?_eq_rowOf? (t : StatsTable) {key : StatsKey} (h : ¬ key.provider < 0) :
    t.get? key = t.rowOf? ⟨key.job, key.provider.toInt.toNat⟩ := by
  have hfits : ModelKey.Fits ⟨key.job, key.provider.toInt.toNat⟩ := Counter.ofColumn_le key.provider
  have hprovider : Column.ofCounter key.provider.toInt.toNat = key.provider := by
    have hzero : (0 : Column).toInt = 0 := rfl
    rw [Int64.lt_iff_toInt_lt, hzero] at h
    rw [← Int64.toInt_inj, Column.toInt_ofCounter, Nat.min_eq_left hfits,
      Int.toNat_of_nonneg (Int.not_lt.1 h)]
  rw [rowOf?_eq t hfits, ModelKey.stored, hprovider]

end StatsTable

namespace Session

theorem Alike.view {job : String} {s t : Session (Remote Database)} (h : s.Alike job t) :
    s.view job = t.view job := by
  have hmodels : s.engine.modelsOf job = t.engine.modelsOf job :=
    Engine.modelsOf_congr fun k hk => congrArg Cell.model (h.cell k hk)
  have hperformances : s.engine.performances job = t.engine.performances job := by
    rw [Engine.performances_eq, Engine.performances_eq, hmodels]
  have hrows : s.table.rowsOf job = t.table.rowsOf job := by
    apply StatsTable.rowsOf_congr
    intro key hkey
    by_cases hneg : key.provider < 0
    · rw [h.row key hkey hneg]
    · rw [StatsTable.get?_eq_rowOf? _ hneg, StatsTable.get?_eq_rowOf? _ hneg]
      exact congrArg Cell.row (h.cell ⟨key.job, _⟩ hkey)
  have hpolicy (total : Nat) : s.engine.policy total = t.engine.policy total := by
    rw [Engine.policy, Engine.policy, h.config, h.roles]
  have hlow : s.engine.lowSuccess job = t.engine.lowSuccess job := by
    funext minSamples threshold
    rw [Engine.lowSuccess, Engine.lowSuccess, hperformances]
  have hranking : s.engine.ranking job = t.engine.ranking job := by
    funext total
    simp only [Engine.ranking, hperformances, hpolicy, Policy.ranking_congr h.rates]
  have hactive : s.engine.isActive job = t.engine.isActive job := by
    rw [Engine.isActive, Engine.isActive, h.config]
  have hchoices : s.engine.choices job = t.engine.choices job := by
    funext total kind
    rw [Engine.choices, Engine.choices, hactive, hperformances, hpolicy,
      Policy.choices_congr h.rates]
  rw [Session.view, Session.view, Engine.unsaved_eq, Engine.unsaved_eq, StatsTable.jobRows_eq,
    StatsTable.jobRows_eq, hmodels, hrows, hlow, hranking, hchoices]
  simp only [Engine.jobReports, hperformances, hpolicy]

end Session

/-- An operation with the fates of the calls that it makes to the storage. -/
structure Task where
  op : Operation
  reached : List Bool

namespace Task

def untimed (task : Task) : Task := ⟨task.op.untimed, task.reached⟩

def concerns (job : String) (task : Task) : Bool := task.op.concerns job

end Task

namespace Session

/-- Does an operation while its calls have the fates that are foretold. -/
def attempt (s : Session (Remote Database)) (task : Task) : Session (Remote Database) :=
  (step task.op ⟨s.engine, ⟨s.store.store, task.reached⟩⟩).2

def attempts (s : Session (Remote Database)) (tasks : List Task) : Session (Remote Database) :=
  tasks.foldl attempt s

theorem fits_attempt {s : Session (Remote Database)} (hs : s.engine.Fits) {task : Task}
    (htask : task.op.Fits) : (s.attempt task).engine.Fits :=
  let foretold : Session (Remote Database) := ⟨s.engine, ⟨s.store.store, task.reached⟩⟩
  have hforetold : foretold.engine.Fits := hs
  fits_step hforetold htask

namespace Alike

variable {job : String} {s t : Session (Remote Database)}

theorem foretell (h : s.Alike job t) (reached reached' : List Bool) :
    (⟨s.engine, ⟨s.store.store, reached⟩⟩ : Session (Remote Database)).Alike job
      ⟨t.engine, ⟨t.store.store, reached'⟩⟩ :=
  ⟨h.config, h.roles, h.rates, h.frame, h.cell, h.row⟩

theorem attempts (h : s.Alike job t) (hs : s.engine.Fits) (ht : t.engine.Fits)
    {tasks tasks' : List Task} (htasks : ∀ task ∈ tasks, task.op.Fits)
    (hsame : tasks'.map Task.untimed = (tasks.filter (Task.concerns job)).map Task.untimed) :
    (s.attempts tasks').Alike job (t.attempts tasks) := by
  induction tasks generalizing s t tasks' with
  | nil =>
    cases List.map_eq_nil_iff.1 hsame
    exact h
  | cons task rest ih =>
    have htask : task.op.Fits := htasks task List.mem_cons_self
    have hrest : ∀ task ∈ rest, task.op.Fits := fun task hmem =>
      htasks task (List.mem_cons_of_mem _ hmem)
    have htstep : (t.attempt task).engine.Fits := fits_attempt ht htask
    cases hconcerns : task.concerns job with
    | true =>
      rw [List.filter_cons_of_pos hconcerns, List.map_cons] at hsame
      cases tasks' with
      | nil => cases hsame
      | cons task' rest' =>
        rw [List.map_cons, List.cons.injEq] at hsame
        obtain ⟨htimeless, hsame⟩ := hsame
        have hop : task'.op.untimed = task.op.untimed := congrArg Task.op htimeless
        have hreached : task'.untimed.reached = task.untimed.reached :=
          congrArg Task.reached htimeless
        have hstep : (s.attempt task').Alike job (t.attempt task) :=
          (h.foretell task'.reached task.reached).step hs ht hreached hop
        exact ih hstep (fits_attempt hs (Operation.fits_of_untimed hop htask)) htstep hrest hsame
    | false =>
      rw [List.filter_cons_of_neg (by rw [hconcerns]; exact Bool.false_ne_true)] at hsame
      have hstep : t.Alike job (t.attempt task) :=
        ((step_other hconcerns _).trans ((refl job t).foretell task.reached t.store.reached)).symm
      exact ih (h.trans hstep) hs htstep hrest hsame

end Alike

/-- What is shown of a job after a run is what is shown without the operations on other jobs,
whatever the times at which the others are done. -/
theorem view_attempts (config : AffinityConfig) (roles : List Role) (d : Database) (job : String)
    {tasks tasks' : List Task} (htasks : ∀ task ∈ tasks, task.op.Fits)
    (hsame : tasks'.map Task.untimed = (tasks.filter (Task.concerns job)).map Task.untimed) :
    let first := start config roles (⟨d, []⟩ : Remote Database)
    (first.attempts tasks').view job = (first.attempts tasks).view job := by
  intro first
  have hfits : first.engine.Fits := (start_balanced config roles (⟨d, []⟩ : Remote Database)).fits
  exact ((Alike.refl job first).attempts hfits hfits htasks hsame).view

/-- A save that fails for what was counted of one job is no save without that job. -/
theorem view_attempts_of_failed_save :
    let stored : StatsTable :=
      ((∅ : StatsTable).upsert ⟨"a", 0, 20, 5, 1000, 100, 10, 1600000000⟩).upsert
        ⟨"b", 1, 7, 1, 700, 70, 10, 1600000000⟩
    let d : Database := ⟨{ Schema.empty with stats := some stored }, true⟩
    let first := start .standard [] (⟨d, []⟩ : Remote Database)
    let tasks : List Task := [⟨.load, [true]⟩, ⟨.failure ⟨"b", 1⟩, []⟩, ⟨.flush ⟨5, 0⟩, [true]⟩,
      ⟨.failure ⟨"a", 0⟩, []⟩, ⟨.flush ⟨6, 0⟩, [false]⟩, ⟨.reset (some "a"), [true]⟩,
      ⟨.flush ⟨7, 0⟩, [false]⟩]
    let tasks' : List Task := [⟨.load, [true]⟩, ⟨.failure ⟨"b", 1⟩, []⟩, ⟨.flush ⟨50, 0⟩, [true]⟩,
      ⟨.flush ⟨60, 0⟩, [false]⟩, ⟨.flush ⟨70, 0⟩, [false]⟩]
    ((∀ task ∈ tasks, task.op.Fits) ∧
        tasks'.map Task.untimed = (tasks.filter (Task.concerns "b")).map Task.untimed) ∧
      (first.attempts tasks').view "b" = (first.attempts tasks).view "b" ∧
      ((first.attempts tasks).view "b").unsaved = [(1, false)] ∧
      ((first.attempts tasks).view "b").rows.map (fun r => (r.provider, r.successes, r.failures)) =
        [(1, 7, 2)] := by
  intro stored d first tasks tasks'
  have htasks : ∀ task ∈ tasks, task.op.Fits := by decide
  have hsame : tasks'.map Task.untimed = (tasks.filter (Task.concerns "b")).map Task.untimed := rfl
  refine ⟨⟨htasks, hsame⟩, view_attempts .standard [] d "b" htasks hsame, ?_, ?_⟩
  · decide +kernel
  · decide +kernel

end Session

end ProviderScout
