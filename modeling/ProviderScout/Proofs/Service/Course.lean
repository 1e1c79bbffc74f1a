import ProviderScout.Proofs.Engine.InFlight
import ProviderScout.Proofs.Engine.Unsaved
import ProviderScout.Proofs.Store.Whole
import ProviderScout.Proofs.Usage.Delivery

/-!
All that can happen in a service after its start, in any order: what is done with its engine, what
is reported and what its consumer and its other tasks do. The engine keeps its accounts, and each
event that was accepted is stored, is lost with its batch or is still pending: main statement
`Course.Sound.run`.

An operation on the engine is done at once here. Outcomes that are counted while a save is in
progress are the subject of `Shared`.
-/

namespace ProviderScout

namespace Session

variable {σ : Type} [ModelStore σ] [EventStore σ] [LawfulServiceStore σ]

open LawfulEventStore LawfulServiceStore

theorem events_load (e : Engine) (s : σ) : events (e.load s).2.2 = events s := by
  have hload := events_loadRows s
  rw [Engine.load]
  split
  · rfl
  · split <;> rename_i hs <;> rw [hs] at hload <;> exact hload

theorem events_flush (now : Instant) (e : Engine) (s : σ) :
    events (e.flush now s).2.2 = events s := by
  have hupsert := events_upsertRows ((e.collect now).1.map (·.2)) s
  rw [Engine.flush]
  split
  · rfl
  · simp only
    split
    · rfl
    · split <;> rename_i hs <;> rw [hs] at hupsert <;> exact hupsert

theorem events_step (op : Operation) (s : Session σ) :
    events (s.step op).2.store = events s.store := by
  cases op with
  | load => exact events_load s.engine s.store
  | flush now => exact events_flush now s.engine s.store
  | persist now =>
    simp only [step, apply, ofCall, Engine.persist_eq]
    split
    · exact (events_flush now _ _).trans (events_load s.engine s.store)
    · exact events_load s.engine s.store
  | reset job =>
    have hdelete := events_deleteRows job s.store
    simp only [step, apply, ofCall, Engine.reset]
    split <;> rename_i hs <;> rw [hs] at hdelete <;> exact hdelete
  | refresh now =>
    have hspeeds := events_latestSpeeds now s.store
    simp only [step, apply, ofCall, Engine.refreshBenchmarks]
    split <;> rename_i hs <;> rw [hs] at hspeeds <;> exact hspeeds
  | _ => rfl

end Session

theorem Session.Balanced.of_table {σ : Type} [ModelStore σ] [LawfulModelStore σ]
    {first s t : Session σ} {done : List Event} (h : first.Balanced done s)
    (hengine : t.engine = s.engine) (htable : t.table = s.table) : first.Balanced done t where
  fits := hengine ▸ h.fits
  config := hengine ▸ h.config
  cell key := by
    have hcell : t.cell key = s.cell key := by rw [Session.cell, Session.cell, hengine, htable]
    exact hcell ▸ h.cell key

theorem Aggregator.store_refreshWindows {σ : Type} [ModelStore σ] [EventStore σ]
    [LawfulServiceStore σ] (now : Instant) (windows : List Int64)
    (cache : SortedMap Int64 StatsBucket) (done : Nat) (s : σ) :
    let t := (refreshWindows now windows cache done s).2
    LawfulModelStore.table t = LawfulModelStore.table s ∧
      LawfulEventStore.events t = LawfulEventStore.events s := by
  induction windows generalizing cache done s with
  | nil => exact ⟨rfl, rfl⟩
  | cons hours rest ih =>
    rw [refreshWindows]
    split
    · exact ⟨rfl, rfl⟩
    · rename_i since _
      have htable := LawfulServiceStore.table_countsSince since s
      have hevents := LawfulServiceStore.events_countsSince since s
      rw [compute]
      generalize EventStore.countsSince since s = answer at htable hevents
      obtain ⟨err | counts, store⟩ := answer
      · obtain ⟨ht, he⟩ := ih cache done store
        exact ⟨ht.trans htable, he.trans hevents⟩
      · obtain ⟨ht, he⟩ := ih (cache.insert hours (.ofCounts counts hours now)) (done + 1) store
        exact ⟨ht.trans htable, he.trans hevents⟩

theorem Aggregator.store_refresh {σ : Type} [ModelStore σ] [EventStore σ] [LawfulServiceStore σ]
    (a : Aggregator) (now : Instant) (s : σ) :
    LawfulModelStore.table (a.refresh now s).2 = LawfulModelStore.table s ∧
      LawfulEventStore.events (a.refresh now s).2 = LawfulEventStore.events s :=
  store_refreshWindows now a.windows a.cache 0 s

namespace Service

variable {σ : Type} [EventStore σ]

theorem refreshStatistics_eq (now : Instant) (s : Service σ) :
    (s.refreshStatistics now).2.engine = s.engine ∧
      (s.refreshStatistics now).2.pipeline = s.pipeline ∧
      (s.refreshStatistics now).2.batching = s.batching := by
  rw [refreshStatistics]
  split <;> exact ⟨rfl, rfl, rfl⟩

theorem store_refreshStatistics [ModelStore σ] [LawfulServiceStore σ] (now : Instant)
    (s : Service σ) :
    LawfulModelStore.table (s.refreshStatistics now).2.store = LawfulModelStore.table s.store ∧
      LawfulEventStore.events (s.refreshStatistics now).2.store =
        LawfulEventStore.events s.store := by
  have hstore : (s.refreshStatistics now).2.store = (s.aggregator.refresh now s.store).2 := by
    rw [refreshStatistics]
    split <;> rename_i hrefresh <;> rw [hrefresh]
  rw [hstore]
  exact s.aggregator.store_refresh now s.store

end Service

namespace Service

def fresh {σ : Type} (config : Config) (aggregator : Aggregator) (store : σ) : Service σ :=
  ⟨config, store, .start config.affinity config.roles, .start, aggregator⟩

theorem fresh_of_start {σ : Type} [ModelStore σ] [EventStore σ] [LawfulServiceStore σ]
    {config : Config} {now : Instant} {store : σ} {s : Service σ}
    (h : start config now store = .ok s) :
    ∃ aggregator store', s = fresh config aggregator store' ∧
      LawfulModelStore.table store' = LawfulModelStore.table store ∧
      LawfulEventStore.events store' = LawfulEventStore.events store := by
  have hstore := (Aggregator.ofWindows config.stats.windowsHours).store_refresh now store
  rw [start] at h
  split at h
  · cases h
  · split at h
    · cases h
    · rename_i aggregator store' hrefresh
      cases h
      rw [hrefresh] at hstore
      exact ⟨aggregator, store', rfl, hstore⟩

/-- What can happen in a service. -/
inductive Activity where
  /-- Something is done with the engine. -/
  | operate (op : Operation)
  | track (e : UsageEvent)
  /-- The queue or its consumer goes on. -/
  | proceed (a : Action)
  /-- The windows are counted anew. -/
  | count (now : Instant)

namespace Activity

def Fits : Activity → Prop
  | .operate op => op.Fits
  | _ => True

instance (a : Activity) : Decidable a.Fits :=
  match a with
  | .operate op => inferInstanceAs (Decidable op.Fits)
  | .track _ | .proceed _ | .count _ => .isTrue trivial

/-- Whether models are forgotten in memory alone. -/
def clears : Activity → Bool
  | .operate (.clearJob _) | .operate .clearAll => true
  | _ => false

def records : Activity → Bool
  | .operate op => op.records
  | _ => false

/-- Whether a service does it by itself. -/
def isBackground : Activity → Bool
  | .operate op => op.isBackground
  | .track _ | .proceed (.send _) => false
  | .proceed _ | .count _ => true

variable {a : Activity}

theorem fits_of_isBackground (h : a.isBackground = true) : a.Fits := by
  cases a with
  | operate op =>
    cases op with
    | success | failure => cases h
    | _ => trivial
  | _ => trivial

theorem clears_of_isBackground (h : a.isBackground = true) : a.clears = false := by
  cases a with
  | operate op =>
    cases op with
    | clearJob | clearAll => cases h
    | _ => rfl
  | _ => rfl

theorem records_of_isBackground (h : a.isBackground = true) : a.records = false := by
  cases a with
  | operate op =>
    cases op with
    | success | failure => cases h
    | _ => rfl
  | _ => rfl

end Activity

def session {σ : Type} (s : Service σ) : Session σ := ⟨s.engine, s.store⟩

end Service

/-- A service with all that happened in it. -/
structure Course (σ : Type) where
  service : Service σ
  done : List Event
  accepted : List UsageEvent
  /-- The batches that were handed over, and whether each was stored. -/
  batches : List (List UsageEvent × Bool)

namespace Course

variable {σ : Type} [EventStore σ]

open Service (Activity)

def start (s : Service σ) : Course σ := ⟨s, [], [], []⟩

/-- Hands a batch over to the storage, unless it is empty. -/
def handOver (batch : List UsageEvent) (c : Course σ) : Course σ :=
  if batch.isEmpty then c
  else
    let r := EventStore.insertEvents batch c.service.store
    { c with
      service := { c.service with store := r.2 }
      batches := c.batches ++ [(batch, r.1.isOk)] }

/-- An action that is not possible changes nothing. -/
def proceed (a : Action) (c : Course σ) : Course σ :=
  match c.service.pipeline.step c.service.batching a with
  | none => c
  | some (pipeline, batch) =>
    handOver batch
      { c with
        service := { c.service with pipeline := pipeline }
        accepted := c.accepted ++ c.service.pipeline.accepts a }

theorem service_handOver (batch : List UsageEvent) (c : Course σ) :
    (c.handOver batch).service =
      { c.service with
        store :=
          Service.storeBatches (if batch.isEmpty then [] else [batch]) c.service.store } := by
  rw [handOver]
  split <;> rfl

theorem pipeline_proceed (a : Action) (c : Course σ) :
    (c.proceed a).service.batching = c.service.batching ∧
      (c.proceed a).service.pipeline = (c.service.pipeline.run c.service.batching [a]).1 := by
  rw [proceed, Pipeline.run]
  cases c.service.pipeline.step c.service.batching a with
  | none => exact ⟨rfl, rfl⟩
  | some next =>
    simp only [service_handOver]
    exact ⟨rfl, rfl⟩

variable [ModelStore σ]

def operate (op : Operation) (c : Course σ) : Course σ :=
  let r := c.service.session.step op
  { c with
    service := { c.service with engine := r.2.engine, store := r.2.store }
    done := c.done ++ [r.1] }

def step (a : Activity) (c : Course σ) : Course σ :=
  match a with
  | .operate op => c.operate op
  | .track e => if c.service.config.usage.enabled then c.proceed (.send e) else c
  | .proceed a => c.proceed a
  | .count now => { c with service := (c.service.refreshStatistics now).2 }

def run (c : Course σ) (activities : List Activity) : Course σ :=
  activities.foldl (fun c a => c.step a) c

theorem run_append (c : Course σ) (first second : List Activity) :
    c.run (first ++ second) = (c.run first).run second := List.foldl_append

/-- The consumer goes on as in a pipeline of its own. -/
theorem service_run_proceed (actions : List Action) (c : Course σ) :
    (c.run (actions.map .proceed)).service =
      c.service.withBatches (c.service.pipeline.run c.service.batching actions) := by
  induction actions generalizing c with
  | nil => rfl
  | cons a rest ih =>
    change ((c.proceed a).run (rest.map .proceed)).service = _
    rw [ih, proceed, Pipeline.run]
    cases c.service.pipeline.step c.service.batching a with
    | none => rfl
    | some next =>
      obtain ⟨pipeline, batch⟩ := next
      simp only [service_handOver, Service.withBatches, Service.batching]
      split <;> rfl

/-- As long as nothing is handed over only the pipeline changes. -/
theorem run_proceed_of_nil {actions : List Action} {c : Course σ}
    (h : (c.service.pipeline.run c.service.batching actions).2 = []) :
    c.run (actions.map .proceed) =
      { c with
        service :=
          { c.service with pipeline := (c.service.pipeline.run c.service.batching actions).1 }
        accepted := c.accepted ++ c.service.pipeline.accepted c.service.batching actions } := by
  induction actions generalizing c with
  | nil => simp only [List.map_nil, run, List.foldl_nil, Pipeline.run, Pipeline.accepted,
      List.append_nil]
  | cons a rest ih =>
    change (c.proceed a).run (rest.map .proceed) = _
    rw [Pipeline.run] at h ⊢
    rw [proceed, Pipeline.accepted]
    cases hstep : c.service.pipeline.step c.service.batching a with
    | none =>
      rw [hstep] at h
      exact ih h
    | some next =>
      obtain ⟨pipeline, batch⟩ := next
      rw [hstep] at h
      cases batch with
      | nil =>
        simp only [handOver, List.isEmpty_nil, if_true] at h ⊢
        rw [ih h, List.append_assoc]
        rfl
      | cons e others => cases h

theorem exists_step_pipeline (a : Activity) (c : Course σ) :
    (c.step a).service.batching = c.service.batching ∧
      ∃ actions, (c.step a).service.pipeline =
        (c.service.pipeline.run c.service.batching actions).1 := by
  cases a with
  | operate op => exact ⟨rfl, [], rfl⟩
  | track e =>
    rw [step]
    split
    · obtain ⟨hsame, hpipeline⟩ := c.pipeline_proceed (.send e)
      exact ⟨hsame, [.send e], hpipeline⟩
    · exact ⟨rfl, [], rfl⟩
  | proceed a =>
    obtain ⟨hsame, hpipeline⟩ := c.pipeline_proceed a
    exact ⟨hsame, [a], hpipeline⟩
  | count now =>
    obtain ⟨_, hpipeline, hsame⟩ := c.service.refreshStatistics_eq now
    exact ⟨hsame, [], hpipeline⟩

/-- All that happens in a service is one course of its pipeline. -/
theorem exists_run_pipeline (activities : List Activity) (c : Course σ) :
    (c.run activities).service.batching = c.service.batching ∧
      ∃ actions, (c.run activities).service.pipeline =
        (c.service.pipeline.run c.service.batching actions).1 := by
  induction activities generalizing c with
  | nil => exact ⟨rfl, [], rfl⟩
  | cons a rest ih =>
    obtain ⟨hbatching, actions, hlast⟩ := ih (c.step a)
    obtain ⟨hsame, first, hfirst⟩ := c.exists_step_pipeline a
    refine ⟨hbatching.trans hsame, first ++ actions, ?_⟩
    rw [Pipeline.run_append, ← hfirst, ← hsame]
    exact hlast

open LawfulEventStore LawfulServiceStore

variable [LawfulServiceStore σ]

/-- The engine keeps its accounts, and each event that was accepted is stored, was lost with its
batch or is pending. -/
structure Sound (first : Session σ) (c : Course σ) : Prop where
  balanced : first.Balanced c.done c.service.session
  pipeline : c.service.pipeline.Sound c.service.batching
  order : c.service.pipeline.stage ≠ .failed →
    (c.batches.map (·.1)).flatten ++ c.service.pipeline.pending = c.accepted
  stored : events c.service.store =
    events first.store ++ ((c.batches.filter (·.2)).map (·.1)).flatten.map .ofEvent
  ids : ((events c.service.store).map StoredEvent.id).Nodup
  nonneg : ∀ key r, (c.service.session.cell key).row = some r → r.IsNonneg

theorem start_sound (config : Config) (aggregator : Aggregator) {store : σ}
    (hrows : ∀ key r, (LawfulModelStore.table store).rowOf? key = some r → r.IsNonneg)
    (hids : ((events store).map StoredEvent.id).Nodup) :
    (start (.fresh config aggregator store)).Sound (.start config.affinity config.roles store) where
  balanced := Session.start_balanced ..
  pipeline := Pipeline.start_sound _
  order _ := rfl
  stored := (List.append_nil _).symm
  ids := hids
  nonneg := hrows

namespace Sound

variable {first : Session σ} {c : Course σ}

theorem operate (h : c.Sound first) {op : Operation} (hop : op.Fits) :
    (c.operate op).Sound first := by
  have hevents := c.service.session.events_step op
  refine ⟨h.balanced.step hop, h.pipeline, h.order, hevents.trans h.stored, ?_, ?_⟩
  · rw [Course.operate, hevents]
    exact h.ids
  · intro key
    obtain ⟨stray, hcell⟩ := h.balanced.cell_step op key
    have hload := congrArg Cell.loaded hcell
    change ∀ r, ((c.service.session.step op).2.cell key).row = some r → r.IsNonneg
    rw [hcell]
    exact (h.balanced.cell key).nonneg_next hload.symm (h.nonneg key)

theorem handOver (h : c.Sound first) {pipeline : Pipeline} {batch : List UsageEvent} {a : Action}
    (hstep : c.service.pipeline.step c.service.batching a = some (pipeline, batch)) :
    (Course.handOver batch
      { c with
        service := { c.service with pipeline := pipeline }
        accepted := c.accepted ++ c.service.pipeline.accepts a }).Sound first := by
  have hdelivers := h.pipeline.step hstep
  have horder (hlive : pipeline.stage ≠ .failed) :
      (c.batches.map (·.1)).flatten ++ (batch ++ pipeline.pending) =
        c.accepted ++ c.service.pipeline.accepts a := by
    have hbefore : c.service.pipeline.stage ≠ .failed := fun hfailed =>
      hlive ((Pipeline.step_of_ended (congrArg Stage.hasEnded hfailed) hstep).1.trans hfailed)
    rcases hdelivers.order with hsame | ⟨hfailed, _⟩
    · rw [hsame, ← List.append_assoc, h.order hbefore]
    · exact absurd hfailed hlive
  rw [Course.handOver]
  split
  · rename_i hempty
    rw [List.isEmpty_iff.1 hempty] at horder
    exact ⟨h.balanced.of_table rfl rfl, hdelivers.sound, horder, h.stored, h.ids, h.nonneg⟩
  · have htable := table_insertEvents batch c.service.store
    refine ⟨h.balanced.of_table rfl htable, hdelivers.sound, ?_, ?_,
      nodup_insertEvents batch _ h.ids, ?_⟩
    · intro hlive
      rw [List.map_append, List.flatten_append, List.append_assoc]
      simpa using horder hlive
    · dsimp only
      cases hinsert : (EventStore.insertEvents batch c.service.store).1 with
      | ok u =>
        rw [events_insert hinsert, h.stored, List.filter_append]
        have hkept : [(batch, (Except.ok u : Except Error Unit).isOk)].filter (·.2) =
            [(batch, true)] := rfl
        rw [hkept, List.map_append, List.flatten_append, List.map_append, List.append_assoc]
        simp
      | error err =>
        rw [events_insert_error hinsert, h.stored, List.filter_append]
        have hlost : [(batch, (Except.error err : Except Error Unit).isOk)].filter (·.2) = [] := rfl
        rw [hlost, List.append_nil]
    · intro key r hr
      apply h.nonneg key r
      rw [← hr]
      exact congrArg (fun t => t.rowOf? key) htable.symm

theorem proceed (h : c.Sound first) (a : Action) : (c.proceed a).Sound first := by
  rw [Course.proceed]
  cases hstep : c.service.pipeline.step c.service.batching a with
  | none => exact h
  | some next => exact h.handOver hstep

theorem count (h : c.Sound first) (now : Instant) :
    ({ c with service := (c.service.refreshStatistics now).2 } : Course σ).Sound first := by
  obtain ⟨htable, hevents⟩ := c.service.store_refreshStatistics now
  obtain ⟨hengine, hpipeline, hbatching⟩ := c.service.refreshStatistics_eq now
  refine ⟨h.balanced.of_table hengine htable, ?_, ?_, hevents.trans h.stored, ?_, ?_⟩
  · rw [hpipeline, hbatching]
    exact h.pipeline
  · rw [hpipeline]
    exact h.order
  · rw [hevents]
    exact h.ids
  · intro key r hr
    apply h.nonneg key r
    rw [← hr]
    exact congrArg (fun t => t.rowOf? key) htable.symm

theorem step (h : c.Sound first) {a : Activity} (ha : a.Fits) : (c.step a).Sound first := by
  cases a with
  | operate op => exact h.operate ha
  | track e =>
    rw [Course.step]
    split
    · exact h.proceed (.send e)
    · exact h
  | proceed a => exact h.proceed a
  | count now => exact h.count now

theorem run (h : c.Sound first) {activities : List Activity}
    (hfits : ∀ a ∈ activities, a.Fits) : (c.run activities).Sound first :=
  List.foldlRecOn (motive := Sound first) activities _ h fun _ hc a ha => hc.step (hfits a ha)

end Sound

end Course

end ProviderScout
