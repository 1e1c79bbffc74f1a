import ProviderScout.Proofs.Service.Course

namespace ProviderScout

theorem Except.map_of_isOk {α : Type} {answer : Except Error α} (h : answer.isOk = true) :
    (answer.map fun _ => ()) = .ok () := by
  cases answer with
  | error err => cases h
  | ok a => rfl

namespace Course

open Service (Activity)
open LawfulModelStore LawfulEventStore

/-- The consumer alone goes on, until it has ended. -/
def draining {σ : Type} (c : Course σ) : List Activity :=
  ([Action.setUp, .heedCancel, .heedCancel] ++
    List.replicate (c.service.pipeline.queue.waiting.length + 1) Action.drain).map .proceed

theorem isBackground_draining {σ : Type} (c : Course σ) :
    ∀ a ∈ c.draining, a.isBackground = true := by
  refine List.forall_mem_map.2 (List.forall_mem_append.2 ⟨by decide, fun a ha => ?_⟩)
  rw [List.eq_of_mem_replicate ha]
  rfl

variable {σ : Type} [EventStore σ]

section Proceed

variable (a : Action) (c : Course σ)

theorem engine_proceed :
    (c.proceed a).service.engine = c.service.engine ∧ (c.proceed a).done = c.done := by
  rw [proceed]
  split
  · exact ⟨rfl, rfl⟩
  · rw [handOver]
    split <;> exact ⟨rfl, rfl⟩

theorem batches_proceed : c.batches <+: (c.proceed a).batches := by
  rw [proceed]
  split
  · exact List.prefix_rfl
  · rw [handOver]
    split
    · exact List.prefix_rfl
    · exact List.prefix_append ..

theorem table_proceed [ModelStore σ] [LawfulServiceStore σ] :
    table (c.proceed a).service.store = table c.service.store := by
  rw [proceed]
  split
  · rfl
  · rw [handOver]
    split
    · rfl
    · exact LawfulServiceStore.table_insertEvents ..

variable {a c}

theorem proceed_of_ended (h : c.service.pipeline.stage.hasEnded = true) :
    (c.proceed a).service.pipeline.stage.hasEnded = true ∧
      (c.proceed a).service.store = c.service.store := by
  rw [proceed]
  split
  · exact ⟨h, rfl⟩
  · rename_i hstep
    obtain ⟨hstage, rfl⟩ := Pipeline.step_of_ended h hstep
    exact ⟨hstage ▸ h, rfl⟩

end Proceed

/-- Whether no key was ever forgotten in memory alone. -/
def NeverCleared (c : Course σ) : Prop := ∀ ev ∈ c.done, ∀ key, ev.op.clears key = false

theorem NeverCleared.proceed {c : Course σ} (h : c.NeverCleared) (a : Action) :
    (c.proceed a).NeverCleared := by
  rw [NeverCleared, (c.engine_proceed a).2]
  exact h

/-- The consumer has ended, the past has been added and nothing is left to save. -/
structure Ended (c : Course σ) : Prop where
  settled : c.service.engine.Settled
  ended : c.service.pipeline.stage.hasEnded = true

theorem Ended.proceed {c : Course σ} (h : c.Ended) (a : Action) : (c.proceed a).Ended where
  settled := (c.engine_proceed a).1 ▸ h.settled
  ended := (proceed_of_ended h.ended).1

variable [ModelStore σ]

theorem batches_run (c : Course σ) (activities : List Activity) :
    c.batches <+: (c.run activities).batches := by
  refine List.foldlRecOn (motive := fun d : Course σ => c.batches <+: d.batches) activities _
    List.prefix_rfl ?_
  intro d hd a _
  refine hd.trans ?_
  cases a with
  | operate op => exact List.prefix_rfl
  | track e =>
    rw [step]
    split
    · exact d.batches_proceed _
    · exact List.prefix_rfl
  | proceed a => exact d.batches_proceed a
  | count now => exact List.prefix_rfl

namespace NeverCleared

variable {c : Course σ}

theorem step (h : c.NeverCleared) {a : Activity} (ha : a.clears = false) :
    (c.step a).NeverCleared := by
  cases a with
  | operate op =>
    refine List.forall_mem_append.2 ⟨h, List.forall_mem_singleton.2 fun key => ?_⟩
    change op.clears key = false
    cases op with
    | clearJob | clearAll => cases ha
    | _ => rfl
  | track e =>
    rw [Course.step]
    split
    · exact h.proceed _
    · exact h
  | proceed a => exact h.proceed a
  | count now => exact h

theorem run (h : c.NeverCleared) {activities : List Activity}
    (hkeep : ∀ a ∈ activities, a.clears = false) : (c.run activities).NeverCleared :=
  List.foldlRecOn (motive := NeverCleared) activities _ h fun _ hc a ha => hc.step (hkeep a ha)

end NeverCleared

/-- A service that has been asked to stop, whose tasks did what is in `during` before they ended. -/
def stopping (during : List Activity) (c : Course σ) : Course σ := (c.proceed .cancel).run during

def finish (now : Instant) (c : Course σ) : Except Error Unit × Course σ :=
  let c := c.operate .load
  ((c.service.engine.flush now c.service.store).1.map fun _ => (), c.operate (.flush now))

def stop (during : List Activity) (now : Instant) (c : Course σ) : Except Error Unit × Course σ :=
  (c.stopping during).finish now

theorem service_stopping_draining (c : Course σ) :
    (c.stopping c.draining).service =
      c.service.withBatches (c.service.pipeline.shutDown c.service.batching) :=
  c.service_run_proceed ([Action.cancel, .setUp, .heedCancel, .heedCancel] ++
    List.replicate (c.service.pipeline.queue.waiting.length + 1) Action.drain)

theorem ended_of_draining (c : Course σ) :
    (c.stopping c.draining).service.pipeline.stage.hasEnded = true := by
  rw [service_stopping_draining]
  exact c.service.pipeline.hasEnded_shutDown c.service.batching

/-- What the service does when it is stopped is a stop during which the consumer alone goes on. -/
theorem shutDown_eq (now : Instant) (c : Course σ) :
    c.service.shutDown now =
      ((c.stop c.draining now).1, (c.stop c.draining now).2.service) := by
  have hstop : c.stop c.draining now = (c.stopping c.draining).finish now := rfl
  rw [hstop, Service.shutDown, ← service_stopping_draining]
  rfl

def stopActivities (during : List Activity) (now : Instant) : List Activity :=
  .proceed .cancel :: (during ++ [.operate .load, .operate (.flush now)])

theorem run_stopActivities (during : List Activity) (now : Instant) (c : Course σ) :
    c.run (stopActivities during now) = (c.stop during now).2 := by
  rw [stopActivities, ← List.cons_append, run_append]
  rfl

theorem stage_stop (config : Config) (aggregator : Aggregator) (store : σ)
    {before during : List Activity} {now : Instant} :
    let c := (start (.fresh config aggregator store)).run before
    let p := (c.stop during now).2.service.pipeline
    p.stage.hasEnded = true → (Service.batchingOf config).size ≤ Batching.maxSize →
      p.clock + config.usage.batchWindow.nanos < Batching.endOfTime → p.stage = .stopped := by
  intro c p hended hsize hclock
  obtain ⟨_, actions, hrun⟩ :=
    (start (.fresh config aggregator store)).exists_run_pipeline
      (before ++ stopActivities during now)
  have hp : p = (Pipeline.run (Service.batchingOf config) actions .start).1 := by
    rw [run_append, run_stopActivities] at hrun
    exact hrun
  rw [hp] at hended hclock ⊢
  exact Pipeline.stage_of_ended hsize hclock hended

/-- The tasks end and the storage does all that a stop asks of it. -/
structure Served (during : List Activity) (now : Instant) (c : Course σ) : Prop where
  ended : (c.stopping during).service.pipeline.stage.hasEnded = true
  inserts : ∀ b ∈ (c.stopping during).batches.drop c.batches.length, b.2 = true
  load : let w := (c.stopping during).service
    w.engine.loaded = false → (ModelStore.loadRows w.store).1.isOk = true
  save : let w := ((c.stopping during).operate .load).service
    (w.engine.collect now).1 ≠ [] →
      (ModelStore.upsertRows ((w.engine.collect now).1.map (·.2)) w.store).1.isOk = true

theorem Served.inserted {during : List Activity} {now : Instant} {c : Course σ}
    (h : c.Served during now) {b : List UsageEvent × Bool}
    (hb : b ∈ (c.stopping during).batches) : b ∈ c.batches ∨ b.2 = true := by
  have hprefix : c.batches <+: (c.stopping during).batches :=
    c.batches_run (.proceed .cancel :: during)
  obtain ⟨later, hlater⟩ := hprefix
  have hinserts := h.inserts
  rw [← hlater, List.drop_left] at hinserts
  rw [← hlater] at hb
  exact (List.mem_append.1 hb).imp id (hinserts b)

variable [LawfulServiceStore σ]

namespace Ended

variable {c : Course σ}

theorem step (h : c.Ended) {a : Activity} (ha : a.records = false) : (c.step a).Ended := by
  cases a with
  | operate op => exact ⟨h.settled.step (s := c.service.session) ha, h.ended⟩
  | track e =>
    rw [Course.step]
    split
    · exact h.proceed _
    · exact h
  | proceed a => exact h.proceed a
  | count now =>
    obtain ⟨hengine, hpipeline, _⟩ := c.service.refreshStatistics_eq now
    exact ⟨hengine ▸ h.settled, hpipeline ▸ h.ended⟩

theorem run (h : c.Ended) {activities : List Activity}
    (hquiet : ∀ a ∈ activities, a.records = false) : (c.run activities).Ended :=
  List.foldlRecOn (motive := Ended) activities _ h fun _ hc a ha => hc.step (hquiet a ha)

theorem store_step (h : c.Ended) {a : Activity} (ha : a.isBackground = true) :
    table (c.step a).service.store = table c.service.store ∧
      events (c.step a).service.store = events c.service.store := by
  cases a with
  | operate op =>
    exact ⟨h.settled.table_step (s := c.service.session) ha, c.service.session.events_step op⟩
  | track e => cases ha
  | proceed a =>
    rw [Course.step, (proceed_of_ended h.ended).2]
    exact ⟨rfl, rfl⟩
  | count now => exact c.service.store_refreshStatistics now

theorem store_run (h : c.Ended) {activities : List Activity}
    (hbackground : ∀ a ∈ activities, a.isBackground = true) :
    table (c.run activities).service.store = table c.service.store ∧
      events (c.run activities).service.store = events c.service.store := by
  refine (List.foldlRecOn (motive := fun d : Course σ => d.Ended ∧
    table d.service.store = table c.service.store ∧
    events d.service.store = events c.service.store) activities _ ⟨h, rfl, rfl⟩ ?_).2
  rintro d ⟨hd, ht, he⟩ a ha
  obtain ⟨ht', he'⟩ := hd.store_step (hbackground a ha)
  exact ⟨hd.step (Activity.records_of_isBackground (hbackground a ha)), ht'.trans ht, he'.trans he⟩

end Ended

theorem table_step_of_not_loaded {c : Course σ} {a : Activity} (ha : a.isBackground = true)
    (h : (c.step a).service.engine.loaded = false) :
    c.service.engine.loaded = false ∧ table (c.step a).service.store = table c.service.store := by
  cases a with
  | operate op => exact Session.table_of_not_loaded (s := c.service.session) ha h
  | track e => cases ha
  | proceed a =>
    rw [step, (c.engine_proceed a).1] at h
    exact ⟨h, c.table_proceed a⟩
  | count now =>
    rw [step, (c.service.refreshStatistics_eq now).1] at h
    exact ⟨h, (c.service.store_refreshStatistics now).1⟩

theorem table_run_of_not_loaded {c : Course σ} {activities : List Activity}
    (hbackground : ∀ a ∈ activities, a.isBackground = true)
    (h : (c.run activities).service.engine.loaded = false) :
    table (c.run activities).service.store = table c.service.store := by
  refine List.foldlRecOn (motive := fun d : Course σ => d.service.engine.loaded = false →
    table d.service.store = table c.service.store) activities _ (fun _ => rfl) ?_ h
  intro d ih a ha hnext
  obtain ⟨hl, ht⟩ := table_step_of_not_loaded (hbackground a ha) hnext
  exact ht.trans (ih hl)

namespace Sound

variable {first : Session σ} {c : Course σ}

/-- When nothing is left to save each row shows all that was counted for its key. -/
theorem counters (h : c.Sound first) (hc : c.NeverCleared) (hended : c.Ended) {key : ModelKey}
    {m : Model Float} (hm : c.service.engine.model? key = some m) (hfits : m.tally.Fits) :
    m.tally = ((first.account key).history c.done).plus ((first.account key).live c.done) ∧
      ∃ r, (table c.service.store).rowOf? key = some r ∧ r.Stores m.tally := by
  have hcell := h.balanced.cell key
  constructor
  · have hcleared : (first.account key).cleared c.done = false := by
      rw [Account.cleared, List.any_eq_false]
      intro ev hev
      rw [hc ev hev, Bool.and_false]
      exact Bool.false_ne_true
    have htotal := hcell.total
    have htally : (c.service.session.cell key).tally = m.tally := by
      change (c.service.engine.model? key).elim .zero Model.tally = m.tally
      rw [hm]
      rfl
    have hl : (c.service.session.cell key).loaded = true := hended.settled.loaded
    rw [htally, hl, if_pos rfl, Account.past, hcleared, if_neg Bool.false_ne_true] at htotal
    rw [htotal] at hfits ⊢
    exact Tally.eq_of_upTo_fits hfits
  · obtain ⟨_, r, hr, htally⟩ := hcell.clean m hm (hended.settled.clean key m hm)
    have hstores := (h.nonneg key r hr).stores
    rw [htally, Tally.upTo_upTo (Nat.le_refl _), Tally.upTo_eq_self hfits] at hstores
    exact ⟨r, hr, hstores⟩

/-- When the consumer has stopped each accepted event is stored once, or was lost with its
batch. -/
theorem delivered (h : c.Sound first) (hstop : c.service.pipeline.stage = .stopped)
    {e : UsageEvent} (he : e ∈ c.accepted) (hkept : ∀ b ∈ c.batches, e ∈ b.1 → b.2 = true) :
    .ofEvent e ∈ events c.service.store ∧
      ((events c.service.store).map StoredEvent.id).count e.id = 1 := by
  have hpending : c.service.pipeline.pending = [] := by
    have hsound := h.pipeline
    rw [Pipeline.Sound, hstop] at hsound
    rw [Pipeline.pending, hsound.2.1, hsound.2.2]
    rfl
  have hmem : StoredEvent.ofEvent e ∈ events c.service.store := by
    have hlive : c.service.pipeline.stage ≠ .failed := by
      intro hfailed
      rw [hstop] at hfailed
      cases hfailed
    rw [← h.order hlive, hpending, List.append_nil] at he
    obtain ⟨batch, hbatch, heb⟩ := List.mem_flatten.1 he
    obtain ⟨b, hb, rfl⟩ := List.mem_map.1 hbatch
    rw [h.stored]
    refine List.mem_append_right _ (List.mem_map_of_mem (List.mem_flatten.2 ⟨b.1, ?_, heb⟩))
    exact List.mem_map_of_mem (List.mem_filter.2 ⟨hb, hkept b hb heb⟩)
  exact ⟨hmem, List.count_eq_one_of_mem h.ids (List.mem_map_of_mem hmem)⟩

end Sound

section

variable {during : List Activity} {now : Instant} {c : Course σ}

theorem isBackground_stopActivities (hduring : ∀ a ∈ during, a.isBackground = true) :
    ∀ a ∈ stopActivities during now, a.isBackground = true := by
  refine List.forall_mem_cons.2 ⟨rfl, List.forall_mem_append.2 ⟨hduring, ?_⟩⟩
  exact List.forall_mem_cons.2 ⟨rfl, List.forall_mem_singleton.2 rfl⟩

theorem Served.end (h : c.Served during now) {first : Session σ}
    (hsound : (c.stopping during).Sound first) :
    (c.stop during now).1 = .ok () ∧ (c.stop during now).2.Ended := by
  let w := c.stopping during
  have hload : (w.service.engine.load w.service.store).1.isOk = true := by
    rw [Engine.isOk_load, Bool.or_eq_true, or_iff_not_imp_left, Bool.not_eq_true]
    exact h.load
  have hloaded : (w.operate .load).service.engine.loaded = true :=
    (w.service.engine.loaded_load w.service.store).trans hload
  have hflush : ((w.operate .load).service.engine.flush now
      (w.operate .load).service.store).1.isOk = true := Engine.isOk_flush h.save
  refine ⟨Except.map_of_isOk hflush, ⟨?_, fun key => ?_⟩, h.ended⟩
  · exact (Engine.loaded_flush ..).trans hloaded
  · exact Session.clean_of_flush (s := (w.operate .load).service.session)
      (hsound.balanced.fits.load w.service.store) hloaded hflush

theorem Ended.stop (h : c.Ended) (hduring : ∀ a ∈ during, a.isBackground = true) :
    (c.stop during now).1 = .ok () ∧
      table (c.stop during now).2.service.store = table c.service.store ∧
      events (c.stop during now).2.service.store = events c.service.store := by
  constructor
  · have hstopping : (c.stopping during).Ended :=
      (h.proceed .cancel).run fun a ha => Activity.records_of_isBackground (hduring a ha)
    have hload : ((c.stopping during).operate .load).Ended :=
      hstopping.step (a := .operate .load) rfl
    apply Except.map_of_isOk
    rw [hload.settled.flush]
    rfl
  · rw [← run_stopActivities]
    exact h.store_run (isBackground_stopActivities hduring)

theorem stop_of_not_loaded (hduring : ∀ a ∈ during, a.isBackground = true)
    (hl : (c.stopping during).service.engine.loaded = false)
    (hload : (ModelStore.loadRows (c.stopping during).service.store).1.isOk = false) :
    (c.stop during now).1 = .ok () ∧
      table (c.stop during now).2.service.store = table c.service.store := by
  let w := c.stopping during
  have hl' : (w.operate .load).service.engine.loaded = false := by
    refine (w.service.engine.loaded_load w.service.store).trans ?_
    rw [Engine.isOk_load, hl, hload]
    rfl
  constructor
  · apply Except.map_of_isOk
    rw [Engine.flush_of_not_loaded hl']
    rfl
  · have hlast : (c.stop during now).2.service.engine.loaded = false :=
      (Engine.loaded_flush ..).trans hl'
    rw [← run_stopActivities] at hlast ⊢
    exact table_run_of_not_loaded (isBackground_stopActivities hduring) hlast

end

theorem stop_sound (config : Config) (aggregator : Aggregator) {store : σ}
    (hrows : ∀ key r, (table store).rowOf? key = some r → r.IsNonneg)
    (hids : ((events store).map StoredEvent.id).Nodup) {before during : List Activity}
    (hbefore : ∀ a ∈ before, a.Fits ∧ a.clears = false)
    (hduring : ∀ a ∈ during, a.Fits ∧ a.clears = false) (now : Instant) :
    let c := (start (.fresh config aggregator store)).run before
    let last := (c.stop during now).2
    last.Sound (Service.fresh config aggregator store).session ∧ last.NeverCleared := by
  intro c last
  have hc : c.Sound (Service.fresh config aggregator store).session :=
    (start_sound config aggregator hrows hids).run fun a ha => (hbefore a ha).1
  have hclear : c.NeverCleared :=
    NeverCleared.run (fun _ hev => (List.not_mem_nil hev).elim) fun a ha => (hbefore a ha).2
  have hsteps : ∀ a ∈ stopActivities during now, a.Fits ∧ a.clears = false := by
    refine List.forall_mem_cons.2 ⟨⟨trivial, rfl⟩, List.forall_mem_append.2 ⟨hduring, ?_⟩⟩
    exact List.forall_mem_cons.2 ⟨⟨trivial, rfl⟩, List.forall_mem_singleton.2 ⟨trivial, rfl⟩⟩
  have hlast : last = c.run (stopActivities during now) := (run_stopActivities during now c).symm
  exact ⟨hlast ▸ hc.run fun a ha => (hsteps a ha).1, hlast ▸ hclear.run fun a ha => (hsteps a ha).2⟩

/-- Whether each event that was accepted is stored once, unless its batch was lost before. -/
def KeepsEvents (before last : Course σ) : Prop :=
  ∀ e ∈ last.accepted, (∀ b ∈ before.batches, e ∈ b.1 → b.2 = true) →
    .ofEvent e ∈ events last.service.store ∧
    ((events last.service.store).map StoredEvent.id).count e.id = 1

theorem keepsEvents_of_served (config : Config) (aggregator : Aggregator) {store : σ}
    (hrows : ∀ key r, (table store).rowOf? key = some r → r.IsNonneg)
    (hids : ((events store).map StoredEvent.id).Nodup) {before during : List Activity}
    (hbefore : ∀ a ∈ before, a.Fits ∧ a.clears = false)
    (hduring : ∀ a ∈ during, a.Fits ∧ a.clears = false) {now : Instant} :
    let c := (start (.fresh config aggregator store)).run before
    let last := (c.stop during now).2
    c.Served during now → (Service.batchingOf config).size ≤ Batching.maxSize →
      last.service.pipeline.clock + config.usage.batchWindow.nanos < Batching.endOfTime →
        c.KeepsEvents last := by
  intro c last hserved hsize hclock e he hkept
  have hstop := stage_stop config aggregator store hserved.ended hsize hclock
  have hsound := (stop_sound config aggregator hrows hids hbefore hduring now).1
  exact hsound.delivered hstop he fun b hb heb =>
    (hserved.inserted hb).elim (fun hb => hkept b hb heb) id

end Course

namespace Course

open Service (Activity)
open LawfulModelStore LawfulEventStore

/-- When a service is stopped whose consumer has broken off, the event that waited for it is in no
batch. -/
theorem stopping_of_lost_event {config : Config} (henabled : config.usage.enabled = true)
    {latest : Nat}
    (h : ¬ ((Service.batchingOf config).size ≤ Batching.maxSize ∧
      latest + config.usage.batchWindow.nanos < Batching.endOfTime)) (aggregator : Aggregator)
    (e : UsageEvent) :
    let s := Service.fresh config aggregator Database.fresh
    let before : List Activity := .track e :: [Action.wait latest, .setUp, .receive].map .proceed
    let broken : Pipeline :=
      { Pipeline.fail { Pipeline.start with clock := latest } with cancelled := true }
    ∃ accepted, e ∈ accepted ∧
      ((start s).run before).stopping [] = ⟨{ s with pipeline := broken }, [], accepted, []⟩ := by
  intro s before broken
  let actions : List Action := [.send e, .wait latest, .setUp, .receive] ++ [.cancel]
  obtain ⟨hloses, hlost⟩ := Pipeline.run_loses_event s.batching h e
  have hrun : Pipeline.run s.batching actions .start = (broken, []) := by
    rw [Pipeline.run_append, hloses]
    rfl
  have haccepted : e ∈ Pipeline.accepted s.batching actions .start := by
    rw [Pipeline.accepted_append]
    exact List.mem_append_left _ hlost
  have hproceed : ((start s).run before).stopping [] = (start s).run (actions.map .proceed) := by
    have htrack : (start s).step (.track e) = (start s).proceed (.send e) := if_pos henabled
    change (((start s).step (.track e)).run ([.wait latest, .setUp, .receive].map .proceed)).stopping
      [] = _
    rw [htrack]
    rfl
  refine ⟨_, haccepted, ?_⟩
  rw [hproceed, run_proceed_of_nil (congrArg Prod.snd hrun)]
  rw [show (start s).service.pipeline.run (start s).service.batching actions = _ from hrun]
  rfl

/-- An event is lost that waits for a consumer that breaks off, and the stop succeeds. -/
theorem exists_stop_loses (config : Config) (henabled : config.usage.enabled = true) {latest : Nat}
    (h : ¬ ((Service.batchingOf config).size ≤ Batching.maxSize ∧
      latest + config.usage.batchWindow.nanos < Batching.endOfTime)) (aggregator : Aggregator)
    (now : Instant) :
    ∃ before : List Activity, (∀ a ∈ before, a.Fits ∧ a.clears = false) ∧
      let c := (start (.fresh config aggregator Database.fresh)).run before
      let last := (c.stop [] now).2
      c.Served [] now ∧ last.service.pipeline.clock = latest ∧ ¬ c.KeepsEvents last := by
  let e : UsageEvent := ⟨⟨1⟩, ⟨0, 0⟩, "", "", none, none⟩
  let before : List Activity := .track e :: [.wait latest, .setUp, .receive].map .proceed
  obtain ⟨accepted, he, hw⟩ := stopping_of_lost_event henabled h aggregator e
  have hbefore : ∀ a ∈ before, a.Fits ∧ a.clears = false :=
    List.forall_mem_cons.2 ⟨⟨trivial, rfl⟩, List.forall_mem_map.2 fun _ _ => ⟨trivial, rfl⟩⟩
  let c := (start (.fresh config aggregator Database.fresh)).run before
  have hserved : c.Served [] now := by
    refine ⟨?_, ?_, ?_, ?_⟩ <;> rw [hw]
    · rfl
    · exact fun b hb => (List.not_mem_nil (List.mem_of_mem_drop hb)).elim
    · exact fun _ => rfl
    · exact fun hne => absurd rfl hne
  refine ⟨before, hbefore, hserved, ?_, fun hkeeps => ?_⟩
  · rw [stop, hw]
    rfl
  · rw [stop, hw] at hkeeps
    refine List.not_mem_nil (hkeeps e he fun b hb => ?_).1
    -- Nothing was handed over up to the stop, so nothing was before it.
    have hearlier := c.batches_run [.proceed .cancel]
    rw [show c.run [.proceed .cancel] = _ from hw] at hearlier
    rw [List.prefix_nil.1 hearlier] at hb
    exact (List.not_mem_nil hb).elim

/-- A service that was never made to forget anything in memory alone is stopped. If its tasks end
and the storage does what it is asked to, each row shows what its model counted and the past before
that, and another stop changes nothing if nothing is recorded in between. Each event that was
accepted is stored once, unless its batch was lost before, if room for a batch can be set aside and
a clock can show the end of the last window; where either cannot be done some event is lost. If the
past was never added and cannot be read, all rows stay as they were. -/
theorem stop_loses_nothing_iff (config : Config) (aggregator : Aggregator) :
    (∀ {σ : Type} [ModelStore σ] [EventStore σ] [LawfulServiceStore σ] {store : σ},
      (∀ key r, (table store).rowOf? key = some r → r.IsNonneg) →
      ((events store).map StoredEvent.id).Nodup →
      ∀ before during now, (∀ a ∈ before, a.Fits ∧ a.clears = false) →
      (∀ a ∈ during, a.Fits ∧ a.clears = false) →
        let first := (Service.fresh config aggregator store).session
        let c := (start (.fresh config aggregator store)).run before
        let answer := (c.stop during now).1
        let last := (c.stop during now).2
        (c.Served during now →
          answer = .ok () ∧
          (∀ key m, last.service.engine.model? key = some m → m.tally.Fits →
            m.tally = ((first.account key).history last.done).plus
              ((first.account key).live last.done) ∧
            ∃ r, (table last.service.store).rowOf? key = some r ∧ r.Stores m.tally) ∧
          ((Service.batchingOf config).size ≤ Batching.maxSize →
            last.service.pipeline.clock + config.usage.batchWindow.nanos < Batching.endOfTime →
            c.KeepsEvents last) ∧
          ∀ between during' now', (∀ a ∈ between, a.records = false) →
            (∀ a ∈ during', a.isBackground = true) →
            let again := last.run between
            let r := again.stop during' now'
            r.1 = .ok () ∧ table r.2.service.store = table again.service.store ∧
              events r.2.service.store = events again.service.store) ∧
        ((∀ a ∈ during, a.isBackground = true) →
          (c.stopping during).service.engine.loaded = false →
          (ModelStore.loadRows (c.stopping during).service.store).1.isOk = false →
            answer = .ok () ∧ table last.service.store = table c.service.store)) ∧
    (config.usage.enabled = true → ∀ latest,
      (∀ before during now, (∀ a ∈ before, a.Fits ∧ a.clears = false) →
        (∀ a ∈ during, a.Fits ∧ a.clears = false) →
        let c := (start (.fresh config aggregator Database.fresh)).run before
        let last := (c.stop during now).2
        c.Served during now → last.service.pipeline.clock ≤ latest → c.KeepsEvents last) ↔
      (Service.batchingOf config).size ≤ Batching.maxSize ∧
        latest + config.usage.batchWindow.nanos < Batching.endOfTime) := by
  refine ⟨?_, fun henabled latest => ⟨fun hall => ?_, ?_⟩⟩
  · intro σ _ _ _ store hrows hids before during now hbefore hduring first c answer last
    refine ⟨fun hserved => ?_, stop_of_not_loaded⟩
    have hc : c.Sound first :=
      (start_sound config aggregator hrows hids).run fun a ha => (hbefore a ha).1
    have hstopping : (c.stopping during).Sound first :=
      (hc.proceed .cancel).run fun a ha => (hduring a ha).1
    obtain ⟨hsound, hclear⟩ := stop_sound config aggregator hrows hids hbefore hduring now
    obtain ⟨hanswer, hended⟩ := hserved.end hstopping
    exact ⟨hanswer, fun key m hm hfits => hsound.counters hclear hended hm hfits,
      keepsEvents_of_served config aggregator hrows hids hbefore hduring hserved,
      fun between during' now' hbetween hduring' => (hended.run hbetween).stop hduring'⟩
  · refine Classical.byContradiction fun hbad => ?_
    obtain ⟨before, hbefore, hserved, hclock, hlost⟩ :=
      exists_stop_loses config henabled hbad aggregator ⟨0, 0⟩
    exact hlost (hall before [] ⟨0, 0⟩ hbefore nofun hserved (Nat.le_of_eq hclock))
  · rintro ⟨hsize, hlate⟩ before during now hbefore hduring c last hserved hclock
    have hshown := Nat.lt_of_le_of_lt (Nat.add_le_add_right hclock _) hlate
    have hrows (key : ModelKey) (r : StatsRow)
        (hr : (table Database.fresh).rowOf? key = some r) : r.IsNonneg := by
      change (∅ : StatsTable).rowOf? key = some r at hr
      rw [StatsTable.rowOf?] at hr
      split at hr <;> cases hr
    exact keepsEvents_of_served config aggregator hrows List.nodup_nil hbefore hduring hserved
      hsize hshown

/-- An event was lost, another one waits and the past has not been added. -/
theorem stop_loses_nothing_iff_of_waiting_event :
    let key : ModelKey := ⟨"a", 0⟩
    let row : StatsRow := ⟨"a", 0, 20, 5, 1000, 100, 0, 0⟩
    let event (id : Nat) (host : String) : UsageEvent := ⟨⟨id⟩, ⟨0, 0⟩, host, "Pooled", none, none⟩
    let store := (Database.fresh.withStats ((∅ : StatsTable).upsert row)).refuseHost "b"
    let config : Config :=
      { Config.standard with usage := { UsageConfig.standard with batchSize := 1 } }
    let before : List Activity := [.operate (.success key 100 10), .track (event 1 "b"),
      .proceed .setUp, .proceed .receive, .track (event 2 "a")]
    let r := ((start (.fresh config (.ofWindows []) store)).run before).service.shutDown ⟨7, 0⟩
    ((∀ key r, (table store).rowOf? key = some r → r.IsNonneg) ∧
      ((events store).map StoredEvent.id).Nodup ∧ ∀ a ∈ before, a.Fits ∧ a.clears = false) ∧
      r.1 = .ok () ∧
      (∃ row, (table r.2.store).rowOf? key = some row ∧ row.Stores ⟨21, 5, 1100, 110⟩) ∧
      ((events r.2.store).map StoredEvent.id).count ⟨2⟩ = 1 := by
  intro key row event store config before
  have hnonneg : row.IsNonneg := ⟨by decide, by decide, by decide, by decide⟩
  have hrows (key r) (hr : (table store).rowOf? key = some r) : r.IsNonneg :=
    StatsTable.isNonneg_of_upsert hnonneg hr
  have hids : ((events store).map StoredEvent.id).Nodup := by decide +kernel
  have hbefore : ∀ a ∈ before, a.Fits ∧ a.clears = false := by decide +kernel
  simp only [shutDown_eq]
  have hserved : ((start (.fresh config (.ofWindows []) store)).run before).Served
      (draining _) ⟨7, 0⟩ :=
    ⟨ended_of_draining _, by decide +kernel, fun _ => by decide +kernel,
      fun _ => by decide +kernel⟩
  have hdraining : ∀ a ∈ draining ((start (.fresh config (.ofWindows []) store)).run before),
      a.Fits ∧ a.clears = false := by
    intro a ha
    have hbackground := isBackground_draining _ a ha
    exact ⟨Activity.fits_of_isBackground hbackground, Activity.clears_of_isBackground hbackground⟩
  obtain ⟨hanswer, hcounters, hkeeps, _⟩ :=
    ((stop_loses_nothing_iff config (.ofWindows [])).1 hrows hids before _ ⟨7, 0⟩ hbefore
      hdraining).1 hserved
  obtain ⟨htotal, hrow⟩ :=
    hcounters key _ (Option.some_get (by decide +kernel)).symm (by decide +kernel)
  rw [htotal.trans (by decide +kernel : _ = (⟨21, 5, 1100, 110⟩ : Tally))] at hrow
  have hevents := hkeeps (by decide +kernel) (by decide +kernel)
  obtain ⟨_, hcount⟩ := hevents (event 2 "a") (by decide +kernel) (by decide +kernel)
  exact ⟨⟨hrows, hids, hbefore⟩, hanswer, hrow, hcount⟩

/-- An event that waits before the consumer begins is lost, and the stop succeeds. -/
theorem stop_loses_event_of_huge_size :
    let event : UsageEvent := ⟨⟨1⟩, ⟨0, 0⟩, "a", "Pooled", none, none⟩
    let config : Config :=
      { Config.standard with
        usage := { UsageConfig.standard with batchSize := 9223372036854775808 } }
    let c := (start (.fresh config (.ofWindows []) Database.fresh)).run [.track event]
    c.accepted = [event] ∧ c.batches = [] ∧ (c.service.shutDown ⟨7, 0⟩).1 = .ok () ∧
      events (c.service.shutDown ⟨7, 0⟩).2.store = [] := by
  decide +kernel

end Course

end ProviderScout
