import ProviderScout.Proofs.Statistics.Cutoffs
import ProviderScout.Proofs.Usage.Delivery

namespace ProviderScout

/-- A report of an operation, with the id and the time that its event is given. -/
structure UsageCall where
  id : Uuid
  time : Instant
  host : String
  kind : String
  operation : Option String
  bytes : Option Int64
deriving DecidableEq

namespace UsageCall

def event (c : UsageCall) : UsageEvent :=
  .ofOperation c.id c.time c.host c.kind c.operation c.bytes

def first (n : Nat) (s : String) : String := String.ofList (s.toList.take n)

/-- What a report is counted by: the first characters of its texts. -/
def key? (c : UsageCall) : Option UsageKey :=
  c.operation.map fun operation => ⟨first 255 c.host, first 50 c.kind, first 50 operation⟩

def number (calls : List UsageCall) (k : UsageKey) : Nat := calls.countP (·.key? == some k)

theorem key?_ofEvent (c : UsageCall) : (StoredEvent.ofEvent c.event).key? = c.key? := by
  obtain ⟨id, time, host, kind, _ | operation, bytes⟩ := c <;> rfl

theorem isSome_key? (c : UsageCall) : c.key?.isSome = c.operation.isSome := Option.isSome_map

end UsageCall

namespace Database

theorem eventTable_insertEvents {d : Database} {t : EventTable} (ht : d.eventTable = .ok t)
    (hroom : t.rows.length ≤ EventTable.maxRows) (batch : List UsageEvent) :
    ∃ t', (d.insertEvents batch).2.eventTable = .ok t' ∧
      t'.rows.length ≤ EventTable.maxRows := by
  rw [insertEvents]
  split
  · exact ⟨t, ht, hroom⟩
  · rw [ht]
    dsimp only
    cases hinsert : t.insertAll (batch.map .ofEvent) with
    | error f => exact ⟨t, ht, hroom⟩
    | ok t' =>
      refine ⟨t', ?_, ?_⟩
      · obtain ⟨hopen, _⟩ := table_eq_ok_iff.1 ht
        exact table_eq_ok_iff.2 ⟨hopen, rfl⟩
      · apply EventTable.insertAll_keeps (P := fun t => t.rows.length ≤ EventTable.maxRows) _ hroom
          hinsert
        intro t t' e _ hstored
        rw [hstored.rows, List.length_append]
        exact hstored.room

theorem eventTable_storeBatches {d : Database} {t : EventTable} (ht : d.eventTable = .ok t)
    (hroom : t.rows.length ≤ EventTable.maxRows) (batches : List (List UsageEvent)) :
    ∃ t', (Service.storeBatches batches d).eventTable = .ok t' ∧
      t'.rows.length ≤ EventTable.maxRows := by
  induction batches generalizing d t with
  | nil => exact ⟨t, ht, hroom⟩
  | cons batch rest ih =>
    obtain ⟨t', ht', hroom'⟩ := eventTable_insertEvents ht hroom batch
    exact ih ht' hroom'

end Database

namespace Aggregator

theorem compute_of_calls {d : Database} {t : EventTable} (ht : d.eventTable = .ok t)
    (hroom : t.rows.length ≤ EventTable.maxRows) {calls : List UsageCall}
    (hrows : t.rows = calls.map fun c => .ofEvent c.event) {since : Instant}
    (hsince : ∀ c ∈ calls, since.le c.time = true) (hours : Int64) (now : Instant) :
    ∃ bucket, (compute hours since now d).1 = .ok bucket ∧ bucket.Shows (UsageCall.number calls) ∧
      bucket.total = calls.countP (·.operation.isSome) := by
  obtain ⟨bucket, hbucket, hshows, htotal⟩ := compute_shows ht hroom hours since now
  have hcounted (c : UsageCall) (hc : c ∈ calls) :
      (StoredEvent.ofEvent c.event).isSince since = true :=
    decide_eq_true (Instant.secs_le_of_le (hsince c hc))
  have hnumber : t.number since = UsageCall.number calls := by
    funext k
    rw [EventTable.number, UsageCall.number, hrows, List.countP_map]
    apply List.countP_congr
    intro c hc
    rw [Function.comp, hcounted c hc, Bool.true_and, c.key?_ofEvent]
  refine ⟨bucket, hbucket, hnumber ▸ hshows, ?_⟩
  rw [htotal, hrows, List.countP_map]
  apply List.countP_congr
  intro c hc
  rw [Function.comp, hcounted c hc, Bool.true_and, ← c.isSome_key?, ← c.key?_ofEvent]
  exact Bool.eq_iff_iff.1 Option.isSome_map.symm

end Aggregator

namespace Pipeline

/-- Each report that the queue accepts is counted once: if the consumer has stopped and none of its
batches was refused, a bucket of a window that covers the times of all reports shows how often each
operation of each provider was reported, by the first 255, 50 and 50 characters of their names, and
how many reports name an operation. A consumer that has ended has stopped if room for a batch can be
set aside and a clock can show the end of its last window. -/
theorem counts_each_call (cut : Batching) (actions : List Action) (calls : List UsageCall)
    {d : Database} {t : EventTable} (ht : d.eventTable = .ok t) (hempty : t.rows = [])
    (hours : Int64) (since now : Instant) :
    let last := (run cut actions start).1
    let batches := (run cut actions start).2
    (cut.size ≤ Batching.maxSize → last.clock + cut.window.nanos < Batching.endOfTime →
      last.stage.hasEnded = true → last.stage = .stopped) ∧
    (last.stage = .stopped → accepted cut actions start = calls.map UsageCall.event →
      Service.keptBatches batches d = batches → (∀ c ∈ calls, since.le c.time = true) →
        ∃ bucket, (Aggregator.compute hours since now (Service.storeBatches batches d)).1 =
            .ok bucket ∧
          bucket.Shows (UsageCall.number calls) ∧
          bucket.total = calls.countP (·.operation.isSome)) := by
  refine ⟨fun hsize hclock hended => stage_of_ended hsize hclock hended, ?_⟩
  intro hstop haccepted hkept hsince
  let batches := (run cut actions start).2
  have hroom : t.rows.length ≤ EventTable.maxRows := by
    rw [hempty]
    exact Nat.zero_le _
  obtain ⟨t', ht', hroom'⟩ := Database.eventTable_storeBatches ht hroom batches
  have hflatten : batches.flatten = calls.map UsageCall.event :=
    (flatten_of_stopped hstop).trans haccepted
  have hrows : t'.rows = calls.map fun c => .ofEvent c.event := by
    have hevents := Service.events_storeBatches batches d
    change (Service.storeBatches batches d).events = d.events ++ _ at hevents
    rw [hkept, hflatten, Database.events_of_eventTable ht, hempty, List.nil_append, List.map_map,
      Database.events_of_eventTable ht'] at hevents
    exact hevents
  exact Aggregator.compute_of_calls ht' hroom' hrows hsince hours now

/-- Two operations whose names agree as far as they are kept are counted as one. -/
theorem counts_each_call_of_long_names :
    let cut := Batching.ofSize 2 .zero
    let long (c : Char) : String := String.ofList (List.replicate 50 'x' ++ [c])
    let call (id : Nat) (operation : Option String) : UsageCall :=
      ⟨⟨id⟩, ⟨1700000000 + id, 0⟩, "a", "Pooled", operation, none⟩
    let calls := [call 1 (some (long 'y')), call 2 none, call 3 (some (long 'z'))]
    let actions := calls.map (fun c => Action.send c.event) ++
      [.setUp, .receive, .receive, .cancel, .heedCancel, .drain, .drain]
    let batches := (run cut actions start).2
    let key : UsageKey := ⟨"a", "Pooled", String.ofList (List.replicate 50 'x')⟩
    (run cut actions start).1.stage = .stopped ∧
      accepted cut actions start = calls.map UsageCall.event ∧
      Service.keptBatches batches Database.fresh = batches ∧ UsageCall.number calls key = 2 ∧
      ∃ bucket, (Aggregator.compute 1 ⟨1700000000, 0⟩ ⟨1700003600, 0⟩
          (Service.storeBatches batches Database.fresh)).1 = .ok bucket ∧
        bucket.Shows (UsageCall.number calls) ∧ bucket.total = 2 := by
  intro cut long call calls actions batches key
  have haccepted : accepted cut actions start = calls.map UsageCall.event := by
    decide +kernel
  have hkept : Service.keptBatches batches Database.fresh = batches := by decide +kernel
  have hsince : ∀ c ∈ calls, Instant.le ⟨1700000000, 0⟩ c.time = true := by decide
  have htable : Database.fresh.eventTable = .ok .empty := rfl
  have htwo : calls.countP (·.operation.isSome) = 2 := by decide
  have hcounts := counts_each_call cut actions calls htable rfl 1 ⟨1700000000, 0⟩ ⟨1700003600, 0⟩
  have hstop : (run cut actions start).1.stage = .stopped :=
    hcounts.1 (by decide +kernel) (by decide +kernel) (by decide +kernel)
  obtain ⟨bucket, hbucket, hshows, htotal⟩ := hcounts.2 hstop haccepted hkept hsince
  exact ⟨hstop, haccepted, hkept, by decide +kernel, bucket, hbucket, hshows, htotal.trans htwo⟩

end Pipeline

end ProviderScout
