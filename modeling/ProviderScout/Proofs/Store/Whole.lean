import Mathlib.Data.List.Nodup
import ProviderScout.Proofs.Store.Contract
import ProviderScout.Proofs.Store.Events

namespace ProviderScout

/-- A storage in which each call keeps to its table. -/
class LawfulServiceStore (σ : Type) [ModelStore σ] [EventStore σ] extends
    LawfulModelStore σ, LawfulEventStore σ where
  table_insertEvents (batch : List UsageEvent) (s : σ) :
    table (EventStore.insertEvents batch s).2 = table s
  table_countsSince (since : Instant) (s : σ) : table (EventStore.countsSince since s).2 = table s
  events_loadRows (s : σ) : events (ModelStore.loadRows s).2 = events s
  events_upsertRows (rows : List StatsRow) (s : σ) :
    events (ModelStore.upsertRows rows s).2 = events s
  events_deleteRows (job : Option String) (s : σ) :
    events (ModelStore.deleteRows job s).2 = events s
  events_latestSpeeds (now : Instant) (s : σ) : events (ModelStore.latestSpeeds now s).2 = events s
  events_countsSince (since : Instant) (s : σ) :
    events (EventStore.countsSince since s).2 = events s
  nodup_insertEvents (batch : List UsageEvent) (s : σ) :
    ((events s).map StoredEvent.id).Nodup →
      ((events (EventStore.insertEvents batch s).2).map StoredEvent.id).Nodup

namespace EventTable

def IdsNodup (t : EventTable) : Prop := (t.rows.map StoredEvent.id).Nodup

theorem IdsNodup.insertAll {events : List StoredEvent} {t t' : EventTable} (ht : t.IdsNodup)
    (h : t.insertAll events = .ok t') : t'.IdsNodup := by
  refine insertAll_keeps (P := IdsNodup) (fun t t' e ht hstored => ?_) ht h
  rw [IdsNodup, hstored.rows, List.map_append]
  exact ht.append (List.nodup_singleton e.id) (List.disjoint_singleton.2 hstored.new)

end EventTable

namespace Database

theorem stored_insertEvents (batch : List UsageEvent) (d : Database) :
    (d.insertEvents batch).2.stored = d.stored := by
  rw [insertEvents]
  split
  · rfl
  · split
    · rfl
    · split <;> rfl

theorem events_upsertRows (rows : List StatsRow) (d : Database) :
    (d.upsertRows rows).2.events = d.events := by
  rw [upsertRows]
  split
  · rfl
  · split <;> rfl

theorem events_deleteRows (job : Option String) (d : Database) :
    (d.deleteRows job).2.events = d.events := by
  rw [deleteRows]
  split <;> rfl

theorem nodup_insertEvents (batch : List UsageEvent) (d : Database)
    (h : (d.events.map StoredEvent.id).Nodup) :
    ((d.insertEvents batch).2.events.map StoredEvent.id).Nodup := by
  rw [insertEvents]
  split
  · exact h
  · cases ht : d.eventTable with
    | error f => exact h
    | ok t =>
      simp only
      cases hi : t.insertAll (batch.map .ofEvent) with
      | error f => exact h
      | ok t' =>
        rw [events_of_eventTable ht] at h
        exact EventTable.IdsNodup.insertAll h hi

instance : LawfulServiceStore Database where
  table_insertEvents := stored_insertEvents
  table_countsSince _ _ := rfl
  events_loadRows _ := rfl
  events_upsertRows := events_upsertRows
  events_deleteRows := events_deleteRows
  events_latestSpeeds _ _ := rfl
  events_countsSince _ _ := rfl
  nodup_insertEvents := nodup_insertEvents

end Database

end ProviderScout
