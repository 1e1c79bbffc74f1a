import ProviderScout.Store.Database

namespace ProviderScout

/-- A storage to which a call that succeeds adds its events. -/
class LawfulEventStore (σ : Type) [EventStore σ] where
  /-- The stored events, oldest first. -/
  events : σ → List StoredEvent
  events_insert {batch : List UsageEvent} {s : σ} :
    (EventStore.insertEvents batch s).1 = .ok () →
      events (EventStore.insertEvents batch s).2 = events s ++ batch.map .ofEvent
  events_insert_error {batch : List UsageEvent} {s : σ} {err : Error} :
    (EventStore.insertEvents batch s).1 = .error err →
      events (EventStore.insertEvents batch s).2 = events s

namespace EventTable

/-- What is known when an event has been stored. -/
structure Stored (t : EventTable) (e : StoredEvent) (t' : EventTable) : Prop where
  rows : t'.rows = t.rows ++ [e]
  room : t.rows.length < maxRows
  new : e.id ∉ t.rows.map StoredEvent.id

theorem stored_of_insert {t t' : EventTable} {e : StoredEvent} (h : t.insert e = .ok t') :
    Stored t e t' := by
  rw [insert] at h
  split at h
  · cases h
  · split at h
    · cases h
    · rename_i hroom
      split at h
      · cases h
      · rename_i hany
        cases h
        refine ⟨rfl, Nat.lt_of_not_le hroom, ?_⟩
        intro hmem
        obtain ⟨old, hold, hid⟩ := List.mem_map.1 hmem
        exact hany (List.any_eq_true.2 ⟨old, hold, beq_iff_eq.2 hid⟩)

theorem flatten_chunks (events : List StoredEvent) : (chunks events).flatten = events := by
  fun_induction chunks events with
  | case1 => rfl
  | case2 e rest ih => rw [List.flatten_cons, ih, List.take_append_drop]

/-- Events come in as if each had a statement of its own, however they are cut into statements. -/
theorem foldlM_insertChunk (cut : List (List StoredEvent)) (t : EventTable) :
    cut.foldlM insertChunk t = cut.flatten.foldlM insert t := by
  induction cut generalizing t with
  | nil => rfl
  | cons chunk rest ih =>
    rw [List.foldlM_cons, List.flatten_cons, List.foldlM_append]
    exact congrArg _ (funext ih)

theorem insertAll_eq (t : EventTable) (events : List StoredEvent) :
    t.insertAll events = events.foldlM insert t := by
  rw [insertAll, foldlM_insertChunk, flatten_chunks]

theorem insertAll_keeps {P : EventTable → Prop}
    (hP : ∀ t t' : EventTable, ∀ e, P t → Stored t e t' → P t') {events : List StoredEvent}
    {t t' : EventTable} (ht : P t) (h : t.insertAll events = .ok t') : P t' := by
  rw [insertAll_eq] at h
  induction events generalizing t with
  | nil =>
    cases h
    exact ht
  | cons e rest ih =>
    rw [List.foldlM_cons] at h
    cases he : t.insert e with
    | error f => rw [he] at h; cases h
    | ok u =>
      rw [he] at h
      exact ih (hP t u e ht (stored_of_insert he)) h

theorem rows_insertAll {events : List StoredEvent} {t t' : EventTable}
    (h : t.insertAll events = .ok t') : t'.rows = t.rows ++ events := by
  rw [insertAll_eq] at h
  induction events generalizing t with
  | nil =>
    cases h
    exact (List.append_nil _).symm
  | cons e rest ih =>
    rw [List.foldlM_cons] at h
    cases he : t.insert e with
    | error f => rw [he] at h; cases h
    | ok u =>
      rw [he] at h
      rw [ih h, (stored_of_insert he).rows, List.append_assoc]
      rfl

end EventTable

namespace Database

def events (d : Database) : List StoredEvent := (d.schema.events.getD .empty).rows

theorem events_of_eventTable {d : Database} {t : EventTable} (h : d.eventTable = .ok t) :
    d.events = t.rows := by
  obtain ⟨_, hs⟩ := table_eq_ok_iff.1 h
  rw [events, hs]
  rfl

instance : LawfulEventStore Database where
  events := events
  events_insert {batch d} h := by
    change (d.insertEvents batch).1 = _ at h
    change (d.insertEvents batch).2.events = _
    rw [insertEvents] at h ⊢
    split
    · rename_i he
      rw [List.isEmpty_iff.1 he]
      exact (List.append_nil _).symm
    · rename_i he
      rw [if_neg he] at h
      cases ht : d.eventTable with
      | error f => rw [ht] at h; cases h
      | ok t =>
        rw [ht] at h
        simp only at h ⊢
        cases hi : t.insertAll (batch.map .ofEvent) with
        | error f => rw [hi] at h; cases h
        | ok t' =>
          rw [events_of_eventTable ht]
          exact EventTable.rows_insertAll hi
  events_insert_error {batch d err} h := by
    change (d.insertEvents batch).1 = _ at h
    change (d.insertEvents batch).2.events = d.events
    rw [insertEvents] at h ⊢
    split
    · rfl
    · rename_i he
      rw [if_neg he] at h
      cases ht : d.eventTable with
      | error f => rfl
      | ok t =>
        rw [ht] at h
        simp only at h ⊢
        cases hi : t.insertAll (batch.map .ofEvent) with
        | error f => rfl
        | ok t' => rw [hi] at h; cases h

end Database

end ProviderScout
