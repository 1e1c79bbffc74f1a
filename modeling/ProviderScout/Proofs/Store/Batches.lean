import ProviderScout.Proofs.Store.Whole

namespace ProviderScout

namespace EventTable

def append (t : EventTable) (events : List StoredEvent) : EventTable :=
  { t with rows := t.rows ++ events }

/-- Whether no id occurs twice among events or is stored already. -/
def IsNew (t : EventTable) (events : List StoredEvent) : Prop :=
  (events.map StoredEvent.id).Nodup ∧ ∀ e ∈ events, e.id ∉ t.rows.map StoredEvent.id

/-- Whether there are numbers left for the rows of events. -/
def HasRoom (t : EventTable) (events : List StoredEvent) : Prop :=
  events ≠ [] → t.rows.length + events.length ≤ maxRows

theorem append_nil (t : EventTable) : t.append [] = t := by
  rw [append, List.append_nil]

theorem append_cons (t : EventTable) (e : StoredEvent) (rest : List StoredEvent) :
    (t.append [e]).append rest = t.append (e :: rest) := by
  simp only [append, List.append_assoc, List.singleton_append]

theorem isNew_nil (t : EventTable) : t.IsNew [] := ⟨.nil, nofun⟩

theorem hasRoom_nil (t : EventTable) : t.HasRoom [] := fun h => absurd rfl h

theorem isNew_cons_iff (t : EventTable) (e : StoredEvent) (rest : List StoredEvent) :
    t.IsNew (e :: rest) ↔ e.id ∉ t.rows.map StoredEvent.id ∧ (t.append [e]).IsNew rest := by
  simp only [IsNew, append, List.map_cons, List.nodup_cons, List.forall_mem_cons, List.map_append,
    List.mem_append, List.map_nil, List.mem_singleton, not_or, forall_and]
  constructor
  · rintro ⟨⟨hfirst, hrest⟩, hold, hnew⟩
    refine ⟨hold, hrest, hnew, ?_⟩
    intro x hx hid
    exact hfirst (hid ▸ List.mem_map_of_mem hx)
  · rintro ⟨hold, hrest, hnew, hne⟩
    refine ⟨⟨?_, hrest⟩, hold, hnew⟩
    intro hmem
    obtain ⟨x, hx, hid⟩ := List.mem_map.1 hmem
    exact hne x hx hid

theorem hasRoom_cons_iff (t : EventTable) (e : StoredEvent) (rest : List StoredEvent) :
    t.HasRoom (e :: rest) ↔ t.rows.length < maxRows ∧ (t.append [e]).HasRoom rest := by
  simp only [HasRoom, append, List.length_append, List.length_cons, List.length_nil, ne_eq,
    reduceCtorEq, not_false_eq_true, forall_const, ← List.length_eq_zero_iff]
  omega

def clash : SqlFault := .notUnique (name ++ ".id")

/-- What may become of events that are stored one by one. -/
inductive Outcome (t : EventTable) (events : List StoredEvent) : Except SqlFault EventTable → Prop
  where
  | stored : t.IsNew events → t.HasRoom events → Outcome t events (.ok (t.append events))
  | clash : ¬ t.IsNew events → Outcome t events (.error clash)
  | full : ¬ t.HasRoom events → Outcome t events (.error .full)

theorem insert_of_allowed {t : EventTable} {e : StoredEvent} (h : e.host ∉ t.refusedHosts) :
    Outcome t [e] (t.insert e) := by
  rw [insert, if_neg (by rwa [List.contains_iff_mem])]
  split
  · rename_i hfull
    apply Outcome.full
    rw [hasRoom_cons_iff]
    exact fun hroom => absurd hroom.1 (Nat.not_lt_of_le hfull)
  · rename_i hroom
    split
    · rename_i hany
      apply Outcome.clash
      rw [isNew_cons_iff]
      obtain ⟨old, hold, hid⟩ := List.any_eq_true.1 hany
      exact fun hnew => hnew.1 (beq_iff_eq.1 hid ▸ List.mem_map_of_mem hold)
    · rename_i hany
      apply Outcome.stored
      · rw [isNew_cons_iff]
        refine ⟨?_, isNew_nil _⟩
        intro hmem
        obtain ⟨old, hold, hid⟩ := List.mem_map.1 hmem
        exact hany (List.any_eq_true.2 ⟨old, hold, beq_iff_eq.2 hid⟩)
      · rw [hasRoom_cons_iff]
        exact ⟨Nat.lt_of_not_le hroom, hasRoom_nil _⟩

/-- The outcome of the first event decides, or that of the others in a table that holds it. -/
theorem outcome_foldlM {t : EventTable} {events : List StoredEvent}
    (h : ∀ e ∈ events, e.host ∉ t.refusedHosts) : Outcome t events (events.foldlM insert t) := by
  induction events generalizing t with
  | nil =>
    have hstored := Outcome.stored t.isNew_nil t.hasRoom_nil
    rwa [append_nil] at hstored
  | cons e rest ih =>
    obtain ⟨hfirst, hrest⟩ := List.forall_mem_cons.1 h
    have hinsert := insert_of_allowed hfirst
    rw [List.foldlM_cons]
    generalize t.insert e = inserted at hinsert
    cases hinsert with
    | stored hnew hroom =>
      have hold := ((t.isNew_cons_iff e []).1 hnew).1
      have hplace := ((t.hasRoom_cons_iff e []).1 hroom).1
      have hothers : Outcome (t.append [e]) rest (rest.foldlM insert (t.append [e])) := ih hrest
      change Outcome t (e :: rest) (rest.foldlM insert (t.append [e]))
      generalize rest.foldlM insert (t.append [e]) = inserted at hothers
      cases hothers with
      | stored hnew hroom =>
        rw [append_cons]
        exact .stored ((t.isNew_cons_iff e rest).2 ⟨hold, hnew⟩)
          ((t.hasRoom_cons_iff e rest).2 ⟨hplace, hroom⟩)
      | clash hclash => exact .clash fun h => hclash ((t.isNew_cons_iff e rest).1 h).2
      | full hfull => exact .full fun h => hfull ((t.hasRoom_cons_iff e rest).1 h).2
    | clash hclash =>
      apply Outcome.clash
      intro h
      exact hclash ((t.isNew_cons_iff e []).2 ⟨((t.isNew_cons_iff e rest).1 h).1, isNew_nil _⟩)
    | full hfull =>
      apply Outcome.full
      intro h
      exact hfull ((t.hasRoom_cons_iff e []).2 ⟨((t.hasRoom_cons_iff e rest).1 h).1, hasRoom_nil _⟩)

end EventTable

namespace Database

open EventTable

def finish (d : Database) : Except SqlFault EventTable → Except Error Unit × Database
  | .error f => (.error (insertError f), d)
  | .ok t => (.ok (), d.withEvents t)

/-- Stores events in one transaction with the given statements. -/
def insertIn (cut : List (List StoredEvent)) (d : Database) : Except Error Unit × Database :=
  match d.eventTable with
  | .error f => (.error (f.error (transactionTask "insert usage events" f)), d)
  | .ok t => d.finish (cut.foldlM insertChunk t)

theorem withEvents_of_eventTable {d : Database} {t : EventTable} (h : d.eventTable = .ok t) :
    d.withEvents t = d := by
  obtain ⟨_, hevents⟩ := table_eq_ok_iff.1 h
  rw [withEvents, ← hevents]

section Whole

variable {d : Database} {t : EventTable} (ht : d.eventTable = .ok t)
include ht

theorem insertIn_eq (cut : List (List StoredEvent)) :
    d.insertIn cut = d.finish (cut.flatten.foldlM insert t) := by
  rw [insertIn, ht, ← foldlM_insertChunk]

theorem insertEvents_eq (batch : List UsageEvent) :
    d.insertEvents batch = d.finish ((batch.map StoredEvent.ofEvent).foldlM insert t) := by
  cases batch with
  | nil => exact congrArg (Prod.mk _) (withEvents_of_eventTable ht).symm
  | cons e rest =>
    rw [insertEvents, ht]
    simp only [insertAll_eq]
    cases ((e :: rest).map StoredEvent.ofEvent).foldlM insert t <;> rfl

end Whole

/-- A batch is stored exactly if its ids are new and there is room for it, and then all of it.
Otherwise nothing is stored, and the error tells which of the two was missing. The same comes of any
other cut of the events into statements, also of a single one for all. -/
theorem insertEvents_atomic {d : Database} {t : EventTable} (ht : d.eventTable = .ok t)
    {batch : List UsageEvent} (hallowed : ∀ e ∈ batch, e.host ∉ t.refusedHosts) :
    let outcome := d.insertEvents batch
    let stored := batch.map fun e =>
      ⟨e.id, e.createdAt.secs, e.host, e.kind, e.operation, e.bytes⟩
    (outcome.1 = .ok () ↔ t.IsNew stored ∧ t.HasRoom stored) ∧
      (outcome.1 = .ok () →
        outcome.2 = d.withEvents { t with rows := t.rows ++ stored }) ∧
      (outcome.1 ≠ .ok () → outcome.2 = d ∧
        (¬ t.IsNew stored ∧ outcome.1 = .error (.database .constraintViolation
            ("Duplicate usage event id: " ++
              (SqlFault.notUnique "provider_usage_events.id").message)) ∨
          ¬ t.HasRoom stored ∧ outcome.1 = .error (insertError .full))) ∧
      ∀ cut : List (List StoredEvent), cut.flatten = stored → d.insertIn cut = outcome := by
  intro outcome stored
  have hstored : ∀ e ∈ stored, e.host ∉ t.refusedHosts := by
    intro e he
    obtain ⟨event, hevent, rfl⟩ := List.mem_map.1 he
    exact hallowed event hevent
  have hcut (cut : List (List StoredEvent)) (hflatten : cut.flatten = stored) :
      d.insertIn cut = outcome := by
    rw [insertIn_eq ht, hflatten]
    exact (insertEvents_eq ht batch).symm
  have houtcome : outcome = d.finish (stored.foldlM insert t) := insertEvents_eq ht batch
  have hcases := outcome_foldlM hstored
  rw [houtcome] at hcut ⊢
  generalize stored.foldlM insert t = result at hcases hcut ⊢
  cases hcases with
  | stored hnew hroom =>
    exact ⟨iff_of_true rfl ⟨hnew, hroom⟩, fun _ => rfl, fun h => absurd rfl h, hcut⟩
  | clash hclash =>
    exact ⟨iff_of_false nofun fun h => hclash h.1, nofun, fun _ => ⟨rfl, .inl ⟨hclash, rfl⟩⟩, hcut⟩
  | full hfull =>
    exact ⟨iff_of_false nofun fun h => hfull h.2, nofun, fun _ => ⟨rfl, .inr ⟨hfull, rfl⟩⟩, hcut⟩

/-- The last event of 167, in the second statement, has the id of the first. -/
theorem insertEvents_atomic_of_late_clash :
    let event (n : Nat) : UsageEvent :=
      ⟨⟨n⟩, ⟨1700000000 + n, 999999999⟩, "a", "Pooled", some "BODY", some 7⟩
    let batch := (List.range 166).map event ++ [event 0]
    let d := Database.fresh
    d.eventTable = .ok .empty ∧
      (∀ e ∈ batch, e.host ∉ EventTable.empty.refusedHosts) ∧
      (chunks (batch.map .ofEvent)).length = 2 ∧
      (d.insertEvents batch).1 = .error (.database .constraintViolation
        ("Duplicate usage event id: error returned from database: (code: 1555) " ++
          "UNIQUE constraint failed: provider_usage_events.id")) ∧
      (d.insertEvents batch).2 = d := by
  intro event batch d
  have ht : d.eventTable = .ok .empty := rfl
  have hallowed : ∀ e ∈ batch, e.host ∉ EventTable.empty.refusedHosts := fun _ _ => nofun
  obtain ⟨hok, _, hfailed, _⟩ := insertEvents_atomic ht hallowed
  have hclash : ¬ EventTable.empty.IsNew (batch.map StoredEvent.ofEvent) := by
    intro h
    rw [IsNew, List.map_append, List.map_append, List.nodup_append] at h
    exact h.1.2.2 ⟨0⟩ (by decide +kernel) ⟨0⟩ (by decide +kernel) rfl
  obtain ⟨hkept, ⟨_, herror⟩ | ⟨hfull, _⟩⟩ := hfailed fun h => hclash (hok.1 h).1
  · refine ⟨ht, hallowed, by decide +kernel, ?_, hkept⟩
    rw [herror]
    decide +kernel
  · exact absurd (fun _ => by decide +kernel) hfull

end Database

end ProviderScout
