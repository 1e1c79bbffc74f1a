import ProviderScout.Proofs.Performance.Totals
import ProviderScout.Store.Database

/-!
What the engine may rely on in a storage: it is a table of rows, and calls that succeed do to the
table what they are for. Any call may fail. A failed attempt to store rows may have stored some of
them; no other failed call changes the table.
-/

namespace ProviderScout

namespace StatsTable

def get? (t : StatsTable) (k : StatsKey) : Option StatsRow := t.rows.get? k

theorem key_of_get? {t : StatsTable} {k : StatsKey} {r : StatsRow} (h : t.get? k = some r) :
    r.key = k :=
  t.keyed k r h

theorem get?_upsert (t : StatsTable) (r : StatsRow) (k : StatsKey) :
    (t.upsert r).get? k = if k = r.key then some r else t.get? k :=
  t.rows.get?_insert r.key k r

theorem get?_delete (t : StatsTable) (job : Option String) (k : StatsKey) :
    (t.delete job).get? k = if job.all (· == k.job) then none else t.get? k := by
  have hget : (t.delete job).get? k = (t.get? k).filter fun r => job.any (· != r.job) :=
    t.rows.get?_filter _ k
  rw [hget]
  cases hr : t.get? k with
  | none => simp
  | some r =>
    have hjob : r.job = k.job := congrArg StatsKey.job (key_of_get? hr)
    cases job <;> simp [Option.filter, hjob]

theorem size_delete (t : StatsTable) (job : Option String) :
    t.rows.size - (t.delete job).rows.size = t.rows.values.countP fun r => job.all (· == r.job) := by
  have hsize : t.rows.size = t.rows.values.length := (List.length_map ..).symm
  have hkept : (t.delete job).rows.size =
      t.rows.values.countP fun r => decide ¬ job.all (· == r.job) = true := by
    rw [SortedMap.values, List.countP_map, List.countP_eq_length_filter]
    change (t.rows.entries.filter fun e => job.any (· != e.2.job)).length = _
    congr 2
    funext e
    cases job <;> simp [bne, Bool.beq_eq_decide_eq]
  rw [hsize, hkept, List.length_eq_countP_add_countP fun r : StatsRow => job.all (· == r.job)]
  exact Nat.add_sub_cancel ..

theorem mem_values_iff (t : StatsTable) (r : StatsRow) :
    r ∈ t.rows.values ↔ t.get? r.key = some r := by
  rw [SortedMap.mem_values_iff]
  constructor
  · rintro ⟨k, h⟩
    rwa [t.keyed k r h]
  · exact fun h => ⟨r.key, h⟩

theorem values_keys_nodup (t : StatsTable) : (t.rows.values.map StatsRow.key).Nodup := by
  have hkeys : t.rows.values.map StatsRow.key = t.rows.keys := by
    simp only [SortedMap.values, SortedMap.keys, List.map_map]
    apply List.map_congr_left
    intro e he
    exact t.keyed e.1 e.2 ((t.rows.mem_entries_iff e.1 e.2).1 he)
  rw [hkeys]
  exact t.rows.keys_nodup

section Upserts

variable {rows : List StatsRow} {t : StatsTable} {k : StatsKey} {x : StatsRow}

theorem get?_upserts_of_ne (h : ∀ r ∈ rows, r.key ≠ k) :
    (rows.foldl upsert t).get? k = t.get? k := by
  induction rows generalizing t with
  | nil => rfl
  | cons r rest ih =>
    rw [List.foldl_cons, ih fun s hs => h s (List.mem_cons_of_mem r hs), get?_upsert,
      if_neg fun he => h r List.mem_cons_self he.symm]

theorem get?_upserts (h : ∀ r ∈ rows, r.key = k → r = x) :
    (rows.foldl upsert t).get? k = t.get? k ∨ (rows.foldl upsert t).get? k = some x := by
  induction rows generalizing t with
  | nil => exact .inl rfl
  | cons r rest ih =>
    rcases ih (t := t.upsert r) fun s hs => h s (List.mem_cons_of_mem r hs) with hi | hi
    · rw [List.foldl_cons, hi, get?_upsert]
      split
      · rename_i hk
        exact .inr (congrArg some (h r List.mem_cons_self hk.symm))
      · exact .inl rfl
    · exact .inr hi

theorem get?_upserts_cases {r : StatsRow} (h : (rows.foldl upsert t).get? k = some r) :
    t.get? k = some r ∨ r ∈ rows := by
  induction rows generalizing t with
  | nil => exact .inl h
  | cons first rest ih =>
    rcases ih h with hfirst | hrest
    · rw [get?_upsert] at hfirst
      split at hfirst
      · cases hfirst
        exact .inr List.mem_cons_self
      · exact .inl hfirst
    · exact .inr (List.mem_cons_of_mem first hrest)

theorem get?_upserts_of_mem (h : ∀ r ∈ rows, r.key = k → r = x) (hx : x ∈ rows) (hk : x.key = k) :
    (rows.foldl upsert t).get? k = some x := by
  induction rows generalizing t with
  | nil => cases hx
  | cons r rest ih =>
    have hrest : ∀ s ∈ rest, s.key = k → s = x := fun s hs => h s (List.mem_cons_of_mem r hs)
    rcases List.mem_cons.1 hx with rfl | hx
    · rcases get?_upserts (t := t.upsert x) hrest with hi | hi
      · rw [List.foldl_cons, hi, get?_upsert, if_pos hk.symm]
      · exact hi
    · exact ih hrest hx

end Upserts

end StatsTable

/-- A storage that is a table of rows, as far as its calls succeed. -/
class LawfulModelStore (σ : Type) [ModelStore σ] where
  /-- The stored rows. -/
  table : σ → StatsTable
  table_loadRows (s : σ) : table (ModelStore.loadRows s).2 = table s
  perm_of_loadRows {s : σ} {rows : List StatsRow} :
    (ModelStore.loadRows s).1 = .ok rows → rows.Perm (table s).rows.values
  table_upsertRows {rows : List StatsRow} {s : σ} :
    (ModelStore.upsertRows rows s).1 = .ok () →
      table (ModelStore.upsertRows rows s).2 = rows.foldl StatsTable.upsert (table s)
  table_upsertRows_error {rows : List StatsRow} {s : σ} {err : Error} :
    (ModelStore.upsertRows rows s).1 = .error err →
      ∃ part : List StatsRow, part.Sublist rows ∧
        table (ModelStore.upsertRows rows s).2 = part.foldl StatsTable.upsert (table s)
  table_deleteRows {job : Option String} {s : σ} {n : Nat} :
    (ModelStore.deleteRows job s).1 = .ok n →
      table (ModelStore.deleteRows job s).2 = (table s).delete job ∧
        n = (table s).rows.size - ((table s).delete job).rows.size
  table_deleteRows_error {job : Option String} {s : σ} {err : Error} :
    (ModelStore.deleteRows job s).1 = .error err → table (ModelStore.deleteRows job s).2 = table s
  table_latestSpeeds (now : Instant) (s : σ) : table (ModelStore.latestSpeeds now s).2 = table s

namespace Database

def stored (d : Database) : StatsTable := d.schema.stats.getD ∅

theorem stored_of_statsTable {d : Database} {t : StatsTable} (h : d.statsTable = .ok t) :
    d.stored = t := by
  obtain ⟨_, hs⟩ := table_eq_ok_iff.1 h
  rw [stored, hs]
  rfl

/-- Rows are stored in one transaction. -/
theorem stored_of_upsertRows_error {rows : List StatsRow} {d : Database} {err : Error}
    (h : (d.upsertRows rows).1 = .error err) : (d.upsertRows rows).2.stored = d.stored := by
  rw [upsertRows] at h ⊢
  split
  · rfl
  · rename_i he
    rw [if_neg he] at h
    cases ht : d.statsTable with
    | error f => rfl
    | ok t => rw [ht] at h; cases h

instance : LawfulModelStore Database where
  table := stored
  table_loadRows _ := rfl
  perm_of_loadRows {d rows} h := by
    change d.loadRows = .ok rows at h
    rw [loadRows] at h
    cases ht : d.statsTable with
    | error f => rw [ht] at h; cases h
    | ok t =>
      rw [ht] at h
      cases h
      rw [stored_of_statsTable ht]
  table_upsertRows {rows d} h := by
    change (d.upsertRows rows).1 = _ at h
    change (d.upsertRows rows).2.stored = _
    rw [upsertRows] at h ⊢
    split
    · rename_i he
      rw [List.isEmpty_iff.1 he]
      rfl
    · rename_i he
      rw [if_neg he] at h
      cases ht : d.statsTable with
      | error f => rw [ht] at h; cases h
      | ok t => rw [stored_of_statsTable ht]; rfl
  table_upsertRows_error h := ⟨[], List.nil_sublist _, stored_of_upsertRows_error h⟩
  table_deleteRows {job d n} h := by
    change (d.deleteRows job).1 = _ at h
    change (d.deleteRows job).2.stored = _ ∧ n = d.stored.rows.size - _
    rw [deleteRows] at h ⊢
    cases ht : d.statsTable with
    | error f => rw [ht] at h; cases h
    | ok t =>
      rw [ht] at h
      cases h
      rw [stored_of_statsTable ht]
      exact ⟨rfl, rfl⟩
  table_deleteRows_error {job d err} h := by
    change (d.deleteRows job).1 = _ at h
    change (d.deleteRows job).2.stored = d.stored
    rw [deleteRows] at h ⊢
    cases ht : d.statsTable with
    | error f => rfl
    | ok t => rw [ht] at h; cases h
  table_latestSpeeds _ _ := rfl

end Database

end ProviderScout
