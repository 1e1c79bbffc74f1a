import ProviderScout.Proofs.Store.Contract
import ProviderScout.Store.Memory

namespace ProviderScout

/-- What becomes of a call to a storage. -/
inductive CallFate where
  | success
  /-- The call fails. Of rows that it was to store, those that are marked are stored all the
  same. -/
  | failure (marks : List Bool)

/-- A table of rows whose next calls have the fates of a list; calls after those succeed. -/
structure FatefulStore where
  table : StatsTable
  fates : List CallFate

namespace FatefulStore

/-- The fate of the next call and the storage for those after it. -/
def next (s : FatefulStore) : CallFate × FatefulStore :=
  match s.fates with
  | [] => (.success, s)
  | fate :: fates => (fate, { s with fates := fates })

def marked (rows : List StatsRow) (marks : List Bool) : List StatsRow :=
  ((rows.zip marks).filter (·.2)).map (·.1)

theorem marked_sublist (rows : List StatsRow) (marks : List Bool) :
    (marked rows marks).Sublist rows := by
  induction rows generalizing marks with
  | nil => exact .slnil
  | cons r rows ih =>
    cases marks with
    | nil => exact List.nil_sublist _
    | cons m marks =>
      cases m with
      | false => exact (ih marks).cons r
      | true => exact (ih marks).cons_cons r

instance : ModelStore FatefulStore where
  loadRows s := match s.next with
    | (.success, s) => (.ok s.table.rows.values, s)
    | (.failure _, s) => (.error storeOffline, s)
  upsertRows rows s := match s.next with
    | (.success, s) => (.ok (), { s with table := rows.foldl StatsTable.upsert s.table })
    | (.failure marks, s) =>
      (.error storeOffline, { s with table := (marked rows marks).foldl StatsTable.upsert s.table })
  deleteRows job s := match s.next with
    | (.success, s) =>
      let kept := s.table.delete job
      (.ok (s.table.rows.size - kept.rows.size), { s with table := kept })
    | (.failure _, s) => (.error storeOffline, s)
  latestSpeeds _ s := match s.next with
    | (.success, s) => (.ok [], s)
    | (.failure _, s) => (.error storeOffline, s)

instance : LawfulModelStore FatefulStore where
  table := table
  table_loadRows s := by
    obtain ⟨t, _ | ⟨_ | _, _⟩⟩ := s <;> rfl
  perm_of_loadRows {s rows} h := by
    obtain ⟨t, _ | ⟨_ | _, _⟩⟩ := s <;> cases h <;> exact .refl _
  table_upsertRows {rows s} h := by
    obtain ⟨t, _ | ⟨_ | _, _⟩⟩ := s
    · rfl
    · rfl
    · cases h
  table_upsertRows_error {rows s err} h := by
    obtain ⟨t, _ | ⟨_ | marks, _⟩⟩ := s
    · cases h
    · cases h
    · exact ⟨marked rows marks, marked_sublist rows marks, rfl⟩
  table_deleteRows {job s n} h := by
    obtain ⟨t, _ | ⟨_ | _, _⟩⟩ := s <;> cases h <;> exact ⟨rfl, rfl⟩
  table_deleteRows_error {job s err} h := by
    obtain ⟨t, _ | ⟨_ | _, _⟩⟩ := s
    · cases h
    · cases h
    · rfl
  table_latestSpeeds now s := by
    obtain ⟨t, _ | ⟨_ | _, _⟩⟩ := s <;> rfl

end FatefulStore

end ProviderScout
