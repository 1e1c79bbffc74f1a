import ProviderScout.Proofs.Log
import ProviderScout.Proofs.Store.Contract
import ProviderScout.Proofs.Text.Bytes
import ProviderScout.Store.Transaction

namespace ProviderScout

theorem StatsKey.compare_lt_iff (a b : StatsKey) :
    compare a b = .lt ↔ a.job < b.job ∨ a.job = b.job ∧ a.provider < b.provider := by
  change (compare a.job b.job).then (compare a.provider b.provider) = .lt ↔ _
  rw [Ordering.then_eq_lt, Std.LawfulEqOrd.compare_eq_iff_eq]
  exact or_congr compareOfLessAndEq_eq_lt (and_congr_right fun _ => Std.compare_eq_lt)

namespace StatsTable

theorem values_ascending (t : StatsTable) : t.rows.values.Pairwise fun a b =>
    Text.bytes a.job < Text.bytes b.job ∨ a.job = b.job ∧ a.provider < b.provider := by
  rw [SortedMap.values, List.pairwise_map]
  apply t.rows.ascending.imp_of_mem
  rintro ⟨k, a⟩ ⟨l, b⟩ ha hb hless
  obtain rfl := t.keyed k a ((t.rows.mem_entries_iff k a).1 ha)
  obtain rfl := t.keyed l b ((t.rows.mem_entries_iff l b).1 hb)
  rw [Text.bytes_lt_iff]
  exact (StatsKey.compare_lt_iff _ _).1 hless

theorem values_delete (t : StatsTable) (job : Option String) :
    (t.delete job).rows.values = t.rows.values.filter fun r => job.any (· != r.job) := by
  rw [SortedMap.values, SortedMap.values, List.filter_map]
  rfl

@[ext] theorem ext_get? {t u : StatsTable} (h : ∀ k, t.get? k = u.get? k) : t = u := by
  have hrows : t.rows = u.rows := SortedMap.ext_get? h
  cases t
  cases u
  cases hrows
  rfl

theorem delete_none (t : StatsTable) : t.delete none = ∅ := by
  ext1 k
  exact (t.get?_delete none k).trans (if_pos rfl)

/-- A row that takes over all columns but the key of another is the other row. -/
theorem insertOrUpdate_eq (t : StatsTable) (r : StatsRow) : t.insertOrUpdate r = t.upsert r := by
  ext1 k
  rw [get?_upsert]
  change (t.rows.alter r.key _).get? k = _
  rw [SortedMap.get?_alter]
  split
  · cases hold : t.rows.get? r.key with
    | none => rfl
    | some old =>
      have hkey : old.key = r.key := t.keyed r.key old hold
      obtain ⟨hjob, hprovider⟩ := StatsKey.mk.inj hkey
      dsimp only
      rw [hjob, hprovider]
  · rfl

end StatsTable

namespace Database

variable {d : Database} {t : StatsTable}

theorem statsTable_withStats (h : d.statsTable = .ok t) (u : StatsTable) :
    (d.withStats u).statsTable = .ok u :=
  table_eq_ok_iff.2 ⟨(table_eq_ok_iff.1 h).1, rfl⟩

theorem withStats_of_statsTable (h : d.statsTable = .ok t) : d.withStats t = d := by
  obtain ⟨_, hs⟩ := table_eq_ok_iff.1 h
  rw [withStats, ← hs]

end Database

def TransactionStep.Among (count : Nat) : TransactionStep → Prop
  | .start => True
  | .row index => index < count
  | .commit => True

namespace Transaction

variable {refusals : Refusals} {rows : List StatsRow} {tx : Transaction}

theorem start_eq {d : Database} (h : d.isOpen = true) (hstart : refusals .start = none) :
    start refusals d = .ok ⟨d, d⟩ := by
  rw [start, h, hstart]
  rfl

theorem start_cases (refusals : Refusals) (d : Database) :
    (∃ f, start refusals d = .error f) ∨
      d.isOpen = true ∧ refusals .start = none ∧ start refusals d = .ok ⟨d, d⟩ := by
  cases hopen : d.isOpen with
  | false =>
    left
    rw [start, hopen]
    exact ⟨.closed, rfl⟩
  | true =>
    cases hstart : refusals .start with
    | some f =>
      left
      rw [start, hopen, hstart]
      exact ⟨.sql f, rfl⟩
    | none => exact .inr ⟨rfl, rfl, start_eq hopen hstart⟩

theorem committed_execute (refused : Option SqlFault) (r : StatsRow) :
    (tx.execute refused r).2.committed = tx.committed := by
  cases refused with
  | some f => rfl
  | none =>
    rw [execute]
    cases tx.pending.statsTable <;> rfl

theorem committed_executeAll (i : Nat) :
    (tx.executeAll refusals i rows).2.committed = tx.committed := by
  induction rows generalizing i tx with
  | nil => rfl
  | cons r rows ih =>
    have hfirst := tx.committed_execute (refusals (.row i)) r
    rw [executeAll]
    split
    · rename_i h
      rw [h] at hfirst
      exact hfirst
    · rename_i h
      rw [h] at hfirst
      rw [ih]
      exact hfirst

theorem execute_allowed {t : StatsTable} (ht : tx.pending.statsTable = .ok t) (r : StatsRow) :
    tx.execute none r = (.ok (), { tx with pending := tx.pending.withStats (t.upsert r) }) := by
  rw [← t.insertOrUpdate_eq, execute, ht]

theorem executeAll_allowed {i : Nat} (h : ∀ j < rows.length, refusals (.row (i + j)) = none)
    {t : StatsTable} (ht : tx.pending.statsTable = .ok t) :
    tx.executeAll refusals i rows =
      (.ok (), { tx with pending := tx.pending.withStats (rows.foldl StatsTable.upsert t) }) := by
  induction rows generalizing i tx t with
  | nil =>
    rw [List.foldl_nil, Database.withStats_of_statsTable ht]
    rfl
  | cons r rows ih =>
    have hfirst : refusals (.row i) = none := h 0 (Nat.zero_lt_succ _)
    have hrest : ∀ j < rows.length, refusals (.row (i + 1 + j)) = none := by
      intro j hj
      rw [Nat.add_assoc, Nat.add_comm 1]
      exact h (j + 1) (Nat.succ_lt_succ hj)
    rw [executeAll, hfirst, execute_allowed ht]
    exact ih hrest (Database.statsTable_withStats ht _)

theorem executeAll_refused {i j : Nat} (hj : j < rows.length) (h : refusals (.row (i + j)) ≠ none) :
    ∃ f, (tx.executeAll refusals i rows).1 = .error f := by
  induction rows generalizing i j tx with
  | nil => cases hj
  | cons r rows ih =>
    rw [executeAll]
    split
    -- an earlier row may have been refused before
    · rename_i f _ hfirst
      exact ⟨f, rfl⟩
    · rename_i tx' hfirst
      cases j with
      | zero =>
        obtain ⟨f, hf⟩ := Option.ne_none_iff_exists'.1 h
        rw [Nat.add_zero] at hf
        rw [hf] at hfirst
        cases hfirst
      | succ j =>
        apply ih (Nat.lt_of_succ_lt_succ hj)
        rwa [Nat.add_assoc, Nat.add_comm 1]

/-- A transaction that fails leaves the database as it was, whatever it has written. -/
theorem store_of_error {err : Error} (h : (tx.store refusals rows).1 = .error err) :
    (tx.store refusals rows).2 = tx.committed := by
  have hcommitted : (tx.executeAll refusals 0 rows).2.committed = tx.committed :=
    committed_executeAll 0
  rw [store] at h ⊢
  split
  · rename_i hrun
    rw [hrun] at hcommitted
    exact hcommitted
  · rename_i hrun
    rw [hrun] at h hcommitted
    cases hcommit : refusals .commit with
    | some f => exact hcommitted
    | none =>
      rw [hcommit] at h
      cases h

theorem store_allowed (hrows : ∀ j < rows.length, refusals (.row j) = none)
    (hcommit : refusals .commit = none) {t : StatsTable} (ht : tx.pending.statsTable = .ok t) :
    tx.store refusals rows = (.ok (), tx.pending.withStats (rows.foldl StatsTable.upsert t)) := by
  have hall : ∀ j < rows.length, refusals (.row (0 + j)) = none := by
    intro j hj
    rw [Nat.zero_add]
    exact hrows j hj
  rw [store, executeAll_allowed hall ht, hcommit]

theorem store_of_missing {f : QueryFault} (ht : tx.pending.statsTable = .error f)
    (hrows : rows ≠ []) (hfirst : refusals (.row 0) = none) :
    tx.store refusals rows = (.error (f.error "upsert provider stats"), tx.committed) := by
  obtain ⟨r, rest, rfl⟩ := List.exists_cons_of_ne_nil hrows
  rw [store, executeAll, hfirst, execute, ht]
  rfl

theorem store_refused (h : (∃ j < rows.length, refusals (.row j) ≠ none) ∨ refusals .commit ≠ none) :
    ∃ err, (tx.store refusals rows).1 = .error err := by
  rw [store]
  split
  · exact ⟨_, rfl⟩
  · rename_i hrun
    obtain ⟨j, hj, hrefused⟩ | hrefused := h
    · rw [← Nat.zero_add j] at hrefused
      have herror : ∃ f, (tx.executeAll refusals 0 rows).1 = .error f :=
        executeAll_refused hj hrefused
      obtain ⟨f, hf⟩ := herror
      rw [hrun] at hf
      cases hf
    · obtain ⟨f, hf⟩ := Option.ne_none_iff_exists'.1 hrefused
      rw [hf]
      exact ⟨_, rfl⟩

end Transaction

namespace Database

section Steps

variable {refusals : Refusals} {rows : List StatsRow} {d : Database}

theorem upsertInSteps_of_error {err : Error} (h : (d.upsertInSteps refusals rows).1 = .error err) :
    (d.upsertInSteps refusals rows).2 = d := by
  rw [upsertInSteps] at h ⊢
  split
  · rfl
  · rename_i hrows
    rw [if_neg hrows] at h
    rcases Transaction.start_cases refusals d with ⟨f, hstart⟩ | ⟨_, _, hstart⟩
    · rw [hstart]
    · rw [hstart] at h ⊢
      exact Transaction.store_of_error h

theorem upsertInSteps_refused (hrows : rows ≠ [])
    (h : ∃ step, step.Among rows.length ∧ refusals step ≠ none) :
    ∃ err, d.upsertInSteps refusals rows = (.error err, d) := by
  have hfails : ∃ err, (d.upsertInSteps refusals rows).1 = .error err := by
    rw [upsertInSteps, if_neg fun he => hrows (List.isEmpty_iff.1 he)]
    rcases Transaction.start_cases refusals d with ⟨f, hstart⟩ | ⟨_, hnone, hstart⟩
    · rw [hstart]
      exact ⟨_, rfl⟩
    · rw [hstart]
      apply Transaction.store_refused
      obtain ⟨step, hstep, hrefused⟩ := h
      cases step with
      | start => exact absurd hnone hrefused
      | row j => exact .inl ⟨j, hstep, hrefused⟩
      | commit => exact .inr hrefused
  obtain ⟨err, herr⟩ := hfails
  exact ⟨err, Prod.ext herr (upsertInSteps_of_error herr)⟩

/-- If no step is refused, rows are stored as by a single statement. -/
theorem upsertInSteps_allowed (h : ∀ step, step.Among rows.length → refusals step = none) :
    d.upsertInSteps refusals rows = d.upsertRows rows := by
  rw [upsertInSteps, upsertRows]
  split
  · rfl
  · rename_i hempty
    have hrows : rows ≠ [] := fun he => hempty (List.isEmpty_iff.2 he)
    have hfirst : refusals (.row 0) = none := h (.row 0) (List.length_pos_iff.2 hrows)
    cases hopen : d.isOpen with
    | false =>
      have hclosed : d.statsTable = .error .closed := table_eq_closed_iff.2 hopen
      have hstart : Transaction.start refusals d = .error .closed := by
        rw [Transaction.start, hopen]
        rfl
      rw [hclosed, hstart]
      rfl
    | true =>
      rw [Transaction.start_eq hopen (h .start trivial)]
      dsimp only
      cases ht : d.statsTable with
      | ok t => exact Transaction.store_allowed (fun j hj => h (.row j) hj) (h .commit trivial) ht
      | error f =>
        cases f with
        | closed => cases hopen.symm.trans (table_eq_closed_iff.1 ht)
        | sql f => exact Transaction.store_of_missing ht hrows hfirst

theorem upsertRows_eq {t : StatsTable} (ht : d.statsTable = .ok t) (rows : List StatsRow) :
    d.upsertRows rows = (.ok (), d.withStats (rows.foldl StatsTable.upsert t)) := by
  cases rows with
  | nil => exact congrArg (Prod.mk _) (withStats_of_statsTable ht).symm
  | cons r rows =>
    rw [upsertRows, ht]
    rfl

theorem upsertInSteps_cases {t : StatsTable} (ht : d.statsTable = .ok t) (refusals : Refusals)
    (rows : List StatsRow) :
    d.upsertInSteps refusals rows = (.ok (), d.withStats (rows.foldl StatsTable.upsert t)) ∨
      ∃ err, d.upsertInSteps refusals rows = (.error err, d) := by
  by_cases hallowed : ∀ step, step.Among rows.length → refusals step = none
  · rw [upsertInSteps_allowed hallowed]
    exact .inl (upsertRows_eq ht rows)
  · by_cases hrows : rows = []
    · subst hrows
      exact .inl (upsertRows_eq ht [])
    · right
      apply upsertInSteps_refused hrows
      by_contra hnone
      apply hallowed
      intro step hstep
      by_contra hrefused
      exact hnone ⟨step, hstep, hrefused⟩

end Steps

end Database

/-- A change of the stored performances. -/
inductive StatsChange where
  | put (row : StatsRow)
  | remove (job : Option String)

namespace StatsChange

def Touches (k : StatsKey) : StatsChange → Prop
  | put row => row.key = k
  | remove job => job.all (· == k.job) = true

def apply (t : StatsTable) : StatsChange → StatsTable
  | put row => t.upsert row
  | remove job => t.delete job

theorem get?_apply_of_not_touches {c : StatsChange} {k : StatsKey} (h : ¬ c.Touches k)
    (t : StatsTable) : (c.apply t).get? k = t.get? k := by
  cases c with
  | put row =>
    rw [apply, StatsTable.get?_upsert]
    exact if_neg (Ne.symm h)
  | remove job =>
    rw [apply, StatsTable.get?_delete]
    exact if_neg h

theorem get?_apply_of_touches {c : StatsChange} {k : StatsKey} (h : c.Touches k) (t : StatsTable)
    (r : StatsRow) : (c.apply t).get? k = some r ↔ c = put r := by
  cases c with
  | put row =>
    rw [apply, StatsTable.get?_upsert, if_pos (Eq.symm h), Option.some_inj, put.injEq]
  | remove job =>
    have hall : job.all (· == k.job) = true := h
    rw [apply, StatsTable.get?_delete, if_pos hall]
    exact ⟨nofun, nofun⟩

/-- What is found at a key is the last row put there, unless it was removed since. -/
theorem get?_foldl_apply_iff (t : StatsTable) (log : List StatsChange) (r : StatsRow) :
    (log.foldl apply t).get? r.key = some r ↔
      LastOf (Touches r.key) (put r) log ∨
        t.get? r.key = some r ∧ ∀ c ∈ log, ¬ c.Touches r.key := by
  induction log using List.reverseRecOn with
  | nil =>
    constructor
    · intro h
      exact .inr ⟨h, List.forall_mem_nil _⟩
    · rintro (⟨before, later, hlog, _⟩ | ⟨h, _⟩)
      · exact absurd hlog.symm (List.append_ne_nil_of_right_ne_nil _ (List.cons_ne_nil _ _))
      · exact h
  | append_singleton log c ih =>
    rw [List.foldl_append, lastOf_snoc_iff, List.forall_mem_append, List.forall_mem_singleton]
    change (c.apply (log.foldl apply t)).get? r.key = some r ↔ _
    by_cases hc : c.Touches r.key
    · rw [get?_apply_of_touches hc]
      constructor
      · exact fun h => .inl (.inl h)
      · rintro ((h | ⟨hnot, _⟩) | ⟨_, _, hnot⟩)
        · exact h
        · exact absurd hc hnot
        · exact absurd hc hnot
    · rw [get?_apply_of_not_touches hc, ih]
      constructor
      · rintro (h | ⟨hget, hnone⟩)
        · exact .inl (.inr ⟨hc, h⟩)
        · exact .inr ⟨hget, hnone, hc⟩
      · rintro ((rfl | ⟨_, h⟩) | ⟨hget, hnone, _⟩)
        · exact absurd rfl hc
        · exact .inl h
        · exact .inr ⟨hget, hnone⟩

theorem foldl_apply_put (t : StatsTable) (rows : List StatsRow) :
    (rows.map put).foldl apply t = rows.foldl StatsTable.upsert t :=
  List.foldl_map

end StatsChange

/-- A call that changes the stored performances, and what the engine refuses of it. -/
inductive StatsCall where
  | upsert (rows : List StatsRow) (refusals : Refusals)
  | delete (job : Option String) (refused : Option SqlFault)

namespace Database

def deleteUnlessRefused (refused : Option SqlFault) (job : Option String) (d : Database) :
    Except Error Nat × Database :=
  match refused with
  | some f => (.error ((QueryFault.sql f).error "delete provider stats"), d)
  | none => d.deleteRows job

def perform (d : Database) : StatsCall → List StatsChange × Database
  | .upsert rows refusals => match d.upsertInSteps refusals rows with
    | (.ok (), d) => (rows.map .put, d)
    | (.error _, d) => ([], d)
  | .delete job refused => match d.deleteUnlessRefused refused job with
    | (.ok _, d) => ([.remove job], d)
    | (.error _, d) => ([], d)

def performAll (d : Database) : List StatsCall → List StatsChange × Database
  | [] => ([], d)
  | c :: calls =>
    let (changes, d) := d.perform c
    let (more, d) := d.performAll calls
    (changes ++ more, d)

variable {d : Database} {t : StatsTable}

theorem deleteRows_eq (ht : d.statsTable = .ok t) (job : Option String) :
    d.deleteRows job =
      (.ok (t.rows.values.countP fun r => job.all (· == r.job)), d.withStats (t.delete job)) := by
  rw [← t.size_delete, deleteRows, ht]

theorem perform_snd (ht : d.statsTable = .ok t) (c : StatsCall) :
    (d.perform c).2 = d.withStats ((d.perform c).1.foldl StatsChange.apply t) := by
  cases c with
  | upsert rows refusals =>
    rcases upsertInSteps_cases ht refusals rows with h | ⟨err, h⟩
    · rw [perform, h]
      dsimp only
      rw [StatsChange.foldl_apply_put]
    · rw [perform, h]
      exact (withStats_of_statsTable ht).symm
  | delete job refused =>
    cases refused with
    | some f => exact (withStats_of_statsTable ht).symm
    | none =>
      rw [perform, deleteUnlessRefused, deleteRows_eq ht]
      rfl

theorem performAll_snd (ht : d.statsTable = .ok t) (calls : List StatsCall) :
    (d.performAll calls).2 = d.withStats ((d.performAll calls).1.foldl StatsChange.apply t) := by
  induction calls generalizing d t with
  | nil => exact (withStats_of_statsTable ht).symm
  | cons c calls ih =>
    have hfirst := perform_snd ht c
    have htable : (d.perform c).2.statsTable =
        .ok ((d.perform c).1.foldl StatsChange.apply t) := by
      rw [hfirst]
      exact statsTable_withStats ht _
    have hrest := ih htable
    rw [performAll]
    dsimp only
    rw [List.foldl_append, hrest, hfirst]
    rfl

/-- The stored performances are a map from keys to the last rows stored there and not deleted since.
What is read of one job, and what is deleted, is the part of that job. A batch of which a step is
refused changes nothing; any other is stored as a whole. -/
theorem statsTable_of_calls (ht : d.statsTable = .ok t) (calls : List StatsCall) :
    let log := (d.performAll calls).1
    let later := (d.performAll calls).2
    ∃ rows, later.loadRows = .ok rows ∧
      (rows.Pairwise fun a b =>
        Text.bytes a.job < Text.bytes b.job ∨ a.job = b.job ∧ a.provider < b.provider) ∧
      (∀ r, r ∈ rows ↔ LastOf (StatsChange.Touches r.key) (.put r) log ∨
        r ∈ t.rows.values ∧ ∀ c ∈ log, ¬ c.Touches r.key) ∧
      (∀ job, later.jobRows job = .ok (rows.filter (·.job == job))) ∧
      (∀ job, ∃ kept, later.deleteRows (some job) =
          (.ok (rows.countP (·.job == job)), later.withStats kept) ∧
        kept.rows.values = rows.filter (·.job != job)) ∧
      later.deleteRows none = (.ok rows.length, later.withStats ∅) ∧
      (∀ batch refusals, batch ≠ [] →
        (∃ step : TransactionStep, step.Among batch.length ∧ refusals step ≠ none) →
          ∃ err, later.upsertInSteps refusals batch = (.error err, later)) ∧
      (∀ batch refusals, (∀ step : TransactionStep, step.Among batch.length → refusals step = none) →
        later.upsertInSteps refusals batch = later.upsertRows batch ∧
          (later.upsertRows batch).1 = .ok ()) ∧
      ∃ kept, later = d.withStats kept := by
  intro log later
  have hlater : later = d.withStats (log.foldl StatsChange.apply t) := performAll_snd ht calls
  obtain ⟨u, hu⟩ : ∃ u, log.foldl StatsChange.apply t = u := ⟨_, rfl⟩
  rw [hu] at hlater
  have htable : later.statsTable = .ok u := by
    rw [hlater]
    exact statsTable_withStats ht u
  refine ⟨u.rows.values, ?_, u.values_ascending, ?_, ?_, ?_, ?_, ?_, ?_, u, hlater⟩
  · rw [loadRows, htable]
    rfl
  · intro r
    rw [u.mem_values_iff, t.mem_values_iff, ← hu, StatsChange.get?_foldl_apply_iff]
  · intro job
    rw [jobRows, htable]
    rfl
  · intro job
    have hcomm (r : StatsRow) : (job == r.job) = (r.job == job) := BEq.comm
    refine ⟨u.delete (some job), ?_, ?_⟩
    · rw [deleteRows_eq htable]
      simp only [Option.all_some, hcomm]
    · rw [u.values_delete]
      simp only [Option.any_some, bne, hcomm]
  · have hall : u.rows.values.countP (fun r => Option.all (· == r.job) none) =
        u.rows.values.length := List.countP_eq_length.2 fun _ _ => rfl
    rw [deleteRows_eq htable, hall, u.delete_none]
  · intro batch refusals hbatch hrefused
    exact upsertInSteps_refused hbatch hrefused
  · intro batch refusals hallowed
    refine ⟨upsertInSteps_allowed hallowed, ?_⟩
    rw [upsertRows_eq htable]

/-- A batch that holds one key twice is stored, one that is refused at its second row is not. -/
theorem statsTable_of_calls_of_refused_row :
    let row (job : String) (provider bytes : Column) : StatsRow :=
      ⟨job, provider, 1, 0, bytes, 10, 0, 1700000000⟩
    let calls : List StatsCall :=
      [.upsert [row "b" 0 1, row "a" 1 2, row "b" 0 3] fun _ => none,
        .upsert [row "a" 1 9, row "c" 0 9] fun step => if step = .row 1 then some .full else none,
        .upsert [row "a" (-1) 4, row "d" 0 5] fun _ => none,
        .delete (some "d") none]
    let d : Database := .fresh
    let later := (d.performAll calls).2
    let rows := [row "a" (-1) 4, row "a" 1 2, row "b" 0 3]
    d.statsTable = .ok ∅ ∧ later.loadRows = .ok rows ∧
      later.jobRows "a" = .ok [row "a" (-1) 4, row "a" 1 2] ∧
      later.deleteRows none = (.ok 3, later.withStats ∅) ∧
      LastOf (StatsChange.Touches ⟨"b", 0⟩) (.put (row "b" 0 3)) (d.performAll calls).1 := by
  intro row calls d later rows
  have ht : d.statsTable = .ok ∅ := rfl
  obtain ⟨found, hload, _, hlast, hjob, _, hdelete, _⟩ := statsTable_of_calls ht calls
  have hfound : found = rows := by
    have hread : later.loadRows.toOption = some rows := by decide +kernel
    rw [hload] at hread
    exact Option.some.inj hread
  subst hfound
  refine ⟨ht, hload, hjob "a", hdelete, ?_⟩
  have hmem : row "b" 0 3 ∈ rows := by decide
  exact ((hlast _).1 hmem).resolve_right fun h => nomatch h.1

end Database

end ProviderScout
