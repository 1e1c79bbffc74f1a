import Mathlib.Data.List.TakeWhile
import ProviderScout.SortedMap.Lookup
import ProviderScout.Store.Schema

namespace ProviderScout

namespace SortedMap

variable {κ ν : Type} [Ord κ] [Std.TransOrd κ]

theorem keys_insert_of_above {m : SortedMap κ ν} {k : κ} (h : ∀ a ∈ m.keys, compare k a = .gt)
    (v : ν) : (m.insert k v).keys = m.keys ++ [k] := by
  have hlist (l : List (κ × ν)) (hl : ∀ a ∈ l.map (·.1), compare k a = .gt) :
      alterList k (fun _ => some v) l = l ++ [(k, v)] := by
    induction l with
    | nil => rfl
    | cons e rest ih =>
      rw [List.map_cons, List.forall_mem_cons] at hl
      rw [alterList, hl.1, ih hl.2]
      rfl
  have hentries : (m.insert k v).entries = m.entries ++ [(k, v)] := hlist m.entries h
  rw [keys, hentries, List.map_append]
  rfl

theorem keys_inserts_of_above {m : SortedMap κ Unit} {ks : List κ}
    (habove : ∀ k ∈ ks, ∀ a ∈ m.keys, compare k a = .gt)
    (hks : ks.Pairwise fun a b => compare a b = .lt) :
    (ks.foldl (fun m k => m.insert k ()) m).keys = m.keys ++ ks := by
  induction ks generalizing m with
  | nil => exact (List.append_nil _).symm
  | cons k rest ih =>
    rw [List.forall_mem_cons] at habove
    rw [List.pairwise_cons] at hks
    have hkeys := keys_insert_of_above habove.1 ()
    rw [List.foldl_cons, ih (m := m.insert k ()) ?_ hks.2, hkeys, List.append_assoc]
    · rfl
    · rw [hkeys]
      intro b hb a ha
      rcases List.mem_append.1 ha with ha | ha
      · exact habove.2 b hb a ha
      · rw [List.mem_singleton.1 ha]
        exact Std.OrientedCmp.gt_of_lt (hks.1 b hb)

omit [Std.TransOrd κ] in
theorem le_getLast {m : SortedMap κ ν} {last : κ} (h : m.keys.getLast? = some last) :
    ∀ a ∈ m.keys, a = last ∨ compare a last = .lt := by
  obtain ⟨front, hfront⟩ := List.getLast?_eq_some_iff.1 h
  have hascending : m.keys.Pairwise fun a b => compare a b = .lt :=
    List.pairwise_map.2 m.ascending
  rw [hfront, List.pairwise_append] at hascending
  intro a ha
  rw [hfront, List.mem_append, List.mem_singleton] at ha
  rcases ha with ha | ha
  · exact .inr (hascending.2.2 a ha last (List.mem_singleton_self last))
  · exact .inl ha

end SortedMap

namespace Schema

def Step.name : Step → String
  | .createStats => statsName
  | .createEvents => EventTable.name
  | .createBenchmarks => BenchmarkTable.name
  | .createIndex index _ => index.name

def isFree (c : Schema) : Step → Bool
  | .createIndex index _ => !c.indexNames.contains index.name
  | s => !c.tableNames.contains s.name && !c.indexNames.contains s.name

def making (c : Schema) : Step → Schema
  | .createStats => { c with stats := some ∅ }
  | .createEvents => { c with events := some .empty }
  | .createBenchmarks => { c with benchmarks := some .empty }
  | .createIndex index _ => { c with indexes := c.indexes ++ [index] }

theorem newTable_map (c d : Schema) (name : String) :
    if !c.tableNames.contains name && !c.indexNames.contains name then
      (c.newTable name).map (fun _ => d) = .ok d
    else ∃ f, (c.newTable name).map (fun _ => d) = .error f := by
  rw [newTable]
  cases c.tableNames.contains name <;> cases c.indexNames.contains name <;> simp [Except.map]

theorem apply_eq (c : Schema) (s : Step) :
    if c.isFree s then c.apply s = .ok (c.making s) else ∃ f, c.apply s = .error f := by
  cases s with
  | createIndex index label =>
    by_cases h : index.name ∈ c.indexNames <;> simp [isFree, apply, making, h]
  | _ => exact c.newTable_map _ _

theorem mem_tableNames_iff (c : Schema) (name : String) :
    name ∈ c.tableNames ↔
      c.stats.isSome = true ∧ name = statsName ∨
      c.benchmarks.isSome = true ∧ name = BenchmarkTable.name ∨
      c.events.isSome = true ∧ name = EventTable.name ∨
      c.versions ≠ .missing ∧ name = versionName := by
  simp only [tableNames, List.mem_append, List.mem_ite_nil_right, List.mem_singleton, or_assoc]
  cases c.versions <;> simp

theorem mem_tableNames_making {s : Step} {name : String} (h : name ≠ s.name) (c : Schema) :
    name ∈ (c.making s).tableNames ↔ name ∈ c.tableNames := by
  rw [mem_tableNames_iff, mem_tableNames_iff]
  cases s with
  | createStats =>
    have hne : name ≠ statsName := h
    simp only [making, hne, and_false]
  | createEvents =>
    have hne : name ≠ EventTable.name := h
    simp only [making, hne, and_false]
  | createBenchmarks =>
    have hne : name ≠ BenchmarkTable.name := h
    simp only [making, hne, and_false]
  | createIndex index label => rfl

theorem mem_indexNames_making {s : Step} {name : String} (h : name ≠ s.name) (c : Schema) :
    name ∈ (c.making s).indexNames ↔ name ∈ c.indexNames := by
  cases s with
  | createIndex index label =>
    have hne : name ≠ index.name := h
    simp [indexNames, making, hne]
  | _ => rfl

theorem isFree_making {s s' : Step} (h : s'.name ≠ s.name) (c : Schema) :
    (c.making s).isFree s' = c.isFree s' := by
  have htables : (c.making s).tableNames.contains s'.name = c.tableNames.contains s'.name := by
    rw [Bool.eq_iff_iff, List.contains_iff_mem, List.contains_iff_mem, mem_tableNames_making h]
  have hindexes : (c.making s).indexNames.contains s'.name = c.indexNames.contains s'.name := by
    rw [Bool.eq_iff_iff, List.contains_iff_mem, List.contains_iff_mem, mem_indexNames_making h]
  cases s' with
  | createIndex index label => exact congrArg (!·) hindexes
  | _ => simp only [isFree, htables, hindexes]

/-- Changes under different names are made one after the other exactly if all names are free. -/
theorem foldlM_apply {steps : List Step} (hnames : (steps.map Step.name).Nodup) (c : Schema) :
    if steps.all c.isFree then
      steps.foldlM (fun c s => (c.apply s).mapError (migrationError s.label)) c =
        .ok (steps.foldl making c)
    else ∃ e, steps.foldlM (fun c s => (c.apply s).mapError (migrationError s.label)) c =
      .error e := by
  induction steps generalizing c with
  | nil => rfl
  | cons s rest ih =>
    rw [List.map_cons, List.nodup_cons] at hnames
    have hs := c.apply_eq s
    have hrest : rest.all (c.making s).isFree = rest.all c.isFree := by
      rw [List.all_eq, List.all_eq, decide_eq_decide]
      apply forall₂_congr
      intro s' hs'
      rw [isFree_making fun hname => hnames.1 (hname ▸ List.mem_map_of_mem hs')]
    rw [List.all_cons, List.foldlM_cons]
    cases hfree : c.isFree s with
    | false =>
      rw [hfree, if_neg Bool.false_ne_true] at hs
      obtain ⟨f, hf⟩ := hs
      rw [hf]
      exact ⟨_, rfl⟩
    | true =>
      rw [hfree, if_pos rfl] at hs
      rw [hs, Bool.true_and, ← hrest]
      exact ih hnames.2 (c.making s)

def record (c : Schema) : SortedMap Int64 Unit :=
  match c.versions with
  | .proper versions | .withoutTime versions => versions
  | .missing | .withoutVersion => ∅

/-- The versions above all on record, in order. -/
def due (c : Schema) : List Int64 :=
  [1, 2, 3].filter fun version => c.record.keys.all (· < version)

def tableOf (version : Int64) : String :=
  if version = 1 then statsName
  else if version = 2 then EventTable.name
  else BenchmarkTable.name

def indexesOf (version : Int64) : List Index :=
  if version = 2 then [
    ⟨"idx_usage_events_created_at", EventTable.name⟩,
    ⟨"idx_usage_events_provider_host", EventTable.name⟩,
    ⟨"idx_usage_events_operation_type", EventTable.name⟩]
  else if version = 3 then [⟨"idx_benchmarks_provider", BenchmarkTable.name⟩]
  else []

/-- Whether none of the names is taken that a version gives to what it makes. -/
def hasRoom (c : Schema) (version : Int64) : Bool :=
  !c.tableNames.contains (tableOf version) && !c.indexNames.contains (tableOf version) &&
    (indexesOf version).all fun i => !c.indexNames.contains i.name

/-- The contents with what some versions make and with these versions on record. All that was there
before stays as it was. -/
def adding (versions : List Int64) (c : Schema) : Schema where
  stats := c.stats.or (if 1 ∈ versions then some ∅ else none)
  events := c.events.or (if 2 ∈ versions then some .empty else none)
  benchmarks := c.benchmarks.or (if 3 ∈ versions then some .empty else none)
  versions := .proper (versions.foldl (fun record version => record.insert version ()) c.record)
  indexes := c.indexes ++ versions.flatMap indexesOf

/-- Whether the table of versions is as it should be or not there yet, and nothing else has its
name. -/
structure IsRegular (c : Schema) : Prop where
  versions : c.versions = .missing ∨ ∃ record, c.versions = .proper record
  indexes : versionName ∉ c.indexNames

theorem adding_adding (front back : List Int64) (c : Schema) :
    (c.adding front).adding back = c.adding (front ++ back) := by
  have hor {τ : Type} (table : Option τ) (new : τ) (version : Int64) :
      (table.or (if version ∈ front then some new else none)).or
          (if version ∈ back then some new else none) =
        table.or (if version ∈ front ++ back then some new else none) := by
    rw [Option.or_assoc]
    by_cases hfront : version ∈ front <;> simp [hfront]
  simp only [adding, hor, List.foldl_append, List.flatMap_append, List.append_assoc]
  rfl

theorem adding_nil {c : Schema} {versions : SortedMap Int64 Unit}
    (h : c.versions = .proper versions) : c.adding [] = c := by
  have hrecord : c.record = versions := by rw [record, h]
  cases c
  cases h
  simp [adding, hrecord]

theorem isFree_foldl_making {steps : List Step} {s : Step} (h : ∀ s' ∈ steps, s.name ≠ s'.name)
    (c : Schema) : (steps.foldl making c).isFree s = c.isFree s := by
  induction steps generalizing c with
  | nil => rfl
  | cons s' rest ih =>
    rw [List.forall_mem_cons] at h
    rw [List.foldl_cons, ih h.2, isFree_making h.1]

theorem isFree_versions {s : Step} (h : s.name ≠ versionName) (c : Schema)
    (versions : VersionTable) :
    ({ c with versions := versions } : Schema).isFree s = c.isFree s := by
  have htables : ({ c with versions := versions } : Schema).tableNames.contains s.name =
      c.tableNames.contains s.name := by
    rw [Bool.eq_iff_iff, List.contains_iff_mem, List.contains_iff_mem, mem_tableNames_iff,
      mem_tableNames_iff]
    simp only [h, and_false]
  cases s with
  | createIndex index label => rfl
  | _ => simp only [isFree, htables]; rfl

theorem versions_foldl_making (steps : List Step) (c : Schema) :
    (steps.foldl making c).versions = c.versions := by
  induction steps generalizing c with
  | nil => rfl
  | cons s rest ih =>
    rw [List.foldl_cons, ih]
    cases s <;> rfl

theorem hasRoom_eq {m : Migration} (hm : m ∈ migrations) (c : Schema) :
    c.hasRoom m.version = m.steps.all c.isFree := by
  simp only [migrations, List.mem_cons, List.not_mem_nil, or_false] at hm
  rcases hm with rfl | rfl | rfl <;>
    simp [hasRoom, tableOf, indexesOf, isFree, Step.name, Bool.and_assoc]

theorem adding_eq {m : Migration} (hm : m ∈ migrations) {c : Schema}
    (hroom : c.hasRoom m.version = true) :
    c.adding [m.version] = { m.steps.foldl making c with
      versions := .proper (c.record.insert m.version ()) } := by
  have hfree : tableOf m.version ∉ c.tableNames := by
    rw [hasRoom, Bool.and_assoc, Bool.and_eq_true, Bool.not_eq_true'] at hroom
    rw [← List.contains_iff_mem, hroom.1]
    exact Bool.false_ne_true
  rw [mem_tableNames_iff] at hfree
  simp only [migrations, List.mem_cons, List.not_mem_nil, or_false] at hm
  rcases hm with rfl | rfl | rfl
  · have hnone : c.stats = none :=
      Option.not_isSome_iff_eq_none.1 fun hsome => hfree (.inl ⟨hsome, rfl⟩)
    simp [adding, making, indexesOf, hnone]
  · have hnone : c.events = none :=
      Option.not_isSome_iff_eq_none.1 fun hsome => hfree (.inr (.inr (.inl ⟨hsome, rfl⟩)))
    simp [adding, making, indexesOf, hnone]
  · have hnone : c.benchmarks = none :=
      Option.not_isSome_iff_eq_none.1 fun hsome => hfree (.inr (.inl ⟨hsome, rfl⟩))
    simp [adding, making, indexesOf, hnone]

/-- A migration happens exactly if its version has room. -/
theorem run_eq {m : Migration} (hm : m ∈ migrations) {c : Schema} {versions : SortedMap Int64 Unit}
    (h : c.versions = .proper versions) :
    if c.hasRoom m.version then m.run c = .ok (c.adding [m.version])
    else ∃ e, m.run c = .error e := by
  have hnames : (m.steps.map Step.name).Nodup := by
    revert m
    decide
  have hsteps := foldlM_apply hnames c
  rw [← hasRoom_eq hm] at hsteps
  split
  · rename_i hroom
    rw [if_pos hroom] at hsteps
    have hrecord : c.record = versions := by rw [record, h]
    have hversions := (versions_foldl_making m.steps c).trans h
    rw [Migration.run, hsteps, adding_eq hm hroom, hrecord]
    simp only [bind, Except.bind, recordVersion, hversions]
    rfl
  · rename_i hroom
    rw [if_neg hroom] at hsteps
    obtain ⟨e, he⟩ := hsteps
    exact ⟨e, by rw [Migration.run, he]; rfl⟩

theorem names_disjoint : ∀ m ∈ migrations, ∀ m' ∈ migrations, m'.version ≠ m.version →
    ∀ s ∈ m'.steps, ∀ s' ∈ m.steps, s.name ≠ s'.name := by
  decide

theorem name_ne_versionName : ∀ m ∈ migrations, ∀ s ∈ m.steps, s.name ≠ versionName := by
  decide

theorem hasRoom_adding_nil {m : Migration} (hm : m ∈ migrations) (c : Schema) :
    (c.adding []).hasRoom m.version = c.hasRoom m.version := by
  have hadding : c.adding [] = { c with versions := .proper c.record } := by
    simp [adding]
  rw [hasRoom_eq hm, hasRoom_eq hm, hadding, List.all_eq, List.all_eq, decide_eq_decide]
  exact forall₂_congr fun s hs => by rw [isFree_versions (name_ne_versionName m hm s hs)]

theorem hasRoom_adding {m m' : Migration} (hm : m ∈ migrations) (hm' : m' ∈ migrations)
    (hne : m'.version ≠ m.version) {c : Schema} (hroom : c.hasRoom m.version = true) :
    (c.adding [m.version]).hasRoom m'.version = c.hasRoom m'.version := by
  rw [hasRoom_eq hm', hasRoom_eq hm', adding_eq hm hroom, List.all_eq, List.all_eq,
    decide_eq_decide]
  apply forall₂_congr
  intro s hs
  rw [isFree_versions (name_ne_versionName m' hm' s hs),
    isFree_foldl_making (names_disjoint m hm m' hm' hne s hs)]

theorem takeWhile_congr {α : Type} {p q : α → Bool} {l : List α} (h : ∀ a ∈ l, p a = q a) :
    l.takeWhile p = l.takeWhile q := by
  induction l with
  | nil => rfl
  | cons a rest ih =>
    rw [List.forall_mem_cons] at h
    rw [List.takeWhile_cons, List.takeWhile_cons, h.1, ih h.2]

/-- Migrations happen as long as their versions have room. -/
theorem migrate_eq {ms : List Migration} (hms : ms.Sublist migrations) {c : Schema}
    {versions : SortedMap Int64 Unit} (h : c.versions = .proper versions) :
    (migrate ms c).2 = c.adding ((ms.map (·.version)).takeWhile c.hasRoom) ∧
      (migrate ms c).1.isOk = (ms.map (·.version)).all c.hasRoom := by
  induction ms generalizing c versions with
  | nil => exact ⟨(adding_nil h).symm, rfl⟩
  | cons m rest ih =>
    have hmem := hms.subset List.mem_cons_self
    have hm := run_eq hmem h
    rw [List.map_cons, List.takeWhile_cons, List.all_cons, migrate]
    split at hm
    · rename_i hroom
      have hsub : rest.Sublist migrations := (List.sublist_cons_self m rest).trans hms
      have hnodup : ((m :: rest).map (·.version)).Nodup := (hms.map _).nodup (by decide)
      have hrest (version : Int64) (hversion : version ∈ rest.map (·.version)) :
          (c.adding [m.version]).hasRoom version = c.hasRoom version := by
        obtain ⟨m', hm', rfl⟩ := List.mem_map.1 hversion
        apply hasRoom_adding hmem (hsub.subset hm') _ hroom
        intro hsame
        rw [hsame] at hversion
        exact (List.nodup_cons.1 hnodup).1 hversion
      obtain ⟨hafter, hok⟩ := ih hsub (c := c.adding [m.version]) rfl
      rw [hm, hroom, if_pos rfl, Bool.true_and]
      refine ⟨hafter.trans ?_, hok.trans ?_⟩
      · rw [takeWhile_congr hrest, adding_adding]
        rfl
      · rw [List.all_eq, List.all_eq, decide_eq_decide]
        exact forall₂_congr fun version hversion => by rw [hrest version hversion]
    · rename_i hroom
      obtain ⟨e, he⟩ := hm
      rw [he, if_neg hroom, Bool.eq_false_iff.2 hroom, Bool.false_and]
      exact ⟨(adding_nil h).symm, rfl⟩

theorem ensureVersions_eq {c : Schema} (h : c.IsRegular) :
    c.ensureVersions = .ok (c.adding []) := by
  rw [ensureVersions]
  rcases h.versions with hmissing | ⟨versions, hproper⟩
  · have htable : versionName ∉ c.tableNames := by
      rw [mem_tableNames_iff]
      rintro (⟨_, hname⟩ | ⟨_, hname⟩ | ⟨_, hname⟩ | ⟨hthere, _⟩)
      · exact absurd hname (by decide)
      · exact absurd hname (by decide)
      · exact absurd hname (by decide)
      · exact hthere hmissing
    have hnew := newTable_map c { c with versions := .proper ∅ } versionName
    rw [if_pos (by simp [htable, h.indexes])] at hnew
    simp only [hmissing, hnew]
    simp [adding, record, hmissing]
  · rw [adding_nil hproper]
    simp only [hproper]

theorem pending_eq {c : Schema} {versions : SortedMap Int64 Unit}
    (h : c.versions = .proper versions) :
    ∃ ms, c.pending = .ok ms ∧ ms.Sublist migrations ∧ ms.map (·.version) = c.due := by
  have hcurrent : c.currentVersion = .ok (versions.keys.getLast?.getD 0) := by
    rw [currentVersion, h]
  have hrecord : c.record = versions := by rw [record, h]
  have hall (m : Migration) (hm : m ∈ migrations) :
      decide (versions.keys.getLast?.getD 0 < m.version) =
        versions.keys.all fun a => a < m.version := by
    rw [Bool.eq_iff_iff, List.all_eq_true, decide_eq_true_eq]
    simp only [decide_eq_true_eq]
    cases hlast : versions.keys.getLast? with
    | none =>
      have hpos : ∀ m ∈ migrations, 0 < m.version := by decide
      rw [List.getLast?_eq_none_iff.1 hlast]
      exact iff_of_true (hpos m hm) nofun
    | some last =>
      constructor
      · intro hlt a ha
        rcases SortedMap.le_getLast hlast a ha with rfl | hless
        · exact hlt
        · exact Int64.lt_trans (Std.compare_eq_lt.1 hless) hlt
      · intro hless
        exact hless last (List.mem_of_getLast? hlast)
  refine ⟨_, by rw [pending, hcurrent], List.filter_sublist, ?_⟩
  have hversions : [1, 2, 3] = migrations.map (·.version) := rfl
  rw [due, hrecord, List.filter_congr hall, hversions, List.filter_map]
  rfl

/-- What is due happens as long as it has room. -/
theorem update_eq {c : Schema} (h : c.IsRegular) :
    c.update.2 = c.adding (c.due.takeWhile c.hasRoom) ∧ c.update.1.isOk = c.due.all c.hasRoom := by
  obtain ⟨ms, hpending, hsub, hdue⟩ := pending_eq (c := c.adding []) rfl
  change ms.map (·.version) = c.due at hdue
  have hroom (version : Int64) (hmem : version ∈ c.due) :
      (c.adding []).hasRoom version = c.hasRoom version := by
    rw [← hdue] at hmem
    obtain ⟨m, hm, rfl⟩ := List.mem_map.1 hmem
    exact hasRoom_adding_nil (hsub.subset hm) c
  obtain ⟨hafter, hok⟩ := migrate_eq hsub (c := c.adding []) rfl
  rw [hdue] at hafter hok
  rw [update, ensureVersions_eq h]
  simp only [hpending]
  constructor
  · rw [hafter, takeWhile_congr hroom, adding_adding]
    rfl
  · rw [hok, List.all_eq, List.all_eq, decide_eq_decide]
    exact forall₂_congr fun version hmem => by rw [hroom version hmem]

theorem due_pairwise (c : Schema) : c.due.Pairwise (· < ·) :=
  .filter _ (by decide)

theorem lt_of_mem_due {c : Schema} {version : Int64} (h : version ∈ c.due) :
    ∀ a ∈ c.record.keys, a < version := by
  have hall := (List.mem_filter.1 h).2
  rw [List.all_eq_true] at hall
  exact fun a ha => of_decide_eq_true (hall a ha)

/-- Versions go on record behind those that were there, and are no longer due. -/
theorem record_adding {c : Schema} {front back : List Int64} (h : c.due = front ++ back) :
    (c.adding front).record.keys = c.record.keys ++ front ∧ (c.adding front).due = back := by
  have hpairwise := c.due_pairwise
  rw [h, List.pairwise_append] at hpairwise
  obtain ⟨hfront, _, hacross⟩ := hpairwise
  have hkeys : (c.adding front).record.keys = c.record.keys ++ front := by
    apply SortedMap.keys_inserts_of_above
    · intro version hversion a ha
      have hmem : version ∈ c.due := h ▸ List.mem_append_left back hversion
      exact Std.compare_eq_gt.2 (lt_of_mem_due hmem a ha)
    · exact hfront.imp Std.compare_eq_lt.2
  have hdue : (c.adding front).due = c.due.filter fun version => front.all (· < version) := by
    rw [due, hkeys, due, List.filter_filter]
    apply List.filter_congr
    intro version _
    rw [List.all_append, Bool.and_comm]
  refine ⟨hkeys, ?_⟩
  rw [hdue, h, List.filter_append, List.filter_eq_nil_iff.2, List.filter_eq_self.2]
  · rfl
  · intro version hversion
    rw [List.all_eq_true]
    exact fun a ha => decide_eq_true (hacross a ha version hversion)
  · intro version hversion hall
    rw [List.all_eq_true] at hall
    exact Int64.lt_irrefl (of_decide_eq_true (hall version hversion))

theorem IsRegular.adding {c : Schema} (h : c.IsRegular) (versions : List Int64) :
    (c.adding versions).IsRegular := by
  refine ⟨.inr ⟨_, rfl⟩, ?_⟩
  have hindexes (version : Int64) : ∀ i ∈ indexesOf version, i.name ≠ versionName := by
    rw [indexesOf]
    split
    · decide
    · split
      · decide
      · exact nofun
  have hnames : (c.adding versions).indexNames =
      c.indexNames ++ versions.flatMap fun version => (indexesOf version).map Index.name := by
    rw [indexNames, Schema.adding, List.map_append, List.map_flatMap]
    rfl
  rw [hnames, List.mem_append, List.mem_flatMap]
  rintro (hold | ⟨version, _, hnew⟩)
  · exact h.indexes hold
  · obtain ⟨i, hi, hname⟩ := List.mem_map.1 hnew
    exact hindexes version i hi hname

/-- Of the versions above those on record those happen, in order, that come before the first one
without room. What they make and their records are added, nothing else changes, and the others are
still due. When none is left, another update succeeds and changes nothing. -/
theorem update_adds_due {c : Schema} (h : c.IsRegular) :
    let done := c.due.takeWhile c.hasRoom
    let after := c.update.2
    after = c.adding done ∧ after.record.keys = c.record.keys ++ done ∧ c.due = done ++ after.due ∧
      (c.update.1.isOk = true ↔ after.due = []) ∧
      (c.update.1.isOk = true → after.update = (.ok (), after)) := by
  intro done after
  obtain ⟨hafter, hok⟩ := update_eq h
  change after = c.adding done at hafter
  have hsplit : c.due = done ++ c.due.dropWhile c.hasRoom := List.takeWhile_append_dropWhile.symm
  obtain ⟨hkeys, hdue⟩ := record_adding hsplit
  rw [← hafter] at hkeys hdue
  have hiff : c.update.1.isOk = true ↔ after.due = [] := by
    rw [hok, hdue, List.all_eq_true, List.dropWhile_eq_nil_iff]
  refine ⟨hafter, hkeys, hdue.symm ▸ hsplit, hiff, ?_⟩
  intro hdone
  have hregular : after.IsRegular := hafter ▸ h.adding done
  obtain ⟨hagain, hagainOk⟩ := update_eq hregular
  rw [hiff.1 hdone] at hagain hagainOk
  have hproper : after.versions = .proper after.record := by
    rw [hafter]
    rfl
  apply Prod.ext
  · cases hresult : after.update.1 with
    | ok _ => rfl
    | error e =>
      rw [hresult] at hagainOk
      cases hagainOk
  · rw [hagain]
    exact adding_nil hproper

/-- With a table of benchmarks from elsewhere the second version happens and the third does not. -/
theorem update_adds_due_of_taken_name :
    let row : StatsRow := ⟨"a", 0, 20, 5, 1000, 100, 10, 1600000000⟩
    let benchmarks : BenchmarkTable := ⟨[⟨1, ⟨0, 80, true, false, none, 1700000000⟩⟩]⟩
    let c : Schema := ⟨some ((∅ : StatsTable).upsert row), none, some benchmarks,
      .proper (.ofList [(1, ())]), []⟩
    c.IsRegular ∧ c.update.1.isOk = false ∧ c.update.2.record.keys = [1, 2] ∧
      c.update.2.due = [3] ∧ c.update.2.stats = c.stats ∧ c.update.2.benchmarks = some benchmarks ∧
      c.update.2.indexNames = ["idx_usage_events_created_at", "idx_usage_events_provider_host",
        "idx_usage_events_operation_type"] := by
  intro row benchmarks c
  have hregular : c.IsRegular := ⟨.inr ⟨_, rfl⟩, nofun⟩
  obtain ⟨hafter, hkeys, hdue, hok, _⟩ := update_adds_due hregular
  have hdone : c.due.takeWhile c.hasRoom = [2] := by decide +kernel
  have hall : c.due = [2, 3] := by decide +kernel
  rw [hdone] at hafter hkeys hdue
  have hrest : c.update.2.due = [3] := List.append_cancel_left (hdue.symm.trans hall)
  refine ⟨hregular, ?_, hkeys.trans (by decide +kernel), hrest, ?_⟩
  · rw [Bool.eq_false_iff, Ne, hok, hrest]
    exact nofun
  · rw [hafter]
    exact ⟨rfl, rfl, by decide +kernel⟩

end Schema

end ProviderScout
