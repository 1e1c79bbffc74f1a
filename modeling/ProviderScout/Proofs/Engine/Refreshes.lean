import ProviderScout.Proofs.Engine.Frames
import ProviderScout.Proofs.Store.Benchmarks

namespace ProviderScout

namespace Remote

theorem benchmarks_call {α : Type} {f : Database → Except Error α × Database}
    (hf : ∀ d, (f d).2.benchmarks = d.benchmarks) (s : Remote Database) :
    (s.call f).2.store.benchmarks = s.store.benchmarks := by
  rcases s.call_cases f with ⟨_, h⟩ | ⟨_, h⟩
  · rw [h]
  · rw [h]
    exact hf s.store

theorem benchmarks_loadRows (s : Remote Database) :
    (ModelStore.loadRows s).2.store.benchmarks = s.store.benchmarks :=
  benchmarks_call (f := ModelStore.loadRows) (fun _ => rfl) s

theorem benchmarks_upsertRows (rows : List StatsRow) (s : Remote Database) :
    (ModelStore.upsertRows rows s).2.store.benchmarks = s.store.benchmarks :=
  benchmarks_call (Database.benchmarks_upsertRows rows) s

theorem benchmarks_deleteRows (job : Option String) (s : Remote Database) :
    (ModelStore.deleteRows job s).2.store.benchmarks = s.store.benchmarks :=
  benchmarks_call (Database.benchmarks_deleteRows job) s

theorem latestSpeeds_eq (now : Instant) (s : Remote Database) :
    (ModelStore.latestSpeeds now s).2.store.benchmarks = s.store.benchmarks ∧
      ∀ speeds, (ModelStore.latestSpeeds now s).1 = .ok speeds →
        speeds = Database.speedsOf now s.store.benchmarks := by
  refine ⟨benchmarks_call (f := ModelStore.latestSpeeds now) (fun _ => rfl) s, ?_⟩
  intro speeds h
  rcases s.call_cases (ModelStore.latestSpeeds now) with ⟨hrefused, _⟩ | ⟨hgot, _⟩
  · cases hrefused.symm.trans h
  · exact Database.speeds_of_latestSpeeds (hgot.symm.trans h)

theorem benchmarks_insertBenchmark (r : BenchmarkResult) (s : Remote Database) :
    (s.call (Database.insertBenchmark r)).2.store.benchmarks = s.store.benchmarks ∨
      ¬ r.mbps.isNaN ∧ (s.call (Database.insertBenchmark r)).2.store.benchmarks =
        s.store.benchmarks ++ [⟨s.store.benchmarks.length + 1, r⟩] := by
  rcases s.call_cases (Database.insertBenchmark r) with ⟨_, h⟩ | ⟨_, h⟩
  · exact .inl (congrArg Database.benchmarks h)
  · rw [h]
    exact Database.benchmarks_insertBenchmark r s.store

end Remote

namespace Session

theorem engine_refresh (now : Instant) (s : Session (Remote Database)) :
    (s.step (.refresh now)).2.engine =
      if (ModelStore.latestSpeeds now s.store).1.isOk then
        { s.engine with benchmarks := .ofList (Database.speedsOf now s.store.store.benchmarks) }
      else s.engine := by
  obtain ⟨_, hread⟩ := s.store.latestSpeeds_eq now
  simp only [step, apply, ofCall, Engine.refreshBenchmarks]
  split <;> rename_i hs <;> rw [hs] at hread ⊢
  · rfl
  · rw [hread _ rfl]
    rfl

theorem benchmarks_step (op : Operation) (s : Session (Remote Database)) :
    (s.step op).2.store.store.benchmarks = s.store.store.benchmarks ∧
      ((s.step op).2.engine.benchmarks = s.engine.benchmarks ∨
        ∃ now, (s.step op).2.engine.benchmarks =
          .ofList (Database.speedsOf now s.store.store.benchmarks)) := by
  constructor
  · refine store_step
      (P := fun store : Remote Database => store.store.benchmarks = s.store.store.benchmarks)
      ?_ ?_ ?_ ?_ rfl op
    · exact fun store h => store.benchmarks_loadRows.trans h
    · exact fun rows store h => (Remote.benchmarks_upsertRows rows store).trans h
    · exact fun job store h => (Remote.benchmarks_deleteRows job store).trans h
    · exact fun now store h => (store.latestSpeeds_eq now).1.trans h
  · by_cases hop : ∃ now, op = .refresh now
    · obtain ⟨now, rfl⟩ := hop
      rw [engine_refresh]
      split
      · exact .inr ⟨now, rfl⟩
      · exact .inl rfl
    · obtain ⟨_, _, h⟩ := s.frames_step fun now hnow => hop ⟨now, hnow⟩
      rw [h]
      exact .inl rfl

end Session

/-- Speeds that were read and are yet to be taken over. -/
structure Reading where
  ticket : Nat
  now : Instant
  speeds : List (BenchmarkSpeed Float)
  /-- How many benchmarks were stored when they were read. -/
  seen : Nat

/-- An engine on a database with the refreshes that go on. -/
structure Refreshing extends Session (Remote Database) where
  readings : List Reading
  tickets : Nat

/-- What can happen. -/
inductive Refreshing.Action where
  | operate (op : Operation)
  /-- A benchmark is stored. -/
  | record (r : BenchmarkResult)
  /-- A refresh reads the speeds, which ends it if it fails. -/
  | read (now : Instant)
  /-- A refresh puts the speeds it has read in place of those there are. -/
  | take (ticket : Nat)

namespace Refreshing

def start (config : AffinityConfig) (roles : List Role) (store : Remote Database) : Refreshing :=
  ⟨⟨.start config roles, store⟩, [], 0⟩

def rows (s : Refreshing) : List StoredBenchmark := s.store.store.benchmarks

def step (s : Refreshing) (a : Action) : Refreshing :=
  match a with
  | .operate op => { s with toSession := (s.toSession.step op).2 }
  | .record r => { s with store := (s.store.call (Database.insertBenchmark r)).2 }
  | .read now => match ModelStore.latestSpeeds now s.store with
    | (.error _, store) => { s with store := store }
    | (.ok speeds, store) => { s with
        store := store
        readings := s.readings ++ [⟨s.tickets, now, speeds, s.rows.length⟩]
        tickets := s.tickets + 1 }
  | .take ticket => match s.readings.find? (·.ticket == ticket) with
    | none => s
    | some r => { s with
        engine := { s.engine with benchmarks := .ofList r.speeds }
        readings := s.readings.filter (·.ticket != ticket) }

def run (s : Refreshing) (actions : List Action) : Refreshing := actions.foldl step s

theorem run_append (s : Refreshing) (first last : List Action) :
    s.run (first ++ last) = (s.run first).run last := List.foldl_append

/-- A read with nothing between it and the replacement is a refresh. -/
theorem read_take (s : Refreshing) (now : Instant) (hs : ∀ r ∈ s.readings, r.ticket < s.tickets) :
    ((s.step (.read now)).step (.take s.tickets)).toSession =
      (s.toSession.step (.refresh now)).2 := by
  have hnone : s.readings.find? (·.ticket == s.tickets) = none := by
    apply List.find?_eq_none.2
    intro r hr
    have hlt := hs r hr
    rw [beq_iff_eq]
    omega
  simp only [step, Session.step, Session.apply, Session.ofCall, Engine.refreshBenchmarks]
  cases ModelStore.latestSpeeds now s.store with
  | mk answer store =>
    cases answer with
    | error err => simp only [hnone]
    | ok speeds => simp only [List.find?_append, hnone, List.find?_singleton, beq_self_eq_true,
        Option.none_or, ↓reduceIte]

/-- The outcomes of a step. -/
inductive Taken (s : Refreshing) : Action → Refreshing → Prop
  | operate (op : Operation) :
      Taken s (.operate op) { s with toSession := (s.toSession.step op).2 }
  | record (r : BenchmarkResult) :
      Taken s (.record r) { s with store := (s.store.call (Database.insertBenchmark r)).2 }
  | readError {now : Instant} {store : Remote Database} (hstore : store.store.benchmarks = s.rows) :
      Taken s (.read now) { s with store := store }
  | read {now : Instant} {store : Remote Database} (hstore : store.store.benchmarks = s.rows) :
      Taken s (.read now) { s with
        store := store
        readings := s.readings ++ [⟨s.tickets, now, Database.speedsOf now s.rows, s.rows.length⟩]
        tickets := s.tickets + 1 }
  | stay {ticket : Nat} (hnone : ∀ r ∈ s.readings, r.ticket ≠ ticket) : Taken s (.take ticket) s
  | take {r : Reading} (hr : r ∈ s.readings) :
      Taken s (.take r.ticket) { s with
        engine := { s.engine with benchmarks := .ofList r.speeds }
        readings := s.readings.filter (·.ticket != r.ticket) }

theorem step_taken (s : Refreshing) (a : Action) : Taken s a (s.step a) := by
  cases a with
  | operate op => exact .operate op
  | record r => exact .record r
  | read now =>
    obtain ⟨hstored, hread⟩ := s.store.latestSpeeds_eq now
    rw [step]
    split
    · rename_i hs
      rw [hs] at hstored
      exact .readError hstored
    · rename_i speeds store hs
      rw [hs] at hstored hread
      rw [hread speeds rfl]
      exact .read hstored
  | take ticket =>
    rw [step]
    split
    · rename_i hnone
      apply Taken.stay
      intro r hr hticket
      exact List.find?_eq_none.1 hnone r hr (beq_iff_eq.2 hticket)
    · rename_i r hr
      have hticket := List.find?_some (p := fun r : Reading => r.ticket == ticket) hr
      cases beq_iff_eq.1 hticket
      exact .take (List.mem_of_find?_eq_some hr)

theorem rows_step (s : Refreshing) (a : Action) : (s.step a).rows = s.rows ∨
    ∃ r : BenchmarkResult, ¬ r.mbps.isNaN = true ∧
      (s.step a).rows = s.rows ++ [⟨s.rows.length + 1, r⟩] := by
  have ht := s.step_taken a
  generalize s.step a = t at ht
  cases ht with
  | operate op => exact .inl (s.benchmarks_step op).1
  | record r =>
    rcases s.store.benchmarks_insertBenchmark r with h | ⟨hnumber, h⟩
    · exact .inl h
    · exact .inr ⟨r, hnumber, h⟩
  | readError hstore => exact .inl hstore
  | read hstore => exact .inl hstore
  | stay _ => exact .inl rfl
  | take _ => exact .inl rfl

theorem append_step (s : Refreshing) (a : Action) : ∃ more, (s.step a).rows = s.rows ++ more := by
  rcases s.rows_step a with h | ⟨r, _, h⟩
  · exact ⟨[], by rw [h, List.append_nil]⟩
  · exact ⟨_, h⟩

theorem append_run (s : Refreshing) (actions : List Action) :
    ∃ more, (s.run actions).rows = s.rows ++ more := by
  induction actions generalizing s with
  | nil => exact ⟨[], (List.append_nil _).symm⟩
  | cons a rest ih =>
    obtain ⟨more, h⟩ := s.append_step a
    obtain ⟨more', h'⟩ := ih (s.step a)
    exact ⟨more ++ more', by rw [← List.append_assoc, ← h]; exact h'⟩

/-- The engine goes by the benchmarks that were stored at some time, `n` of them or more. -/
def Shows (n : Nat) (s : Refreshing) : Prop :=
  ∃ k now, n ≤ k ∧ k ≤ s.rows.length ∧
    s.engine.benchmarks = .ofList (Database.speedsOf now (s.rows.take k))

theorem Shows.mono {n : Nat} {s t : Refreshing} (h : s.Shows n) {more : List StoredBenchmark}
    (hrows : t.rows = s.rows ++ more) (hcache : t.engine.benchmarks = s.engine.benchmarks) :
    t.Shows n := by
  obtain ⟨k, now, hn, hk, hshown⟩ := h
  refine ⟨k, now, hn, ?_, ?_⟩
  · rw [hrows, List.length_append]
    omega
  · rw [hcache, hshown, hrows, List.take_append_of_le_length hk]

theorem Shows.all {n : Nat} {s t : Refreshing} (h : s.Shows n) (hrows : t.rows = s.rows)
    {now : Instant} (hcache : t.engine.benchmarks = .ofList (Database.speedsOf now s.rows)) :
    t.Shows n := by
  obtain ⟨k, _, hn, hk, _⟩ := h
  refine ⟨s.rows.length, now, Nat.le_trans hn hk, Nat.le_of_eq (congrArg List.length hrows.symm), ?_⟩
  rw [hcache, hrows, List.take_length]

/-- What holds from the start on. -/
structure Sound (s : Refreshing) : Prop where
  rows : BenchmarkTable.Sound s.rows
  shows : s.Shows 0
  seen : ∀ r ∈ s.readings, r.ticket < s.tickets ∧ r.seen ≤ s.rows.length ∧
    r.speeds = Database.speedsOf r.now (s.rows.take r.seen)

/-- No refresh that read when fewer than `n` benchmarks were stored is completed. -/
def Spares (n : Nat) (s : Refreshing) (a : Action) : Prop :=
  ∀ r ∈ s.readings, a = .take r.ticket → n ≤ r.seen

def SparesAll (n : Nat) (s : Refreshing) : List Action → Prop
  | [] => True
  | a :: rest => s.Spares n a ∧ (s.step a).SparesAll n rest

theorem Shows.step {n : Nat} {s : Refreshing} (hs : s.Sound) (h : s.Shows n) {a : Action}
    (ha : s.Spares n a) : (s.step a).Shows n := by
  obtain ⟨more, hrows⟩ := s.append_step a
  have ht := s.step_taken a
  generalize s.step a = t at ht hrows
  cases ht with
  | operate op =>
    obtain ⟨hstored, hcache | ⟨now, hcache⟩⟩ := s.benchmarks_step op
    · exact h.mono hrows hcache
    · exact h.all hstored hcache
  | record r => exact h.mono hrows rfl
  | readError hstore => exact h.mono hrows rfl
  | read hstore => exact h.mono hrows rfl
  | stay _ => exact h
  | take hr =>
    obtain ⟨_, hseen, hspeeds⟩ := hs.seen _ hr
    exact ⟨_, _, ha _ hr rfl, hseen, congrArg BenchmarkCache.ofList hspeeds⟩

namespace Sound

theorem start (config : AffinityConfig) (roles : List Role) {store : Remote Database}
    (h : BenchmarkTable.Sound store.store.benchmarks) : (start config roles store).Sound :=
  ⟨h, ⟨0, ⟨0, 0⟩, Nat.le_refl 0, Nat.zero_le _, rfl⟩, nofun⟩

theorem seen_mono {s t : Refreshing} (h : s.Sound) {more : List StoredBenchmark}
    (hrows : t.rows = s.rows ++ more) (htickets : s.tickets ≤ t.tickets) {r : Reading}
    (hr : r ∈ s.readings) : r.ticket < t.tickets ∧ r.seen ≤ t.rows.length ∧
      r.speeds = Database.speedsOf r.now (t.rows.take r.seen) := by
  obtain ⟨hticket, hseen, hspeeds⟩ := h.seen r hr
  rw [hrows, List.length_append, List.take_append_of_le_length hseen]
  exact ⟨by omega, by omega, hspeeds⟩

theorem step {s : Refreshing} (h : s.Sound) (a : Action) : (s.step a).Sound := by
  have hsound : BenchmarkTable.Sound (s.step a).rows := by
    rcases s.rows_step a with hrows | ⟨r, hnumber, hrows⟩ <;> rw [hrows]
    · exact h.rows
    · exact h.rows.snoc hnumber
  refine ⟨hsound, h.shows.step h fun r _ _ => Nat.zero_le r.seen, ?_⟩
  obtain ⟨more, hrows⟩ := s.append_step a
  have ht := s.step_taken a
  generalize s.step a = t at ht hrows
  cases ht with
  | operate _ | record _ | readError _ =>
    exact fun r hr => h.seen_mono hrows (Nat.le_refl _) hr
  | @read now store hstore =>
    intro r hr
    rcases List.mem_append.1 hr with hr | hr
    · exact h.seen_mono hrows (Nat.le_succ _) hr
    · cases List.mem_singleton.1 hr
      refine ⟨Nat.lt_succ_self _, Nat.le_of_eq (congrArg List.length hstore.symm), ?_⟩
      change Database.speedsOf _ s.rows =
        Database.speedsOf _ (store.store.benchmarks.take s.rows.length)
      rw [hstore, List.take_length]
  | stay _ => exact h.seen
  | take _ => exact fun r hr => h.seen r (List.mem_of_mem_filter hr)

theorem run {s : Refreshing} (h : s.Sound) (actions : List Action) : (s.run actions).Sound :=
  List.foldlRecOn (motive := Sound) actions _ h fun _ ht a _ => ht.step a

end Sound

theorem Shows.run {n : Nat} {s : Refreshing} (hs : s.Sound) (h : s.Shows n) {actions : List Action}
    (hactions : s.SparesAll n actions) : (s.run actions).Shows n := by
  induction actions generalizing s with
  | nil => exact h
  | cons a rest ih => exact ih (hs.step a) (h.step hs hactions.1) hactions.2

/-- The refreshes from ticket `t` on have read when `n` benchmarks or more were stored. -/
structure Since (t n : Nat) (s : Refreshing) : Prop where
  stored : n ≤ s.rows.length
  tickets : t ≤ s.tickets
  seen : ∀ r ∈ s.readings, t ≤ r.ticket → n ≤ r.seen

namespace Since

variable {t n : Nat} {s : Refreshing}

theorem now (h : s.Sound) : s.Since s.tickets s.rows.length := by
  refine ⟨Nat.le_refl _, Nat.le_refl _, ?_⟩
  intro r hr hticket
  have hlt := (h.seen r hr).1
  omega

theorem step (h : s.Since t n) (a : Action) : (s.step a).Since t n := by
  obtain ⟨more, hrows⟩ := s.append_step a
  have hstored : n ≤ (s.step a).rows.length := by
    have hn := h.stored
    rw [hrows, List.length_append]
    omega
  have ht := s.step_taken a
  generalize s.step a = s' at ht hstored
  cases ht with
  | operate _ | record _ | readError _ => exact ⟨hstored, h.tickets, h.seen⟩
  | read hstore =>
    refine ⟨hstored, Nat.le_succ_of_le h.tickets, ?_⟩
    intro r hr hticket
    rcases List.mem_append.1 hr with hr | hr
    · exact h.seen r hr hticket
    · cases List.mem_singleton.1 hr
      exact h.stored
  | stay _ => exact h
  | take _ => exact ⟨hstored, h.tickets, fun r hr => h.seen r (List.mem_of_mem_filter hr)⟩

theorem run (h : s.Since t n) (actions : List Action) : (s.run actions).Since t n :=
  List.foldlRecOn (motive := Since t n) actions _ h fun _ ht a _ => ht.step a

theorem sparesAll (h : s.Since t n) {actions : List Action}
    (hactions : ∀ ticket, .take ticket ∈ actions → t ≤ ticket) : s.SparesAll n actions := by
  induction actions generalizing s with
  | nil => trivial
  | cons a rest ih =>
    refine ⟨?_, ih (h.step a) fun ticket hmem => hactions ticket (List.mem_cons_of_mem a hmem)⟩
    rintro r hr rfl
    exact h.seen r hr (hactions r.ticket List.mem_cons_self)

end Since

def Pending (t : Nat) (s : Refreshing) : Prop := ∃ r ∈ s.readings, r.ticket = t

theorem Pending.step {t : Nat} {s : Refreshing} (h : s.Pending t) {a : Action}
    (ha : a ≠ .take t) : (s.step a).Pending t := by
  obtain ⟨r, hr, hticket⟩ := h
  have ht := s.step_taken a
  generalize s.step a = s' at ht
  cases ht with
  | operate _ | record _ | readError _ | stay _ => exact ⟨r, hr, hticket⟩
  | read _ => exact ⟨r, List.mem_append_left _ hr, hticket⟩
  | take _ =>
    refine ⟨r, List.mem_filter.2 ⟨hr, ?_⟩, hticket⟩
    rw [bne_iff_ne, hticket]
    rintro rfl
    exact ha rfl

theorem Pending.run {t : Nat} {s : Refreshing} (h : s.Pending t) {actions : List Action}
    (hactions : .take t ∉ actions) : (s.run actions).Pending t := by
  apply List.foldlRecOn (motive := Pending t) actions _ h
  intro s' hs' a ha
  apply hs'.step
  rintro rfl
  exact hactions ha

theorem Pending.take {t n : Nat} {s : Refreshing} (h : s.Pending t) (hs : s.Sound)
    (hsince : s.Since t n) : (s.step (.take t)).Shows n := by
  have ht := s.step_taken (.take t)
  generalize s.step (.take t) = s' at ht
  cases ht with
  | stay hnone =>
    obtain ⟨r, hr, hticket⟩ := h
    exact absurd hticket (hnone r hr)
  | take hr =>
    obtain ⟨_, hseen, hspeeds⟩ := hs.seen _ hr
    exact ⟨_, _, hsince.seen _ hr (Nat.le_refl _), hseen, congrArg BenchmarkCache.ofList hspeeds⟩

/-- The benchmark of a provider that the engine goes by is this one or one that takes its place. -/
def Visible (s : Refreshing) (b : StoredBenchmark) : Prop :=
  ∃ b' ∈ s.rows, (b' = b ∨ BenchmarkTable.supersedes b' b = true) ∧
    ∃ now x, Database.speed? now b' = some x ∧
      s.engine.benchmarks.get? b.result.provider.toInt.toNat = some x

theorem Shows.visible {s₀ s : Refreshing} (hs : s.Sound) (h : s.Shows s₀.rows.length)
    {more : List StoredBenchmark} (hrows : s.rows = s₀.rows ++ more) {b : StoredBenchmark}
    (hb : b ∈ s₀.rows) (husable : BenchmarkTable.isUsable b = true)
    (hprovider : 0 ≤ b.result.provider.toInt) : s.Visible b := by
  obtain ⟨k, now, hn, hk, hshown⟩ := h
  have hmem : b ∈ s.rows.take k := by
    rw [hrows, List.take_append, List.take_of_length_le hn]
    exact List.mem_append_left _ hb
  obtain ⟨b', hb', hsame, x, hx, hget⟩ :=
    Database.exists_visible (hs.rows.numbered.take k) now hmem husable hprovider
  exact ⟨b', List.mem_of_mem_take hb', hsame, now, x, hx, hshown ▸ hget⟩

/-- A completed refresh lasts. Until a refresh that read earlier contents is completed after it, the
engine goes by contents that are no older, and each usable benchmark that was stored when it read
is visible unless one took its place. -/
theorem refresh_lasts (config : AffinityConfig) (roles : List Role) (store : Remote Database)
    (hstore : BenchmarkTable.Sound store.store.benchmarks) (before between after : List Action)
    (now : Instant) :
    let s₀ := (start config roles store).run before
    let done := s₀.run (.read now :: between ++ [.take s₀.tickets])
    let s := done.run after
    (ModelStore.latestSpeeds now s₀.store).1.isOk = true → .take s₀.tickets ∉ between →
      done.SparesAll s₀.rows.length after →
        s.Shows s₀.rows.length ∧ ∀ b ∈ s₀.rows, BenchmarkTable.isUsable b = true →
          0 ≤ b.result.provider.toInt → s.Visible b := by
  intro s₀ done s hread hbetween hafter
  have hsound : s₀.Sound := (Sound.start config roles hstore).run before
  have hpending : (s₀.step (.read now)).Pending s₀.tickets := by
    rw [step]
    split
    · rename_i hs
      rw [hs] at hread
      cases hread
    · exact ⟨_, List.mem_append_right _ (List.mem_singleton_self _), rfl⟩
  have hsince : ((s₀.step (.read now)).run between).Since s₀.tickets s₀.rows.length :=
    ((Since.now hsound).step _).run between
  have hdone : done.Shows s₀.rows.length := by
    have hlast : done = ((s₀.step (.read now)).run between).step (.take s₀.tickets) := run_append ..
    rw [hlast]
    exact (hpending.run hbetween).take ((hsound.step _).run between) hsince
  have hshows : s.Shows s₀.rows.length := hdone.run (hsound.run _) hafter
  refine ⟨hshows, ?_⟩
  intro b hb husable hprovider
  obtain ⟨more, hrows⟩ := s₀.append_run (.read now :: between ++ [.take s₀.tickets] ++ after)
  rw [run_append] at hrows
  exact hshows.visible ((hsound.run _).run after) hrows hb husable hprovider

/-- A benchmark stays visible while a refresh that began before it was stored is never completed. -/
theorem refresh_lasts_of_later_refresh :
    let good : BenchmarkResult := ⟨0, 80, true, false, none, 1700000000⟩
    let before : List Action := [.read ⟨1700000005, 0⟩, .record good]
    let between : List Action := [.record { good with mbps := 60 }]
    let after : List Action := [.read ⟨1700000020, 0⟩, .take 2]
    let s₀ := (start .standard [.pooled] ⟨.fresh, []⟩).run before
    let done := s₀.run (.read ⟨1700000010, 0⟩ :: between ++ [.take s₀.tickets])
    (ModelStore.latestSpeeds ⟨1700000010, 0⟩ s₀.store).1.isOk = true ∧
      .take s₀.tickets ∉ between ∧ done.SparesAll s₀.rows.length after ∧
      (done.run after).Shows 1 ∧ (done.run after).Visible ⟨1, good⟩ := by
  intro good before between after s₀ done
  have hstore : BenchmarkTable.Sound Database.fresh.benchmarks := ⟨rfl, nofun⟩
  have hread : (ModelStore.latestSpeeds ⟨1700000010, 0⟩ s₀.store).1.isOk = true := by
    decide +kernel
  have hbetween : Action.take s₀.tickets ∉ between := by
    intro h
    cases List.mem_singleton.1 h
  have hsound : s₀.Sound := (Sound.start _ _ hstore).run before
  have hafter : done.SparesAll s₀.rows.length after := by
    apply ((Since.now hsound).run _).sparesAll
    intro ticket hmem
    rcases List.mem_cons.1 hmem with h | h
    · cases h
    · cases List.mem_singleton.1 h
      decide
  obtain ⟨hshows, hvisible⟩ := refresh_lasts .standard [.pooled] ⟨.fresh, []⟩ hstore before between
    after ⟨1700000010, 0⟩ hread hbetween hafter
  have hb : ⟨1, good⟩ ∈ s₀.rows := by decide +kernel
  have hcount : s₀.rows.length = 1 := by decide +kernel
  exact ⟨hread, hbetween, hafter, hcount ▸ hshows, hvisible _ hb rfl (by decide)⟩

/-- A benchmark that failed is never visible, and one that is visible is no longer so once a refresh
that read before it was stored is completed. -/
theorem refresh_undone :
    let good : BenchmarkResult := ⟨0, 80, true, false, none, 1700000000⟩
    let failed : BenchmarkResult := { good with success := false }
    let first := start .standard [.pooled] ⟨.fresh, []⟩
    let s := first.run [.record failed, .read ⟨1700000005, 0⟩, .take 0]
    let t := first.run [.read ⟨1700000005, 0⟩, .record good, .read ⟨1700000010, 0⟩, .take 1]
    (s.rows = [⟨1, failed⟩] ∧ ¬ s.Visible ⟨1, failed⟩) ∧
      t.rows = [⟨1, good⟩] ∧ t.Visible ⟨1, good⟩ ∧
        ¬ (t.step (.take 0)).Visible ⟨1, good⟩ ∧ ¬ (t.step (.take 0)).Shows t.rows.length := by
  intro good failed first s t
  have hempty {u : Refreshing} (h : u.engine.benchmarks.get? 0 = none) {b : StoredBenchmark}
      (hb : b.result.provider = 0) : ¬ u.Visible b := by
    rintro ⟨_, _, _, _, x, _, hget⟩
    rw [hb] at hget
    cases h.symm.trans hget
  have hstore : BenchmarkTable.Sound Database.fresh.benchmarks := ⟨rfl, nofun⟩
  have hsound : t.Sound := (Sound.start _ _ hstore).run _
  have hrows : t.rows = [⟨1, good⟩] := by decide +kernel
  have hb : ⟨1, good⟩ ∈ t.rows := hrows ▸ List.mem_singleton_self _
  have hundone : ¬ (t.step (.take 0)).Visible ⟨1, good⟩ := hempty (by decide +kernel) rfl
  have hvisible : t.Visible ⟨1, good⟩ :=
    ⟨⟨1, good⟩, hb, .inl rfl, ⟨0, 0⟩, ⟨0, 80, ⟨1700000000, 0⟩⟩, by decide +kernel, by decide +kernel⟩
  refine ⟨⟨by decide +kernel, hempty (by decide +kernel) rfl⟩, hrows, hvisible, hundone, ?_⟩
  intro h
  obtain ⟨more, hmore⟩ := t.append_step (.take 0)
  exact hundone (h.visible (hsound.step _) hmore hb rfl (by decide))

end Refreshing

end ProviderScout
