import ProviderScout.Proofs.Engine.Attachment
import ProviderScout.Proofs.Engine.InFlight
import ProviderScout.Proofs.Store.Fates

namespace ProviderScout

namespace Contended

variable {σ : Type}

/-- A reset has deleted rows and has yet to forget the models. -/
structure Deleted (job : Option String) (deleted : Nat) (s₀ s : Contended σ) : Prop where
  turn : s.turn = .clearing job deleted
  stage : s.stage = .idle
  store : s.store = s₀.store
  answers : s.answers = s₀.answers

namespace Deleted

variable [ModelStore σ] {job : Option String} {deleted : Nat} {s₀ s : Contended σ}

theorem save (h : Deleted job deleted s₀ s) (part : SaveStep)
    (hstart : ∀ now, part = .start now → s.turn = .free) :
    Deleted job deleted s₀ { s with toShared := s.toShared.step part.action } := by
  have ht := s.toShared.step_taken part.action
  generalize s.toShared.step part.action = t at ht
  cases part with
  | request => cases ht <;> exact ⟨h.turn, h.stage, h.store, h.answers⟩
  | start now => cases h.turn.symm.trans (hstart now rfl)
  | visit key =>
    cases ht with
    | stay => exact ⟨h.turn, h.stage, h.store, h.answers⟩
    | visit _ g hg => cases h.stage.symm.trans hg
  | store =>
    cases ht with
    | stay => exact ⟨h.turn, h.stage, h.store, h.answers⟩
    | finish g hg => cases h.stage.symm.trans hg
  | mark =>
    cases ht with
    | stay => exact ⟨h.turn, h.stage, h.store, h.answers⟩
    | mark key rest hs => cases h.stage.symm.trans hs

theorem step (h : Deleted job deleted s₀ s) {a : Action} (ha : a ≠ .clear) :
    Deleted job deleted s₀ (s.step a) := by
  have ht := s.step_taken a
  generalize s.step a = t at ht
  cases ht with
  | stay => exact h
  | lookUp key outcome => exact ⟨h.turn, h.stage, h.store, h.answers⟩
  | update c hc => exact ⟨h.turn, h.stage, h.store, h.answers⟩
  | save part hstart => exact h.save part hstart
  | readError store err hfree hload => cases h.turn.symm.trans hfree.2
  | read rows store hfree hl hload => cases h.turn.symm.trans hfree.2
  | absorb r rest hturn => cases h.turn.symm.trans hturn
  | loaded hturn => cases h.turn.symm.trans hturn
  | deleteError job' store err hfree hdelete => cases h.turn.symm.trans hfree.2
  | delete job' store n hfree hdelete => cases h.turn.symm.trans hfree.2
  | clear job' n hturn => exact (ha rfl).elim

theorem run (h : Deleted job deleted s₀ s) {actions : List Action}
    (hactions : Action.clear ∉ actions) : Deleted job deleted s₀ (s.run actions) := by
  refine List.foldlRecOn (motive := Deleted job deleted s₀) actions _ h fun t ht a ha => ?_
  apply ht.step
  rintro rfl
  exact hactions ha

end Deleted

/-- Whether a row holds what was counted in some of the calls that looked up the model of its key
from some time on. -/
def Counts (n : Nat) (s : Contended σ) (r : StatsRow) : Prop :=
  ∃ key part, key.stored = r.key ∧ part.Sublist (s.since n key) ∧
    r.Stores ((total part).upTo Column.max)

theorem Counts.mono {n : Nat} {s t : Contended σ} {r : StatsRow} (h : s.Counts n r)
    {more : List Call} (hcounted : t.counted = s.counted ++ more) : t.Counts n r := by
  obtain ⟨key, part, hkey, hpart, hr⟩ := h
  refine ⟨key, part, hkey, hpart.trans ?_, hr⟩
  rw [since, since, hcounted, List.filter_append]
  exact List.sublist_append_left ..

theorem Restarted.counts_row {n n' : Nat} {key : ModelKey} {s : Contended σ} {m : Model Float}
    (h : s.Restarted n' key) (hn : n ≤ n') (hm : s.engine.model? key = some m) (now : Instant) :
    s.Counts n (m.row key.job key.provider now) := by
  refine ⟨key, s.since n' key, rfl, ?_, ?_⟩
  · refine List.monotone_filter_right s.counted fun c hc => ?_
    simp only [Bool.and_eq_true, decide_eq_true_eq] at hc ⊢
    exact ⟨Nat.le_trans hn hc.1, hc.2⟩
  · have htally : m.tally = s.engine.tally key := by rw [Engine.tally, hm]; rfl
    have hstores := m.stores_row key.job key.provider now
    rwa [htally, h.total, Tally.upTo_upTo (by decide)] at hstores

variable [ModelStore σ] [LawfulModelStore σ]

def table (s : Contended σ) : StatsTable := LawfulModelStore.table s.store

/-- Nothing is left of what was counted for a job before some time, and nothing of it comes back. -/
structure Forgotten (job : Option String) (n : Nat) (s : Contended σ) : Prop where
  memory : ∀ key, Covers job key.job → ∃ n', n ≤ n' ∧ s.Restarted n' key
  stored : ∀ r, s.table.get? r.key = some r → Covers job r.job → s.Counts n r
  /-- No rows of the job can be added to what is in memory. -/
  unread : s.engine.loaded = false → ∀ r, s.table.get? r.key = some r → ¬ Covers job r.job
  loading : ∀ rows, s.turn = .loading rows → ∀ r ∈ rows, ¬ Covers job r.job
  inFlight : ∀ g, s.stage = .gathering g → ∀ p ∈ g.rows, Covers job p.2.job → s.Counts n p.2

namespace Forgotten

variable {job : Option String} {n : Nat} {s : Contended σ}

theorem visit (h : s.Forgotten job n) {g : Gathering} (hs : s.stage = .gathering g)
    (key : ModelKey) {g' : Gathering} (hg' : (s.toShared.visit g key).stage = .gathering g') :
    ∀ p ∈ g'.rows, Covers job p.2.job → s.Counts n p.2 := by
  rcases s.toShared.visit_cases g key with hsame | ⟨hkey, m, hm⟩
  · rw [hsame] at hg'
    exact h.inFlight g' hg'
  · rw [Shared.visit_of_model hkey hm] at hg'
    cases hg'
    intro p hp hcovers
    rcases List.mem_append.1 hp with hp | hp
    · exact h.inFlight g hs p hp hcovers
    · cases hd : m.dirty with
      | false =>
        rw [Shared.collected_of_clean hm hd] at hp
        cases hp
      | true =>
        rw [Shared.collected_of_dirty hm hd] at hp
        cases List.mem_singleton.1 hp
        -- the row is made of what is in memory, which counts nothing from before
        obtain ⟨n', hn, hmemory⟩ := h.memory key hcovers
        exact hmemory.counts_row hn hm g.now

theorem upserts (h : s.Forgotten job n) {g : Gathering} (hs : s.stage = .gathering g)
    {part : List StatsRow} (hpart : part.Sublist (g.rows.map (·.2))) {r : StatsRow}
    (hr : (part.foldl StatsTable.upsert s.table).get? r.key = some r) (hcovers : Covers job r.job) :
    s.Counts n r := by
  rcases StatsTable.get?_upserts_cases hr with hr | hr
  · exact h.stored r hr hcovers
  · obtain ⟨p, hp, rfl⟩ := List.mem_map.1 (hpart.subset hr)
    exact h.inFlight g hs p hp hcovers

theorem finish (h : s.Forgotten job n) {g : Gathering} (hs : s.stage = .gathering g) (r : StatsRow)
    (hr : (LawfulModelStore.table (s.toShared.finish g).store).get? r.key = some r)
    (hcovers : Covers job r.job) : s.Counts n r := by
  rcases s.toShared.finish_cases g with ⟨_, hf⟩ |
    ⟨_, ⟨_, hf⟩ | ⟨store, hstore, hf⟩ | ⟨err, store, hstore, hf⟩⟩
  · rw [hf] at hr
    exact h.stored r hr hcovers
  · rw [hf] at hr
    exact h.stored r hr hcovers
  · have ht := LawfulModelStore.table_upsertRows (congrArg Prod.fst hstore)
    rw [hstore] at ht
    rw [hf] at hr
    exact h.upserts hs (.refl _) (ht ▸ hr) hcovers
  · obtain ⟨part, hpart, ht⟩ := LawfulModelStore.table_upsertRows_error (congrArg Prod.fst hstore)
    rw [hstore] at ht
    rw [hf] at hr
    exact h.upserts hs hpart (ht ▸ hr) hcovers

theorem save (h : s.Forgotten job n) (hs : s.Sound) (part : SaveStep)
    (hmemory : ∀ key, Covers job key.job → ∃ n', n ≤ n' ∧
      ({ s with toShared := s.toShared.step part.action } : Contended σ).Restarted n' key) :
    ({ s with toShared := s.toShared.step part.action } : Contended σ).Forgotten job n := by
  have ht := s.toShared.step_taken part.action
  have hl := s.toShared.loaded_save part
  generalize s.toShared.step part.action = t at ht hmemory hl
  have hread (hloaded : s.engine.loaded = true) (hunread : t.engine.loaded = false) : False := by
    cases hloaded.symm.trans (hl.symm.trans hunread)
  cases part with
  | request =>
    cases ht with
    | stay => exact h
    | request => exact ⟨hmemory, h.stored, h.unread, h.loading, h.inFlight⟩
  | start now =>
    cases ht with
    | stay => exact h
    | skip => exact ⟨hmemory, h.stored, h.unread, h.loading, h.inFlight⟩
    | start _ _ hl =>
      refine ⟨hmemory, h.stored, h.unread, h.loading, ?_⟩
      intro g hg p hp
      cases hg
      cases hp
  | visit key =>
    cases ht with
    | stay => exact h
    | visit _ g hg =>
      have hstore := s.toShared.store_visit g key
      refine ⟨hmemory, ?_, ?_, h.loading, fun g' hg' => h.visit hg key hg'⟩
      · intro r hr
        rw [table, hstore] at hr
        exact h.stored r hr
      · exact fun hunread => (hread (hs.gathering g hg) hunread).elim
  | store =>
    cases ht with
    | stay => exact h
    | finish g hg =>
      refine ⟨hmemory, fun r hr => h.finish hg r hr, ?_, h.loading, ?_⟩
      · exact fun hunread => (hread (hs.gathering g hg) hunread).elim
      · intro g' hg'
        rw [Shared.finish_of_gathering g hg'] at hg'
        exact h.inFlight g' hg'
  | mark =>
    cases ht with
    | stay => exact h
    | mark key rest _ =>
      exact ⟨hmemory, h.stored, h.unread, h.loading,
        fun g hg => (SaveStage.marking_ne rest g hg).elim⟩

theorem memory_step (h : s.Forgotten job n) (hs : s.Sound) (a : Action) (key : ModelKey)
    (hcovers : Covers job key.job) : ∃ n', n ≤ n' ∧ (s.step a).Restarted n' key := by
  obtain ⟨n', hn, hkey⟩ := h.memory key hcovers
  -- a load in progress has read no row of the key
  have hload : ∀ r rest, s.turn = .loading (r :: rest) → r.owner? ≠ some key := by
    intro r rest hturn howner
    have hjob : r.job = key.job := StatsRow.job_of_owner? howner
    exact h.loading (r :: rest) hturn r List.mem_cons_self (hjob ▸ hcovers)
  by_cases hclear : ∀ job deleted, a = .clear → s.turn = .clearing job deleted →
      ¬ Covers job key.job
  · exact ⟨n', hn, hkey.step hs hload hclear⟩
  · -- it is forgotten once more
    simp only [Classical.not_forall, Classical.not_not] at hclear
    obtain ⟨job', deleted, rfl, hturn, hcovers'⟩ := hclear
    have hstep : s.step .clear = s.clear job' deleted := by simp only [Contended.step, hturn]
    rw [hstep]
    exact ⟨s.tickets, Nat.le_trans hn hkey.started, .of_clear hs hcovers' deleted⟩

theorem store (h : s.Forgotten job n) (store : σ)
    (hstore : ∀ k r, (LawfulModelStore.table store).get? k = some r → s.table.get? k = some r) :
    ({ s with store := store } : Contended σ).Forgotten job n where
  memory := by
    intro key hcovers
    obtain ⟨n', hn, hkey⟩ := h.memory key hcovers
    exact ⟨n', hn, hkey.congr rfl rfl rfl rfl rfl⟩
  stored r hr hcovers := h.stored r (hstore _ r hr) hcovers
  unread hl r hr := h.unread hl r (hstore _ r hr)
  loading := h.loading
  inFlight := h.inFlight

theorem of_table (h : s.Forgotten job n) {store : σ}
    (hstore : LawfulModelStore.table store = s.table) :
    ({ s with store := store } : Contended σ).Forgotten job n :=
  h.store store fun k _ hr => (congrArg (·.get? k) hstore).symm.trans hr

theorem complete (h : s.Forgotten job n) (c : Call)
    (hmemory : ∀ key, Covers job key.job → ∃ n', n ≤ n' ∧ (s.complete c).Restarted n' key) :
    (s.complete c).Forgotten job n where
  memory := hmemory
  stored r hr hcovers := (h.stored r hr hcovers).mono rfl
  unread hl := by
    apply h.unread
    rw [← hl, Contended.complete]
    dsimp only
    split <;> rfl
  loading := h.loading
  inFlight g hg p hp hcovers := (h.inFlight g hg p hp hcovers).mono rfl

theorem read (h : s.Forgotten job n) (hl : s.engine.loaded = false) {rows : List StatsRow}
    {store : σ} (hload : ModelStore.loadRows s.store = (.ok rows, store)) :
    ∀ r ∈ rows, ¬ Covers job r.job := by
  intro r hr
  have hperm := LawfulModelStore.perm_of_loadRows (congrArg Prod.fst hload)
  exact h.unread hl r ((StatsTable.mem_values_iff _ r).1 (hperm.mem_iff.1 hr))

theorem step (h : s.Forgotten job n) (hs : s.Sound) (a : Action) : (s.step a).Forgotten job n := by
  have hmemory := h.memory_step hs a
  have ht := s.step_taken a
  generalize s.step a = t at ht hmemory
  cases ht with
  | stay => exact h
  | lookUp key outcome => exact ⟨hmemory, h.stored, h.unread, h.loading, h.inFlight⟩
  | update c hc => exact h.complete c hmemory
  | save part _ => exact h.save hs part hmemory
  | readError store err _ hload =>
    have ht := LawfulModelStore.table_loadRows s.store
    rw [hload] at ht
    exact h.of_table ht
  | read rows store _ hl hload =>
    have ht := LawfulModelStore.table_loadRows s.store
    rw [hload] at ht
    have h' := h.of_table ht
    refine ⟨hmemory, h'.stored, h'.unread, ?_, h'.inFlight⟩
    rintro _ ⟨⟩
    exact h.read hl hload
  | absorb r rest hturn =>
    refine ⟨hmemory, h.stored, ?_, ?_, h.inFlight⟩
    · intro hl
      exact h.unread ((s.engine.loaded_absorb r).symm.trans hl)
    · rintro _ ⟨⟩ r' hr'
      exact h.loading _ hturn r' (List.mem_cons_of_mem r hr')
  | loaded hturn => exact ⟨hmemory, h.stored, nofun, nofun, h.inFlight⟩
  | deleteError job' store err _ hdelete =>
    have ht := LawfulModelStore.table_deleteRows_error (congrArg Prod.fst hdelete)
    rw [hdelete] at ht
    have h' := h.of_table ht
    exact ⟨hmemory, h'.stored, h'.unread, h'.loading, h'.inFlight⟩
  | delete job' store deleted _ hdelete =>
    obtain ⟨ht, _⟩ := LawfulModelStore.table_deleteRows (congrArg Prod.fst hdelete)
    rw [hdelete] at ht
    have h' := h.store store fun k r hr => by
      rw [ht, StatsTable.get?_delete] at hr
      split at hr
      · cases hr
      · exact hr
    exact ⟨hmemory, h'.stored, h'.unread, nofun, h'.inFlight⟩
  | clear job' deleted hturn =>
    refine ⟨hmemory, h.stored, ?_, nofun, h.inFlight⟩
    intro hl
    apply h.unread
    cases job' <;> exact hl

theorem run (h : s.Forgotten job n) (hs : s.Sound) (actions : List Action) :
    (s.run actions).Forgotten job n :=
  (List.foldlRecOn (motive := fun t : Contended σ => t.Sound ∧ t.Forgotten job n) actions _ ⟨hs, h⟩
    fun _ ht a _ => ⟨ht.1.step a, ht.2.step ht.1 a⟩).2

end Forgotten

namespace Deleted

variable {job : Option String} {deleted : Nat} {s₀ s : Contended σ}

theorem forgotten (h : Deleted job deleted s₀ s) (hs : s.Sound) {t : StatsTable}
    (ht : s.table = t.delete job) : (s.clear job deleted).Forgotten job s.tickets := by
  have hnone (r : StatsRow) (hr : s.table.get? r.key = some r) : ¬ Covers job r.job := by
    intro hcovers
    have hget := t.get?_delete job r.key
    rw [← ht, hr] at hget
    cases hget.trans (if_pos hcovers)
  refine ⟨?_, ?_, ?_, nofun, ?_⟩
  · intro key hcovers
    exact ⟨s.tickets, Nat.le_refl _, .of_clear hs hcovers deleted⟩
  · intro r hr hcovers
    exact (hnone r hr hcovers).elim
  · intro _ r hr
    exact hnone r hr
  · intro g hg
    cases h.stage.symm.trans hg

end Deleted

/-- If no reset follows, it is counted from the same time on. -/
theorem Forgotten.run_restarted {job : Option String} {n : Nat} {s : Contended σ} {key : ModelKey}
    (h : s.Forgotten job n) (hs : s.Sound) (hcovers : Covers job key.job)
    (hkey : s.Restarted n key) {actions : List Action} (hactions : Action.clear ∉ actions) :
    (s.run actions).Restarted n key := by
  refine (List.foldlRecOn (motive := fun t : Contended σ =>
    t.Sound ∧ t.Forgotten job n ∧ t.Restarted n key) actions _ ⟨hs, h, hkey⟩ ?_).2.2
  rintro t ⟨hs, h, hkey⟩ a ha
  refine ⟨hs.step a, h.step hs a, hkey.step hs ?_ ?_⟩
  · intro r rest hturn howner
    have hjob : r.job = key.job := StatsRow.job_of_owner? howner
    exact h.loading _ hturn r List.mem_cons_self (hjob ▸ hcovers)
  · rintro job' deleted rfl
    exact (hactions ha).elim

theorem answer_eq (job : Option String) (deleted : Nat) :
    answer job deleted = if job.isSome then ((min deleted Column.max : Nat) : Int) else -1 := by
  rw [answer, Column.toInt_ofCounter]

/-- No row and no model changes of a job that a reset is not about. -/
def Spares (job : Option String) (s t : Contended σ) : Prop :=
  (∀ k, ¬ Covers job k.job → t.table.get? k = s.table.get? k) ∧
    ∀ key, ¬ Covers job key.job → t.engine.model? key = s.engine.model? key

/-- A reset that fails changes nothing. One that succeeds answers the number of rows of its job and
leaves all other jobs as they are. From then on, whatever is done, models and rows of its job count
no call that had looked up its model before the reset forgot the models. -/
theorem reset_lasts (config : AffinityConfig) (roles : List Role) (store : σ)
    {before waiting : List Action} (job : Option String)
    (hfree : ((start config roles store).run before).Free) (hwaiting : Action.clear ∉ waiting)
    (after : List Action) :
    let s := (start config roles store).run before
    let deleted := s.step (.delete job)
    let waited := deleted.run waiting
    let cleared := waited.step .clear
    let last := cleared.run after
    (∀ err, (ModelStore.deleteRows job s.store).1 = .error err →
      deleted.answers = s.answers ++ [(job, .error err)] ∧ deleted.engine = s.engine ∧
        deleted.table = s.table ∧ deleted.Free) ∧
    ∀ n, (ModelStore.deleteRows job s.store).1 = .ok n →
      cleared.answers = s.answers ++ [(job, .ok (if job.isSome then
        (min (s.table.rows.values.countP fun r => job.all (· == r.job)) Column.max : Nat)
        else -1))] ∧
      s.Spares job deleted ∧ waited.Spares job cleared ∧
      (∀ key, Covers job key.job → ∃ n', cleared.tickets ≤ n' ∧
        (Action.clear ∉ after → n' = cleared.tickets) ∧
        last.engine.tally key = (total (last.since n' key)).upTo Counter.max) ∧
      ∀ r, last.table.get? r.key = some r → Covers job r.job → last.Counts cleared.tickets r := by
  intro s deleted waited cleared last
  have hdeleted : deleted = s.delete job := if_pos (isFree_iff.2 hfree)
  have hsound : s.Sound := (Sound.start config roles store).run before
  refine ⟨fun err herr => ?_, fun n hn => ?_⟩
  · have ht := LawfulModelStore.table_deleteRows_error herr
    rw [hdeleted, delete]
    generalize ModelStore.deleteRows job s.store = answer at herr ht
    obtain ⟨_, store'⟩ := answer
    cases herr
    exact ⟨rfl, rfl, ht, hfree⟩
  · obtain ⟨ht, hcount⟩ := LawfulModelStore.table_deleteRows hn
    have hheld : deleted = { s with
        store := (ModelStore.deleteRows job s.store).2, turn := .clearing job n } := by
      rw [hdeleted, delete]
      generalize ModelStore.deleteRows job s.store = answer at hn
      obtain ⟨_, store'⟩ := answer
      cases hn
      rfl
    have htable : deleted.table = s.table.delete job := by rw [hheld]; exact ht
    -- until the models are forgotten the lock is held, so no save or load comes in between
    have hwaited : Deleted job n deleted waited :=
      Deleted.run ⟨by rw [hheld], by rw [hheld]; exact hfree.1, rfl, rfl⟩ hwaiting
    have hcleared : cleared = waited.clear job n := by
      change waited.step .clear = _
      simp only [step, hwaited.turn]
    have hsoundw : waited.Sound := (hsound.step _).run waiting
    have hsoundc : cleared.Sound := hsoundw.step _
    have hforgotten : cleared.Forgotten job waited.tickets := by
      rw [hcleared]
      refine hwaited.forgotten hsoundw (t := s.table) ?_
      rw [← htable, table, hwaited.store]
      rfl
    have htickets : cleared.tickets = waited.tickets := by rw [hcleared]; rfl
    have hlast : last.Forgotten job waited.tickets := hforgotten.run hsoundc after
    refine ⟨?_, ?_, ?_, ?_, ?_⟩
    · have hanswers : cleared.answers = s.answers ++ [(job, .ok (answer job n))] := by
        rw [hcleared, clear, hwaited.answers, hheld]
      rw [hanswers, answer_eq, hcount, StatsTable.size_delete]
      rfl
    · refine ⟨fun k hk => ?_, fun key _ => by rw [hheld]⟩
      rw [htable, StatsTable.get?_delete, if_neg hk]
    · refine ⟨fun k _ => by rw [hcleared]; rfl, fun key hkey => ?_⟩
      rw [hcleared]
      exact (waited.engine.model?_forget job key).trans (if_neg hkey)
    · intro key hcovers
      by_cases hafter : Action.clear ∈ after
      · obtain ⟨n', hn', hkey⟩ := hlast.memory key hcovers
        exact ⟨n', htickets ▸ hn', fun h => (h hafter).elim, hkey.total⟩
      · have hkey : cleared.Restarted waited.tickets key := by
          rw [hcleared]
          exact .of_clear hsoundw hcovers n
        have hkey := hforgotten.run_restarted hsoundc hcovers hkey hafter
        exact ⟨waited.tickets, Nat.le_of_eq htickets, fun _ => htickets.symm, hkey.total⟩
    · rw [htickets]
      exact hlast.stored

/-- An outcome of a call from before the reset does not count. -/
theorem reset_lasts_of_late_update :
    let key : ModelKey := ⟨"a", 0⟩
    let rows : List StatsRow := [⟨"a", 0, 20, 5, 1000, 100, 0, 0⟩, ⟨"b", 0, 7, 0, 70, 7, 0, 0⟩]
    let store : FatefulStore := ⟨rows.foldl StatsTable.upsert ∅, []⟩
    let before : List Action :=
      [.read, .absorb, .absorb, .absorb, .lookUp key (.success 100 10)]
    let waiting : List Action := [.lookUp key .failure]
    let after : List Action := [.update 0, .lookUp key .failure, .update 1, .update 2,
      .save .request, .save (.start ⟨5, 0⟩), .save (.visit key), .save .store]
    let s := (start .standard [] store).run before
    let cleared := ((s.step (.delete (some "a"))).run waiting).step .clear
    (s.Free ∧ Action.clear ∉ waiting) ∧ (cleared.run after).engine.tally key = ⟨0, 1, 0, 0⟩ := by
  intro key rows store before waiting after s cleared
  have hfree : s.Free := isFree_iff.1 (by decide +kernel)
  have hwaiting : Action.clear ∉ waiting := by simp [waiting]
  have hafter : Action.clear ∉ after := by simp [after]
  obtain ⟨_, hreset⟩ := reset_lasts .standard [] store (some "a") hfree hwaiting after
  obtain ⟨_, _, _, hmemory, _⟩ := hreset 1 (by decide +kernel)
  obtain ⟨n, _, hn, htally⟩ := hmemory key (by decide)
  rw [hn hafter] at htally
  exact ⟨⟨hfree, hwaiting⟩, htally.trans (by decide +kernel)⟩

end Contended

end ProviderScout
