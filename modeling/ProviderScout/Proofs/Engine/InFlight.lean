import Mathlib.Data.List.Nodup
import ProviderScout.Proofs.Engine.Interleaving
import ProviderScout.Proofs.Store.Fates

namespace ProviderScout

namespace StatsRow

/-- Whether the columns of a row are these totals. -/
def Stores (t : Tally) (r : StatsRow) : Prop :=
  r.successes.toInt = t.successes ∧ r.failures.toInt = t.failures ∧ r.bytes.toInt = t.bytes ∧
    r.millis.toInt = t.millis

def IsNonneg (r : StatsRow) : Prop :=
  0 ≤ r.successes.toInt ∧ 0 ≤ r.failures.toInt ∧ 0 ≤ r.bytes.toInt ∧ 0 ≤ r.millis.toInt

theorem IsNonneg.stores {r : StatsRow} (h : r.IsNonneg) : r.Stores (r.tally.upTo Column.max) := by
  rw [r.tally_upTo (Nat.le_refl _)]
  exact ⟨(Int.toNat_of_nonneg h.1).symm, (Int.toNat_of_nonneg h.2.1).symm,
    (Int.toNat_of_nonneg h.2.2.1).symm, (Int.toNat_of_nonneg h.2.2.2).symm⟩

end StatsRow

theorem StatsTable.isNonneg_of_upsert {row r : StatsRow} {k : ModelKey} (h : row.IsNonneg)
    (hr : ((∅ : StatsTable).upsert row).rowOf? k = some r) : r.IsNonneg := by
  rw [rowOf?] at hr
  split at hr
  · rw [get?_upsert] at hr
    split at hr
    · cases hr
      exact h
    · cases hr
  · cases hr

theorem Model.stores_row (m : Model Float) (job : String) (provider : Nat) (now : Instant) :
    (m.row job provider now).Stores (m.tally.upTo Column.max) :=
  ⟨Column.toInt_ofCounter _, Column.toInt_ofCounter _, Column.toInt_ofCounter _,
    Column.toInt_ofCounter _⟩

theorem Model.isNonneg_row (m : Model Float) (job : String) (provider : Nat) (now : Instant) :
    (m.row job provider now).IsNonneg := by
  obtain ⟨hs, hf, hb, hm⟩ := m.stores_row job provider now
  refine ⟨?_, ?_, ?_, ?_⟩ <;> omega

theorem Account.Balanced.nonneg_next {a : Account} {events : List Event} {c : Cell}
    (h : a.Balanced events c) {ev : Event} {stray : Bool}
    (hload : (c.next a.config a.key ev stray).loaded = ev.loaded)
    (hrow : ∀ r, c.row = some r → r.IsNonneg) :
    ∀ r, (c.next a.config a.key ev stray).row = some r → r.IsNonneg := by
  intro r hr
  cases hreset : ev.resets a.key with
  | true =>
    rw [Cell.row_next_of_resets hreset] at hr
    cases hr
  | false =>
    rcases h.row_next hload hreset with ⟨_, hkept⟩ | ⟨_, d, now, _, _, hd, hnext⟩
    · exact hrow r (hkept ▸ hr)
    · rw [hnext] at hr
      rcases d.savedRow_cases a.key now ev.ok stray with hkept | ⟨m, _, hsaved⟩
      · exact hrow r (hd ▸ hkept ▸ hr)
      · cases hsaved.symm.trans hr
        exact m.isNonneg_row a.key.job a.key.provider now

namespace Shared

variable {σ : Type}

/-- What is dirty has yet to be visited by the save in progress. -/
def Unvisited (s : Shared σ) : Prop :=
  ∀ g, s.stage = .gathering g → ∀ k m, s.engine.model? k = some m → m.dirty = true →
    k ∈ g.keys ∧ k ∉ g.visited

theorem Unvisited.visit {s : Shared σ} (h : s.Unvisited) {g : Gathering}
    (hs : s.stage = .gathering g) (key : ModelKey) : (s.visit g key).Unvisited := by
  rcases s.visit_cases g key with hsame | ⟨hkey, m, hm⟩
  · rwa [hsame]
  rw [visit_of_model hkey hm]
  intro g' hg' k v hv hd
  cases hg'
  rw [Engine.model?, s.engine.models.get?_insert key k] at hv
  split at hv
  · cases hv
    rw [Model.dirty_saved] at hd
    cases hd
  · rename_i hk
    obtain ⟨hmem, hvisited⟩ := h g hs k v hv hd
    exact ⟨hmem, List.not_mem_cons_of_ne_of_not_mem hk hvisited⟩

theorem unvisited_of_ne {s : Shared σ} (h : ∀ g, s.stage ≠ .gathering g) : s.Unvisited :=
  fun g hg => (h g hg).elim

variable [ModelStore σ]

theorem Unvisited.finish {s : Shared σ} (h : s.Unvisited) (g : Gathering) :
    (s.finish g).Unvisited := by
  rcases s.finish_cases g with ⟨_, hf⟩ | ⟨_, ⟨_, hf⟩ | ⟨_, _, hf⟩ | ⟨_, _, _, hf⟩⟩
  · rwa [hf]
  · rw [hf]
    exact unvisited_of_ne nofun
  · rw [hf]
    exact unvisited_of_ne nofun
  · rw [hf]
    exact unvisited_of_ne (SaveStage.marking_ne _)

theorem Unvisited.step {s : Shared σ} (h : s.Unvisited) {a : Action} (ha : a.records = false) :
    (s.step a).Unvisited := by
  have ht := s.step_taken a
  generalize s.step a = t at ht
  cases ht with
  | stay => exact h
  | success key bytes millis => cases ha
  | failure key => cases ha
  | load hs =>
    apply unvisited_of_ne
    intro g hg
    cases hs.symm.trans hg
  | request => exact h
  | skip now => exact h
  | start now hs hl =>
    intro g hg k m hm _
    cases hg
    exact ⟨(s.engine.models.mem_keys_iff k).2 ⟨m, hm⟩, List.not_mem_nil⟩
  | visit key g hs => exact h.visit hs key
  | finish g hs => exact h.finish g
  | mark key rest hs => exact unvisited_of_ne (SaveStage.marking_ne rest)

theorem Unvisited.run {s : Shared σ} (h : s.Unvisited) {actions : List Action}
    (hquiet : ∀ a ∈ actions, a.records = false) : (s.run actions).Unvisited :=
  List.foldlRecOn (motive := Unvisited) actions _ h fun _ h a ha => h.step (hquiet a ha)

theorem Unvisited.clean_of_finish {s : Shared σ} (h : s.Unvisited) {g : Gathering}
    (hs : s.stage = .gathering g) (hidle : (s.finish g).stage = .idle) {k : ModelKey}
    {m : Model Float} (hm : (s.finish g).engine.model? k = some m) : m.dirty = false := by
  rw [engine_finish] at hm
  rcases s.finish_cases g with ⟨_, hf⟩ | ⟨hall, _⟩
  · rw [hf, hs] at hidle
    cases hidle
  · cases hd : m.dirty with
    | false => rfl
    | true =>
      obtain ⟨hkey, hvisited⟩ := h g hs k m hm hd
      exact (hvisited (hall k hkey)).elim

theorem gathering_of_store {s : Shared σ} (hs : s.stage ≠ .idle)
    (h : (s.step .store).stage = .idle) : ∃ g, s.stage = .gathering g ∧ s.step .store = s.finish g := by
  obtain ⟨engine, store, stage, waiting⟩ := s
  cases stage with
  | idle => exact (hs rfl).elim
  | gathering g => exact ⟨g, rfl, rfl⟩
  | refused keys => cases h

variable [LawfulModelStore σ]

def table (s : Shared σ) : StatsTable := LawfulModelStore.table s.store

/-- The rows of a save are those of different models, of which each is up to date or dirty. -/
structure Gathered (g : Gathering) (e : Engine) : Prop where
  nodup : (g.rows.map (·.1)).Nodup
  visited : ∀ k ∈ g.rows.map (·.1), k ∈ g.visited
  current : ∀ k r, (k, r) ∈ g.rows → r.key = k.stored ∧
    ∃ m, e.model? k = some m ∧ (m.dirty = true ∨ r.Stores (m.tally.upTo Column.max))

namespace Gathered

variable {g : Gathering} {e : Engine} {t : StatsTable} {k : ModelKey}

theorem eq_of_key (h : Gathered g e) (he : e.Fits) (hk : k.Fits) {r : StatsRow}
    (hr : r ∈ g.rows.map (·.2)) (hkey : r.key = k.stored) : (k, r) ∈ g.rows := by
  obtain ⟨⟨k', r'⟩, hmem, rfl⟩ := List.mem_map.1 hr
  obtain ⟨hstored, m, hm, _⟩ := h.current k' r' hmem
  cases ModelKey.stored_inj (he k' m hm) hk (hstored.symm.trans hkey)
  exact hmem

theorem rowOf?_of_not_mem (h : Gathered g e) (he : e.Fits) (hk : k.Fits)
    (hmem : k ∉ g.rows.map (·.1)) {part : List StatsRow}
    (hpart : part.Sublist (g.rows.map (·.2))) :
    (part.foldl StatsTable.upsert t).rowOf? k = t.rowOf? k := by
  rw [StatsTable.rowOf?_eq _ hk, StatsTable.rowOf?_eq _ hk]
  refine StatsTable.get?_upserts_of_ne fun r hr hkey => hmem ?_
  exact List.mem_map_of_mem (h.eq_of_key he hk (hpart.subset hr) hkey)

theorem rowOf?_of_mem (h : Gathered g e) (he : e.Fits) (hk : k.Fits) {r : StatsRow}
    (hmem : (k, r) ∈ g.rows) :
    ((g.rows.map (·.2)).foldl StatsTable.upsert t).rowOf? k = some r := by
  rw [StatsTable.rowOf?_eq _ hk]
  refine StatsTable.get?_upserts_of_mem (fun r' hr' hkey => ?_) (List.mem_map_of_mem hmem)
    (h.current k r hmem).1
  have hmem' := h.eq_of_key he hk hr' hkey
  exact congrArg Prod.snd (List.inj_on_of_nodup_map h.nodup hmem' hmem rfl)

end Gathered

/-- Nothing that is counted goes unsaved. -/
structure Safe (s : Shared σ) : Prop where
  fits : s.engine.Fits
  early : s.engine.loaded = false → s.stage = .idle ∧
    (∀ k m, s.engine.model? k = some m → m.dirty = true) ∧
    ∀ k, ∀ r ∈ s.table.rowOf? k, r.IsNonneg
  saved : s.engine.loaded = true → ∀ k m, s.engine.model? k = some m →
    m.dirty = true ∨ k ∈ s.stage.inFlight ∨
      ∃ r ∈ s.table.rowOf? k, r.Stores (m.tally.upTo Column.max)
  gathered : ∀ g, s.stage = .gathering g → Gathered g s.engine

namespace Safe

variable {s : Shared σ}

theorem start (config : AffinityConfig) (roles : List Role) {store : σ}
    (hrows : ∀ k, ∀ r ∈ (LawfulModelStore.table store).rowOf? k, r.IsNonneg) :
    (start config roles store).Safe where
  fits := nofun
  early _ := ⟨rfl, nofun, hrows⟩
  saved := nofun
  gathered := nofun

theorem touch (h : s.Safe) {e : Engine} (hfits : e.Fits) (hloaded : e.loaded = s.engine.loaded)
    (hmodel : ∀ k m, e.model? k = some m → m.dirty = true ∨ s.engine.model? k = some m)
    (hprev : ∀ k m, s.engine.model? k = some m →
      ∃ m', e.model? k = some m' ∧ (m'.dirty = true ∨ m' = m)) :
    Safe { s with engine := e } where
  fits := hfits
  early hl := by
    obtain ⟨hstage, hdirty, hrows⟩ := h.early (hloaded ▸ hl)
    exact ⟨hstage, fun k m hm => (hmodel k m hm).elim id (hdirty k m), hrows⟩
  saved hl k m hm := (hmodel k m hm).elim .inl fun hm => h.saved (hloaded ▸ hl) k m hm
  gathered g hg := by
    obtain ⟨hnodup, hvisited, hcurrent⟩ := h.gathered g hg
    refine ⟨hnodup, hvisited, fun k r hr => ?_⟩
    obtain ⟨hkey, m, hm, hrow⟩ := hcurrent k r hr
    obtain ⟨m', hm', hdirty | rfl⟩ := hprev k m hm
    · exact ⟨hkey, m', hm', .inl hdirty⟩
    · exact ⟨hkey, m', hm', hrow⟩

theorem record (h : s.Safe) {key : ModelKey} (hkey : key.Fits) {f : Model Float → Model Float}
    (hf : ∀ m, (f m).dirty = true) :
    Safe { s with
      engine := if s.engine.isActive key.job then s.engine.update key f else s.engine } := by
  have hfits := h.fits.record hkey f
  by_cases hact : s.engine.isActive key.job = true
  · simp only [if_pos hact] at hfits ⊢
    refine h.touch hfits rfl (fun k m hm => ?_) fun k m hm => ?_
    · rw [Engine.model?_update] at hm
      split at hm
      · cases hm
        exact .inl (hf _)
      · exact .inr hm
    · rw [Engine.model?_update]
      split
      · exact ⟨_, rfl, .inl (hf _)⟩
      · exact ⟨m, hm, .inr rfl⟩
  · simp only [if_neg hact]
    exact h

theorem load (h : s.Safe) (hs : s.stage = .idle) :
    Safe { s with
      engine := (s.engine.load s.store).2.1
      store := (s.engine.load s.store).2.2 } := by
  have hfits := h.fits.load s.store
  by_cases hl : s.engine.loaded = true
  · rw [Engine.load_of_loaded hl]
    exact h
  rw [Bool.not_eq_true] at hl
  obtain ⟨_, hdirty, hrows⟩ := h.early hl
  have hidle (g : Gathering) : s.stage ≠ .gathering g := by
    rw [hs]
    exact nofun
  rcases Engine.load_cases hl s.store with ⟨_, he, ht⟩ | ⟨_, ht, rows, hperm, he⟩
  · rw [he]
    have hkept (k : ModelKey) (r : StatsRow)
        (hr : r ∈ (LawfulModelStore.table (s.engine.load s.store).2.2).rowOf? k) : r.IsNonneg := by
      rw [ht] at hr
      exact hrows k r hr
    exact {
      fits := h.fits
      early := fun _ => ⟨hs, hdirty, hkept⟩
      saved := fun hl' => absurd (hl.symm.trans hl') Bool.false_ne_true
      gathered := fun g hg => (hidle g hg).elim }
  · rw [he] at hfits ⊢
    refine {
      fits := hfits
      early := fun hl' => absurd hl'.symm Bool.false_ne_true
      saved := fun _ k m hm => ?_
      gathered := fun g hg => (hidle g hg).elim }
    change m.dirty = true ∨ _ ∨ ∃ r ∈ (LawfulModelStore.table _).rowOf? k, _
    rw [ht]
    change (rows.foldl Engine.absorb s.engine).model? k = some m at hm
    rw [Engine.model?_absorbs hperm] at hm
    cases hr : (LawfulModelStore.table s.store).rowOf? k with
    | none =>
      rw [hr] at hm
      exact .inl (hdirty k m hm)
    | some r =>
      rw [hr] at hm
      cases hm
      cases s.engine.model? k with
      | none => exact .inr (.inr ⟨r, rfl, (hrows k r hr).stores⟩)
      | some m => exact .inl rfl

theorem start_save (h : s.Safe) (hs : s.stage = .idle) (hl : s.engine.loaded = true) (now : Instant)
    (waiting : Nat) :
    Safe { s with
      waiting := waiting
      stage := .gathering ⟨now, s.engine.models.keys, [], []⟩ } where
  fits := h.fits
  early h := absurd (h.symm.trans hl) Bool.false_ne_true
  saved hl k m hm := by
    have hsaved := h.saved hl k m hm
    rw [hs] at hsaved
    exact hsaved
  gathered g hg := by
    cases hg
    exact ⟨.nil, nofun, nofun⟩

theorem loaded_of_busy (h : s.Safe) (hs : s.stage ≠ .idle) : s.engine.loaded = true := by
  cases hl : s.engine.loaded with
  | false => exact (hs (h.early hl).1).elim
  | true => rfl

theorem loaded_of_gathering (h : s.Safe) {g : Gathering} (hs : s.stage = .gathering g) :
    s.engine.loaded = true :=
  h.loaded_of_busy (by rw [hs]; exact nofun)

theorem visit (h : s.Safe) {g : Gathering} (hs : s.stage = .gathering g) (key : ModelKey) :
    (s.visit g key).Safe := by
  rcases s.visit_cases g key with hsame | ⟨hkey, m, hm⟩
  · rwa [hsame]
  rw [visit_of_model hkey hm]
  have hloaded := h.loaded_of_gathering hs
  obtain ⟨hnodup, hvisited, hcurrent⟩ := h.gathered g hs
  have hother {k : ModelKey} (hk : k ≠ key) (v : Model Float) :
      ({ s.engine with models := s.engine.models.insert key v } : Engine).model? k =
        s.engine.model? k :=
    (s.engine.models.get?_insert key k v).trans (if_neg hk)
  have hself (v : Model Float) :
      ({ s.engine with models := s.engine.models.insert key v } : Engine).model? key = some v :=
    (s.engine.models.get?_insert key key v).trans (if_pos rfl)
  cases hd : m.dirty with
  | false =>
    -- there is nothing to take, and all models are as they were
    have hsame (k : ModelKey) :
        ({ s.engine with models := s.engine.models.insert key m } : Engine).model? k =
          s.engine.model? k := by
      by_cases hk : k = key
      · rw [hk, hself, hm]
      · exact hother hk m
    rw [Model.saved_of_clean hd, collected_of_clean hm hd, Option.toList_none, List.append_nil]
    constructor
    · exact fun k m hm => h.fits k m (hsame k ▸ hm)
    · exact fun hl => absurd (hl.symm.trans hloaded) Bool.false_ne_true
    · intro _ k m hm
      have hsaved := h.saved hloaded k m (hsame k ▸ hm)
      rwa [hs] at hsaved
    · intro g' hg
      cases hg
      refine ⟨hnodup, fun k hk => List.mem_cons_of_mem key (hvisited k hk), fun k r hr => ?_⟩
      rw [hsame]
      exact hcurrent k r hr
  | true =>
    have hmap : (g.rows ++ [(key, m.row key.job key.provider g.now)]).map (·.1) =
        g.rows.map (·.1) ++ [key] := List.map_append
    rw [collected_of_dirty hm hd, Option.toList_some]
    constructor
    · intro k v hv
      by_cases hk : k = key
      · exact hk ▸ h.fits key m hm
      · exact h.fits k v (hother hk _ ▸ hv)
    · exact fun hl => absurd (hl.symm.trans hloaded) Bool.false_ne_true
    · intro _ k v hv
      rw [SaveStage.inFlight, hmap, List.mem_append, List.mem_singleton]
      by_cases hk : k = key
      · exact .inr (.inl (.inr hk))
      · rcases h.saved hloaded k v (hother hk _ ▸ hv) with hdirty | hflight | hrow
        · exact .inl hdirty
        · rw [hs] at hflight
          exact .inr (.inl (.inl hflight))
        · exact .inr (.inr hrow)
    · intro g' hg
      cases hg
      refine ⟨?_, fun k hk => ?_, fun k r hr => ?_⟩
      · rw [hmap, List.nodup_append]
        refine ⟨hnodup, List.pairwise_singleton _ key, fun k hk k' hk' he => ?_⟩
        exact hkey (List.mem_singleton.1 hk' ▸ he ▸ hvisited k hk)
      · rw [hmap, List.mem_append, List.mem_singleton] at hk
        exact List.mem_cons.2 (hk.symm.imp id (hvisited k))
      · rcases List.mem_append.1 hr with hr | hr
        · have hne : k ≠ key := fun he => hkey (he ▸ hvisited k (List.mem_map_of_mem hr))
          rw [hother hne]
          exact hcurrent k r hr
        · cases List.mem_singleton.1 hr
          refine ⟨rfl, _, hself _, .inr ?_⟩
          rw [Model.tally, Model.saved_performance]
          exact m.stores_row ..

theorem stored (h : s.Safe) {g : Gathering} (hs : s.stage = .gathering g) {store : σ}
    (hstore : ModelStore.upsertRows (g.rows.map (·.2)) s.store = (.ok (), store)) :
    Safe { s with store := store, stage := .idle } where
  fits := h.fits
  early hl := absurd (hl.symm.trans (h.loaded_of_gathering hs)) Bool.false_ne_true
  saved hl k m hm := by
    have hg := h.gathered g hs
    have ht := LawfulModelStore.table_upsertRows (congrArg Prod.fst hstore)
    rw [hstore] at ht
    change m.dirty = true ∨ _ ∨ ∃ r ∈ (LawfulModelStore.table store).rowOf? k, _
    rw [ht]
    by_cases hmem : k ∈ g.rows.map (·.1)
    · -- a model that has changed since its row was taken is dirty again
      obtain ⟨⟨k', r⟩, hrow, rfl⟩ := List.mem_map.1 hmem
      obtain ⟨_, m', hm', hr⟩ := hg.current k' r hrow
      cases hm'.symm.trans hm
      exact hr.imp id fun hr => .inr ⟨r, hg.rowOf?_of_mem h.fits (h.fits k' m hm) hrow, hr⟩
    · rw [hg.rowOf?_of_not_mem h.fits (h.fits k m hm) hmem (.refl _)]
      have hsaved := h.saved hl k m hm
      rw [hs] at hsaved
      rcases hsaved with hdirty | hflight | hrow
      · exact .inl hdirty
      · exact (hmem hflight).elim
      · exact .inr (.inr hrow)
  gathered := nofun

theorem refused (h : s.Safe) {g : Gathering} (hs : s.stage = .gathering g) {err : Error} {store : σ}
    (hstore : ModelStore.upsertRows (g.rows.map (·.2)) s.store = (.error err, store)) :
    Safe { s with store := store, stage := .marking (g.rows.map (·.1)) } where
  fits := h.fits
  early hl := absurd (hl.symm.trans (h.loaded_of_gathering hs)) Bool.false_ne_true
  saved hl k m hm := by
    have hg := h.gathered g hs
    obtain ⟨part, hpart, ht⟩ :=
      LawfulModelStore.table_upsertRows_error (congrArg Prod.fst hstore)
    rw [hstore] at ht
    change m.dirty = true ∨ _ ∨ ∃ r ∈ (LawfulModelStore.table store).rowOf? k, _
    rw [ht, SaveStage.inFlight_marking]
    by_cases hmem : k ∈ g.rows.map (·.1)
    · exact .inr (.inl hmem)
    · rw [hg.rowOf?_of_not_mem h.fits (h.fits k m hm) hmem hpart]
      have hsaved := h.saved hl k m hm
      rwa [hs] at hsaved
  gathered g' hg' := (SaveStage.marking_ne _ g' hg').elim

theorem finish (h : s.Safe) {g : Gathering} (hs : s.stage = .gathering g) : (s.finish g).Safe := by
  rcases s.finish_cases g with ⟨_, hf⟩ | ⟨_, ⟨hempty, hf⟩ | ⟨store, hstore, hf⟩ |
    ⟨err, store, hstore, hf⟩⟩
  · rwa [hf]
  · rw [hf]
    have hloaded := h.loaded_of_gathering hs
    exact {
      fits := h.fits
      early := fun hl => absurd (hl.symm.trans hloaded) Bool.false_ne_true
      saved := fun hl k m hm => by
        have hsaved := h.saved hl k m hm
        rwa [hs, SaveStage.inFlight, hempty] at hsaved
      gathered := nofun }
  · rw [hf]
    exact h.stored hs hstore
  · rw [hf]
    exact h.refused hs hstore

theorem mark (h : s.Safe) {key : ModelKey} {rest : List ModelKey}
    (hs : s.stage = .refused (key :: rest)) :
    Safe { s with engine := s.engine.restore [key], stage := .marking rest } := by
  have hloaded := h.loaded_of_busy (hs ▸ nofun)
  refine {
    fits := fun k m hm => ?_
    early := fun hl => absurd (hl.symm.trans hloaded) Bool.false_ne_true
    saved := fun _ k m hm => ?_
    gathered := fun g' hg' => (SaveStage.marking_ne _ g' hg').elim }
  all_goals
    rw [Engine.model?_restore] at hm
    obtain ⟨m', hm', rfl⟩ := Option.map_eq_some_iff.1 hm
  · exact h.fits k m' hm'
  · rw [SaveStage.inFlight_marking]
    by_cases hk : k ∈ [key]
    · rw [if_pos hk]
      exact .inl rfl
    · rw [if_neg hk]
      rcases h.saved hloaded k m' hm' with hdirty | hflight | hrow
      · exact .inl hdirty
      · rw [hs] at hflight
        exact .inr (.inl ((List.mem_cons.1 hflight).resolve_left fun he => hk (he ▸ .head _)))
      · exact .inr (.inr hrow)

/-- Each step keeps what is counted from going unsaved. -/
theorem step (h : s.Safe) {a : Action} (ha : a.Fits) : (s.step a).Safe := by
  have ht := s.step_taken a
  generalize s.step a = t at ht
  cases ht with
  | stay => exact h
  | success key bytes millis => exact h.record ha fun _ => rfl
  | failure key => exact h.record ha fun _ => rfl
  | load hs => exact h.load hs
  | request => exact ⟨h.fits, h.early, h.saved, h.gathered⟩
  | skip now => exact ⟨h.fits, h.early, h.saved, h.gathered⟩
  | start now hs hl => exact h.start_save hs hl now (s.waiting - 1)
  | visit key g hs => exact h.visit hs key
  | finish g hs => exact h.finish hs
  | mark key rest hs => exact h.mark hs

end Safe

theorem Safe.run {s : Shared σ} (h : s.Safe) {actions : List Action}
    (hfits : ∀ a ∈ actions, a.Fits) : (s.run actions).Safe :=
  List.foldlRecOn (motive := Safe) actions _ h fun _ h a ha => h.step (hfits a ha)

/-- Whether the row of a key shows the totals of its model. -/
def Stored (s : Shared σ) (k : ModelKey) (m : Model Float) : Prop :=
  ∃ r ∈ s.table.rowOf? k, r.Stores m.tally

theorem Safe.cases {s : Shared σ} (h : s.Safe) (hl : s.engine.loaded = true) {k : ModelKey}
    {m : Model Float} (hm : s.engine.model? k = some m) (hcount : m.tally.Fits) :
    m.dirty = true ∨ k ∈ s.stage.inFlight ∨ s.Stored k m := by
  have hsaved := h.saved hl k m hm
  rwa [Tally.upTo_eq_self hcount] at hsaved

/-- Once the stored past has been added, a model whose row does not show its totals is dirty or has
a row in flight. So if there is no save and nothing is dirty all rows show the totals of their
models, and a save that succeeds leaves it so if nothing was counted since it started. -/
theorem no_outcome_stranded (config : AffinityConfig) (roles : List Role) {store : σ}
    (hrows : ∀ k, ∀ r ∈ (LawfulModelStore.table store).rowOf? k, r.IsNonneg)
    {actions : List Action} (hfits : ∀ a ∈ actions, a.Fits) :
    let s := (start config roles store).run actions
    (s.engine.loaded = true → ∀ k m, s.engine.model? k = some m → m.tally.Fits →
      ¬ s.Stored k m → m.dirty = true ∨ k ∈ s.stage.inFlight) ∧
    (s.engine.loaded = true → s.stage = .idle →
      (∀ k m, s.engine.model? k = some m → m.dirty = false) →
      ∀ k m, s.engine.model? k = some m → m.tally.Fits → s.Stored k m) ∧
    (s.stage = .idle → ∀ later : List Action, (∀ a ∈ later, a.records = false) →
      (s.run later).stage ≠ .idle →
        let done := (s.run later).step .store
        done.stage = .idle → ∀ k m, done.engine.model? k = some m →
          m.dirty = false ∧ (m.tally.Fits → done.Stored k m)) := by
  intro s
  have hsafe : s.Safe := (Safe.start config roles hrows).run hfits
  refine ⟨fun hl k m hm hcount hrow => ?_, fun hl hs hclean k m hm hcount => ?_,
    fun hs later hquiet hbusy => ?_⟩
  · rcases hsafe.cases hl hm hcount with hdirty | hflight | hstored
    · exact .inl hdirty
    · exact .inr hflight
    · exact (hrow hstored).elim
  · rcases hsafe.cases hl hm hcount with hdirty | hflight | hstored
    · exact absurd (hdirty.symm.trans (hclean k m hm)) Bool.noConfusion
    · rw [hs] at hflight
      cases hflight
    · exact hstored
  · intro done hidle k m hm
    have hlater : (s.run later).Safe :=
      hsafe.run fun a ha => Action.fits_of_not_records (hquiet a ha)
    obtain ⟨g, hg, hdone⟩ := gathering_of_store hbusy hidle
    have hunvisited : s.Unvisited := unvisited_of_ne fun g hg => nomatch hs.symm.trans hg
    change done = _ at hdone
    rw [hdone] at hidle hm ⊢
    have hclean := (hunvisited.run hquiet).clean_of_finish hg hidle hm
    refine ⟨hclean, fun hcount => ?_⟩
    have hl : ((s.run later).finish g).engine.loaded = true := by
      rw [engine_finish]
      exact hlater.loaded_of_gathering hg
    rcases (hlater.finish hg).cases hl hm hcount with hdirty | hflight | hstored
    · exact absurd (hdirty.symm.trans hclean) Bool.noConfusion
    · rw [hidle] at hflight
      cases hflight
    · exact hstored

/-- A save stores a row next to one that was there. -/
theorem no_outcome_stranded_of_save :
    let key : ModelKey := ⟨"a", 1⟩
    let row : StatsRow := ⟨"a", 0, 20, 5, 1000, 100, 10, 1600000000⟩
    let store : FatefulStore := ⟨(∅ : StatsTable).upsert row, []⟩
    let actions : List Action := [.load, .success key 100 10, .request]
    let later : List Action := [.start ⟨1600000060, 0⟩, .visit ⟨"a", 0⟩, .visit key]
    let s := (start .standard [] store).run actions
    let done := (s.run later).step .store
    ((∀ k, ∀ r ∈ (LawfulModelStore.table store).rowOf? k, r.IsNonneg) ∧ ∀ a ∈ actions, a.Fits) ∧
      ∀ k m, done.engine.model? k = some m →
        m.dirty = false ∧ (m.tally.Fits → done.Stored k m) := by
  intro key row store actions later s done
  have hrows (k : ModelKey) : ∀ r ∈ (LawfulModelStore.table store).rowOf? k, r.IsNonneg := by
    intro r hr
    by_cases hk : k.Fits
    · rw [StatsTable.rowOf?_eq _ hk] at hr
      change r ∈ ((∅ : StatsTable).upsert row).get? k.stored at hr
      rw [StatsTable.get?_upsert] at hr
      split at hr
      · cases hr
        exact ⟨by decide, by decide, by decide, by decide⟩
      · cases hr
    · rw [StatsTable.rowOf?_of_not_fits _ hk] at hr
      cases hr
  have hfits : ∀ a ∈ actions, a.Fits := by decide
  have h := (no_outcome_stranded .standard [] hrows hfits).2.2
  refine ⟨⟨hrows, hfits⟩, ?_⟩
  exact h rfl later (by decide) (by decide +kernel) (by decide +kernel)

end Shared

end ProviderScout
