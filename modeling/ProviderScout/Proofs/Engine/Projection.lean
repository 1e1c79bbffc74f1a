import ProviderScout.Proofs.Engine.Session

namespace ProviderScout

namespace StatsTable

variable (t : StatsTable) {k : ModelKey}

theorem rowOf?_eq (hk : k.Fits) : t.rowOf? k = t.get? k.stored :=
  if_pos hk

theorem rowOf?_of_not_fits (hk : ¬ k.Fits) : t.rowOf? k = none :=
  if_neg hk

theorem rowOf?_delete (job : Option String) (k : ModelKey) :
    (t.delete job).rowOf? k = if job.all (· == k.job) then none else t.rowOf? k := by
  by_cases hk : k.Fits
  · rw [rowOf?_eq _ hk, rowOf?_eq _ hk]
    exact t.get?_delete job k.stored
  · rw [rowOf?_of_not_fits _ hk, rowOf?_of_not_fits _ hk, ite_self]

end StatsTable

namespace Cell

theorem savedRow_of_dirty {c : Cell} {m : Model Float} (hm : c.model = some m)
    (hd : m.dirty = true) (key : ModelKey) (now : Instant) (ok stray : Bool) :
    c.savedRow key now ok stray =
      if ok || stray then some (m.row key.job key.provider now) else c.row := by
  rw [savedRow, hm]
  simp only [hd, Bool.true_and]

theorem savedRow_of_clean {c : Cell} (h : ∀ m, c.model = some m → m.dirty = false)
    (key : ModelKey) (now : Instant) (ok stray : Bool) :
    c.savedRow key now ok stray = c.row := by
  rw [savedRow]
  split
  · rfl
  · rename_i m hm
    rw [h m hm]
    rfl

theorem savedRow_cases (key : ModelKey) (now : Instant) (ok stray : Bool) (c : Cell) :
    c.savedRow key now ok stray = c.row ∨
      ∃ m, c.model = some m ∧
        c.savedRow key now ok stray = some (m.row key.job key.provider now) := by
  rw [savedRow]
  split
  · exact .inl rfl
  · rename_i m hm
    split
    · exact .inr ⟨m, hm, rfl⟩
    · exact .inl rfl

end Cell

namespace Engine

variable {σ : Type} [ModelStore σ]

theorem flush_of_not_loaded {e : Engine} (h : e.loaded = false) (now : Instant) (s : σ) :
    e.flush now s = (.ok 0, e, s) := by
  rw [flush, h]
  rfl

theorem load_of_loaded {e : Engine} (h : e.loaded = true) (s : σ) : e.load s = (.ok 0, e, s) := by
  rw [load, h]
  rfl

theorem persist_eq (e : Engine) (now : Instant) (s : σ) :
    e.persist now s =
      if (e.load s).1.isOk then (e.load s).2.1.flush now (e.load s).2.2 else e.load s := by
  rw [persist]
  split
  · rename_i err e' s' hs
    rw [hs]
    rfl
  · rename_i n e' s' hs
    rw [hs]
    rfl

theorem load_engine_cases (e : Engine) (s : σ) :
    (e.load s).2.1 = e ∨
      ∃ rows : List StatsRow, (e.load s).2.1 = { rows.foldl absorb e with loaded := true } := by
  rw [load]
  split
  · exact .inl rfl
  · split
    · exact .inl rfl
    · exact .inr ⟨_, rfl⟩

theorem flush_engine_cases (e : Engine) (now : Instant) (s : σ) :
    (e.flush now s).2.1 = e ∨ (e.flush now s).2.1 = (e.collect now).2 ∨
      ∃ keys, (e.flush now s).2.1 = (e.collect now).2.restore keys := by
  rw [flush]
  split
  · exact .inl rfl
  · dsimp only
    split
    · exact .inr (.inl rfl)
    · split
      · exact .inr (.inl rfl)
      · exact .inr (.inr ⟨_, rfl⟩)

theorem config_load (e : Engine) (s : σ) : (e.load s).2.1.config = e.config := by
  rcases e.load_engine_cases s with h | ⟨rows, h⟩ <;> rw [h]
  exact config_absorbs rows e

theorem config_flush (e : Engine) (now : Instant) (s : σ) :
    (e.flush now s).2.1.config = e.config := by
  rcases e.flush_engine_cases now s with h | h | ⟨keys, h⟩ <;> rw [h] <;> rfl

theorem loaded_flush (e : Engine) (now : Instant) (s : σ) :
    (e.flush now s).2.1.loaded = e.loaded := by
  rcases e.flush_engine_cases now s with h | h | ⟨keys, h⟩ <;> rw [h] <;> rfl

theorem Fits.load {e : Engine} (he : e.Fits) (s : σ) : (e.load s).2.1.Fits := by
  rcases e.load_engine_cases s with h | ⟨rows, h⟩ <;> rw [h]
  · exact he
  · exact he.absorbs rows

theorem Fits.flush {e : Engine} (he : e.Fits) (now : Instant) (s : σ) :
    (e.flush now s).2.1.Fits := by
  rcases e.flush_engine_cases now s with h | h | ⟨keys, h⟩ <;> rw [h]
  · exact he
  · exact he.collect now
  · exact (he.collect now).restore keys

variable [LawfulModelStore σ]

open LawfulModelStore

theorem flush_cases {e : Engine} (h : e.loaded = true) (now : Instant) (s : σ) :
    ((e.flush now s).1.isOk = true ∧ (e.flush now s).2.1 = (e.collect now).2 ∧
      table (e.flush now s).2.2 =
        ((e.collect now).1.map (·.2)).foldl StatsTable.upsert (table s)) ∨
    ((e.flush now s).1.isOk = false ∧
      (e.flush now s).2.1 = (e.collect now).2.restore ((e.collect now).1.map (·.1)) ∧
      ∃ part : List StatsRow, part.Sublist ((e.collect now).1.map (·.2)) ∧
        table (e.flush now s).2.2 = part.foldl StatsTable.upsert (table s)) := by
  rw [flush, h]
  obtain ⟨rows, saved⟩ := e.collect now
  simp only [Bool.not_true, Bool.false_eq_true, ↓reduceIte]
  split
  · rename_i he
    rw [List.isEmpty_iff.1 he]
    exact .inl ⟨rfl, rfl, rfl⟩
  · split
    · rename_i s' hs
      have ht := table_upsertRows (congrArg Prod.fst hs)
      rw [hs] at ht
      exact .inl ⟨rfl, rfl, ht⟩
    · rename_i err s' hs
      have ht := table_upsertRows_error (congrArg Prod.fst hs)
      rw [hs] at ht
      exact .inr ⟨rfl, rfl, ht⟩

theorem load_cases {e : Engine} (h : e.loaded = false) (s : σ) :
    ((e.load s).1.isOk = false ∧ (e.load s).2.1 = e ∧ table (e.load s).2.2 = table s) ∨
    ((e.load s).1.isOk = true ∧ table (e.load s).2.2 = table s ∧
      ∃ rows : List StatsRow, rows.Perm (table s).rows.values ∧
        (e.load s).2.1 = { rows.foldl absorb e with loaded := true }) := by
  have ht := table_loadRows s
  rw [load, h]
  simp only [Bool.false_eq_true, ↓reduceIte]
  split
  · rename_i err s' hs
    rw [hs] at ht
    exact .inl ⟨rfl, rfl, ht⟩
  · rename_i rows s' hs
    rw [hs] at ht
    exact .inr ⟨rfl, ht, rows, perm_of_loadRows (congrArg Prod.fst hs), rfl⟩

theorem table_load (e : Engine) (s : σ) : table (e.load s).2.2 = table s := by
  by_cases h : e.loaded = true
  · rw [load_of_loaded h]
  · rcases load_cases (Bool.not_eq_true _ ▸ h) s with ⟨_, _, ht⟩ | ⟨_, ht, _⟩
    · exact ht
    · exact ht

theorem model?_absorbs {rows : List StatsRow} {t : StatsTable} (hrows : rows.Perm t.rows.values)
    (e : Engine) (k : ModelKey) :
    (rows.foldl absorb e).model? k =
      (t.rowOf? k).elim (e.model? k) fun r => some (Model.absorb r (e.model? k)) := by
  have hget (r : StatsRow) (h : r.key = k.stored) : r ∈ rows ↔ t.get? k.stored = some r := by
    rw [hrows.mem_iff, StatsTable.mem_values_iff, h]
  have hnodup : (rows.map StatsRow.key).Nodup :=
    (hrows.map StatsRow.key).nodup_iff.2 t.values_keys_nodup
  by_cases hk : k.Fits
  case neg =>
    rw [StatsTable.rowOf?_of_not_fits _ hk]
    exact model?_absorbs_of_ne (fun r _ ho => hk (StatsRow.fits_of_owner? ho)) e
  rw [StatsTable.rowOf?_eq _ hk]
  cases hr : t.get? k.stored with
  | none =>
    apply model?_absorbs_of_ne
    intro r hmem ho
    have hkey := (r.owner?_eq_some_iff hk).1 ho
    rw [hget r hkey, hr] at hmem
    cases hmem
  | some r =>
    have hkey := StatsTable.key_of_get? hr
    exact model?_absorbs_of_mem hnodup ((hget r hkey).2 hr) hk hkey e

theorem reset_cases (e : Engine) (job : Option String) (s : σ) :
    ((e.reset job s).1.isOk = true ∧ (e.reset job s).2.1 = e.forget job ∧
      table (e.reset job s).2.2 = (table s).delete job) ∨
    ((e.reset job s).1.isOk = false ∧ (e.reset job s).2.1 = e ∧
      table (e.reset job s).2.2 = table s) := by
  rw [reset]
  split
  · rename_i err s' hs
    have ht := table_deleteRows_error (congrArg Prod.fst hs)
    rw [hs] at ht
    exact .inr ⟨rfl, rfl, ht⟩
  · rename_i n s' hs
    have ht := table_deleteRows (congrArg Prod.fst hs)
    rw [hs] at ht
    exact .inl ⟨rfl, rfl, ht.1⟩

theorem Fits.record {e : Engine} (he : e.Fits) {key : ModelKey} (hkey : key.Fits)
    (f : Model Float → Model Float) :
    (if e.isActive key.job then e.update key f else e).Fits := by
  split
  · intro k m hm
    rw [model?_update] at hm
    split at hm
    · rename_i hk
      exact hk ▸ hkey
    · exact he k m hm
  · exact he

theorem Fits.forget {e : Engine} (he : e.Fits) (job : Option String) : (e.forget job).Fits := by
  intro k m hm
  rw [model?_forget] at hm
  split at hm
  · cases hm
  · exact he k m hm

theorem loaded_load (e : Engine) (s : σ) : (e.load s).2.1.loaded = (e.load s).1.isOk := by
  by_cases h : e.loaded = true
  · rw [load_of_loaded h, h]
    rfl
  · rw [Bool.not_eq_true] at h
    rcases load_cases h s with ⟨hok, he, _⟩ | ⟨hok, _, rows, _, he⟩
    · rw [hok, he, h]
    · rw [hok, he]

theorem refreshBenchmarks_models (e : Engine) (now : Instant) (s : σ) :
    (e.refreshBenchmarks now s).2.1.models = e.models ∧
      (e.refreshBenchmarks now s).2.1.loaded = e.loaded ∧
      (e.refreshBenchmarks now s).2.1.config = e.config ∧
      table (e.refreshBenchmarks now s).2.2 = table s := by
  have ht := table_latestSpeeds now s
  rw [refreshBenchmarks]
  split <;> rename_i hs <;> rw [hs] at ht <;> exact ⟨rfl, rfl, rfl, ht⟩

end Engine

namespace Session

variable {σ : Type} [ModelStore σ] [LawfulModelStore σ]

theorem cell_record (s : Session σ) (key k : ModelKey) (f : Model Float → Model Float) :
    (⟨if s.engine.isActive key.job then s.engine.update key f else s.engine, s.store⟩ :
        Session σ).cell k =
      if key = k ∧ (s.engine.config.enabled && !k.job.isEmpty) = true then (s.cell k).update f
      else s.cell k := by
  by_cases hact : s.engine.isActive key.job = true
  · rw [if_pos hact]
    by_cases hkey : key = k
    · subst hkey
      rw [if_pos ⟨rfl, hact⟩]
      simp only [cell, Engine.model?_update, ↓reduceIte]
      rfl
    · rw [if_neg fun h => hkey h.1]
      simp only [cell, Engine.model?_update, if_neg (Ne.symm hkey)]
      rfl
  · rw [if_neg hact, if_neg]
    rintro ⟨rfl, h⟩
    exact hact h

theorem cell_load (s : Session σ) (k : ModelKey) :
    (ofCall (s.engine.load s.store)).2.cell k =
      if (s.engine.load s.store).2.1.loaded then (s.cell k).load else s.cell k := by
  by_cases hl : s.engine.loaded = true
  · have hcell : (s.cell k).load = s.cell k := if_pos hl
    rw [Engine.load_of_loaded hl, hl, if_pos rfl, hcell]
    rfl
  · rw [Bool.not_eq_true] at hl
    rcases Engine.load_cases hl s.store with ⟨_, he, ht⟩ | ⟨_, ht, rows, hrows, he⟩
    · simp only [ofCall, cell, table, he, ht, hl, Bool.false_eq_true, ↓reduceIte]
    · have hmodel := Engine.model?_absorbs hrows s.engine k
      rw [he, if_pos rfl, Cell.load, if_neg (by simp [cell, hl])]
      simp only [ofCall, cell, table, he, ht]
      exact congrArg (fun m => (⟨true, m, s.table.rowOf? k⟩ : Cell)) hmodel

theorem collect_key {e : Engine} (he : e.Fits) {now : Instant} {k : ModelKey} (hk : k.Fits)
    {r : StatsRow} (hr : r ∈ (e.collect now).1.map (·.2)) (hkey : r.key = k.stored) :
    ∃ m, e.model? k = some m ∧ m.dirty = true ∧ r = m.row k.job k.provider now := by
  obtain ⟨⟨k', r'⟩, hmem, rfl⟩ := List.mem_map.1 hr
  obtain ⟨m, hm, hd, hrow⟩ := (e.mem_collect_iff now k' r').1 hmem
  have hstored : k'.stored = k.stored := by
    rw [← hkey, hrow]
    rfl
  cases ModelKey.stored_inj (he k' m hm) hk hstored
  exact ⟨m, hm, hd, hrow⟩

theorem rowOf?_part {s : Session σ} (hs : s.engine.Fits) (now : Instant) (k : ModelKey)
    {part : List StatsRow}
    (hpart : part.Sublist ((s.engine.collect now).1.map (·.2))) :
    ∃ stray, (part.foldl StatsTable.upsert s.table).rowOf? k =
      (s.cell k).savedRow k now false stray := by
  by_cases hk : k.Fits
  case neg =>
    refine ⟨false, ?_⟩
    rw [StatsTable.rowOf?_of_not_fits _ hk,
      Cell.savedRow_of_clean fun m hm => (hk (hs k m hm)).elim]
    exact (StatsTable.rowOf?_of_not_fits _ hk).symm
  -- different keys are stored under different ones, so only the model of `k` has a row there
  have hcollect (r : StatsRow) (hr : r ∈ part) (hkey : r.key = k.stored) :=
    collect_key hs hk (hpart.subset hr) hkey
  have hrow : (s.cell k).row = s.table.get? k.stored := StatsTable.rowOf?_eq _ hk
  rw [StatsTable.rowOf?_eq _ hk]
  by_cases hdirty : ∃ m, s.engine.model? k = some m ∧ m.dirty = true
  · obtain ⟨m, hm, hd⟩ := hdirty
    have hsaved := Cell.savedRow_of_dirty (c := s.cell k) hm hd k now false
    rcases StatsTable.get?_upserts (t := s.table) (x := m.row k.job k.provider now)
      (fun r hr hkey => by
        obtain ⟨m', hm', _, hr⟩ := hcollect r hr hkey
        rw [hm] at hm'
        cases hm'
        exact hr) with h | h
    · exact ⟨false, by rw [h, hsaved, hrow]; rfl⟩
    · exact ⟨true, by rw [h, hsaved]; rfl⟩
  · refine ⟨false, ?_⟩
    rw [StatsTable.get?_upserts_of_ne fun r hr hkey => ?_, ← hrow,
      Cell.savedRow_of_clean fun m hm => ?_]
    · exact Bool.eq_false_iff.2 fun hd => hdirty ⟨m, hm, hd⟩
    · obtain ⟨m, hm, hd, _⟩ := hcollect r hr hkey
      exact hdirty ⟨m, hm, hd⟩

theorem rowOf?_all {s : Session σ} (hs : s.engine.Fits) (now : Instant) (k : ModelKey) :
    (((s.engine.collect now).1.map (·.2)).foldl StatsTable.upsert s.table).rowOf? k =
      (s.cell k).savedRow k now true false := by
  by_cases hdirty : ∃ m, s.engine.model? k = some m ∧ m.dirty = true
  · obtain ⟨m, hm, hd⟩ := hdirty
    have hk := hs k m hm
    have hmem : (k, m.row k.job k.provider now) ∈ (s.engine.collect now).1 :=
      (s.engine.mem_collect_iff now k _).2 ⟨m, hm, hd, rfl⟩
    rw [StatsTable.rowOf?_eq _ hk, Cell.savedRow_of_dirty (c := s.cell k) hm hd]
    refine StatsTable.get?_upserts_of_mem (fun r hr hkey => ?_) (List.mem_map_of_mem hmem)
      (Model.key_row k now m)
    obtain ⟨m', hm', _, hr⟩ := collect_key hs hk hr hkey
    rw [hm] at hm'
    cases hm'
    exact hr
  · have hclean : ∀ m, (s.cell k).model = some m → m.dirty = false := fun m hm =>
      Bool.eq_false_iff.2 fun hd => hdirty ⟨m, hm, hd⟩
    obtain ⟨stray, h⟩ := rowOf?_part hs now k (.refl _)
    rw [h, Cell.savedRow_of_clean hclean, Cell.savedRow_of_clean hclean]

theorem model?_restore_collect (e : Engine) (now : Instant) (k : ModelKey) :
    ((e.collect now).2.restore ((e.collect now).1.map (·.1))).model? k =
      (e.model? k).map (Model.saved now false) := by
  rw [Engine.model?_restore, Engine.model?_collect, Option.map_map]
  cases hm : e.model? k with
  | none => rfl
  | some m =>
    have hmem : k ∈ (e.collect now).1.map (·.1) ↔ m.dirty = true := by
      simp only [List.mem_map, Prod.exists, exists_and_right, exists_eq_right,
        Engine.mem_collect_iff, hm, Option.some.injEq]
      exact ⟨fun ⟨_, _, he, hd, _⟩ => he ▸ hd, fun hd => ⟨_, m, rfl, hd, rfl⟩⟩
    simp only [Option.map_some, Function.comp, hmem]
    cases hd : m.dirty with
    | false => rw [if_neg (by decide), Model.saved_of_clean hd, Model.saved_of_clean hd]
    | true => simp [Model.saved, hd, Model.markDirty]

theorem cell_flush {s : Session σ} (hs : s.engine.Fits) (now : Instant) (k : ModelKey) :
    ∃ stray, (ofCall (s.engine.flush now s.store)).2.cell k =
      if (s.engine.flush now s.store).2.1.loaded then
        (s.cell k).save k now (s.engine.flush now s.store).1.isOk stray
      else s.cell k := by
  by_cases hl : s.engine.loaded = true
  · rcases Engine.flush_cases hl now s.store with ⟨hok, he, ht⟩ | ⟨hok, he, part, hpart, ht⟩
    · have hloaded : (s.engine.collect now).2.loaded = true := hl
      refine ⟨false, ?_⟩
      rw [he, hok, Cell.save, ← rowOf?_all hs now k, if_pos hloaded]
      simp only [ofCall, cell, table, he, ht, Engine.model?_collect]
      rfl
    · have hloaded : ((s.engine.collect now).2.restore
          ((s.engine.collect now).1.map (·.1))).loaded = true := hl
      obtain ⟨stray, hrow⟩ := rowOf?_part hs now k hpart
      refine ⟨stray, ?_⟩
      rw [he, hok, Cell.save, ← hrow, if_pos hloaded]
      simp only [ofCall, cell, table, he, ht, model?_restore_collect]
      rfl
  · rw [Bool.not_eq_true] at hl
    refine ⟨false, ?_⟩
    rw [Engine.flush_of_not_loaded hl, hl]
    rfl

theorem cell_reset (s : Session σ) (job : Option String) (k : ModelKey) :
    (ofCall (s.engine.reset job s.store)).2.cell k =
      if (s.engine.reset job s.store).1.isOk && job.all (· == k.job) then
        ⟨s.engine.loaded, none, none⟩
      else s.cell k := by
  rcases Engine.reset_cases s.engine job s.store with ⟨hok, he, ht⟩ | ⟨hok, he, ht⟩
  · have hloaded : (s.engine.forget job).loaded = s.engine.loaded := by cases job <;> rfl
    simp only [ofCall, cell, table, he, ht, hok, hloaded, Engine.model?_forget, Bool.true_and,
      StatsTable.rowOf?_delete]
    split <;> rfl
  · simp only [ofCall, cell, table, he, ht, hok, Bool.false_and, Bool.false_eq_true, ↓reduceIte]

theorem cell_persist {s : Session σ} (hs : s.engine.Fits) (now : Instant) (k : ModelKey) :
    ∃ stray, (ofCall (s.engine.persist now s.store)).2.cell k =
      if (s.engine.persist now s.store).2.1.loaded then
        (s.cell k).load.save k now (s.engine.persist now s.store).1.isOk stray
      else s.cell k := by
  have hload := s.cell_load k
  rw [Engine.loaded_load] at hload
  cases hl : (s.engine.load s.store).1.isOk with
  | false =>
    have hpersist := s.engine.persist_eq now s.store
    rw [hl, if_neg Bool.false_ne_true] at hpersist
    rw [hpersist, Engine.loaded_load, hload, hl]
    exact ⟨false, rfl⟩
  | true =>
    obtain ⟨stray, h⟩ := cell_flush (s := (ofCall (s.engine.load s.store)).2) (hs.load _) now k
    have hloaded : (ofCall (s.engine.load s.store)).2.engine.loaded = true :=
      (s.engine.loaded_load s.store).trans hl
    rw [hload, hl, if_pos rfl, Engine.loaded_flush, hloaded] at h
    have hpersist := s.engine.persist_eq now s.store
    rw [hl, if_pos rfl] at hpersist
    rw [hpersist, Engine.loaded_flush, Engine.loaded_load, hl]
    exact ⟨stray, h⟩

theorem cell_clearJob (s : Session σ) (job : String) (k : ModelKey) :
    (⟨s.engine.clearJob job, s.store⟩ : Session σ).cell k =
      if k.job = job then { s.cell k with model := none } else s.cell k := by
  simp only [cell, Engine.model?_clearJob]
  split <;> rfl

theorem fits_step {s : Session σ} (hs : s.engine.Fits) {op : Operation} (hop : op.Fits) :
    (s.step op).2.engine.Fits := by
  cases op with
  | success key bytes millis => exact hs.record hop _
  | failure key => exact hs.record hop _
  | load => exact hs.load s.store
  | flush now => exact hs.flush now s.store
  | persist now =>
    simp only [step, apply, ofCall, Engine.persist_eq]
    split
    · exact (hs.load s.store).flush now _
    · exact hs.load s.store
  | reset job =>
    rcases s.engine.reset_cases job s.store with ⟨_, he, _⟩ | ⟨_, he, _⟩
    · simp only [step, apply, ofCall, he]
      exact hs.forget job
    · simp only [step, apply, ofCall, he]
      exact hs
  | clearJob job => exact hs.forget (some job)
  | clearAll => exact hs.forget none
  | refresh now =>
    intro k m hm
    rw [Engine.model?] at hm
    simp only [step, apply, ofCall, (s.engine.refreshBenchmarks_models now s.store).1] at hm
    exact hs k m hm

/-- Operations do to what is held for a key what they do to a cell. -/
theorem step_cell {s : Session σ} (hs : s.engine.Fits) (op : Operation) (k : ModelKey) :
    ∃ stray, (s.step op).2.cell k = (s.cell k).next s.engine.config k (s.step op).1 stray := by
  cases op with
  | success key bytes millis => exact ⟨false, s.cell_record key k _⟩
  | failure key => exact ⟨false, s.cell_record key k _⟩
  | load => exact ⟨false, s.cell_load k⟩
  | flush now => exact cell_flush hs now k
  | persist now => exact cell_persist hs now k
  | reset job => exact ⟨false, s.cell_reset job k⟩
  | clearJob job => exact ⟨false, s.cell_clearJob job k⟩
  | clearAll => exact ⟨false, rfl⟩
  | refresh now =>
    obtain ⟨hmodels, hloaded, _, htable⟩ := s.engine.refreshBenchmarks_models now s.store
    refine ⟨false, ?_⟩
    simp only [step, apply, ofCall, cell, table, Engine.model?, hmodels, hloaded, htable, Cell.next]

theorem config_step (s : Session σ) (op : Operation) :
    (s.step op).2.engine.config = s.engine.config := by
  cases op with
  | success key bytes millis =>
    simp only [step, apply, Engine.recordSuccess]
    split <;> rfl
  | failure key =>
    simp only [step, apply, Engine.recordFailure]
    split <;> rfl
  | load => exact s.engine.config_load s.store
  | flush now => exact s.engine.config_flush now s.store
  | persist now =>
    simp only [step, apply, ofCall, Engine.persist_eq]
    split
    · rw [Engine.config_flush, Engine.config_load]
    · exact s.engine.config_load s.store
  | reset job =>
    rcases s.engine.reset_cases job s.store with ⟨_, he, _⟩ | ⟨_, he, _⟩
    · simp only [step, apply, ofCall, he]
      cases job <;> rfl
    · simp only [step, apply, ofCall, he]
  | clearJob job => rfl
  | clearAll => rfl
  | refresh now => exact (s.engine.refreshBenchmarks_models now s.store).2.2.1

end Session

end ProviderScout
