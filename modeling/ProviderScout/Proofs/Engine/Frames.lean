import ProviderScout.Proofs.Engine.Projection

namespace ProviderScout

namespace Engine

variable {σ : Type} [ModelStore σ]

/-- Only models change, and whether the stored past has been added. -/
def Frames (e e' : Engine) : Prop :=
  ∃ models loaded, e' = { e with models := models, loaded := loaded }

theorem Frames.refl (e : Engine) : e.Frames e := ⟨e.models, e.loaded, rfl⟩

theorem Frames.trans {e e' e'' : Engine} (h : e.Frames e') (h' : e'.Frames e'') : e.Frames e'' := by
  obtain ⟨_, _, rfl⟩ := h
  obtain ⟨models, loaded, rfl⟩ := h'
  exact ⟨models, loaded, rfl⟩

theorem frames_load (e : Engine) (s : σ) : e.Frames (e.load s).2.1 := by
  rcases e.load_engine_cases s with h | ⟨rows, h⟩ <;> rw [h]
  · exact .refl e
  · obtain ⟨models, hmodels⟩ := absorbs_eq rows e
    exact ⟨models, true, by rw [hmodels]⟩

theorem frames_flush (e : Engine) (now : Instant) (s : σ) : e.Frames (e.flush now s).2.1 := by
  rcases e.flush_engine_cases now s with h | h | ⟨keys, h⟩ <;> rw [h]
  · exact .refl e
  · exact ⟨_, _, rfl⟩
  · exact ⟨_, _, rfl⟩

theorem frames_forget (e : Engine) (job : Option String) : e.Frames (e.forget job) := by
  cases job <;> exact ⟨_, _, rfl⟩

theorem frames_reset (e : Engine) (job : Option String) (s : σ) :
    e.Frames (e.reset job s).2.1 := by
  rw [reset]
  split
  · exact .refl e
  · exact e.frames_forget job

theorem frames_record (e : Engine) (key : ModelKey) (f : Model Float → Model Float) :
    e.Frames (if e.isActive key.job then e.update key f else e) := by
  split
  · exact ⟨_, _, rfl⟩
  · exact .refl e

theorem isOk_reset (e : Engine) (job : Option String) (s : σ) :
    (e.reset job s).1.isOk = (ModelStore.deleteRows job s).1.isOk := by
  rw [reset]
  generalize ModelStore.deleteRows job s = answer
  obtain ⟨_ | _, store⟩ := answer <;> rfl

theorem isOk_flush_eq {e : Engine} (hl : e.loaded = true) {now : Instant}
    (hrows : (e.collect now).1 ≠ []) (s : σ) :
    (e.flush now s).1.isOk =
      (ModelStore.upsertRows ((e.collect now).1.map (·.2)) s).1.isOk := by
  rw [flush, hl]
  simp only [Bool.not_true, Bool.false_eq_true, ↓reduceIte]
  rw [if_neg fun hnil => hrows (List.isEmpty_iff.1 hnil)]
  generalize ModelStore.upsertRows ((e.collect now).1.map (·.2)) s = answer
  obtain ⟨_ | _, store⟩ := answer <;> rfl

end Engine

namespace Session

section Store

variable {σ : Type} [ModelStore σ] {P : σ → Prop}

theorem frames_step {op : Operation} (hop : ∀ now, op ≠ .refresh now) (s : Session σ) :
    s.engine.Frames (s.step op).2.engine := by
  cases op with
  | success key bytes millis => exact s.engine.frames_record key _
  | failure key => exact s.engine.frames_record key _
  | load => exact s.engine.frames_load s.store
  | flush now => exact s.engine.frames_flush now s.store
  | persist now =>
    simp only [step, apply, ofCall, Engine.persist_eq]
    split
    · exact (s.engine.frames_load s.store).trans (Engine.frames_flush ..)
    · exact s.engine.frames_load s.store
  | reset job => exact s.engine.frames_reset job s.store
  | clearJob job => exact s.engine.frames_forget (some job)
  | clearAll => exact s.engine.frames_forget none
  | refresh now => exact (hop now rfl).elim

theorem store_step (hload : ∀ s, P s → P (ModelStore.loadRows s).2)
    (hupsert : ∀ rows s, P s → P (ModelStore.upsertRows rows s).2)
    (hdelete : ∀ job s, P s → P (ModelStore.deleteRows job s).2)
    (hlatest : ∀ now s, P s → P (ModelStore.latestSpeeds now s).2)
    {s : Session σ} (h : P s.store) (op : Operation) : P (s.step op).2.store := by
  have hafterLoad : P (s.engine.load s.store).2.2 := by
    have hcall := hload s.store h
    rw [Engine.load]
    split
    · exact h
    · split <;> rename_i hs <;> rw [hs] at hcall <;> exact hcall
  have hafterFlush (e : Engine) (now : Instant) (store : σ) (h : P store) :
      P (e.flush now store).2.2 := by
    rw [Engine.flush]
    split
    · exact h
    · have hcall := hupsert ((e.collect now).1.map (·.2)) store h
      dsimp only
      split
      · exact h
      · split <;> rename_i hs <;> rw [hs] at hcall <;> exact hcall
  cases op with
  | load => exact hafterLoad
  | flush now => exact hafterFlush s.engine now s.store h
  | persist now =>
    simp only [step, apply, ofCall, Engine.persist_eq]
    split
    · exact hafterFlush _ now _ hafterLoad
    · exact hafterLoad
  | reset job =>
    have hcall := hdelete job s.store h
    simp only [step, apply, ofCall, Engine.reset]
    split <;> rename_i hs <;> rw [hs] at hcall <;> exact hcall
  | refresh now =>
    have hcall := hlatest now s.store h
    simp only [step, apply, ofCall, Engine.refreshBenchmarks]
    split <;> rename_i hs <;> rw [hs] at hcall <;> exact hcall
  | success key bytes millis => exact h
  | failure key => exact h
  | clearJob job => exact h
  | clearAll => exact h

end Store

section Lawful

variable {σ : Type} [ModelStore σ] [LawfulModelStore σ]

theorem get?_flush_of_neg (s : Session σ) (now : Instant) {key : StatsKey} (h : key.provider < 0) :
    (ofCall (s.engine.flush now s.store)).2.table.get? key = s.table.get? key := by
  cases hl : s.engine.loaded with
  | false => rw [Engine.flush_of_not_loaded hl]; rfl
  | true =>
    have hne (r : StatsRow) (hr : r ∈ (s.engine.collect now).1.map (·.2)) : r.key ≠ key := by
      obtain ⟨⟨k, r⟩, hmem, rfl⟩ := List.mem_map.1 hr
      obtain ⟨m, _, _, hrow⟩ := (s.engine.mem_collect_iff now k r).1 hmem
      rintro rfl
      rw [hrow, Model.key_row, ModelKey.stored, Int64.lt_iff_toInt_lt, Column.toInt_ofCounter] at h
      exact absurd h (Int.not_lt.2 (Int.natCast_nonneg _))
    rcases Engine.flush_cases hl now s.store with ⟨_, _, ht⟩ | ⟨_, _, part, hpart, ht⟩
    · exact (congrArg (·.get? key) ht).trans (StatsTable.get?_upserts_of_ne hne)
    · exact (congrArg (·.get? key) ht).trans
        (StatsTable.get?_upserts_of_ne fun r hr => hne r (hpart.subset hr))

theorem get?_reset (s : Session σ) (job : Option String) (key : StatsKey) :
    (s.step (.reset job)).2.table.get? key =
      if (s.engine.reset job s.store).1.isOk && job.all (· == key.job) then none
      else s.table.get? key := by
  rcases s.engine.reset_cases job s.store with ⟨hok, _, ht⟩ | ⟨hok, _, ht⟩
  · rw [hok, Bool.true_and, ← StatsTable.get?_delete]
    exact congrArg (·.get? key) ht
  · rw [hok, Bool.false_and, if_neg Bool.false_ne_true]
    exact congrArg (·.get? key) ht

theorem cell_forget (s : Session σ) (job : Option String) (k : ModelKey) :
    (⟨s.engine.forget job, s.store⟩ : Session σ).cell k =
      if job.all (· == k.job) then { s.cell k with model := none } else s.cell k := by
  have hloaded : (s.engine.forget job).loaded = s.engine.loaded := by cases job <;> rfl
  simp only [cell, hloaded, Engine.model?_forget]
  split <;> rfl

/-- A save that adds the stored past first saves if that is there in the end. -/
theorem step_persist (s : Session σ) (now : Instant) :
    (s.step (.persist now)).2 =
      if (s.step .load).2.engine.loaded then ((s.step .load).2.step (.flush now)).2
      else (s.step .load).2 := by
  have hloaded : (s.step .load).2.engine.loaded = (s.engine.load s.store).1.isOk :=
    s.engine.loaded_load s.store
  rw [hloaded]
  simp only [step, apply, ofCall, Engine.persist_eq]
  split <;> rfl

theorem cell_refresh (s : Session σ) (now : Instant) (k : ModelKey) :
    (s.step (.refresh now)).2.cell k = s.cell k := by
  obtain ⟨hmodels, hloaded, _, htable⟩ := s.engine.refreshBenchmarks_models now s.store
  simp only [step, apply, ofCall, cell, table, Engine.model?, hmodels, hloaded, htable]

end Lawful

end Session

end ProviderScout
