import ProviderScout.Proofs.Engine.Ledger

namespace ProviderScout

namespace Cell

def Clean (c : Cell) : Prop := ∀ m, c.model = some m → m.dirty = false

variable {c : Cell} {key : ModelKey} {now : Instant} {ok stray : Bool}

theorem Clean.of_load (h : c.load.Clean) : c.Clean := by
  intro m hm
  rw [load] at h
  split at h
  · exact h m hm
  · cases hr : c.row with
    | none =>
      rw [hr] at h
      exact h m hm
    | some r =>
      -- a model that a row is added to has changed
      rw [hr, hm] at h
      cases h (m.merge r) rfl

theorem Clean.of_save (hw : ¬ (ok = true ∧ ∃ m, c.model = some m ∧ m.dirty = true))
    (h : (c.save key now ok stray).Clean) : c.Clean := by
  intro m hm
  cases hd : m.dirty with
  | false => rfl
  | true =>
    have hok : ok = false := Bool.eq_false_iff.2 fun hok => hw ⟨hok, m, hm, hd⟩
    have hsaved := h (m.saved now ok) (congrArg (Option.map (Model.saved now ok)) hm)
    rw [Model.saved, if_pos hd, hok] at hsaved
    cases hsaved

theorem Clean.of_record {active : Prop} [Decidable active] {f : Model Float → Model Float}
    (hf : ∀ m, (f m).dirty = true) (h : (if active then c.update f else c).Clean) (t : Tally) :
    c.Clean ∧ (if active then t else .zero) = .zero := by
  by_cases ha : active
  · rw [if_pos ha] at h
    have hclean := h _ rfl
    rw [hf] at hclean
    cases hclean
  · rw [if_neg ha] at h ⊢
    exact ⟨h, rfl⟩

theorem clean_save (c : Cell) (key : ModelKey) (now : Instant) (stray : Bool) :
    (c.save key now true stray).Clean := by
  intro m hm
  obtain ⟨m', _, rfl⟩ := Option.map_eq_some_iff.1 hm
  exact m'.dirty_saved now

end Cell

namespace Session

variable {σ : Type} [ModelStore σ] [LawfulModelStore σ] {s : Session σ} {key : ModelKey}

theorem clean_of_flush (hs : s.engine.Fits) (hl : s.engine.loaded = true) {now : Instant}
    (hok : (s.engine.flush now s.store).1.isOk = true) :
    ((ofCall (s.engine.flush now s.store)).2.cell key).Clean := by
  obtain ⟨stray, hcell⟩ := cell_flush hs now key
  rw [hcell, Engine.loaded_flush, hl, if_pos rfl, hok]
  exact (s.cell key).clean_save key now stray

end Session

namespace Operation

def records : Operation → Bool
  | .success _ _ _ | .failure _ => true
  | _ => false

/-- Whether a service does it by itself. -/
def isBackground : Operation → Bool
  | .load | .flush _ | .persist _ | .refresh _ => true
  | _ => false

end Operation

namespace Engine

/-- The past has been added and nothing is left to save. -/
structure Settled (e : Engine) : Prop where
  loaded : e.loaded = true
  clean : ∀ key m, e.model? key = some m → m.dirty = false

namespace Settled

variable {σ : Type} [ModelStore σ] {e : Engine}

theorem flush (h : e.Settled) (now : Instant) (s : σ) :
    e.flush now s = (.ok 0, (e.collect now).2, s) := by
  have hrows : (e.collect now).1 = [] := by
    rw [List.eq_nil_iff_forall_not_mem]
    rintro ⟨key, r⟩ hmem
    obtain ⟨m, hm, hd, _⟩ := (e.mem_collect_iff now key r).1 hmem
    cases (h.clean key m hm).symm.trans hd
  rw [Engine.flush, h.loaded]
  simp only [Bool.not_true, Bool.false_eq_true, ↓reduceIte, hrows, List.isEmpty_nil]

theorem collect (h : e.Settled) (now : Instant) : (e.collect now).2.Settled where
  loaded := h.loaded
  clean := by
    intro key m hm
    rw [model?_collect] at hm
    obtain ⟨m', _, rfl⟩ := Option.map_eq_some_iff.1 hm
    exact m'.dirty_saved now

theorem forget (h : e.Settled) (job : Option String) : (e.forget job).Settled where
  loaded := by cases job <;> exact h.loaded
  clean := by
    intro key m hm
    rw [model?_forget] at hm
    split at hm
    · cases hm
    · exact h.clean key m hm

theorem persist (h : e.Settled) (now : Instant) (s : σ) :
    e.persist now s = (.ok 0, (e.collect now).2, s) := by
  rw [persist_eq, load_of_loaded h.loaded]
  exact h.flush now s

variable [LawfulModelStore σ] {s : Session σ}

theorem step (h : s.engine.Settled) {op : Operation} (hop : op.records = false) :
    (s.step op).2.engine.Settled := by
  cases op with
  | success key bytes millis => cases hop
  | failure key => cases hop
  | load =>
    have hload := load_of_loaded h.loaded s.store
    simp only [Session.step, Session.apply, Session.ofCall, hload]
    exact h
  | flush now =>
    simp only [Session.step, Session.apply, Session.ofCall, h.flush]
    exact h.collect now
  | persist now =>
    simp only [Session.step, Session.apply, Session.ofCall, h.persist]
    exact h.collect now
  | reset job =>
    rcases s.engine.reset_cases job s.store with ⟨_, he, _⟩ | ⟨_, he, _⟩
    · simp only [Session.step, Session.apply, Session.ofCall, he]
      exact h.forget job
    · simp only [Session.step, Session.apply, Session.ofCall, he]
      exact h
  | clearJob job => exact h.forget (some job)
  | clearAll => exact h.forget none
  | refresh now =>
    obtain ⟨hmodels, hloaded, _⟩ := s.engine.refreshBenchmarks_models now s.store
    refine ⟨hloaded.trans h.loaded, fun key m hm => h.clean key m ?_⟩
    rw [model?, ← hmodels]
    exact hm

theorem table_step (h : s.engine.Settled) {op : Operation} (hop : op.isBackground = true) :
    (s.step op).2.table = s.table := by
  cases op with
  | load => exact s.engine.table_load s.store
  | flush now =>
    simp only [Session.step, Session.apply, Session.ofCall, h.flush]
    rfl
  | persist now =>
    simp only [Session.step, Session.apply, Session.ofCall, h.persist]
    rfl
  | refresh now => exact (s.engine.refreshBenchmarks_models now s.store).2.2.2
  | _ => cases hop

end Settled

end Engine

namespace Engine

variable {σ : Type} [ModelStore σ]

theorem isOk_load (e : Engine) (s : σ) :
    (e.load s).1.isOk = (e.loaded || (ModelStore.loadRows s).1.isOk) := by
  rw [load]
  split
  · rename_i hl
    rw [hl]
    rfl
  · rename_i hl
    rw [Bool.eq_false_iff.2 hl, Bool.false_or]
    generalize ModelStore.loadRows s = answer
    obtain ⟨_ | _, store⟩ := answer <;> rfl

theorem not_loaded_of_load {e : Engine} {s : σ} (h : (e.load s).2.1.loaded = false) :
    e.loaded = false := by
  cases hl : e.loaded with
  | false => rfl
  | true =>
    rw [load_of_loaded hl, hl] at h
    cases h

theorem isOk_flush {e : Engine} {now : Instant} {s : σ}
    (h : (e.collect now).1 ≠ [] →
      (ModelStore.upsertRows ((e.collect now).1.map (·.2)) s).1.isOk = true) :
    (e.flush now s).1.isOk = true := by
  rw [flush]
  split
  · rfl
  · simp only
    split
    · rfl
    · rename_i hrows
      have hok := h fun hnil => hrows (List.isEmpty_iff.2 hnil)
      generalize ModelStore.upsertRows ((e.collect now).1.map (·.2)) s = answer at hok
      obtain ⟨_ | _, store⟩ := answer
      · cases hok
      · rfl

end Engine

namespace Session

variable {σ : Type} [ModelStore σ] [LawfulModelStore σ]

theorem table_of_not_loaded {s : Session σ} {op : Operation} (hop : op.isBackground = true)
    (h : (s.step op).2.engine.loaded = false) :
    s.engine.loaded = false ∧ (s.step op).2.table = s.table := by
  cases op with
  | load =>
    exact ⟨Engine.not_loaded_of_load h, s.engine.table_load s.store⟩
  | flush now =>
    have hl : s.engine.loaded = false := (s.engine.loaded_flush now s.store).symm.trans h
    refine ⟨hl, ?_⟩
    simp only [step, apply, ofCall, Engine.flush_of_not_loaded hl]
  | persist now =>
    simp only [step, apply, ofCall, Engine.persist_eq] at h ⊢
    split at h
    · rename_i hload
      rw [Engine.loaded_flush, Engine.loaded_load, hload] at h
      cases h
    · rename_i hload
      rw [if_neg hload]
      exact ⟨Engine.not_loaded_of_load h, s.engine.table_load s.store⟩
  | refresh now =>
    obtain ⟨_, hloaded, _, htable⟩ := s.engine.refreshBenchmarks_models now s.store
    exact ⟨hloaded.symm.trans h, htable⟩
  | _ => cases hop

end Session

end ProviderScout
