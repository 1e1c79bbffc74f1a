import Mathlib.Data.List.Basic
import ProviderScout.Proofs.Engine.Ledger

/-!
A save in steps, with outcomes that are counted in between. One save at a time holds the lock and
the others wait for it. A save takes the row of one model after the other, stores the rows all at
once, and if that fails marks their models again, one after the other.
-/

namespace ProviderScout

/-- A save that takes rows. -/
structure Gathering where
  now : Instant
  /-- The models there were when it started. -/
  keys : List ModelKey
  visited : List ModelKey
  rows : List (ModelKey × StatsRow)
deriving DecidableEq

/-- Where the save stands that holds the lock. -/
inductive SaveStage where
  | idle
  | gathering (g : Gathering)
  /-- The rows were not stored and the models of these keys have yet to be marked. -/
  | refused (keys : List ModelKey)
deriving DecidableEq

namespace SaveStage

/-- What is left to do when some models have yet to be marked. -/
def marking : List ModelKey → SaveStage
  | [] => .idle
  | key :: rest => .refused (key :: rest)

/-- The keys whose rows a save holds. -/
def inFlight : SaveStage → List ModelKey
  | .idle => []
  | .gathering g => g.rows.map (·.1)
  | .refused keys => keys

theorem inFlight_marking (keys : List ModelKey) : (marking keys).inFlight = keys := by
  cases keys <;> rfl

theorem marking_ne (keys : List ModelKey) (g : Gathering) : marking keys ≠ .gathering g := by
  cases keys <;> exact nofun

end SaveStage

/-- An engine at work on a storage, the save that holds the lock and the number of those that wait
for it. -/
structure Shared (σ : Type) where
  engine : Engine
  store : σ
  stage : SaveStage
  waiting : Nat

/-- A step of one of those who share an engine. -/
inductive Shared.Action where
  | success (key : ModelKey) (bytes millis : Nat)
  | failure (key : ModelKey)
  | load
  /-- A save waits for the lock. -/
  | request
  /-- A save takes the lock. -/
  | start (now : Instant)
  | visit (key : ModelKey)
  | store
  | mark

namespace Shared.Action

def Fits : Action → Prop
  | .success key _ _ | .failure key => key.Fits
  | _ => True

instance (a : Shared.Action) : Decidable a.Fits :=
  match a with
  | .success key _ _ | .failure key => inferInstanceAs (Decidable key.Fits)
  | .load | .request | .start _ | .visit _ | .store | .mark => .isTrue trivial

def records : Action → Bool
  | .success _ _ _ | .failure _ => true
  | _ => false

theorem fits_of_not_records {a : Shared.Action} (h : a.records = false) : a.Fits := by
  cases a with
  | success key bytes millis => cases h
  | failure key => cases h
  | _ => trivial

/-- Whether a step is one of the save that holds the lock. -/
def saves : Action → Bool
  | .visit _ | .store | .mark => true
  | _ => false

end Shared.Action

namespace Shared

variable {σ : Type}

def start (config : AffinityConfig) (roles : List Role) (store : σ) : Shared σ :=
  ⟨.start config roles, store, .idle, 0⟩

/-- Takes the row of a model that was not visited yet. -/
def visit (g : Gathering) (key : ModelKey) (s : Shared σ) : Shared σ :=
  if key ∈ g.visited then s
  else match s.engine.model? key with
    | none => s
    | some m =>
      let p := m.persist key.job key.provider g.now
      { s with
        engine := { s.engine with models := s.engine.models.insert key p.2 }
        stage := .gathering { g with
          visited := key :: g.visited
          rows := g.rows ++ (p.1.map fun r => (key, r)).toList } }

def collected (e : Engine) (now : Instant) (key : ModelKey) : Option (ModelKey × StatsRow) :=
  (e.model? key).bind fun m => (m.persist key.job key.provider now).1.map fun r => (key, r)

theorem collected_congr {e e' : Engine} {key : ModelKey} (h : e.model? key = e'.model? key)
    (now : Instant) : collected e now key = collected e' now key := by
  rw [collected, h]
  rfl

theorem collected_of_clean {e : Engine} {key : ModelKey} {m : Model Float}
    (hm : e.model? key = some m) (hd : m.dirty = false) (now : Instant) :
    collected e now key = none := by
  rw [collected, hm, Option.bind_some, Model.persist, hd]
  rfl

theorem collected_of_dirty {e : Engine} {key : ModelKey} {m : Model Float}
    (hm : e.model? key = some m) (hd : m.dirty = true) (now : Instant) :
    collected e now key = some (key, m.row key.job key.provider now) := by
  rw [collected, hm, Option.bind_some, Model.persist, hd]
  rfl

theorem visit_of_model {s : Shared σ} {g : Gathering} {key : ModelKey} {m : Model Float}
    (hkey : key ∉ g.visited) (hm : s.engine.model? key = some m) :
    s.visit g key =
      { s with
        engine := { s.engine with models := s.engine.models.insert key (m.saved g.now true) }
        stage := .gathering { g with
          visited := key :: g.visited
          rows := g.rows ++ (collected s.engine g.now key).toList } } := by
  simp only [visit, if_neg hkey, hm, collected, Option.bind_some, Model.persist_snd]

theorem visit_cases (g : Gathering) (key : ModelKey) (s : Shared σ) :
    s.visit g key = s ∨ key ∉ g.visited ∧ ∃ m, s.engine.model? key = some m := by
  by_cases hkey : key ∈ g.visited
  · exact .inl (if_pos hkey)
  · cases hm : s.engine.model? key with
    | none =>
      left
      simp only [visit, if_neg hkey, hm]
    | some m => exact .inr ⟨hkey, m, rfl⟩

variable [ModelStore σ]

/-- Stores the rows once all models were visited. -/
def finish (g : Gathering) (s : Shared σ) : Shared σ :=
  if g.keys.all (· ∈ g.visited) then
    if g.rows.isEmpty then { s with stage := .idle }
    else match ModelStore.upsertRows (g.rows.map (·.2)) s.store with
      | (.ok (), store) => { s with store := store, stage := .idle }
      | (.error _, store) => { s with store := store, stage := .marking (g.rows.map (·.1)) }
  else s

theorem finish_cases (g : Gathering) (s : Shared σ) :
    (∃ k ∈ g.keys, k ∉ g.visited) ∧ s.finish g = s ∨
      (∀ k ∈ g.keys, k ∈ g.visited) ∧
        (g.rows = [] ∧ s.finish g = { s with stage := .idle } ∨
          (∃ store, ModelStore.upsertRows (g.rows.map (·.2)) s.store = (.ok (), store) ∧
            s.finish g = { s with store := store, stage := .idle }) ∨
          ∃ err store, ModelStore.upsertRows (g.rows.map (·.2)) s.store = (.error err, store) ∧
            s.finish g = { s with store := store, stage := .marking (g.rows.map (·.1)) }) := by
  rw [finish]
  split
  · rename_i hall
    refine .inr ⟨fun k hk => of_decide_eq_true (List.all_eq_true.1 hall k hk), ?_⟩
    split
    · rename_i hempty
      exact .inl ⟨List.isEmpty_iff.1 hempty, rfl⟩
    · split
      · rename_i store hstore
        exact .inr (.inl ⟨store, hstore, rfl⟩)
      · rename_i err store hstore
        exact .inr (.inr ⟨err, store, hstore, rfl⟩)
  · rename_i hall
    simp only [List.all_eq_true, decide_eq_true_eq, Classical.not_forall] at hall
    obtain ⟨k, hk, hvisited⟩ := hall
    exact .inl ⟨⟨k, hk, hvisited⟩, rfl⟩

theorem engine_finish (g : Gathering) (s : Shared σ) : (s.finish g).engine = s.engine := by
  rcases s.finish_cases g with ⟨_, h⟩ | ⟨_, ⟨_, h⟩ | ⟨_, _, h⟩ | ⟨_, _, _, h⟩⟩ <;> rw [h]

def step (a : Action) (s : Shared σ) : Shared σ :=
  match a, s.stage with
  | .success key bytes millis, _ => { s with engine := s.engine.recordSuccess key bytes millis }
  | .failure key, _ => { s with engine := s.engine.recordFailure key }
  | .load, .idle =>
    let r := s.engine.load s.store
    { s with engine := r.2.1, store := r.2.2 }
  | .request, _ => { s with waiting := s.waiting + 1 }
  | .start now, .idle =>
    if s.waiting = 0 then s
    else if s.engine.loaded then
      { s with waiting := s.waiting - 1, stage := .gathering ⟨now, s.engine.models.keys, [], []⟩ }
    else { s with waiting := s.waiting - 1 }
  | .visit key, .gathering g => s.visit g key
  | .store, .gathering g => s.finish g
  | .mark, .refused (key :: rest) =>
    { s with engine := s.engine.restore [key], stage := .marking rest }
  | _, _ => s

/-- What a step can do. -/
inductive Taken (s : Shared σ) : Action → Shared σ → Prop where
  | stay (a : Action) : Taken s a s
  | success (key : ModelKey) (bytes millis : Nat) :
      Taken s (.success key bytes millis)
        { s with engine := s.engine.recordSuccess key bytes millis }
  | failure (key : ModelKey) :
      Taken s (.failure key) { s with engine := s.engine.recordFailure key }
  | load (hs : s.stage = .idle) :
      Taken s .load
        { s with
          engine := (s.engine.load s.store).2.1
          store := (s.engine.load s.store).2.2 }
  | request : Taken s .request { s with waiting := s.waiting + 1 }
  | skip (now : Instant) : Taken s (.start now) { s with waiting := s.waiting - 1 }
  | start (now : Instant) (hs : s.stage = .idle) (hl : s.engine.loaded = true) :
      Taken s (.start now)
        { s with
          waiting := s.waiting - 1
          stage := .gathering ⟨now, s.engine.models.keys, [], []⟩ }
  | visit (key : ModelKey) (g : Gathering) (hs : s.stage = .gathering g) :
      Taken s (.visit key) (s.visit g key)
  | finish (g : Gathering) (hs : s.stage = .gathering g) : Taken s .store (s.finish g)
  | mark (key : ModelKey) (rest : List ModelKey) (hs : s.stage = .refused (key :: rest)) :
      Taken s .mark { s with engine := s.engine.restore [key], stage := .marking rest }

theorem step_taken (s : Shared σ) (a : Action) : s.Taken a (s.step a) := by
  obtain ⟨engine, store, stage, waiting⟩ := s
  cases a with
  | success key bytes millis => exact .success key bytes millis
  | failure key => exact .failure key
  | load =>
    cases stage with
    | idle => exact .load rfl
    | gathering g => exact .stay _
    | refused keys => exact .stay _
  | request => exact .request
  | start now =>
    cases stage with
    | idle =>
      simp only [step]
      split
      · exact .stay _
      · split
        · exact .start now rfl ‹_›
        · exact .skip now
    | gathering g => exact .stay _
    | refused keys => exact .stay _
  | visit key =>
    cases stage with
    | gathering g => exact .visit key g rfl
    | idle => exact .stay _
    | refused keys => exact .stay _
  | store =>
    cases stage with
    | gathering g => exact .finish g rfl
    | idle => exact .stay _
    | refused keys => exact .stay _
  | mark =>
    cases stage with
    | refused keys =>
      cases keys with
      | nil => exact .stay _
      | cons key rest => exact .mark key rest rfl
    | idle => exact .stay _
    | gathering g => exact .stay _

def run (s : Shared σ) (actions : List Action) : Shared σ := actions.foldl (fun s a => s.step a) s

theorem run_cons (s : Shared σ) (a : Action) (rest : List Action) :
    s.run (a :: rest) = (s.step a).run rest := rfl

theorem run_append (s : Shared σ) (first second : List Action) :
    s.run (first ++ second) = (s.run first).run second := List.foldl_append

theorem run_visits {keys : List ModelKey} (hnodup : keys.Nodup) {s : Shared σ} {g : Gathering}
    (hg : s.stage = .gathering g) (hvisited : ∀ k ∈ keys, k ∉ g.visited)
    (hmodel : ∀ k ∈ keys, ∃ m, s.engine.model? k = some m) :
    ∃ models : SortedMap ModelKey (Model Float),
      s.run (keys.map .visit) =
        { s with
          engine := { s.engine with models := models }
          stage := .gathering { g with
            visited := keys.reverse ++ g.visited
            rows := g.rows ++ keys.filterMap (collected s.engine g.now) } } ∧
      ∀ k, models.get? k =
        if k ∈ keys then (s.engine.model? k).map (Model.saved g.now true)
        else s.engine.model? k := by
  induction keys generalizing s g with
  | nil =>
    refine ⟨s.engine.models, ?_, fun k => rfl⟩
    simp only [List.map_nil, List.reverse_nil, List.nil_append, List.filterMap_nil, List.append_nil,
      ← hg]
    rfl
  | cons key rest ih =>
    obtain ⟨hkey, hrest⟩ := List.nodup_cons.1 hnodup
    obtain ⟨m, hm⟩ := hmodel key List.mem_cons_self
    have hne (k : ModelKey) (hk : k ∈ rest) : k ≠ key := fun he => hkey (he ▸ hk)
    have hstep : s.step (.visit key) = s.visit g key := by simp only [step, hg]
    rw [visit_of_model (hvisited key List.mem_cons_self) hm] at hstep
    -- the visit changes this model alone, so the ones to come are found as they were at first
    have hinsert (k : ModelKey) : (s.step (.visit key)).engine.model? k =
        if k = key then some (m.saved g.now true) else s.engine.model? k := by
      rw [hstep]
      exact s.engine.models.get?_insert key k _
    obtain ⟨models, hrun, hmodels⟩ := ih hrest (congrArg Shared.stage hstep)
      (fun k hk hmem => (List.mem_cons.1 hmem).elim (hne k hk)
        (hvisited k (List.mem_cons_of_mem key hk)))
      (fun k hk => by
        rw [hinsert, if_neg (hne k hk)]
        exact hmodel k (List.mem_cons_of_mem key hk))
    have hrows : rest.filterMap (collected (s.step (.visit key)).engine g.now) =
        rest.filterMap (collected s.engine g.now) := by
      refine List.filterMap_congr fun k hk => collected_congr ?_ g.now
      rw [hinsert, if_neg (hne k hk)]
    refine ⟨models, ?_, fun k => ?_⟩
    · change (s.step (.visit key)).run (rest.map .visit) = _
      rw [hrun, hrows, hstep]
      have hcons :
          (collected s.engine g.now key).toList ++ rest.filterMap (collected s.engine g.now) =
            (key :: rest).filterMap (collected s.engine g.now) := by
        rw [List.filterMap_cons]
        cases collected s.engine g.now key <;> rfl
      simp only [List.append_assoc, hcons, List.reverse_cons, List.cons_append, List.nil_append]
    · rw [hmodels, hinsert]
      by_cases hk : k = key
      · subst hk
        rw [if_neg hkey, if_pos rfl, if_pos List.mem_cons_self, hm]
        rfl
      · simp only [List.mem_cons, hk, false_or, ↓reduceIte]

theorem filterMap_collected (e : Engine) (now : Instant) :
    e.models.keys.filterMap (collected e now) = (e.collect now).1 := by
  rw [SortedMap.keys, List.filterMap_map]
  change _ = (e.models.entries.map _).filterMap _
  rw [List.filterMap_map]
  refine List.filterMap_congr fun p hp => ?_
  have hm : e.model? p.1 = some p.2 := (e.models.mem_entries_iff p.1 p.2).1 hp
  simp only [Function.comp, collected, hm, Option.bind_some]

theorem run_of_idle {s : Shared σ} (hs : s.stage = .idle) {actions : List Action}
    (h : ∀ a ∈ actions, a.saves = true) : s.run actions = s := by
  induction actions with
  | nil => rfl
  | cons a rest ih =>
    have hstep : s.step a = s := by
      have ha := h a List.mem_cons_self
      cases a with
      | visit key => simp only [step, hs]
      | store => simp only [step, hs]
      | mark => simp only [step, hs]
      | _ => cases ha
    change (s.step a).run rest = s
    rw [hstep]
    exact ih fun b hb => h b (List.mem_cons_of_mem a hb)

theorem saves_of_mem_marks {n : Nat} : ∀ a ∈ List.replicate n Action.mark, a.saves = true :=
  fun _ ha => (List.mem_replicate.1 ha).2 ▸ rfl

theorem run_mark {keys : List ModelKey} {s : Shared σ} (hs : s.stage = .marking keys) {n : Nat}
    (hn : keys.length ≤ n) :
    s.run (List.replicate n .mark) =
      { s with engine := s.engine.restore keys, stage := .idle } := by
  induction keys generalizing s n with
  | nil =>
    have hstage : s.stage = .idle := hs
    rw [run_of_idle hs saves_of_mem_marks, ← hstage]
    rfl
  | cons key rest ih =>
    cases n with
    | zero => cases hn
    | succ n =>
      have hstep : s.step .mark =
          { s with engine := s.engine.restore [key], stage := .marking rest } := by
        simp only [step, hs, SaveStage.marking]
      rw [List.replicate_succ]
      change (s.step .mark).run _ = _
      rw [ih (congrArg Shared.stage hstep) (Nat.le_of_succ_le_succ hn), hstep]
      rfl

theorem run_visit_all {s : Shared σ} {now : Instant}
    (hs : s.stage = .gathering ⟨now, s.engine.models.keys, [], []⟩) :
    s.run (s.engine.models.keys.map .visit) =
      { s with
        engine := (s.engine.collect now).2
        stage := .gathering ⟨now, s.engine.models.keys, s.engine.models.keys.reverse,
          (s.engine.collect now).1⟩ } := by
  have hmem (k : ModelKey) := s.engine.models.mem_keys_iff k
  obtain ⟨models, hrun, hmodels⟩ := run_visits s.engine.models.keys_nodup hs
    (fun _ _ => List.not_mem_nil) (fun k hk => (hmem k).1 hk)
  have hcollect : models = (s.engine.collect now).2.models := by
    refine SortedMap.ext_get? fun k => (hmodels k).trans ?_
    have hget := s.engine.model?_collect now k
    split
    · exact hget.symm
    · rename_i hk
      have hnone : s.engine.model? k = none :=
        Option.eq_none_iff_forall_ne_some.2 fun m hm => hk ((hmem k).2 ⟨m, hm⟩)
      rw [hnone] at hget ⊢
      exact hget.symm
  rw [hrun, hcollect, filterMap_collected, List.append_nil]
  rfl

theorem run_finish {s : Shared σ} {g : Gathering} (hs : s.stage = .gathering g)
    (hg : ∀ k ∈ g.keys, k ∈ g.visited) {n : Nat} (hn : g.rows.length ≤ n) :
    s.run (.store :: List.replicate n .mark) =
      if g.rows.isEmpty then { s with stage := .idle }
      else match ModelStore.upsertRows (g.rows.map (·.2)) s.store with
        | (.ok (), store) => { s with store := store, stage := .idle }
        | (.error _, store) =>
          { s with
            engine := s.engine.restore (g.rows.map (·.1))
            store := store
            stage := .idle } := by
  have hstore : s.step .store = s.finish g := by simp only [step, hs]
  change (s.step .store).run _ = _
  rw [hstore, finish, if_pos (List.all_eq_true.2 fun k hk => decide_eq_true (hg k hk))]
  split
  · exact run_of_idle rfl saves_of_mem_marks
  · split
    · exact run_of_idle rfl saves_of_mem_marks
    · exact run_mark rfl (by rwa [List.length_map])

/-- A save between whose steps nothing happens is one that is done at once. -/
theorem run_save {s : Shared σ} (hs : s.stage = .idle) (hw : s.waiting ≠ 0) (now : Instant)
    {n : Nat} (hn : (s.engine.collect now).1.length ≤ n) :
    s.run (.start now :: (s.engine.models.keys.map .visit ++ .store :: List.replicate n .mark)) =
      { engine := (s.engine.flush now s.store).2.1
        store := (s.engine.flush now s.store).2.2
        stage := .idle
        waiting := s.waiting - 1 } := by
  rw [run_cons]
  by_cases hl : s.engine.loaded = true
  · have hstart : s.step (.start now) = { s with
        waiting := s.waiting - 1
        stage := .gathering ⟨now, s.engine.models.keys, [], []⟩ } := by
      simp only [step, hs, if_neg hw, if_pos hl]
    have hvisit := run_visit_all (s := { s with
      waiting := s.waiting - 1
      stage := .gathering ⟨now, s.engine.models.keys, [], []⟩ }) rfl
    rw [hstart, run_append, hvisit, run_finish rfl (fun k hk => List.mem_reverse.2 hk) hn,
      Engine.flush, hl]
    simp only [Bool.not_true, Bool.false_eq_true, ↓reduceIte]
    split
    · rfl
    · generalize ModelStore.upsertRows _ s.store = answer
      obtain ⟨_ | _, store⟩ := answer <;> rfl
  · have hstart : s.step (.start now) = { s with waiting := s.waiting - 1 } := by
      simp only [step, hs, if_neg hw, if_neg hl]
    rw [hstart, Engine.flush_of_not_loaded (Bool.not_eq_true _ ▸ hl), ← hs]
    refine run_of_idle (s := { s with waiting := s.waiting - 1 }) hs fun a ha => ?_
    rcases List.mem_append.1 ha with ha | ha
    · obtain ⟨k, _, rfl⟩ := List.mem_map.1 ha
      rfl
    · rcases List.mem_cons.1 ha with rfl | ha
      · rfl
      · exact saves_of_mem_marks a ha

end Shared

end ProviderScout
