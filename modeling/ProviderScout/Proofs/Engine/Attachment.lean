import ProviderScout.Proofs.Engine.Contention

namespace ProviderScout

/-- Whether a reset of a job, or of all jobs, is about this one. -/
abbrev Covers (job : Option String) (name : String) : Prop := job.all (· == name) = true

theorem StatsRow.job_of_owner? {r : StatsRow} {k : ModelKey} (h : r.owner? = some k) :
    r.job = k.job := by
  rw [owner?] at h
  split at h
  · cases h
  · cases h
    rfl

namespace Engine

def tally? (e : Engine) (k : ModelKey) : Option Tally := (e.model? k).map Model.tally

theorem tally_eq (e : Engine) (k : ModelKey) : e.tally k = (e.tally? k).getD .zero := by
  rw [tally, tally?]
  cases e.model? k <;> rfl

theorem tally?_update (e : Engine) (key k : ModelKey) (f : Model Float → Model Float) :
    (e.update key f).tally? k =
      if k = key then some (f ((e.model? key).getD .fresh)).tally else e.tally? k := by
  rw [tally?, model?_update]
  split <;> rfl

theorem tally?_update_id (e : Engine) (key k : ModelKey) :
    (e.update key id).tally? k = if k = key then some (e.tally key) else e.tally? k := by
  rw [tally?_update, tally]
  cases e.model? key <;> rfl

theorem tally?_forget (e : Engine) (job : Option String) (k : ModelKey) :
    (e.forget job).tally? k = if Covers job k.job then none else e.tally? k := by
  rw [tally?, model?_forget]
  split <;> rfl

theorem tally?_absorb {e : Engine} {r : StatsRow} {k : ModelKey} (h : r.owner? ≠ some k) :
    (e.absorb r).tally? k = e.tally? k := by
  rw [tally?, model?_absorb, if_neg h]
  rfl

theorem loaded_absorb (e : Engine) (r : StatsRow) : (e.absorb r).loaded = e.loaded := by
  rw [absorb]
  split <;> rfl

theorem tally?_restore (e : Engine) (keys : List ModelKey) (k : ModelKey) :
    (e.restore keys).tally? k = e.tally? k := by
  rw [tally?, model?_restore, Option.map_map, tally?]
  congr 1
  funext m
  simp only [Function.comp]
  split <;> rfl

end Engine

namespace Shared

variable {σ : Type}

theorem tally?_visit (g : Gathering) (key k : ModelKey) (s : Shared σ) :
    (s.visit g key).engine.tally? k = s.engine.tally? k := by
  rcases s.visit_cases g key with hsame | ⟨hkey, m, hm⟩
  · rw [hsame]
  · rw [visit_of_model hkey hm, Engine.tally?, Engine.tally?, Engine.model?, SortedMap.get?_insert]
    split
    · rename_i hk
      rw [hk, hm, Option.map_some, Option.map_some, Model.tally, Model.saved_performance]
    · rfl

theorem store_visit (g : Gathering) (key : ModelKey) (s : Shared σ) :
    (s.visit g key).store = s.store := by
  rcases s.visit_cases g key with hsame | ⟨hkey, m, hm⟩
  · rw [hsame]
  · rw [visit_of_model hkey hm]

variable [ModelStore σ]

theorem finish_of_gathering (g : Gathering) {g' : Gathering} {s : Shared σ}
    (h : (s.finish g).stage = .gathering g') : s.finish g = s := by
  rcases s.finish_cases g with ⟨_, hf⟩ | ⟨_, ⟨_, hf⟩ | ⟨_, _, hf⟩ | ⟨_, _, _, hf⟩⟩
  · exact hf
  · rw [hf] at h
    cases h
  · rw [hf] at h
    cases h
  · rw [hf] at h
    exact (SaveStage.marking_ne _ _ h).elim

theorem tally?_save (s : Shared σ) (part : SaveStep) (k : ModelKey) :
    (s.step part.action).engine.tally? k = s.engine.tally? k := by
  have ht := s.step_taken part.action
  generalize s.step part.action = t at ht
  cases part with
  | request => cases ht <;> rfl
  | start now => cases ht <;> rfl
  | visit key =>
    cases ht with
    | stay => rfl
    | visit _ g _ => exact s.tally?_visit g key k
  | store =>
    cases ht with
    | stay => rfl
    | finish g _ => rw [engine_finish]
  | mark =>
    cases ht with
    | stay => rfl
    | mark key rest _ => exact s.engine.tally?_restore [key] k

theorem loaded_save (s : Shared σ) (part : SaveStep) :
    (s.step part.action).engine.loaded = s.engine.loaded := by
  have ht := s.step_taken part.action
  generalize s.step part.action = t at ht
  cases part with
  | request => cases ht <;> rfl
  | start now => cases ht <;> rfl
  | visit key =>
    cases ht with
    | stay => rfl
    | visit _ g _ =>
      rcases s.visit_cases g key with hsame | ⟨hkey, m, hm⟩
      · rw [hsame]
      · rw [visit_of_model hkey hm]
  | store =>
    cases ht with
    | stay => rfl
    | finish g _ => rw [engine_finish]
  | mark => cases ht <;> rfl

theorem loaded_of_gathering {s : Shared σ}
    (h : ∀ g, s.stage = .gathering g → s.engine.loaded = true) (part : SaveStep) (g : Gathering)
    (hg : (s.step part.action).stage = .gathering g) : s.engine.loaded = true := by
  have ht := s.step_taken part.action
  generalize s.step part.action = t at ht hg
  cases part with
  | request => cases ht <;> exact h g hg
  | start now =>
    cases ht with
    | stay => exact h g hg
    | skip => exact h g hg
    | start _ _ hl => exact hl
  | visit key =>
    cases ht with
    | stay => exact h g hg
    | visit _ g' hs => exact h g' hs
  | store =>
    cases ht with
    | stay => exact h g hg
    | finish g' hs => exact h g' hs
  | mark =>
    cases ht with
    | stay => exact h g hg
    | mark key rest _ => exact (SaveStage.marking_ne rest g hg).elim

end Shared

namespace Numbering

variable (n : Numbering) {e : Engine} {k : ModelKey}

theorem made_le_enter (e : Engine) (key : ModelKey) : n.made ≤ (n.enter e key).made := by
  rw [enter]
  split
  · exact Nat.le_refl _
  · exact Nat.le_succ _

theorem ids_enter_of_ne {key : ModelKey} (h : k ≠ key) : (n.enter e key).ids k = n.ids k := by
  rw [enter]
  split
  · rfl
  · exact if_neg h

theorem ids_enter_of_model (h : (e.tally? k).isSome = true) (key : ModelKey) :
    (n.enter e key).ids k = n.ids k := by
  rw [Engine.tally?, Option.isSome_map] at h
  by_cases hk : k = key
  · subst hk
    rw [enter, if_pos h]
  · exact n.ids_enter_of_ne hk

theorem enter_of_none (h : (e.tally? k).isSome = false) :
    (n.enter e k).ids k = n.made ∧ (n.enter e k).made = n.made + 1 := by
  rw [Engine.tally?, Option.isSome_map] at h
  rw [enter, h, if_neg Bool.false_ne_true]
  exact ⟨if_pos rfl, rfl⟩

/-- All models have numbers of those that were made. -/
def Sound (e : Engine) : Prop := ∀ k, (e.tally? k).isSome = true → n.ids k < n.made

variable {n}

theorem Sound.ids_enter (h : n.Sound e) {key : ModelKey}
    (hk : k = key ∨ (e.tally? k).isSome = true) : (n.enter e key).ids k < (n.enter e key).made := by
  cases hmodel : (e.tally? k).isSome with
  | true =>
    rw [n.ids_enter_of_model hmodel]
    exact Nat.lt_of_lt_of_le (h k hmodel) (n.made_le_enter e key)
  | false =>
    rcases hk with rfl | hk
    · obtain ⟨hid, hmade⟩ := n.enter_of_none hmodel
      rw [hid, hmade]
      exact Nat.lt_succ_self _
    · cases hmodel.symm.trans hk

theorem Sound.enter (h : n.Sound e) {e' : Engine} {key : ModelKey}
    (he : ∀ k, k ≠ key → e'.tally? k = e.tally? k) : (n.enter e key).Sound e' := by
  intro k hk
  apply h.ids_enter
  by_cases hkey : k = key
  · exact .inl hkey
  · exact .inr (he k hkey ▸ hk)

end Numbering

namespace Contended

variable {σ : Type}

/-- Models and calls have numbers of those that were made and of look-ups that took place. A save
takes rows only when the past has been added. -/
structure Sound (s : Contended σ) : Prop where
  numbers : s.numbers.Sound s.engine
  models : ∀ c ∈ s.calls, c.model < s.numbers.made
  calls : ∀ c ∈ s.calls, c.ticket < s.tickets
  counted : ∀ c ∈ s.counted, c.ticket < s.tickets
  gathering : ∀ g, s.stage = .gathering g → s.engine.loaded = true

namespace Sound

variable {s : Contended σ}

theorem start (config : AffinityConfig) (roles : List Role) (store : σ) :
    (start config roles store).Sound where
  numbers _ h := by cases h
  models _ h := by cases h
  calls _ h := by cases h
  counted _ h := by cases h
  gathering _ h := by cases h

theorem lookUp (h : s.Sound) (key : ModelKey) (outcome : Outcome) :
    (s.lookUp key outcome).Sound where
  numbers := h.numbers.enter fun k hk => (s.engine.tally?_update_id key k).trans (if_neg hk)
  models := by
    intro c hc
    rcases List.mem_append.1 hc with hc | hc
    · exact Nat.lt_of_lt_of_le (h.models c hc) (s.numbers.made_le_enter s.engine key)
    · cases List.mem_singleton.1 hc
      exact h.numbers.ids_enter (.inl rfl)
  calls := by
    intro c hc
    rcases List.mem_append.1 hc with hc | hc
    · exact Nat.lt_succ_of_lt (h.calls c hc)
    · cases List.mem_singleton.1 hc
      exact Nat.lt_succ_self _
  counted c hc := Nat.lt_succ_of_lt (h.counted c hc)
  gathering g hg := h.gathering g hg

theorem isSome_complete (s : Contended σ) (c : Call) (k : ModelKey) :
    ((s.complete c).engine.tally? k).isSome = (s.engine.tally? k).isSome := by
  rw [complete]
  dsimp only
  split
  · rename_i hc
    rw [Engine.tally?_update]
    split
    · rename_i hk
      rw [attached, Bool.and_eq_true] at hc
      rw [hk, Engine.tally?, Option.isSome_map, hc.1]
      rfl
    · rfl
  · rfl

theorem complete (h : s.Sound) {c : Call} (hc : c ∈ s.calls) : (s.complete c).Sound where
  numbers k hk := h.numbers k (isSome_complete s c k ▸ hk)
  models d hd := h.models d (List.mem_filter.1 hd).1
  calls d hd := h.calls d (List.mem_filter.1 hd).1
  counted := by
    intro d hd
    rcases List.mem_append.1 hd with hd | hd
    · exact h.counted d hd
    · cases List.mem_singleton.1 hd
      exact h.calls c hc
  gathering g hg := by
    have hl := h.gathering g hg
    simp only [Contended.complete]
    split
    · exact hl
    · exact hl

theorem absorb (h : s.Sound) (r : StatsRow) (rest : List StatsRow) :
    (s.absorb r rest).Sound := by
  have hloaded (g : Gathering) (hg : s.stage = .gathering g) :
      (s.engine.absorb r).loaded = true :=
    (s.engine.loaded_absorb r).trans (h.gathering g hg)
  cases ho : r.owner? with
  | none =>
    have hnumbers : (s.absorb r rest).numbers = s.numbers := by rw [Contended.absorb, ho]; rfl
    refine ⟨fun k hk => ?_, ?_, h.calls, h.counted, hloaded⟩
    · rw [hnumbers]
      apply h.numbers
      rwa [← Engine.tally?_absorb (r := r) (by rw [ho]; exact nofun)]
    · rw [hnumbers]
      exact h.models
  | some key =>
    have hnumbers : (s.absorb r rest).numbers = s.numbers.enter s.engine key := by
      rw [Contended.absorb, ho]
      rfl
    refine ⟨?_, ?_, h.calls, h.counted, hloaded⟩
    · rw [hnumbers]
      refine h.numbers.enter fun k hk => Engine.tally?_absorb ?_
      rw [ho]
      rintro ⟨⟩
      exact hk rfl
    · rw [hnumbers]
      intro c hc
      exact Nat.lt_of_lt_of_le (h.models c hc) (s.numbers.made_le_enter s.engine key)

theorem clear (h : s.Sound) (job : Option String) (deleted : Nat) :
    (s.clear job deleted).Sound where
  numbers := by
    intro k hk
    apply h.numbers
    change ((s.engine.forget job).tally? k).isSome = true at hk
    rw [Engine.tally?_forget] at hk
    split at hk
    · cases hk
    · exact hk
  models := h.models
  calls := h.calls
  counted := h.counted
  gathering := by
    intro g hg
    have hl := h.gathering g hg
    cases job <;> exact hl

variable [ModelStore σ]

theorem save (h : s.Sound) (part : SaveStep) :
    ({ s with toShared := s.toShared.step part.action } : Contended σ).Sound where
  numbers k hk := h.numbers k (s.toShared.tally?_save part k ▸ hk)
  models := h.models
  calls := h.calls
  counted := h.counted
  gathering g hg := by
    exact (s.toShared.loaded_save part).trans (s.toShared.loaded_of_gathering h.gathering part g hg)

theorem step (h : s.Sound) (a : Action) : (s.step a).Sound := by
  have ht := s.step_taken a
  generalize s.step a = t at ht
  cases ht with
  | stay => exact h
  | lookUp key outcome => exact h.lookUp key outcome
  | update c hc => exact h.complete hc
  | save part _ => exact h.save part
  | absorb r rest _ => exact h.absorb r rest
  | loaded _ => exact ⟨h.numbers, h.models, h.calls, h.counted, fun _ _ => rfl⟩
  | clear job deleted _ => exact h.clear job deleted
  | _ => exact ⟨h.numbers, h.models, h.calls, h.counted, h.gathering⟩

theorem run (h : s.Sound) (actions : List Action) : (s.run actions).Sound :=
  List.foldlRecOn (motive := Sound) actions _ h fun _ ht a _ => ht.step a

end Sound

def total (calls : List Call) : Tally := calls.foldl (fun t c => t.plus c.outcome.tally) .zero

theorem total_snoc (calls : List Call) (c : Call) :
    total (calls ++ [c]) = (total calls).plus c.outcome.tally := by
  rw [total, List.foldl_append]
  rfl

/-- The calls that have changed a model of a key and had their look-ups from some time on. -/
def since (n : Nat) (key : ModelKey) (s : Contended σ) : List Call :=
  s.counted.filter fun c => decide (n ≤ c.ticket) && c.key == key

/-- A key holds what was counted in calls that looked up its model from some time on. Of the calls
that have yet to change a model, these have found the one that the key has now. -/
structure Restarted (n : Nat) (key : ModelKey) (s : Contended σ) : Prop where
  started : n ≤ s.tickets
  total : s.engine.tally key = (total (s.since n key)).upTo Counter.max
  attached : ∀ c ∈ s.calls, c.key = key → (s.attached c = true ↔ n ≤ c.ticket)

theorem attached_eq (s : Contended σ) (c : Call) :
    s.attached c = ((s.engine.tally? c.key).isSome && s.numbers.ids c.key == c.model) := by
  rw [attached, Engine.tally?, Option.isSome_map]

namespace Restarted

variable {n : Nat} {key : ModelKey} {s t : Contended σ}

theorem congr (h : s.Restarted n key) (htickets : t.tickets = s.tickets)
    (hcounted : t.counted = s.counted) (hcalls : t.calls = s.calls)
    (hids : t.numbers.ids key = s.numbers.ids key)
    (htally : t.engine.tally? key = s.engine.tally? key) : t.Restarted n key where
  started := htickets ▸ h.started
  total := by
    rw [Engine.tally_eq, htally, ← Engine.tally_eq, h.total, since, since, hcounted]
  attached := by
    intro c hc hkey
    rw [hcalls] at hc
    rw [← h.attached c hc hkey, attached_eq, attached_eq, hkey, htally, hids]

/-- A look-up that makes a model makes one that no earlier call has found. -/
theorem lookUp (h : s.Restarted n key) (hs : s.Sound) (k : ModelKey) (outcome : Outcome) :
    (s.lookUp k outcome).Restarted n key where
  started := Nat.le_succ_of_le h.started
  total := by
    have htally := s.engine.tally?_update_id k key
    change (s.engine.update k id).tally key = _
    rw [Engine.tally_eq, htally]
    split
    · rename_i hk
      rw [← hk]
      exact h.total
    · rw [← Engine.tally_eq]
      exact h.total
  attached := by
    have htally := s.engine.tally?_update_id k key
    intro c hc hkey
    rw [attached_eq, hkey]
    change ((s.engine.update k id).tally? key).isSome &&
      (s.numbers.enter s.engine k).ids key == c.model ↔ _
    rw [htally]
    rcases List.mem_append.1 hc with hold | hnew
    · rw [← h.attached c hold hkey, attached_eq, hkey]
      by_cases hk : key = k
      · subst hk
        cases hmodel : (s.engine.tally? key).isSome with
        | true => rw [if_pos rfl, s.numbers.ids_enter_of_model hmodel, Option.isSome_some]
        | false =>
          -- the model that is made has a number that no earlier call can have
          have hne : s.numbers.made ≠ c.model := Nat.ne_of_gt (hs.models c hold)
          rw [if_pos rfl, (s.numbers.enter_of_none hmodel).1, beq_eq_false_iff_ne.2 hne,
            Bool.and_false, Bool.false_and]
      · rw [if_neg hk, s.numbers.ids_enter_of_ne hk]
    · cases List.mem_singleton.1 hnew
      rw [if_pos hkey.symm, ← hkey]
      simp only [Option.isSome_some, BEq.rfl, Bool.and_self, true_iff]
      exact h.started

theorem since_complete (s : Contended σ) (c : Call) (n : Nat) (key : ModelKey) :
    (s.complete c).since n key =
      s.since n key ++ if n ≤ c.ticket ∧ c.key = key then [c] else [] := by
  simp only [since, Contended.complete, List.filter_append, List.filter_cons, List.filter_nil,
    Bool.and_eq_true, decide_eq_true_eq, beq_iff_eq]

/-- A call that found a forgotten model counts for nobody. -/
theorem complete (h : s.Restarted n key) {c : Call} (hc : c ∈ s.calls) :
    (s.complete c).Restarted n key where
  started := h.started
  total := by
    rw [since_complete, Contended.complete]
    dsimp only
    by_cases hkey : c.key = key
    · by_cases hn : n ≤ c.ticket
      · have hattached := (h.attached c hc hkey).2 hn
        have hmodel := hattached
        rw [Contended.attached, Bool.and_eq_true, Option.isSome_iff_exists] at hmodel
        obtain ⟨⟨m, hm⟩, _⟩ := hmodel
        have htally : s.engine.tally key = m.tally := by rw [Engine.tally, ← hkey, hm]; rfl
        rw [if_pos hattached, if_pos ⟨hn, hkey⟩, total_snoc, Engine.tally_eq, Engine.tally?_update,
          if_pos hkey.symm, hm, Option.getD_some, Option.getD_some, Outcome.tally_apply, ← htally,
          h.total, Tally.upTo_plus]
      · have hattached : ¬ s.attached c = true := fun ha => hn ((h.attached c hc hkey).1 ha)
        rw [if_neg hattached, if_neg fun hc => hn hc.1, List.append_nil]
        exact h.total
    · have hother : ¬ (n ≤ c.ticket ∧ c.key = key) := fun h => hkey h.2
      rw [if_neg hother, List.append_nil, ← h.total, Engine.tally_eq, Engine.tally_eq]
      split
      · rw [Engine.tally?_update, if_neg (Ne.symm hkey)]
      · rfl
  attached := by
    intro d hd hkey
    rw [← h.attached d (List.mem_filter.1 hd).1 hkey, attached_eq, attached_eq,
      Sound.isSome_complete]
    rfl

theorem absorb (h : s.Restarted n key) {r : StatsRow} (hr : r.owner? ≠ some key)
    (rest : List StatsRow) : (s.absorb r rest).Restarted n key := by
  refine h.congr rfl rfl rfl ?_ (Engine.tally?_absorb hr)
  rw [Contended.absorb]
  cases ho : r.owner? with
  | none => rfl
  | some k => exact s.numbers.ids_enter_of_ne fun hk => hr (hk ▸ ho)

theorem of_clear (hs : s.Sound) {job : Option String} (hcovers : Covers job key.job)
    (deleted : Nat) : (s.clear job deleted).Restarted s.tickets key := by
  have htally : (s.clear job deleted).engine.tally? key = none :=
    (s.engine.tally?_forget job key).trans (if_pos hcovers)
  refine ⟨Nat.le_refl _, ?_, ?_⟩
  · have hsince : (s.clear job deleted).since s.tickets key = [] := by
      refine List.filter_eq_nil_iff.2 fun c hc h => ?_
      rw [Bool.and_eq_true, decide_eq_true_eq] at h
      exact Nat.not_lt_of_le h.1 (hs.counted c hc)
    rw [Engine.tally_eq, htally, hsince]
    rfl
  · intro c hc hkey
    rw [attached_eq, hkey, htally]
    constructor
    · exact nofun
    · intro hn
      exact (Nat.not_lt_of_le hn (hs.calls c hc)).elim

theorem clear (h : s.Restarted n key) {job : Option String} (hcovers : ¬ Covers job key.job)
    (deleted : Nat) : (s.clear job deleted).Restarted n key := by
  refine h.congr rfl rfl rfl rfl ?_
  exact (s.engine.tally?_forget job key).trans (if_neg hcovers)

variable [ModelStore σ]

/-- Only a reset changes from when on is counted. -/
theorem step (h : s.Restarted n key) (hs : s.Sound)
    (hload : ∀ r rest, s.turn = .loading (r :: rest) → r.owner? ≠ some key) {a : Action}
    (hclear : ∀ job deleted, a = .clear → s.turn = .clearing job deleted → ¬ Covers job key.job) :
    (s.step a).Restarted n key := by
  have ht := s.step_taken a
  generalize s.step a = t at ht
  cases ht with
  | stay => exact h
  | lookUp k outcome => exact h.lookUp hs k outcome
  | update c hc => exact h.complete hc
  | save part _ => exact h.congr rfl rfl rfl rfl (s.toShared.tally?_save part key)
  | absorb r rest hturn => exact h.absorb (hload r rest hturn) rest
  | clear job deleted hturn => exact h.clear (hclear job deleted rfl hturn) deleted
  | _ => exact h.congr rfl rfl rfl rfl rfl

end Restarted

end Contended

end ProviderScout
