import ProviderScout.Proofs.Engine.Projection

namespace ProviderScout

/-- Whether an operation forgets a key in memory alone. -/
def Operation.clears (key : ModelKey) : Operation → Bool
  | .clearJob job => key.job == job
  | .clearAll => true
  | _ => false

namespace Event

def resets (key : ModelKey) (ev : Event) : Bool :=
  match ev.op with
  | .reset job => ev.ok && job.all (· == key.job)
  | _ => false

def saves (ev : Event) : Bool :=
  match ev.op with
  | .flush _ | .persist _ => ev.loaded
  | _ => false

def outcome (config : AffinityConfig) (key : ModelKey) (ev : Event) : Tally :=
  let active := config.enabled && !key.job.isEmpty
  match ev.op with
  | .success k bytes millis => if k = key ∧ active then .success bytes millis else .zero
  | .failure k => if k = key ∧ active then .failure else .zero
  | _ => .zero

end Event

/-- A key with the row it has at first. -/
structure Account where
  config : AffinityConfig
  key : ModelKey
  row : Option StatsRow

namespace Account

variable (a : Account) (events : List Event)

/-- What was counted since the key was last forgotten. -/
def live : Tally :=
  events.foldl (fun t ev => if ev.resets a.key || ev.op.clears a.key then .zero
    else t.plus (ev.outcome a.config a.key)) .zero

/-- The first row of the key, unless a reset deleted it. -/
def origin : Option StatsRow := if events.any (Event.resets a.key) then none else a.row

def history : Tally := (a.origin events).elim .zero StatsRow.tally

/-- Whether the key was forgotten in memory alone when the stored past had been added. -/
def cleared : Bool := events.any fun ev => ev.loaded && ev.op.clears a.key

/-- What is left in memory of what was counted before the run, once it has been added. -/
def past : Tally := if a.cleared events then .zero else a.history events

variable (ev : Event)

theorem live_snoc :
    a.live (events ++ [ev]) =
      if ev.resets a.key || ev.op.clears a.key then .zero
      else (a.live events).plus (ev.outcome a.config a.key) := by
  rw [live, List.foldl_append]
  rfl

theorem origin_snoc :
    a.origin (events ++ [ev]) = if ev.resets a.key then none else a.origin events := by
  simp only [origin, List.any_append, List.any_cons, List.any_nil, Bool.or_false, Bool.or_eq_true]
  by_cases h : ev.resets a.key = true
  · rw [if_pos (.inr h), if_pos h]
  · simp only [h, or_false, Bool.false_eq_true, ↓reduceIte]

theorem cleared_snoc :
    a.cleared (events ++ [ev]) = (a.cleared events || ev.loaded && ev.op.clears a.key) := by
  simp only [cleared, List.any_append, List.any_cons, List.any_nil, Bool.or_false]

end Account

namespace Cell

def tally (c : Cell) : Tally := c.model.elim .zero Model.tally

def stored (c : Cell) : Tally := c.row.elim .zero StatsRow.tally

theorem tally_update {c : Cell} {f : Model Float → Model Float} {t : Tally}
    (hf : ∀ m, (f m).tally = m.tally.add t) :
    (c.update f).tally = (c.tally.plus t).upTo Counter.max := by
  have hfresh : (Model.fresh : Model Float).tally = .zero := rfl
  cases hm : c.model with
  | none => simp only [tally, update, hm, Option.getD, Option.elim, hf, hfresh, Tally.add_eq_plus]
  | some m => simp only [tally, update, hm, Option.getD, Option.elim, hf, Tally.add_eq_plus]

theorem row_load (c : Cell) : c.load.row = c.row := by
  rw [load]
  split <;> rfl

theorem row_next_of_resets {key : ModelKey} {ev : Event} (h : ev.resets key = true)
    (config : AffinityConfig) (stray : Bool) (c : Cell) :
    (c.next config key ev stray).row = none := by
  obtain ⟨op, ok, loaded⟩ := ev
  cases op with
  | reset job => exact congrArg row (if_pos h)
  | _ => cases h

theorem tally_save (key : ModelKey) (now : Instant) (ok stray : Bool) (c : Cell) :
    (c.save key now ok stray).tally = c.tally := by
  cases hm : c.model with
  | none => rw [tally, save, tally, hm]; rfl
  | some m => rw [tally, save, tally, hm]; exact congrArg (·.tally) (m.saved_performance now ok)

end Cell

theorem Model.tally_absorb (r : StatsRow) (m? : Option (Model Float)) :
    (Model.absorb r m?).tally = ((m?.elim .zero Model.tally).plus r.tally).upTo Counter.max := by
  cases m? with
  | none => rw [Option.elim, Tally.zero_plus, StatsRow.tally_upTo _ (by decide)]; rfl
  | some m => rfl

namespace Account

/-- Memory and storage agree with the account of a key. -/
structure Balanced (a : Account) (events : List Event) (c : Cell) : Prop where
  early : c.loaded = false → ∀ ev ∈ events, ev.loaded = false
  /-- Nothing is saved before the stored past has been added. -/
  unread : c.loaded = false → c.row = a.origin events
  total : c.tally =
    ((if c.loaded then a.past events else .zero).plus (a.live events)).upTo Counter.max
  /-- What counts as saved is saved. -/
  clean : ∀ m, c.model = some m → m.dirty = false →
    c.loaded = true ∧ ∃ r, c.row = some r ∧ r.tally = m.tally.upTo Column.max
  /-- Nothing is stored that is not in memory too. -/
  held : c.loaded = true → a.cleared events = false → ∀ r, c.row = some r →
    ∃ m, c.model = some m ∧ r.tally ≤ m.tally

namespace Balanced

variable {a : Account} {events : List Event} {c : Cell}

theorem start (a : Account) : a.Balanced [] ⟨false, none, a.row⟩ where
  early _ _ h := by cases h
  unread _ := rfl
  total := rfl
  clean _ h := by cases h
  held h := by cases h

theorem tally_upTo (h : a.Balanced events c) : c.tally.upTo Counter.max = c.tally := by
  rw [h.total, Tally.upTo_upTo (Nat.le_refl _)]

theorem early_snoc (h : a.Balanced events c) {ev : Event} (hload : ev.loaded = c.loaded)
    (hl : c.loaded = false) : ∀ e ∈ events ++ [ev], e.loaded = false :=
  List.forall_mem_append.2 ⟨h.early hl, List.forall_mem_singleton.2 (hload.trans hl)⟩

theorem record (h : a.Balanced events c) {ev : Event} (hload : ev.loaded = c.loaded)
    (hreset : ev.resets a.key = false) (hclear : ev.op.clears a.key = false)
    {model : Option (Model Float)}
    (htally : model.elim .zero Model.tally =
      (c.tally.plus (ev.outcome a.config a.key)).upTo Counter.max)
    (hclean : ∀ m, model = some m → m.dirty = false → c.model = some m)
    (hheld : ∀ m, c.model = some m → ∃ m', model = some m' ∧ m.tally ≤ m'.tally) :
    a.Balanced (events ++ [ev]) { c with model := model } := by
  have horigin : a.origin (events ++ [ev]) = a.origin events := by
    rw [origin_snoc, hreset]
    rfl
  have hcleared : a.cleared (events ++ [ev]) = a.cleared events := by
    rw [cleared_snoc, hclear, Bool.and_false, Bool.or_false]
  have hpast : a.past (events ++ [ev]) = a.past events := by
    rw [past, past, history, history, hcleared, horigin]
  have hlive : a.live (events ++ [ev]) = (a.live events).plus (ev.outcome a.config a.key) := by
    rw [live_snoc, hreset, hclear]
    rfl
  constructor
  · exact h.early_snoc hload
  · rw [horigin]
    exact h.unread
  · rw [hpast, hlive, ← Tally.plus_assoc, ← Tally.upTo_plus, ← h.total]
    exact htally
  · exact fun m hm hd => h.clean m (hclean m hm hd) hd
  · rw [hcleared]
    intro hl hc r hr
    obtain ⟨m, hm, hle⟩ := h.held hl hc r hr
    obtain ⟨m', hm', hle'⟩ := hheld m hm
    exact ⟨m', hm', Tally.le_trans hle hle'⟩

theorem note (h : a.Balanced events c) {ev : Event} (hload : ev.loaded = c.loaded)
    (hreset : ev.resets a.key = false) (hclear : ev.op.clears a.key = false)
    (hout : ev.outcome a.config a.key = .zero) : a.Balanced (events ++ [ev]) c := by
  refine h.record hload hreset hclear ?_ (fun m hm _ => hm) fun m hm => ⟨m, hm, m.tally.le_refl⟩
  rw [hout, Tally.plus_zero, h.tally_upTo]
  rfl

theorem update (h : a.Balanced events c) {ev : Event} (hload : ev.loaded = c.loaded)
    (hreset : ev.resets a.key = false) (hclear : ev.op.clears a.key = false)
    {f : Model Float → Model Float} (hdirty : ∀ m, (f m).dirty = true)
    (hf : ∀ m, (f m).tally = m.tally.add (ev.outcome a.config a.key)) :
    a.Balanced (events ++ [ev]) (c.update f) := by
  refine h.record hload hreset hclear (Cell.tally_update hf) (fun m hm hd => ?_) fun m hm => ?_
  · cases hm
    rw [hdirty] at hd
    cases hd
  · have hmax : m.tally.upTo Counter.max = m.tally := by
      have h := h.tally_upTo
      rwa [Cell.tally, hm] at h
    refine ⟨_, rfl, ?_⟩
    rw [hf, hm, Tally.add_eq_plus]
    exact Tally.le_plus_upTo hmax _

theorem reset (h : a.Balanced events c) {ev : Event} (hload : ev.loaded = c.loaded)
    (hreset : ev.resets a.key = true) : a.Balanced (events ++ [ev]) ⟨c.loaded, none, none⟩ := by
  have horigin : a.origin (events ++ [ev]) = none := by
    rw [origin_snoc, hreset]
    rfl
  have hpast : a.past (events ++ [ev]) = .zero := by
    rw [past, history, horigin]
    exact ite_self _
  have hlive : a.live (events ++ [ev]) = .zero := by
    rw [live_snoc, hreset]
    rfl
  constructor
  · exact h.early_snoc hload
  · exact fun _ => horigin.symm
  · rw [hpast, hlive, ite_self]
    rfl
  · intro m hm
    cases hm
  · intro _ _ r hr
    cases hr

theorem clear (h : a.Balanced events c) {ev : Event} (hload : ev.loaded = c.loaded)
    (hreset : ev.resets a.key = false) (hclear : ev.op.clears a.key = true) :
    a.Balanced (events ++ [ev]) { c with model := none } := by
  have hcleared (hl : c.loaded = true) : a.cleared (events ++ [ev]) = true := by
    rw [cleared_snoc, hload, hl, hclear, Bool.or_eq_true]
    exact .inr rfl
  have hlive : a.live (events ++ [ev]) = .zero := by
    rw [live_snoc, hclear, Bool.or_true]
    rfl
  constructor
  · exact h.early_snoc hload
  · rw [origin_snoc, hreset]
    exact h.unread
  · rw [hlive, Tally.plus_zero]
    split
    · rename_i hl
      rw [past, hcleared hl]
      rfl
    · rfl
  · intro m hm
    cases hm
  · intro hl hc
    rw [hcleared hl] at hc
    cases hc

theorem load (h : a.Balanced events c) : a.Balanced events c.load := by
  by_cases hl : c.loaded = true
  · rw [Cell.load, if_pos hl]
    exact h
  rw [Cell.load, if_neg hl]
  rw [Bool.not_eq_true] at hl
  -- what was forgotten so far was forgotten before the past is added, so all of it is added
  have hcleared : a.cleared events = false := by
    simp only [cleared, List.any_eq_false]
    intro ev hev
    rw [h.early hl ev hev]
    exact Bool.false_ne_true
  have hpast : a.past events = c.row.elim .zero StatsRow.tally := by
    rw [past, hcleared, history, h.unread hl]
    rfl
  have htotal := h.total
  rw [hl, if_neg (by decide), Tally.zero_plus] at htotal
  have hrow (r : StatsRow) (hr : c.row = some r) :
      (Model.absorb r c.model).tally = (r.tally.plus (a.live events)).upTo Counter.max := by
    rw [Model.tally_absorb, Tally.plus_comm r.tally, ← Tally.upTo_plus _ (a.live events), ← htotal]
    rfl
  constructor
  · intro h
    cases h
  · intro h
    cases h
  · rw [if_pos rfl, hpast]
    cases hr : c.row with
    | none =>
      rw [Option.elim, Option.elim, Tally.zero_plus]
      exact htotal
    | some r => exact hrow r hr
  · intro m hm hd
    refine ⟨rfl, ?_⟩
    cases hr : c.row with
    | none =>
      rw [hr] at hm
      have hloaded := (h.clean m hm hd).1
      rw [hl] at hloaded
      cases hloaded
    | some r =>
      rw [hr] at hm
      refine ⟨r, rfl, ?_⟩
      cases hm' : c.model with
      | none =>
        rw [hm'] at hm
        cases hm
        exact (r.tally_upTo (Nat.le_refl _)).symm
      | some m' =>
        rw [hm'] at hm
        cases hm
        cases hd
  · intro _ _ r hr
    refine ⟨_, by rw [hr]; rfl, ?_⟩
    rw [hrow r hr]
    exact Tally.le_plus_upTo (r.tally_upTo (by decide)) _

theorem save (h : a.Balanced events c) (hl : c.loaded = true) (key : ModelKey) (now : Instant)
    (ok stray : Bool) : a.Balanced events (c.save key now ok stray) := by
  constructor
  · intro h
    exact (Bool.false_ne_true (h.symm.trans hl)).elim
  · intro h
    exact (Bool.false_ne_true (h.symm.trans hl)).elim
  · rw [Cell.tally_save]
    exact h.total
  · intro m' hm' hd'
    refine ⟨hl, ?_⟩
    obtain ⟨m, hm, rfl⟩ := Option.map_eq_some_iff.1 hm'
    cases hd : m.dirty with
    | false =>
      have hclean : ∀ n, c.model = some n → n.dirty = false := by
        intro n hn
        rw [hm] at hn
        cases hn
        exact hd
      rw [Model.saved_of_clean hd, Cell.save, Cell.savedRow_of_clean hclean]
      exact (h.clean m hm hd).2
    | true =>
      have hok : ok = true := by
        rw [Model.saved, hd] at hd'
        cases ok
        · cases hd'
        · rfl
      refine ⟨m.row key.job key.provider now, ?_, ?_⟩
      · rw [Cell.save, Cell.savedRow_of_dirty hm hd, hok]
        rfl
      · rw [Model.tally_row, Model.tally, Model.tally, Model.saved_performance]
  · intro _ hc r hr
    have hmem {m : Model Float} (hm : c.model = some m) :
        (c.save key now ok stray).model = some (m.saved now ok) :=
      congrArg (Option.map (Model.saved now ok)) hm
    rcases c.savedRow_cases key now ok stray with hrow | ⟨m, hm, hrow⟩
    · obtain ⟨m, hm, hle⟩ := h.held hl hc r (hrow ▸ hr)
      refine ⟨_, hmem hm, ?_⟩
      rwa [Model.tally, Model.saved_performance]
    · cases hrow.symm.trans hr
      refine ⟨_, hmem hm, ?_⟩
      rw [Model.tally_row, Model.tally, Model.tally, Model.saved_performance]
      exact Tally.upTo_le _ _

/-- Each operation keeps the account of a key. -/
theorem next (h : a.Balanced events c) {ev : Event} {stray : Bool}
    (hload : (c.next a.config a.key ev stray).loaded = ev.loaded) :
    a.Balanced (events ++ [ev]) (c.next a.config a.key ev stray) := by
  obtain ⟨op, ok, loaded⟩ := ev
  cases op with
  | success key bytes millis =>
    by_cases hk : key = a.key ∧ (a.config.enabled && !a.key.job.isEmpty) = true
    · simp only [Cell.next, if_pos hk] at hload ⊢
      refine h.update hload.symm rfl rfl (fun _ => rfl) fun m => ?_
      simp only [Event.outcome, if_pos hk]
      rfl
    · simp only [Cell.next, if_neg hk] at hload ⊢
      exact h.note hload.symm rfl rfl (if_neg hk)
  | failure key =>
    by_cases hk : key = a.key ∧ (a.config.enabled && !a.key.job.isEmpty) = true
    · simp only [Cell.next, if_pos hk] at hload ⊢
      refine h.update hload.symm rfl rfl (fun _ => rfl) fun m => ?_
      simp only [Event.outcome, if_pos hk]
      rfl
    · simp only [Cell.next, if_neg hk] at hload ⊢
      exact h.note hload.symm rfl rfl (if_neg hk)
  | load =>
    cases loaded with
    | false => exact h.note hload.symm rfl rfl rfl
    | true => exact h.load.note hload.symm rfl rfl rfl
  | flush now =>
    cases loaded with
    | false => exact h.note hload.symm rfl rfl rfl
    | true => exact (h.save hload _ now ok stray).note hload.symm rfl rfl rfl
  | persist now =>
    cases loaded with
    | false => exact h.note hload.symm rfl rfl rfl
    | true => exact (h.load.save hload _ now ok stray).note hload.symm rfl rfl rfl
  | reset job =>
    by_cases hr : (ok && job.all (· == a.key.job)) = true
    · simp only [Cell.next, if_pos hr] at hload ⊢
      exact h.reset hload.symm hr
    · simp only [Cell.next, if_neg hr] at hload ⊢
      exact h.note hload.symm (Bool.not_eq_true _ ▸ hr) rfl rfl
  | clearJob job =>
    by_cases hj : a.key.job = job
    · simp only [Cell.next, if_pos hj] at hload ⊢
      exact h.clear hload.symm rfl (beq_iff_eq.2 hj)
    · simp only [Cell.next, if_neg hj] at hload ⊢
      exact h.note hload.symm rfl (beq_eq_false_iff_ne.2 hj) rfl
  | clearAll => exact h.clear hload.symm rfl rfl
  | refresh now => exact h.note hload.symm rfl rfl rfl

theorem row_next (h : a.Balanced events c) {ev : Event} {stray : Bool}
    (hload : (c.next a.config a.key ev stray).loaded = ev.loaded)
    (hreset : ev.resets a.key = false) :
    ev.saves = false ∧ (c.next a.config a.key ev stray).row = c.row ∨
      ev.saves = true ∧ ∃ d now, a.Balanced events d ∧ d.loaded = true ∧ d.row = c.row ∧
        c.next a.config a.key ev stray = d.save a.key now ev.ok stray := by
  obtain ⟨op, ok, loaded⟩ := ev
  cases op with
  | success key bytes millis =>
    refine .inl ⟨rfl, ?_⟩
    simp only [Cell.next]
    split <;> rfl
  | failure key =>
    refine .inl ⟨rfl, ?_⟩
    simp only [Cell.next]
    split <;> rfl
  | load =>
    refine .inl ⟨rfl, ?_⟩
    simp only [Cell.next]
    split
    · exact c.row_load
    · rfl
  | flush now =>
    cases loaded with
    | false => exact .inl ⟨rfl, rfl⟩
    | true => exact .inr ⟨rfl, c, now, h, hload, rfl, rfl⟩
  | persist now =>
    cases loaded with
    | false => exact .inl ⟨rfl, rfl⟩
    | true => exact .inr ⟨rfl, c.load, now, h.load, hload, c.row_load, rfl⟩
  | reset job => exact .inl ⟨rfl, congrArg Cell.row (if_neg (Bool.not_eq_true _ ▸ hreset))⟩
  | clearJob job =>
    refine .inl ⟨rfl, ?_⟩
    simp only [Cell.next]
    split <;> rfl
  | clearAll => exact .inl ⟨rfl, rfl⟩
  | refresh now => exact .inl ⟨rfl, rfl⟩

end Balanced

end Account

namespace Session

variable {σ : Type} [ModelStore σ]

def start (config : AffinityConfig) (roles : List Role) (store : σ) : Session σ :=
  ⟨.start config roles, store⟩

theorem run_induction {motive : List Event → Session σ → Prop} {s : Session σ}
    {ops : List Operation} (hstart : motive [] s)
    (hstep : ∀ events t, ∀ op ∈ ops, motive events t →
      motive (events ++ [(t.step op).1]) (t.step op).2) :
    motive (s.run ops).1 (s.run ops).2 :=
  List.foldlRecOn (motive := fun r : List Event × Session σ => motive r.1 r.2) ops _ hstart
    fun r hr op hop => hstep r.1 r.2 op hop hr

variable [LawfulModelStore σ]

/-- The account of a key over a run that starts from a session. -/
def account (s : Session σ) (key : ModelKey) : Account :=
  ⟨s.engine.config, key, s.table.rowOf? key⟩

/-- What is held for each key agrees with its account. -/
structure Balanced (s₀ : Session σ) (events : List Event) (s : Session σ) : Prop where
  fits : s.engine.Fits
  config : s.engine.config = s₀.engine.config
  cell : ∀ key, (s₀.account key).Balanced events (s.cell key)

namespace Balanced

variable {s₀ s : Session σ} {events : List Event}

theorem cell_step (h : s₀.Balanced events s) (op : Operation) (key : ModelKey) :
    ∃ stray, (s.step op).2.cell key =
      (s.cell key).next (s₀.account key).config (s₀.account key).key (s.step op).1 stray := by
  obtain ⟨stray, hcell⟩ := step_cell h.fits op key
  rw [h.config] at hcell
  exact ⟨stray, hcell⟩

theorem step (h : s₀.Balanced events s) {op : Operation} (hop : op.Fits) :
    s₀.Balanced (events ++ [(s.step op).1]) (s.step op).2 where
  fits := fits_step h.fits hop
  config := (s.config_step op).trans h.config
  cell key := by
    obtain ⟨stray, hcell⟩ := h.cell_step op key
    have hload := congrArg Cell.loaded hcell
    rw [hcell]
    exact (h.cell key).next hload.symm

end Balanced

theorem start_balanced (config : AffinityConfig) (roles : List Role) (store : σ) :
    (start config roles store).Balanced [] (start config roles store) where
  fits _ _ h := by cases h
  config := rfl
  cell key := .start ((start config roles store).account key)

theorem run_balanced (config : AffinityConfig) (roles : List Role) (store : σ)
    {ops : List Operation} (hops : ∀ op ∈ ops, op.Fits) :
    (start config roles store).Balanced ((start config roles store).run ops).1
      ((start config roles store).run ops).2 :=
  run_induction (start_balanced config roles store) fun _ _ op hop h => h.step (hops op hop)

end Session

end ProviderScout
