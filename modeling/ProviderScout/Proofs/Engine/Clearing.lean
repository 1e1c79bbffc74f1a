import ProviderScout.Proofs.Engine.Ledger
import ProviderScout.Proofs.Store.Fates

namespace ProviderScout

theorem Event.resets_of_ne {ev : Event} (h : ∀ job, ev.op ≠ .reset job) (key : ModelKey) :
    ev.resets key = false := by
  obtain ⟨op, ok, loaded⟩ := ev
  cases op with
  | reset job => exact (h job rfl).elim
  | _ => rfl

/-- A row is still there and none of its totals has become smaller. -/
def NotLess (before after : Option StatsRow) : Prop :=
  ∀ r ∈ before, ∃ r' ∈ after, r.successes ≤ r'.successes ∧ r.failures ≤ r'.failures ∧
    r.bytes ≤ r'.bytes ∧ r.millis ≤ r'.millis

theorem NotLess.refl (row : Option StatsRow) : NotLess row row :=
  fun r hr => ⟨r, hr, Int64.le_refl _, Int64.le_refl _, Int64.le_refl _, Int64.le_refl _⟩

theorem notLess_row_iff {row : Option StatsRow} {job : String} {provider : Nat} {now : Instant}
    {m : Model Float} :
    NotLess row (some (m.row job provider now)) ↔
      ∀ r ∈ row, r.tally ≤ m.tally.upTo Column.max := by
  constructor
  · intro h r hr
    obtain ⟨r', hr', hs, hf, hb, ht⟩ := h r hr
    cases hr'
    exact ⟨(Column.le_ofCounter_iff _ _).1 hs, (Column.le_ofCounter_iff _ _).1 hf,
      (Column.le_ofCounter_iff _ _).1 hb, (Column.le_ofCounter_iff _ _).1 ht⟩
  · intro h r hr
    obtain ⟨hs, hf, hb, ht⟩ := h r hr
    exact ⟨_, rfl, (Column.le_ofCounter_iff _ _).2 hs, (Column.le_ofCounter_iff _ _).2 hf,
      (Column.le_ofCounter_iff _ _).2 hb, (Column.le_ofCounter_iff _ _).2 ht⟩

namespace Account.Balanced

variable {a : Account} {events : List Event} {c : Cell}

/-- A save replaces a row by a smaller one exactly if its key was forgotten and has not been counted
as far as the row again. -/
theorem notLess_save_iff (h : a.Balanced events c) (hl : c.loaded = true) (key : ModelKey)
    (now : Instant) (ok stray : Bool) :
    NotLess c.row (c.save key now ok stray).row ↔
      (c.save key now ok stray).row = c.row ∨ a.cleared events = false ∨
        ∀ r ∈ c.row, r.tally ≤ (a.live events).upTo Column.max := by
  rcases c.savedRow_cases key now ok stray with hrow | ⟨m, hm, hrow⟩
  · rw [Cell.save, hrow]
    exact iff_of_true (.refl _) (.inl rfl)
  · rw [Cell.save, hrow]
    cases hc : a.cleared events with
    | false =>
      refine iff_of_true (notLess_row_iff.2 fun r hr => ?_) (.inr (.inl rfl))
      obtain ⟨m', hm', hle⟩ := h.held hl hc r hr
      cases hm.symm.trans hm'
      rw [← r.tally_upTo (Nat.le_refl _)]
      exact Tally.upTo_le_upTo _ hle
    | true =>
      -- memory holds what was counted since, and nothing of what is stored
      have htotal := h.total
      rw [hl, if_pos rfl, Account.past, hc, if_pos rfl, Tally.zero_plus, Cell.tally, hm] at htotal
      have hcut : ((a.live events).upTo Counter.max).upTo Column.max =
          (a.live events).upTo Column.max := Tally.upTo_upTo (by decide) _
      have htally : m.tally.upTo Column.max = (a.live events).upTo Column.max := by
        rw [← hcut, ← htotal]
        rfl
      rw [← htally]
      constructor
      · exact fun h => .inr (.inr (notLess_row_iff.1 h))
      · rintro (heq | hfalse | hle)
        · rw [heq]
          exact .refl _
        · cases hfalse
        · exact notLess_row_iff.2 hle

theorem notLess_next_iff (h : a.Balanced events c) {ev : Event} {stray : Bool}
    (hload : (c.next a.config a.key ev stray).loaded = ev.loaded)
    (hreset : ev.resets a.key = false) :
    NotLess c.row (c.next a.config a.key ev stray).row ↔
      (c.next a.config a.key ev stray).row = c.row ∨ a.cleared events = false ∨
        ∀ r ∈ c.row, r.tally ≤ (a.live events).upTo Column.max := by
  rcases h.row_next hload hreset with ⟨_, hrow⟩ | ⟨_, d, now, hd, hl, hrow, hnext⟩
  · rw [hrow]
    exact iff_of_true (.refl _) (.inl rfl)
  · rw [hnext, ← hrow]
    exact hd.notLess_save_iff hl a.key now ev.ok stray

end Account.Balanced

namespace Session

variable {σ : Type} [ModelStore σ] [LawfulModelStore σ]

/-- An operation other than a reset makes a row smaller exactly if it replaces the row, the key was
forgotten in memory alone when the stored past had been added, and what was counted since does not
reach what is stored. -/
theorem step_not_less_iff (config : AffinityConfig) (roles : List Role) (store : σ)
    {ops : List Operation} (hops : ∀ op ∈ ops, op.Fits) {op : Operation}
    (hreset : ∀ job, op ≠ .reset job) (key : ModelKey) :
    let first := start config roles store
    let account := first.account key
    let (events, s) := first.run ops
    let row := s.table.rowOf? key
    let row' := (s.step op).2.table.rowOf? key
    NotLess row row' ↔
      row' = row ∨ account.cleared events = false ∨
        ∀ r ∈ row, r.tally ≤ (account.live events).upTo Column.max := by
  intro first account
  have h := run_balanced config roles store hops
  obtain ⟨stray, hcell⟩ := h.cell_step op key
  have hload := (congrArg Cell.loaded hcell).symm
  have hkept : ((first.run ops).2.step op).1.resets key = false := Event.resets_of_ne hreset key
  have hiff := (h.cell key).notLess_next_iff hload hkept
  rw [← hcell] at hiff
  exact hiff

/-- A key that is forgotten before the stored past is added keeps it. -/
theorem step_not_less_of_flush :
    let key : ModelKey := ⟨"a", 0⟩
    let row : StatsRow := ⟨"a", 0, 20, 5, 1000, 100, 10, 1600000000⟩
    let store : FatefulStore := ⟨(∅ : StatsTable).upsert row, []⟩
    let ops : List Operation := [.clearJob "a", .load, .failure key]
    let s := ((start .standard [] store).run ops).2
    ((∀ op ∈ ops, op.Fits) ∧ ∀ job, Operation.flush ⟨5, 0⟩ ≠ .reset job) ∧
      NotLess (s.table.rowOf? key) ((s.step (.flush ⟨5, 0⟩)).2.table.rowOf? key) := by
  intro key row store ops s
  have hops : ∀ op ∈ ops, op.Fits := by decide
  have hreset (job : Option String) : Operation.flush ⟨5, 0⟩ ≠ .reset job := fun h => by cases h
  have h := step_not_less_iff .standard [] store hops hreset key
  exact ⟨⟨hops, hreset⟩, h.2 (.inr (.inl (by decide +kernel)))⟩

/-- One segment that was missed takes the place of all that was stored. -/
theorem flush_after_clear_less :
    let key : ModelKey := ⟨"a", 0⟩
    let row : StatsRow := ⟨"a", 0, 20, 5, 1000, 100, 10, 1600000000⟩
    let store : FatefulStore := ⟨(∅ : StatsTable).upsert row, []⟩
    let s := ((start .standard [] store).run [.load, .clearJob "a", .failure key]).2
    let s' := (s.step (.flush ⟨1600000060, 0⟩)).2
    s.table.rowOf? key = some row ∧
      (s'.table.rowOf? key).map (fun r => (r.successes, r.failures, r.bytes, r.millis)) =
        some (0, 1, 0, 0) ∧
      ¬ NotLess (s.table.rowOf? key) (s'.table.rowOf? key) := by
  intro key row store s s'
  have hbefore : s.table.rowOf? key = some row := by decide +kernel
  have hafter : (s'.table.rowOf? key).map (fun r => (r.successes, r.failures, r.bytes, r.millis)) =
      some (0, 1, 0, 0) := by decide +kernel
  refine ⟨hbefore, hafter, fun h => ?_⟩
  obtain ⟨r, hr, htotals⟩ := Option.map_eq_some_iff.1 hafter
  obtain ⟨r', hr', hle, _⟩ := h row hbefore
  cases hr.symm.trans hr'
  have hzero : r.successes = 0 := congrArg Prod.fst htotals
  rw [hzero] at hle
  exact absurd hle (by decide)

end Session

end ProviderScout
