import ProviderScout.Proofs.Engine.Ledger
import ProviderScout.Proofs.Store.Fates

namespace ProviderScout

theorem Cell.row_save_cases (key : ModelKey) (now : Instant) (ok stray : Bool) (c : Cell) :
    (c.save key now ok stray).row = c.row ∨
      (c.save key now ok stray).stored = c.tally.upTo Column.max := by
  rcases c.savedRow_cases key now ok stray with hrow | ⟨m, hm, hrow⟩
  · exact .inl hrow
  · refine .inr ?_
    rw [stored, save, hrow, tally, hm]
    exact m.tally_row ..

namespace Account

variable (a : Account) (events : List Event)

def counted : Tally := (a.history events).plus (a.live events)

/-- The row holds what was counted at a point of the run. No later save succeeded and no later reset
deleted the row. It is the first row of the key if that point did not come with a save. -/
def Stored (row : Option StatsRow) : Prop :=
  ∃ before after, events = before ++ after ∧
    (∀ ev ∈ after, ev.resets a.key = false ∧ (ev.saves && ev.ok) = false) ∧
    row.elim .zero StatsRow.tally = (a.counted before).upTo Column.max ∧
    (row = a.origin before ∨ ∃ ev ∈ before.getLast?, ev.saves = true)

variable {a events} {c : Cell} {row : Option StatsRow} {ev : Event}

theorem stored_nil (a : Account) : a.Stored [] a.row := by
  refine ⟨[], [], rfl, fun _ h => (List.not_mem_nil h).elim, ?_, .inl rfl⟩
  have hcounted : a.counted [] = a.row.elim .zero StatsRow.tally := rfl
  rw [hcounted]
  cases a.row with
  | none => rfl
  | some r => exact (r.tally_upTo (Nat.le_refl _)).symm

theorem Stored.stay (h : a.Stored events row) (hreset : ev.resets a.key = false)
    (hsave : (ev.saves && ev.ok) = false) : a.Stored (events ++ [ev]) row := by
  obtain ⟨before, after, rfl, hafter, hrow⟩ := h
  refine ⟨before, after ++ [ev], List.append_assoc .., ?_, hrow⟩
  exact List.forall_mem_append.2 ⟨hafter, List.forall_mem_singleton.2 ⟨hreset, hsave⟩⟩

theorem stored_reset (hreset : ev.resets a.key = true) : a.Stored (events ++ [ev]) none := by
  have horigin : a.origin (events ++ [ev]) = none := by
    rw [origin_snoc, hreset]
    rfl
  refine ⟨events ++ [ev], [], (List.append_nil _).symm, fun _ h => (List.not_mem_nil h).elim, ?_,
    .inl horigin.symm⟩
  rw [counted, history, horigin, live_snoc, hreset]
  rfl

theorem stored_save (hsave : ev.saves = true)
    (hrow : row.elim .zero StatsRow.tally = (a.counted (events ++ [ev])).upTo Column.max) :
    a.Stored (events ++ [ev]) row := by
  refine ⟨events ++ [ev], [], (List.append_nil _).symm, fun _ h => (List.not_mem_nil h).elim, hrow,
    .inr ⟨ev, ?_, hsave⟩⟩
  rw [List.getLast?_concat]
  rfl

theorem Stored.of_saved (h : a.Stored events row) (hev : ev ∈ events.getLast?)
    (hsave : (ev.saves && ev.ok) = true) :
    row.elim .zero StatsRow.tally = (a.counted events).upTo Column.max := by
  obtain ⟨before, after, rfl, hafter, hrow, _⟩ := h
  cases after with
  | nil => rwa [List.append_nil]
  | cons e rest =>
    have hmem : ev ∈ e :: rest := by
      rw [List.getLast?_append, List.getLast?_eq_some_getLast (List.cons_ne_nil e rest)] at hev
      cases hev
      exact List.getLast_mem _
    rw [(hafter ev hmem).2] at hsave
    cases hsave

theorem Balanced.tally_column (h : a.Balanced events c) (hl : c.loaded = true)
    (hc : a.cleared events = false) :
    c.tally.upTo Column.max = (a.counted events).upTo Column.max := by
  rw [h.total, hl, if_pos rfl, past, hc, Tally.upTo_upTo (by decide)]
  rfl

theorem Balanced.stored_of_ok (h : a.Balanced events c) (hl : c.loaded = true)
    (hc : a.cleared events = false) (key : ModelKey) (now : Instant) (stray : Bool) :
    (c.save key now true stray).stored = c.tally.upTo Column.max := by
  cases hm : c.model with
  | none =>
    have hrow : c.row = none := by
      rw [Option.eq_none_iff_forall_ne_some]
      intro r hr
      obtain ⟨m, hm', _⟩ := h.held hl hc r hr
      rw [hm] at hm'
      cases hm'
    rw [Cell.stored, Cell.save, Cell.savedRow, Cell.tally, hm, hrow]
    rfl
  | some m =>
    have hm' : (c.save key now true stray).model = some (m.saved now true) :=
      congrArg (Option.map (Model.saved now true)) hm
    obtain ⟨_, r, hr, hrow⟩ := (h.save hl key now true stray).clean _ hm' (m.dirty_saved now)
    rw [Cell.stored, hr, Cell.tally, hm]
    rwa [Model.tally, Model.saved_performance] at hrow

theorem Stored.next (hstored : a.Stored events c.row) (h : a.Balanced events c) {stray : Bool}
    (hload : (c.next a.config a.key ev stray).loaded = ev.loaded)
    (hc' : a.cleared (events ++ [ev]) = false) :
    a.Stored (events ++ [ev]) (c.next a.config a.key ev stray).row := by
  cases hreset : ev.resets a.key with
  | true =>
    rw [Cell.row_next_of_resets hreset]
    exact stored_reset hreset
  | false =>
    rcases h.row_next hload hreset with ⟨hsave, hrow⟩ | ⟨hsave, d, now, hd, hl, hrow, hnext⟩
    · rw [hrow]
      exact hstored.stay hreset (by rw [hsave, Bool.false_and])
    · have hc : a.cleared events = false := by
        rw [cleared_snoc, Bool.or_eq_false_iff] at hc'
        exact hc'.1
      have h' := h.next hload
      rw [hnext] at h' ⊢
      have htally := h'.tally_column hl hc'
      rw [Cell.tally_save] at htally
      cases hok : ev.ok with
      | true => exact stored_save hsave ((hd.stored_of_ok hl hc a.key now stray).trans htally)
      | false =>
        -- it may have stored the row of this key all the same
        rcases d.row_save_cases a.key now false stray with hkept | hsaved
        · rw [hkept, hrow]
          exact hstored.stay hreset (by rw [hok, Bool.and_false])
        · exact stored_save hsave (hsaved.trans htally)

end Account

namespace Session

variable {σ : Type} [ModelStore σ] [LawfulModelStore σ]

/-- If a key is never forgotten in memory alone, its counters in memory are those of its history,
once that has been added, and of all that was counted since. Its row holds what was counted at a
point of the run after which no save succeeded, and all of it right after a save that did. -/
theorem run_counts (config : AffinityConfig) (roles : List Role) (store : σ) {ops : List Operation}
    {key : ModelKey} (hfits : ∀ op ∈ ops, op.Fits) (hclear : ∀ op ∈ ops, op.clears key = false) :
    let first := start config roles store
    let account := first.account key
    let (events, last) := first.run ops
    last.engine.tally key =
        ((if last.engine.loaded then account.history events else .zero).plus
          (account.live events)).upTo Counter.max ∧
      account.Stored events (last.table.rowOf? key) ∧
      ∀ ev ∈ events.getLast?, (ev.saves && ev.ok) = true →
        (last.table.rowOf? key).elim .zero StatsRow.tally =
          (account.counted events).upTo Column.max := by
  intro first account
  have hcleared (events : List Event) (hops : ∀ ev ∈ events, ev.op ∈ ops) :
      account.cleared events = false := by
    simp only [Account.cleared, List.any_eq_false, Bool.and_eq_true, not_and, Bool.not_eq_true]
    exact fun ev hev _ => hclear ev.op (hops ev hev)
  obtain ⟨hbalanced, hops, hstored⟩ : first.Balanced (first.run ops).1 (first.run ops).2 ∧
      (∀ ev ∈ (first.run ops).1, ev.op ∈ ops) ∧
      account.Stored (first.run ops).1 ((first.run ops).2.cell key).row := by
    refine run_induction (motive := fun events s => first.Balanced events s ∧
      (∀ ev ∈ events, ev.op ∈ ops) ∧ account.Stored events (s.cell key).row) ?_ ?_
    · exact ⟨start_balanced config roles store, by simp, account.stored_nil⟩
    · rintro events s op hop ⟨hbalanced, hops, hstored⟩
      have hops' : ∀ ev ∈ events ++ [(s.step op).1], ev.op ∈ ops :=
        List.forall_mem_append.2 ⟨hops, List.forall_mem_singleton.2 hop⟩
      refine ⟨hbalanced.step (hfits op hop), hops', ?_⟩
      obtain ⟨stray, hcell⟩ := hbalanced.cell_step op key
      have hload := congrArg Cell.loaded hcell
      rw [hcell]
      exact hstored.next (hbalanced.cell key) hload.symm (hcleared _ hops')
  have htotal := (hbalanced.cell key).total
  rw [Account.past, hcleared _ hops] at htotal
  exact ⟨htotal, hstored, fun ev => hstored.of_saved⟩

/-- A save fails before the past is added, and one that fails stores its row all the same. -/
theorem run_counts_of_failed_save :
    let key : ModelKey := ⟨"a", 0⟩
    let row : StatsRow := ⟨"a", 0, 20, -5, 1000, 100, 0, 0⟩
    let store : FatefulStore := ⟨(∅ : StatsTable).upsert row, [.success, .failure [true]]⟩
    let ops : List Operation := [.success key 100 10, .flush ⟨5, 0⟩, .persist ⟨6, 0⟩, .failure key]
    ((∀ op ∈ ops, op.Fits) ∧ ∀ op ∈ ops, op.clears key = false) ∧
      ((start .standard [] store).run ops).2.engine.tally key = ⟨21, 1, 1100, 110⟩ := by
  intro key row store ops
  have hfits : ∀ op ∈ ops, op.Fits := by decide
  have hclear : ∀ op ∈ ops, op.clears key = false := by decide
  have h := run_counts .standard [] store hfits hclear
  exact ⟨⟨hfits, hclear⟩, h.1.trans (by decide +kernel)⟩

end Session

end ProviderScout
