import Mathlib.Data.List.Induction
import ProviderScout.Proofs.Engine.Conservation
import ProviderScout.Proofs.Engine.InFlight
import ProviderScout.Proofs.Engine.Unsaved
import ProviderScout.Proofs.Store.Transactions

namespace ProviderScout

namespace Operation

def keeps : Operation → Bool
  | .reset _ | .clearJob _ | .clearAll => false
  | _ => true

def outcome (config : AffinityConfig) (key : ModelKey) (op : Operation) : Tally :=
  Event.outcome config key ⟨op, true, true⟩

/-- What operations count for a key altogether. -/
def recorded (config : AffinityConfig) (key : ModelKey) (ops : List Operation) : Tally :=
  ops.foldl (fun t op => t.plus (op.outcome config key)) .zero

theorem recorded_snoc (config : AffinityConfig) (key : ModelKey) (ops : List Operation)
    (op : Operation) :
    recorded config key (ops ++ [op]) = (recorded config key ops).plus (op.outcome config key) := by
  rw [recorded, List.foldl_append]
  rfl

theorem clears_of_keeps {op : Operation} (h : op.keeps = true) (key : ModelKey) :
    op.clears key = false := by
  cases op with
  | clearJob job => cases h
  | clearAll => cases h
  | _ => rfl

end Operation

theorem Event.resets_of_keeps {ev : Event} (h : ev.op.keeps = true) (key : ModelKey) :
    ev.resets key = false := by
  obtain ⟨op, ok, loaded⟩ := ev
  cases op with
  | reset job => cases h
  | _ => rfl

namespace Account

variable {a : Account} {events : List Event}

theorem live_of_keeps (h : ∀ ev ∈ events, ev.op.keeps = true) :
    a.live events = Operation.recorded a.config a.key (events.map Event.op) := by
  rw [live, Operation.recorded, List.foldl_map]
  apply List.foldl_ext
  intro t ev hev
  rw [Event.resets_of_keeps (h ev hev), Operation.clears_of_keeps (h ev hev)]
  rfl

theorem history_of_keeps (h : ∀ ev ∈ events, ev.op.keeps = true) :
    a.history events = a.row.elim .zero StatsRow.tally := by
  rw [history, origin, if_neg]
  rw [Bool.not_eq_true, List.any_eq_false]
  intro ev hev
  rw [Event.resets_of_keeps (h ev hev)]
  exact Bool.false_ne_true

theorem cleared_of_keeps (h : ∀ ev ∈ events, ev.op.keeps = true) : a.cleared events = false := by
  rw [cleared, List.any_eq_false]
  intro ev hev
  rw [Operation.clears_of_keeps (h ev hev), Bool.and_false]
  exact Bool.false_ne_true

end Account

/-- Whether a save would store the row of a key. -/
def Engine.writes (now : Instant) (key : ModelKey) (e : Engine) : Bool :=
  e.loaded && ((e.collect now).1.map (·.1)).contains key

theorem Engine.writes_iff {now : Instant} {key : ModelKey} {e : Engine} :
    e.writes now key = true ↔
      e.loaded = true ∧ ∃ m, e.model? key = some m ∧ m.dirty = true := by
  simp only [writes, Bool.and_eq_true, List.contains_iff_mem, List.mem_map, Prod.exists,
    exists_and_right, exists_eq_right, mem_collect_iff]
  constructor
  · rintro ⟨hl, _, m, hm, hd, _⟩
    exact ⟨hl, m, hm, hd⟩
  · rintro ⟨hl, m, hm, hd⟩
    exact ⟨hl, _, m, hm, hd, rfl⟩

namespace Session

variable {σ : Type} [ModelStore σ]

/-- Whether an operation saves and the row of a key is among those that are stored. -/
def writes (key : ModelKey) (op : Operation) (s : Session σ) : Bool :=
  (s.step op).1.ok && match op with
    | .flush now => s.engine.writes now key
    | .persist now => (s.engine.load s.store).2.1.writes now key
    | _ => false

/-- The operations up to the last one that stored the row of a key; none if no operation did. -/
def savedPart (key : ModelKey) : Session σ → List Operation → List Operation
  | _, [] => []
  | s, op :: rest =>
    let later := savedPart key (s.step op).2 rest
    if s.writes key op || !later.isEmpty then op :: later else []

/-- Whether a run ends with the past added and everything saved. -/
def EndsSaved (first : Session σ) (ops : List Operation) : Prop :=
  ∃ front ending now, ops = front ++ ending ∧
    (ending = [.load, .flush now] ∨ ending = [.persist now]) ∧
    ∀ ev ∈ ((first.run front).2.run ending).1, ev.ok = true

theorem run_snoc (s : Session σ) (ops : List Operation) (op : Operation) :
    s.run (ops ++ [op]) =
      ((s.run ops).1 ++ [((s.run ops).2.step op).1], ((s.run ops).2.step op).2) := by
  rw [run, List.foldl_append]
  rfl

theorem run_cons_snd (s : Session σ) (op : Operation) (ops : List Operation) :
    (s.run (op :: ops)).2 = ((s.step op).2.run ops).2 := by
  induction ops using List.reverseRecOn with
  | nil => rfl
  | append_singleton ops last ih =>
    rw [← List.cons_append, run_snoc, run_snoc, ih]

theorem run_append_snd (s : Session σ) (front ending : List Operation) :
    (s.run (front ++ ending)).2 = ((s.run front).2.run ending).2 := by
  induction ending using List.reverseRecOn with
  | nil => rw [List.append_nil]; rfl
  | append_singleton ops last ih => rw [← List.append_assoc, run_snoc, run_snoc, ih]

theorem ops_run (s : Session σ) (ops : List Operation) : (s.run ops).1.map Event.op = ops := by
  induction ops using List.reverseRecOn with
  | nil => rfl
  | append_singleton ops op ih =>
    rw [run_snoc, List.map_append, ih]
    rfl

theorem keeps_run {ops : List Operation} (h : ∀ op ∈ ops, op.keeps = true) (s : Session σ) :
    ∀ ev ∈ (s.run ops).1, ev.op.keeps = true := by
  intro ev hev
  apply h
  rw [← s.ops_run ops]
  exact List.mem_map_of_mem hev

theorem savedPart_snoc (key : ModelKey) (s : Session σ) (ops : List Operation) (op : Operation) :
    s.savedPart key (ops ++ [op]) =
      if (s.run ops).2.writes key op then ops ++ [op] else s.savedPart key ops := by
  induction ops generalizing s with
  | nil =>
    simp only [List.nil_append, savedPart, List.isEmpty_nil, Bool.not_true, Bool.or_false]
    rfl
  | cons o rest ih =>
    rw [List.cons_append, savedPart, ih, run_cons_snd, savedPart]
    split <;> simp

theorem savedPart_isPrefix (key : ModelKey) (s : Session σ) (ops : List Operation) :
    s.savedPart key ops <+: ops := by
  induction ops generalizing s with
  | nil => exact List.nil_prefix
  | cons op rest ih =>
    rw [savedPart]
    split
    · exact List.cons_prefix_cons.2 ⟨rfl, ih _⟩
    · exact List.nil_prefix

variable [LawfulModelStore σ]

theorem step_of_writes {s : Session σ} {key : ModelKey} {op : Operation}
    (h : s.writes key op = true) : ((s.step op).1.saves && (s.step op).1.ok) = true := by
  obtain ⟨hok, hw⟩ := Bool.and_eq_true_iff.1 h
  rw [hok, Bool.and_true]
  cases op with
  | flush now =>
    exact (s.engine.loaded_flush now s.store).trans (Engine.writes_iff.1 hw).1
  | persist now =>
    have hl := (Engine.writes_iff.1 hw).1
    have hload : (s.engine.load s.store).1.isOk = true :=
      (s.engine.loaded_load s.store).symm.trans hl
    change (s.engine.persist now s.store).2.1.loaded = true
    rw [Engine.persist_eq, if_pos hload, Engine.loaded_flush, hl]
  | _ => cases hw

end Session

section Atomic

variable {σ : Type} [ModelStore σ] [AtomicModelStore σ]

open LawfulModelStore

theorem Engine.table_flush_of_error {e : Engine} {now : Instant} {s : σ}
    (h : (e.flush now s).1.isOk = false) : table (e.flush now s).2.2 = table s := by
  rw [flush] at h ⊢
  split
  · rfl
  · rename_i hl
    rw [if_neg hl] at h
    simp only at h ⊢
    split
    · rfl
    · rename_i he
      rw [if_neg he] at h
      cases hs : ModelStore.upsertRows ((e.collect now).1.map (·.2)) s with
      | mk answer s' =>
        cases answer with
        | ok _ =>
          rw [hs] at h
          cases h
        | error err =>
          have ht := AtomicModelStore.table_of_refused (congrArg Prod.fst hs)
          rw [hs] at ht
          exact ht

namespace Session

variable {s : Session σ} {key : ModelKey} {op : Operation}

theorem flush_of_not_writes (hs : s.engine.Fits) {now : Instant}
    (hw : ((s.engine.flush now s.store).1.isOk && s.engine.writes now key) = false) :
    ((ofCall (s.engine.flush now s.store)).2.cell key).row = (s.cell key).row ∧
      (((ofCall (s.engine.flush now s.store)).2.cell key).Clean → (s.cell key).Clean) := by
  obtain ⟨stray, hcell⟩ := cell_flush hs now key
  rw [Engine.loaded_flush] at hcell
  cases hl : s.engine.loaded with
  | false =>
    rw [hcell, hl]
    exact ⟨rfl, id⟩
  | true =>
    rw [hl, if_pos rfl] at hcell
    have hunwritten : ¬ ((s.engine.flush now s.store).1.isOk = true ∧
        ∃ m, (s.cell key).model = some m ∧ m.dirty = true) := by
      rintro ⟨hok, hm⟩
      rw [hok, Engine.writes_iff.2 ⟨hl, hm⟩] at hw
      cases hw
    refine ⟨?_, ?_⟩
    · cases hok : (s.engine.flush now s.store).1.isOk with
      | false => exact congrArg (fun t => t.rowOf? key) (Engine.table_flush_of_error hok)
      | true =>
        rw [hcell]
        apply Cell.savedRow_of_clean
        intro m hm
        exact Bool.eq_false_iff.2 fun hd => hunwritten ⟨hok, m, hm, hd⟩
    · rw [hcell]
      exact Cell.Clean.of_save hunwritten

theorem load_unsaved (s : Session σ) (key : ModelKey) :
    ((ofCall (s.engine.load s.store)).2.cell key).row = (s.cell key).row ∧
      (((ofCall (s.engine.load s.store)).2.cell key).Clean → (s.cell key).Clean) := by
  rw [cell_load]
  split
  · exact ⟨(s.cell key).row_load, Cell.Clean.of_load⟩
  · exact ⟨rfl, id⟩

/-- An operation that does not store the row of a key leaves the row, and what it counts for the key
has yet to be saved. -/
theorem step_of_not_writes (hs : s.engine.Fits) (hop : op.keeps = true)
    (hw : s.writes key op = false) :
    ((s.step op).2.cell key).row = (s.cell key).row ∧
      (((s.step op).2.cell key).Clean →
        (s.cell key).Clean ∧ op.outcome s.engine.config key = .zero) := by
  cases op with
  | success k bytes millis =>
    refine ⟨rfl, fun hclean => ?_⟩
    exact Cell.Clean.of_record (fun _ => rfl) (s.cell_record k key _ ▸ hclean) _
  | failure k =>
    refine ⟨rfl, fun hclean => ?_⟩
    exact Cell.Clean.of_record (fun _ => rfl) (s.cell_record k key _ ▸ hclean) _
  | load =>
    obtain ⟨hrow, hclean⟩ := s.load_unsaved key
    exact ⟨hrow, fun h => ⟨hclean h, rfl⟩⟩
  | flush now =>
    obtain ⟨hrow, hclean⟩ := flush_of_not_writes hs hw
    exact ⟨hrow, fun h => ⟨hclean h, rfl⟩⟩
  | persist now =>
    obtain ⟨hrow, hclean⟩ := s.load_unsaved key
    cases hl : (s.engine.load s.store).1.isOk with
    | false =>
      simp only [step, apply, Engine.persist_eq, hl, Bool.false_eq_true, ↓reduceIte]
      exact ⟨hrow, fun h => ⟨hclean h, rfl⟩⟩
    | true =>
      simp only [writes, step, apply, Engine.persist_eq, hl, ↓reduceIte] at hw ⊢
      obtain ⟨hrow', hclean'⟩ := flush_of_not_writes (s := (ofCall (s.engine.load s.store)).2)
        (hs.load s.store) hw
      exact ⟨hrow'.trans hrow, fun h => ⟨hclean (hclean' h), rfl⟩⟩
  | refresh now =>
    obtain ⟨_, hcell⟩ := step_cell hs (.refresh now) key
    rw [hcell]
    exact ⟨rfl, fun h => ⟨h, rfl⟩⟩
  | _ => cases hop

theorem clean_of_ending (hs : s.engine.Fits) {ending : List Operation} {now : Instant}
    (hending : ending = [.load, .flush now] ∨ ending = [.persist now])
    (hok : ∀ ev ∈ (s.run ending).1, ev.ok = true) : ((s.run ending).2.cell key).Clean := by
  have hloaded := s.engine.loaded_load s.store
  rcases hending with rfl | rfl
  · have hload := hok _ List.mem_cons_self
    have hflush := hok _ (List.mem_cons_of_mem _ List.mem_cons_self)
    exact clean_of_flush (s := (ofCall (s.engine.load s.store)).2) (hs.load s.store)
      (hloaded.trans hload) hflush
  · have hpersist : (s.engine.persist now s.store).1.isOk = true := hok _ List.mem_cons_self
    change ((ofCall (s.engine.persist now s.store)).2.cell key).Clean
    rw [Engine.persist_eq] at hpersist ⊢
    split
    · rename_i hload
      rw [if_pos hload] at hpersist
      exact clean_of_flush (s := (ofCall (s.engine.load s.store)).2) (hs.load s.store)
        (hloaded.trans hload) hpersist
    · rename_i hload
      rw [if_neg hload] at hpersist
      exact (hload hpersist).elim

/-- What the storage holds for a key after some operations of an engine: what it held at first and
what was recorded up to the last save of the key. -/
structure Preserved (first : Session σ) (key : ModelKey) (ops : List Operation) : Prop where
  balanced : first.Balanced (first.run ops).1 (first.run ops).2
  held : (first.account key).Stored (first.run ops).1 ((first.run ops).2.cell key).row
  stored : ((first.run ops).2.cell key).stored =
    ((first.cell key).stored.plus (Operation.recorded first.engine.config key
      (first.savedPart key ops))).upTo Column.max
  nonneg : ∀ r, ((first.run ops).2.cell key).row = some r → r.IsNonneg
  saved : ((first.run ops).2.cell key).Clean →
    Operation.recorded first.engine.config key (first.savedPart key ops) =
      Operation.recorded first.engine.config key ops

theorem Preserved.nil (config : AffinityConfig) (roles : List Role) (store : σ) {key : ModelKey}
    (hrow : ∀ r, (LawfulModelStore.table store).rowOf? key = some r → r.IsNonneg) :
    (start config roles store).Preserved key [] where
  balanced := start_balanced config roles store
  held := ((start config roles store).account key).stored_nil
  stored := by
    generalize start config roles store = first
    change (first.cell key).stored = ((first.cell key).stored.plus .zero).upTo Column.max
    rw [Tally.plus_zero, Cell.stored]
    cases (first.cell key).row with
    | none => rfl
    | some r => exact (r.tally_upTo (Nat.le_refl _)).symm
  nonneg := hrow
  saved _ := rfl

theorem Preserved.snoc {first : Session σ} {ops : List Operation}
    (h : first.Preserved key ops) (hops : ∀ op ∈ ops, op.keeps = true)
    (hfits : op.Fits) (hop : op.keeps = true) : first.Preserved key (ops ++ [op]) := by
  have hops' : ∀ o ∈ ops ++ [op], o.keeps = true :=
    List.forall_mem_append.2 ⟨hops, List.forall_mem_singleton.2 hop⟩
  have hkeeps := keeps_run hops' first
  have hdone := first.ops_run (ops ++ [op])
  have hpart := first.savedPart_snoc key ops op
  obtain ⟨stray, hcell⟩ := h.balanced.cell_step op key
  have hload := congrArg Cell.loaded hcell
  have hlast : ∀ r, (((first.run ops).2.step op).2.cell key).row = some r → r.IsNonneg := by
    rw [hcell]
    exact (h.balanced.cell key).nonneg_next hload.symm h.nonneg
  have hheld : (first.account key).Stored ((first.run ops).1 ++ [((first.run ops).2.step op).1])
      (((first.run ops).2.step op).2.cell key).row := by
    rw [run_snoc] at hkeeps
    rw [hcell]
    exact h.held.next (h.balanced.cell key) hload.symm (Account.cleared_of_keeps hkeeps)
  cases hw : (first.run ops).2.writes key op with
  | true =>
    -- the row is what has been counted so far
    rw [hw, if_pos rfl] at hpart
    refine ⟨?_, ?_, ?_, ?_, fun _ => by rw [hpart]⟩
    · rw [run_snoc]
      exact h.balanced.step hfits
    · rw [run_snoc]
      exact hheld
    · have hcounted : (first.account key).counted (first.run (ops ++ [op])).1 =
          (first.cell key).stored.plus
            (Operation.recorded first.engine.config key (ops ++ [op])) := by
        rw [Account.counted, Account.history_of_keeps hkeeps, Account.live_of_keeps hkeeps, hdone]
        rfl
      rw [hpart, ← hcounted, run_snoc]
      exact hheld.of_saved (by simp) (step_of_writes hw)
    · rw [run_snoc]
      exact hlast
  | false =>
    -- the row stays, and what the operation counts has yet to be saved
    rw [hw, if_neg Bool.false_ne_true] at hpart
    obtain ⟨hrow, hclean⟩ := step_of_not_writes h.balanced.fits hop hw
    refine ⟨?_, ?_, ?_, ?_, ?_⟩
    · rw [run_snoc]
      exact h.balanced.step hfits
    · rw [run_snoc]
      exact hheld
    · rw [hpart, run_snoc, Cell.stored, hrow]
      exact h.stored
    · rw [run_snoc]
      exact hlast
    · rw [hpart, run_snoc, Operation.recorded_snoc]
      intro hc
      obtain ⟨hc, hzero⟩ := hclean hc
      rw [h.balanced.config] at hzero
      rw [hzero, Tally.plus_zero]
      exact h.saved hc

theorem run_preserved (config : AffinityConfig) (roles : List Role) (store : σ)
    {ops : List Operation} (hops : ∀ op ∈ ops, op.Fits ∧ op.keeps = true)
    (hrow : ∀ r, (LawfulModelStore.table store).rowOf? key = some r → r.IsNonneg) :
    (start config roles store).Preserved key ops := by
  induction ops using List.reverseRecOn with
  | nil => exact .nil config roles store hrow
  | append_singleton ops op ih =>
    obtain ⟨hinit, hlast⟩ := List.forall_mem_append.1 hops
    obtain ⟨hfits, hop⟩ := List.forall_mem_singleton.1 hlast
    exact (ih hinit).snoc (fun op h => (hinit op h).2) hfits hop

theorem recorded_of_endsSaved {config : AffinityConfig} {roles : List Role} {store : σ}
    {ops : List Operation} (h : (start config roles store).Preserved key ops)
    (hops : ∀ op ∈ ops, op.Fits) (hend : (start config roles store).EndsSaved ops) :
    Operation.recorded config key ((start config roles store).savedPart key ops) =
      Operation.recorded config key ops := by
  obtain ⟨front, ending, now, rfl, hending, hok⟩ := hend
  apply h.saved
  rw [run_append_snd]
  have hfront := run_balanced config roles store (List.forall_mem_append.1 hops).1
  exact clean_of_ending hfront.fits hending hok

end Session

end Atomic

/-- Whether what is stored for a key are these totals. Nothing is stored for a key without any. -/
def Tally.ShownBy (t : Tally) : Option StatsRow → Prop
  | none => t = .zero
  | some r => r.Stores t

namespace Tally

instance (t : Tally) : DecidablePred t.ShownBy
  | none => inferInstanceAs (Decidable (t = .zero))
  | some _ => inferInstanceAs (Decidable (_ ∧ _ ∧ _ ∧ _))

variable {t t' : Tally} {row : Option StatsRow}

theorem ShownBy.eq (h : t.ShownBy row) (h' : t'.ShownBy row) : t = t' := by
  cases row with
  | none => exact Eq.trans h h'.symm
  | some r =>
    obtain ⟨hs, hf, hb, hm⟩ := h
    obtain ⟨hs', hf', hb', hm'⟩ := h'
    ext <;> omega

theorem shownBy_row (h : ∀ r, row = some r → r.IsNonneg) :
    (row.elim .zero StatsRow.tally).ShownBy row := by
  cases row with
  | none => rfl
  | some r =>
    have hstores := (h r rfl).stores
    rwa [r.tally_upTo (Nat.le_refl _)] at hstores

theorem shownBy_of_stored (h : ∀ r, row = some r → r.IsNonneg)
    (hrow : row.elim .zero StatsRow.tally = t.upTo Column.max) (ht : t.Fits) : t.ShownBy row := by
  rw [upTo_eq_self ht] at hrow
  exact hrow ▸ shownBy_row h

end Tally

/-- An engine and what is done with it until its process ends. -/
structure Lifetime where
  config : AffinityConfig
  roles : List Role
  ops : List Operation

namespace Lifetime

variable {σ : Type} [ModelStore σ]

def first (life : Lifetime) (store : σ) : Session σ := .start life.config life.roles store

def last (life : Lifetime) (store : σ) : Session σ := ((life.first store).run life.ops).2

def storeAfter (lives : List Lifetime) (store : σ) : σ :=
  lives.foldl (fun store life => (life.last store).store) store

variable [AtomicModelStore σ]

open LawfulModelStore

theorem nonneg_storeAfter {store : σ} {key : ModelKey} {lives : List Lifetime}
    (hops : ∀ life ∈ lives, ∀ op ∈ life.ops, op.Fits ∧ op.keeps = true)
    (hrow : ∀ r, (table store).rowOf? key = some r → r.IsNonneg) :
    ∀ r, (table (storeAfter lives store)).rowOf? key = some r → r.IsNonneg := by
  refine List.foldlRecOn
    (motive := fun s => ∀ r, (table s).rowOf? key = some r → r.IsNonneg) lives _ hrow ?_
  intro s hs life hlife
  exact (Session.run_preserved life.config life.roles s (hops life hlife) hs).nonneg

/-- Engines that forget nothing follow one another on a storage. After each of them the storage
holds for a key what it held before and what that engine recorded up to its last save of the key,
which is all if it ended with a save. -/
theorem counts_survive_restarts (store : σ) {earlier : List Lifetime} {life : Lifetime}
    {key : ModelKey}
    (hops : ∀ l ∈ earlier ++ [life], ∀ op ∈ l.ops, op.Fits ∧ op.keeps = true)
    (hrow : ∀ r, (table store).rowOf? key = some r → r.IsNonneg) :
    let before := storeAfter earlier store
    let saved := (life.first before).savedPart key life.ops
    let recorded := Operation.recorded life.config key
    ∃ stored : Tally, stored.ShownBy ((table before).rowOf? key) ∧
      saved <+: life.ops ∧
      ((stored.plus (recorded saved)).Fits →
        (stored.plus (recorded saved)).ShownBy ((life.last before).table.rowOf? key)) ∧
      ((life.first before).EndsSaved life.ops → recorded saved = recorded life.ops) := by
  intro before saved recorded
  obtain ⟨hearlier, hlife⟩ := List.forall_mem_append.1 hops
  have hlife := List.forall_mem_singleton.1 hlife
  have hbefore := nonneg_storeAfter hearlier hrow
  have h := Session.run_preserved life.config life.roles before hlife hbefore
  refine ⟨((life.first before).cell key).stored, Tally.shownBy_row hbefore,
    Session.savedPart_isPrefix .., ?_, ?_⟩
  · exact Tally.shownBy_of_stored h.nonneg h.stored
  · exact Session.recorded_of_endsSaved h fun op hop => (hlife op hop).1

/-- An engine stops when its second save has failed, and another one starts. -/
theorem counts_survive_restarts_of_crash :
    let key : ModelKey := ⟨"a", 0⟩
    let row : StatsRow := ⟨"a", 0, 20, 5, 1000, 100, 0, 0⟩
    let database : Database := Database.withStats ⟨.empty, true⟩ ((∅ : StatsTable).upsert row)
    let store : Remote Database := ⟨database, [false, true, true, false]⟩
    let crashed : Lifetime := ⟨.standard, [], [.success key 100 10, .load, .persist ⟨5, 0⟩,
      .failure key, .persist ⟨6, 0⟩]⟩
    let ended : Lifetime := ⟨.standard, [], [.failure key, .load, .flush ⟨7, 0⟩]⟩
    ((∀ l ∈ [crashed, ended], ∀ op ∈ l.ops, op.Fits ∧ op.keeps = true) ∧
      ∀ r, (table store).rowOf? key = some r → r.IsNonneg) ∧
      Tally.ShownBy ⟨21, 6, 1100, 110⟩
        ((ended.last (storeAfter [crashed] store)).table.rowOf? key) := by
  intro key row database store crashed ended
  have hops : ∀ l ∈ [crashed] ++ [ended], ∀ op ∈ l.ops, op.Fits ∧ op.keeps = true := by decide
  have hnonneg : row.IsNonneg := ⟨by decide, by decide, by decide, by decide⟩
  have hrow : ∀ r, (table store).rowOf? key = some r → r.IsNonneg :=
    fun _ hr => StatsTable.isNonneg_of_upsert hnonneg hr
  obtain ⟨stored, hstored, _, hshown, hall⟩ := counts_survive_restarts store hops hrow
  have hbefore :
      Tally.ShownBy ⟨21, 5, 1100, 110⟩ ((table (storeAfter [crashed] store)).rowOf? key) := by
    decide +kernel
  have hended : (ended.first (storeAfter [crashed] store)).EndsSaved ended.ops :=
    ⟨[.failure key], [.load, .flush ⟨7, 0⟩], ⟨7, 0⟩, rfl, .inl rfl, by decide +kernel⟩
  rw [hstored.eq hbefore, hall hended] at hshown
  exact ⟨⟨hops, hrow⟩, hshown (by decide +kernel)⟩

end Lifetime

end ProviderScout
