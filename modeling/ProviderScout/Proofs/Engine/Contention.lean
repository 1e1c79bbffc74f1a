import ProviderScout.Proofs.Engine.Interleaving

/-!
Saves, loads and resets in steps, which take turns at one lock, with outcomes that are counted in
between. Who counts an outcome first looks up the model and later changes the one it found, also
when another model has taken its place by then.
-/

namespace ProviderScout

/-- What is counted for a model. -/
inductive Outcome where
  | success (bytes millis : Nat)
  | failure
deriving DecidableEq

namespace Outcome

def tally : Outcome → Tally
  | .success bytes millis => .success bytes millis
  | .failure => .failure

def apply (alpha : Float) : Outcome → Model Float → Model Float
  | .success bytes millis => Model.recordSuccess alpha bytes millis
  | .failure => Model.recordFailure

def record (key : ModelKey) (o : Outcome) (e : Engine) : Engine :=
  match o with
  | .success bytes millis => e.recordSuccess key bytes millis
  | .failure => e.recordFailure key

theorem record_eq (key : ModelKey) (o : Outcome) (e : Engine) :
    o.record key e =
      if e.isActive key.job then e.update key (o.apply e.config.ewmaAlpha) else e := by
  cases o <;> rfl

theorem tally_apply (o : Outcome) (alpha : Float) (m : Model Float) :
    (o.apply alpha m).tally = (m.tally.plus o.tally).upTo Counter.max := by
  cases o <;> rfl

end Outcome

theorem Engine.update_update (e : Engine) (key : ModelKey) (f g : Model Float → Model Float) :
    (e.update key f).update key g = e.update key fun m => g (f m) := by
  have hmodels :
      ((e.update key f).update key g).models = (e.update key fun m => g (f m)).models := by
    refine SortedMap.ext_get? fun k => ?_
    change ((e.update key f).update key g).model? k = (e.update key fun m => g (f m)).model? k
    simp only [model?_update]
    split <;> rfl
  exact congrArg (fun models => { e with models := models }) hmodels

/-- One who counts an outcome and has looked up the model. -/
structure Call where
  /-- Its place among the look-ups. -/
  ticket : Nat
  key : ModelKey
  outcome : Outcome
  /-- The number of the model that was found. -/
  model : Nat
deriving DecidableEq

/-- Who holds the lock, other than a save. -/
inductive Turn where
  | free
  /-- A load that has read these rows and has yet to add them. -/
  | loading (rows : List StatsRow)
  /-- A reset that has deleted so many rows and has yet to forget the models. -/
  | clearing (job : Option String) (deleted : Nat)

/-- The models by number. They are numbered as they are made, so that one is told from another that
had its place before. -/
structure Numbering where
  /-- The number of the model of each key. -/
  ids : ModelKey → Nat
  made : Nat

/-- Numbers the model of a key if it is about to be made. -/
def Numbering.enter (e : Engine) (key : ModelKey) (n : Numbering) : Numbering :=
  if (e.model? key).isSome then n else ⟨fun k => if k = key then n.made else n.ids k, n.made + 1⟩

/-- A shared engine with the loads and resets that use it. -/
structure Contended (σ : Type) extends Shared σ where
  turn : Turn
  numbers : Numbering
  tickets : Nat
  /-- Those who have looked up a model and have yet to change it. -/
  calls : List Call
  counted : List Call
  /-- The answers of all resets. -/
  answers : List (Option String × Except Error Int)

/-- A step of a save. -/
inductive SaveStep where
  | request
  | start (now : Instant)
  | visit (key : ModelKey)
  | store
  | mark

def SaveStep.action : SaveStep → Shared.Action
  | .request => .request
  | .start now => .start now
  | .visit key => .visit key
  | .store => .store
  | .mark => .mark

/-- Whether a save cannot start since a load or a reset holds the lock. -/
def SaveStep.waits : SaveStep → Turn → Bool
  | .start _, .free => false
  | .start _, _ => true
  | _, _ => false

/-- A step of one of those who contend for an engine. -/
inductive Contended.Action where
  | lookUp (key : ModelKey) (outcome : Outcome)
  | update (ticket : Nat)
  | save (step : SaveStep)
  /-- A load takes the lock and reads the rows. -/
  | read
  /-- A load adds a row, or lets go of the lock when it has added all. -/
  | absorb
  /-- A reset takes the lock and deletes the rows. -/
  | delete (job : Option String)
  /-- A reset forgets the models, answers and lets go of the lock. -/
  | clear

namespace Contended

variable {σ : Type}

def start (config : AffinityConfig) (roles : List Role) (store : σ) : Contended σ where
  toShared := .start config roles store
  turn := .free
  numbers := ⟨fun _ => 0, 0⟩
  tickets := 0
  calls := []
  counted := []
  answers := []

def Free (s : Contended σ) : Prop := s.stage = .idle ∧ s.turn = .free

def isFree (s : Contended σ) : Bool :=
  match s.stage, s.turn with
  | .idle, .free => true
  | _, _ => false

theorem isFree_iff {s : Contended σ} : s.isFree = true ↔ s.Free := by
  rw [isFree, Free]
  cases s.stage <;> cases s.turn <;> simp

def lookUp (key : ModelKey) (outcome : Outcome) (s : Contended σ) : Contended σ :=
  let numbers := s.numbers.enter s.engine key
  { s with
    engine := s.engine.update key id
    numbers := numbers
    tickets := s.tickets + 1
    calls := s.calls ++ [⟨s.tickets, key, outcome, numbers.ids key⟩] }

theorem find?_lookUp {s : Contended σ} (hcalls : ∀ c ∈ s.calls, c.ticket ≠ s.tickets)
    (key : ModelKey) (outcome : Outcome) :
    (s.lookUp key outcome).calls.find? (·.ticket == s.tickets) =
      some ⟨s.tickets, key, outcome, (s.numbers.enter s.engine key).ids key⟩ := by
  rw [lookUp, List.find?_append, List.find?_eq_none.2, Option.none_or]
  · simp only [List.find?_cons, BEq.rfl]
  · intro c hc h
    exact hcalls c hc (beq_iff_eq.1 h)

/-- Whether the model that was found is still the one of its key. -/
def attached (s : Contended σ) (c : Call) : Bool :=
  (s.engine.model? c.key).isSome && s.numbers.ids c.key == c.model

/-- Changes the model that was found. One that has been forgotten is nobody's model any more. -/
def complete (c : Call) (s : Contended σ) : Contended σ :=
  { s with
    engine :=
      if s.attached c then s.engine.update c.key (c.outcome.apply s.engine.config.ewmaAlpha)
      else s.engine
    calls := s.calls.filter (·.ticket != c.ticket)
    counted := s.counted ++ [c] }

def absorb (r : StatsRow) (rest : List StatsRow) (s : Contended σ) : Contended σ :=
  { s with
    engine := s.engine.absorb r
    numbers := r.owner?.elim s.numbers fun key => s.numbers.enter s.engine key
    turn := .loading rest }

def answer (job : Option String) (deleted : Nat) : Int :=
  if job.isSome then (Column.ofCounter deleted).toInt else -1

def clear (job : Option String) (deleted : Nat) (s : Contended σ) : Contended σ :=
  { s with
    engine := s.engine.forget job
    turn := .free
    answers := s.answers ++ [(job, .ok (answer job deleted))] }

variable [ModelStore σ]

def read (s : Contended σ) : Contended σ :=
  if s.engine.loaded then s
  else match ModelStore.loadRows s.store with
    | (.error _, store) => { s with store := store }
    | (.ok rows, store) => { s with store := store, turn := .loading rows }

def delete (job : Option String) (s : Contended σ) : Contended σ :=
  match ModelStore.deleteRows job s.store with
  | (.error err, store) => { s with store := store, answers := s.answers ++ [(job, .error err)] }
  | (.ok deleted, store) => { s with store := store, turn := .clearing job deleted }

def save (step : SaveStep) (s : Contended σ) : Contended σ :=
  if step.waits s.turn then s else { s with toShared := s.toShared.step step.action }

def step (a : Action) (s : Contended σ) : Contended σ :=
  match a, s.turn with
  | .lookUp key outcome, _ => if s.engine.isActive key.job then s.lookUp key outcome else s
  | .update ticket, _ => (s.calls.find? (·.ticket == ticket)).elim s s.complete
  | .save step, _ => s.save step
  | .read, _ => if s.isFree then s.read else s
  | .absorb, .loading [] => { s with engine := { s.engine with loaded := true }, turn := .free }
  | .absorb, .loading (r :: rest) => s.absorb r rest
  | .delete job, _ => if s.isFree then s.delete job else s
  | .clear, .clearing job deleted => s.clear job deleted
  | _, _ => s

def run (s : Contended σ) (actions : List Action) : Contended σ :=
  actions.foldl (fun s a => s.step a) s

/-- What a step can do. -/
inductive Taken (s : Contended σ) : Action → Contended σ → Prop where
  | stay (a : Action) : Taken s a s
  | lookUp (key : ModelKey) (outcome : Outcome) :
      Taken s (.lookUp key outcome) (s.lookUp key outcome)
  | update (c : Call) (hc : c ∈ s.calls) : Taken s (.update c.ticket) (s.complete c)
  | save (step : SaveStep) (h : ∀ now, step = .start now → s.turn = .free) :
      Taken s (.save step) { s with toShared := s.toShared.step step.action }
  | readError (store : σ) (err : Error) (hfree : s.Free)
      (h : ModelStore.loadRows s.store = (.error err, store)) :
      Taken s .read { s with store := store }
  | read (rows : List StatsRow) (store : σ) (hfree : s.Free) (hl : s.engine.loaded = false)
      (h : ModelStore.loadRows s.store = (.ok rows, store)) :
      Taken s .read { s with store := store, turn := .loading rows }
  | absorb (r : StatsRow) (rest : List StatsRow) (h : s.turn = .loading (r :: rest)) :
      Taken s .absorb (s.absorb r rest)
  | loaded (h : s.turn = .loading []) :
      Taken s .absorb { s with engine := { s.engine with loaded := true }, turn := .free }
  | deleteError (job : Option String) (store : σ) (err : Error) (hfree : s.Free)
      (h : ModelStore.deleteRows job s.store = (.error err, store)) :
      Taken s (.delete job) { s with store := store, answers := s.answers ++ [(job, .error err)] }
  | delete (job : Option String) (store : σ) (deleted : Nat) (hfree : s.Free)
      (h : ModelStore.deleteRows job s.store = (.ok deleted, store)) :
      Taken s (.delete job) { s with store := store, turn := .clearing job deleted }
  | clear (job : Option String) (deleted : Nat) (h : s.turn = .clearing job deleted) :
      Taken s .clear (s.clear job deleted)

theorem step_taken (s : Contended σ) (a : Action) : s.Taken a (s.step a) := by
  cases a with
  | lookUp key outcome =>
    simp only [step]
    split
    · exact .lookUp key outcome
    · exact .stay _
  | update ticket =>
    simp only [step]
    cases hc : s.calls.find? (·.ticket == ticket) with
    | none => exact .stay _
    | some c =>
      have hticket := List.find?_some hc
      cases beq_iff_eq.1 hticket
      exact .update c (List.mem_of_find?_eq_some hc)
  | save part =>
    simp only [step, save]
    split
    · exact .stay _
    · rename_i hwaits
      refine .save part fun now hstart => ?_
      rw [hstart] at hwaits
      cases hturn : s.turn with
      | free => rfl
      | loading rows => exact (hwaits (by rw [hturn]; rfl)).elim
      | clearing job deleted => exact (hwaits (by rw [hturn]; rfl)).elim
  | read =>
    simp only [step, read]
    split
    · rename_i hfree
      split
      · exact .stay _
      · rename_i hl
        split
        · exact .readError _ _ (isFree_iff.1 hfree) ‹_›
        · exact .read _ _ (isFree_iff.1 hfree) (Bool.not_eq_true _ ▸ hl) ‹_›
    · exact .stay _
  | absorb =>
    simp only [step]
    cases hturn : s.turn with
    | loading rows =>
      cases rows with
      | nil => exact .loaded hturn
      | cons r rest => exact .absorb r rest hturn
    | free => exact .stay _
    | clearing job deleted => exact .stay _
  | delete job =>
    simp only [step, delete]
    split
    · rename_i hfree
      split
      · exact .deleteError _ _ _ (isFree_iff.1 hfree) ‹_›
      · exact .delete _ _ _ (isFree_iff.1 hfree) ‹_›
    · exact .stay _
  | clear =>
    simp only [step]
    cases hturn : s.turn with
    | clearing job deleted => exact .clear job deleted hturn
    | free => exact .stay _
    | loading rows => exact .stay _

theorem run_reset {s : Contended σ} (hfree : s.Free) (job : Option String) :
    s.run [.delete job, .clear] =
      { s with
        engine := (s.engine.reset job s.store).2.1
        store := (s.engine.reset job s.store).2.2
        answers := s.answers ++ [(job, (s.engine.reset job s.store).1)] } := by
  have hdelete : s.step (.delete job) = s.delete job := if_pos (isFree_iff.2 hfree)
  change (s.step (.delete job)).step .clear = _
  rw [hdelete, delete, Engine.reset]
  generalize ModelStore.deleteRows job s.store = deleted
  obtain ⟨err | n, store⟩ := deleted
  · simp only [step, hfree.2]
  · simp only [step, clear, hfree.2]
    rfl

/-- One who counts an outcome changes the model as if there were no look-up. -/
theorem run_record {s : Contended σ} (hcalls : ∀ c ∈ s.calls, c.ticket ≠ s.tickets) (key : ModelKey)
    (outcome : Outcome) :
    (s.run [.lookUp key outcome, .update s.tickets]).engine = outcome.record key s.engine := by
  have hrun : s.run [.lookUp key outcome, .update s.tickets] =
      (s.step (.lookUp key outcome)).step (.update s.tickets) := rfl
  rw [hrun, Outcome.record_eq]
  by_cases hactive : s.engine.isActive key.job = true
  · rw [if_pos hactive]
    have hlook : s.step (.lookUp key outcome) = s.lookUp key outcome := if_pos hactive
    have hattached : (s.lookUp key outcome).attached
        ⟨s.tickets, key, outcome, (s.numbers.enter s.engine key).ids key⟩ = true := by
      have hmodel := s.engine.model?_update key key id
      rw [if_pos rfl] at hmodel
      rw [attached, lookUp, hmodel, Option.isSome_some, Bool.true_and]
      exact BEq.rfl
    rw [hlook, step, find?_lookUp hcalls]
    change (complete _ _).engine = _
    rw [complete, hattached, if_pos rfl]
    exact s.engine.update_update key id _
  · rw [if_neg hactive]
    have hlook : s.step (.lookUp key outcome) = s := if_neg hactive
    have hnone : s.calls.find? (·.ticket == s.tickets) = none := by
      rw [List.find?_eq_none]
      intro c hc h
      exact hcalls c hc (beq_iff_eq.1 h)
    rw [hlook, step, hnone]
    rfl

theorem run_saves {s : Contended σ} (hturn : s.turn = .free) (steps : List SaveStep) :
    s.run (steps.map .save) =
      { s with toShared := s.toShared.run (steps.map SaveStep.action) } := by
  induction steps generalizing s with
  | nil => rfl
  | cons step rest ih =>
    have hstep : s.step (.save step) = { s with toShared := s.toShared.step step.action } := by
      apply if_neg
      rw [hturn]
      cases step <;> exact Bool.false_ne_true
    change (s.step (.save step)).run (rest.map .save) = _
    rw [hstep]
    exact ih (s := { s with toShared := s.toShared.step step.action }) hturn

theorem run_absorb_of_free {s : Contended σ} (hturn : s.turn = .free) (n : Nat) :
    s.run (List.replicate n .absorb) = s := by
  induction n with
  | zero => rfl
  | succ n ih =>
    have hstep : s.step .absorb = s := by simp only [step, hturn]
    rw [List.replicate_succ]
    change (s.step .absorb).run _ = s
    rw [hstep, ih]

theorem run_absorbs {s : Contended σ} {rows : List StatsRow} (hturn : s.turn = .loading rows)
    {n : Nat} (hn : rows.length < n) :
    (s.run (List.replicate n .absorb)).toShared =
        { s.toShared with engine := { rows.foldl Engine.absorb s.engine with loaded := true } } ∧
      (s.run (List.replicate n .absorb)).turn = .free := by
  induction rows generalizing s n with
  | nil =>
    obtain ⟨n, rfl⟩ := Nat.exists_eq_succ_of_ne_zero (Nat.ne_of_gt hn)
    have hstep : s.step .absorb =
        { s with engine := { s.engine with loaded := true }, turn := .free } := by
      simp only [step, hturn]
    have hrun : s.run (List.replicate (n + 1) .absorb) = s.step .absorb := by
      rw [List.replicate_succ]
      exact run_absorb_of_free (congrArg turn hstep) n
    rw [hrun, hstep]
    exact ⟨rfl, rfl⟩
  | cons r rest ih =>
    obtain ⟨n, rfl⟩ := Nat.exists_eq_succ_of_ne_zero (Nat.ne_of_gt (Nat.zero_lt_of_lt hn))
    have hstep : s.step .absorb = s.absorb r rest := by simp only [step, hturn]
    have hrun : s.run (List.replicate (n + 1) .absorb) =
        (s.absorb r rest).run (List.replicate n .absorb) := by
      rw [List.replicate_succ, ← hstep]
      rfl
    obtain ⟨hshared, hfree⟩ := ih (s := s.absorb r rest) rfl (Nat.lt_of_succ_lt_succ hn)
    rw [hrun, hshared]
    exact ⟨rfl, hfree⟩

/-- A load that nothing comes between is one that is done at once. -/
theorem run_load {s : Contended σ} (hfree : s.Free) {n : Nat}
    (hn : ∀ rows, (ModelStore.loadRows s.store).1 = .ok rows → rows.length < n) :
    let t := s.run (.read :: List.replicate n .absorb)
    t.toShared =
        { s.toShared with
          engine := (s.engine.load s.store).2.1
          store := (s.engine.load s.store).2.2 } ∧
      t.Free := by
  intro t
  have hrun : t = (s.step .read).run (List.replicate n .absorb) := rfl
  have hread : s.step .read = s.read := if_pos (isFree_iff.2 hfree)
  rw [hrun, hread, read, Engine.load]
  generalize ModelStore.loadRows s.store = answer at hn ⊢
  split
  · rw [run_absorb_of_free hfree.2]
    exact ⟨rfl, hfree⟩
  · obtain ⟨err | rows, store⟩ := answer
    · dsimp only
      rw [run_absorb_of_free (s := { s with store := store }) hfree.2]
      exact ⟨rfl, hfree⟩
    · obtain ⟨hshared, hturn⟩ := run_absorbs (s := { s with store := store, turn := .loading rows })
        rfl (hn rows rfl)
      exact ⟨hshared, (congrArg Shared.stage hshared).trans hfree.1, hturn⟩

end Contended

end ProviderScout
