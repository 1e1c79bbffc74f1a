import ProviderScout.Proofs.Store.Events
import ProviderScout.Service.Basic

namespace ProviderScout

namespace EventQueue

theorem waiting_of_receive? {q q' : EventQueue} {e : UsageEvent} (h : q.receive? = some (e, q')) :
    q.waiting = e :: q'.waiting := by
  rw [receive?] at h
  split at h
  · cases h
  · rename_i hw
    cases h
    exact hw

theorem waiting_of_receive?_none {q : EventQueue} (h : q.receive? = none) : q.waiting = [] := by
  rw [receive?] at h
  split at h
  · assumption
  · cases h

theorem isOpen_of_receive? {q q' : EventQueue} {e : UsageEvent} (h : q.receive? = some (e, q')) :
    q'.isOpen = q.isOpen := by
  rw [receive?] at h
  split at h <;> cases h
  rfl

theorem send_of_closed {q : EventQueue} (h : q.isOpen = false) (e : UsageEvent) : q.send e = q := by
  rw [send, h]
  rfl

end EventQueue

def Stage.hasEnded : Stage → Bool
  | .stopped | .failed => true
  | _ => false

theorem Batching.deadline?_of_lt {cut : Batching} {clock : Nat}
    (h : clock + cut.window.nanos < endOfTime) :
    cut.deadline? clock = some (clock + cut.window.nanos) := if_pos h

theorem Batching.deadline?_of_le {cut : Batching} {clock : Nat}
    (h : endOfTime ≤ clock + cut.window.nanos) : cut.deadline? clock = none :=
  if_neg (Nat.not_lt_of_le h)

namespace Pipeline

/-- What an action does where it is possible. -/
inductive Moves (cut : Batching) (p : Pipeline) : Action → Pipeline × List UsageEvent → Prop
  | send (e : UsageEvent) : Moves cut p (.send e) (unwritten { p with queue := p.queue.send e })
  | hangUp : Moves cut p .hangUp (unwritten { p with hasSenders := false })
  | cancel : Moves cut p .cancel (unwritten { p with cancelled := true })
  | wait (nanos : Nat) : Moves cut p (.wait nanos) (unwritten { p with clock := p.clock + nanos })
  | setUp : p.stage = .unstarted → cut.size ≤ Batching.maxSize →
      Moves cut p .setUp (unwritten { p with stage := .idle })
  | setUpFails : p.stage = .unstarted → Batching.maxSize < cut.size →
      Moves cut p .setUp (unwritten p.fail)
  | first {e : UsageEvent} {queue : EventQueue} : p.stage = .idle →
      p.queue.receive? = some (e, queue) → p.clock + cut.window.nanos < Batching.endOfTime →
      Moves cut p .receive (p.take cut .idle (.gathering (p.clock + cut.window.nanos)) e queue)
  | firstFails : p.stage = .idle → p.queue.waiting ≠ [] →
      Batching.endOfTime ≤ p.clock + cut.window.nanos → Moves cut p .receive (unwritten p.fail)
  | next {deadline : Nat} {e : UsageEvent} {queue : EventQueue} : p.stage = .gathering deadline →
      p.queue.receive? = some (e, queue) →
      Moves cut p .receive (p.take cut .idle (.gathering deadline) e queue)
  | expire {deadline : Nat} : p.stage = .gathering deadline → deadline ≤ p.clock →
      Moves cut p .expire (written .idle p)
  | leaveByCancel : p.stage = .idle → p.cancelled = true →
      Moves cut p .heedCancel (unwritten p.beginDrain)
  | endByCancel {deadline : Nat} : p.stage = .gathering deadline → p.cancelled = true →
      Moves cut p .heedCancel (written .idle p)
  | leaveByHangUp : p.stage = .idle → p.hasSenders = false → p.queue.waiting = [] →
      Moves cut p .heedHangUp (unwritten p.beginDrain)
  | endByHangUp {deadline : Nat} : p.stage = .gathering deadline → p.hasSenders = false →
      p.queue.waiting = [] → Moves cut p .heedHangUp (written .idle p)
  | drain {e : UsageEvent} {queue : EventQueue} : p.stage = .draining →
      p.queue.receive? = some (e, queue) →
      Moves cut p .drain (p.take cut .draining .draining e queue)
  | stop : p.stage = .draining → p.queue.receive? = none →
      Moves cut p .drain (written .stopped p)

theorem moves_of_step {cut : Batching} {p : Pipeline} {a : Action}
    {r : Pipeline × List UsageEvent} (h : p.step cut a = some r) : Moves cut p a r := by
  cases a with
  | send e => cases h; exact .send e
  | hangUp => cases h; exact .hangUp
  | cancel => cases h; exact .cancel
  | wait nanos => cases h; exact .wait nanos
  | setUp =>
    cases hstage : p.stage <;> simp only [step, hstage] at h <;> cases h
    split
    · exact .setUp hstage ‹_›
    · exact .setUpFails hstage (Nat.lt_of_not_le ‹_›)
  | receive =>
    cases hstage : p.stage with
    | idle =>
      simp only [step, hstage, Option.map_eq_some_iff] at h
      obtain ⟨⟨e, queue⟩, hr, rfl⟩ := h
      by_cases hlate : p.clock + cut.window.nanos < Batching.endOfTime
      · simp only [Batching.deadline?_of_lt hlate]
        exact .first hstage hr hlate
      · simp only [Batching.deadline?_of_le (Nat.le_of_not_lt hlate)]
        exact .firstFails hstage (EventQueue.waiting_of_receive? hr ▸ List.cons_ne_nil _ _)
          (Nat.le_of_not_lt hlate)
    | gathering deadline =>
      simp only [step, hstage, Option.map_eq_some_iff] at h
      obtain ⟨⟨e, queue⟩, hr, rfl⟩ := h
      exact .next hstage hr
    | unstarted | draining | stopped | failed => simp only [step, hstage, reduceCtorEq] at h
  | expire =>
    cases hstage : p.stage <;> simp only [step, hstage, reduceCtorEq] at h
    split at h <;> cases h
    exact .expire hstage ‹_›
  | heedCancel =>
    cases hstage : p.stage <;> simp only [step, hstage, reduceCtorEq] at h
    · split at h <;> cases h
      exact .leaveByCancel hstage ‹_›
    · split at h <;> cases h
      exact .endByCancel hstage ‹_›
  | heedHangUp =>
    cases hstage : p.stage <;> simp only [step, hstage, Bool.and_eq_true, Bool.not_eq_true',
      List.isEmpty_iff, reduceCtorEq] at h
    · split at h <;> cases h
      rename_i hgone
      exact .leaveByHangUp hstage hgone.1 hgone.2
    · split at h <;> cases h
      rename_i hgone
      exact .endByHangUp hstage hgone.1 hgone.2
  | drain =>
    cases hstage : p.stage <;> simp only [step, hstage, reduceCtorEq] at h
    split at h <;> cases h
    · exact .drain hstage ‹_›
    · exact .stop hstage ‹_›

def accepts (a : Action) (p : Pipeline) : List UsageEvent :=
  match a with
  | .send e => if p.queue.isOpen then [e] else []
  | _ => []

/-- What actions add to the queue, oldest first. -/
def accepted (cut : Batching) : List Action → Pipeline → List UsageEvent
  | [], _ => []
  | a :: rest, p => match p.step cut a with
    | none => accepted cut rest p
    | some (q, _) => p.accepts a ++ accepted cut rest q

/-- The events that were accepted and not handed over yet. -/
def pending (p : Pipeline) : List UsageEvent := p.batch ++ p.queue.waiting

/-- What holds between two actions of a pipeline, depending on where its consumer stands. -/
def Sound (cut : Batching) (p : Pipeline) : Prop :=
  match p.stage with
  | .unstarted | .idle => p.queue.isOpen = true ∧ p.batch = []
  | .gathering _ => p.queue.isOpen = true ∧ p.batch.length < cut.size
  | .draining => p.queue.isOpen = false ∧ p.batch.length < cut.size
  | .stopped | .failed => p.queue.isOpen = false ∧ p.batch = [] ∧ p.queue.waiting = []

theorem start_sound (cut : Batching) : start.Sound cut := ⟨rfl, rfl⟩

section Step

variable {cut : Batching} {p : Pipeline}

theorem Sound.length_lt (h : p.Sound cut) : p.batch.length < cut.size := by
  rw [Sound] at h
  split at h
  · rw [h.2]
    exact cut.size_pos
  · rw [h.2]
    exact cut.size_pos
  · exact h.2
  · exact h.2
  · rw [h.2.1]
    exact cut.size_pos
  · rw [h.2.1]
    exact cut.size_pos

theorem take_cases (full more : Stage) (e : UsageEvent) (queue : EventQueue)
    (h : p.batch.length < cut.size) :
    (p.take cut full more e queue =
        ({ p with queue := queue, stage := more, batch := p.batch ++ [e] }, []) ∧
      (p.batch ++ [e]).length < cut.size) ∨
    (p.take cut full more e queue =
        ({ p with queue := queue, stage := full, batch := [] }, p.batch ++ [e]) ∧
      (p.batch ++ [e]).length = cut.size) := by
  rw [take]
  split
  · exact .inl ⟨rfl, ‹_›⟩
  · rename_i hlen
    refine .inr ⟨rfl, ?_⟩
    rw [List.length_append, List.length_singleton] at hlen ⊢
    omega

theorem take_frame (cut : Batching) (full more : Stage) (e : UsageEvent) (queue : EventQueue)
    (p : Pipeline) :
    (p.take cut full more e queue).1.queue = queue ∧
      ((p.take cut full more e queue).1.stage = full ∨
        (p.take cut full more e queue).1.stage = more) := by
  rw [take]
  split
  · exact ⟨rfl, .inr rfl⟩
  · exact ⟨rfl, .inl rfl⟩

/-- What one action hands over was pending or is accepted with it, and the rest stays pending unless
the consumer breaks off. -/
structure Delivers (cut : Batching) (p : Pipeline) (a : Action) (r : Pipeline × List UsageEvent) :
    Prop where
  sound : r.1.Sound cut
  size : r.2.length ≤ cut.size
  order : r.2 ++ r.1.pending = p.pending ++ p.accepts a ∨ r.1.stage = .failed ∧ r.2 = []

theorem Sound.take (h : p.Sound cut) {full more : Stage} {e : UsageEvent} {queue : EventQueue}
    (hqueue : p.queue.receive? = some (e, queue)) {a : Action} (ha : p.accepts a = [])
    (hfull : Sound cut { p with queue := queue, stage := full, batch := [] })
    (hmore : (p.batch ++ [e]).length < cut.size →
      Sound cut { p with queue := queue, stage := more, batch := p.batch ++ [e] }) :
    Delivers cut p a (p.take cut full more e queue) := by
  have hwaiting := EventQueue.waiting_of_receive? hqueue
  rcases take_cases full more e queue h.length_lt with ⟨he, hlen⟩ | ⟨he, hlen⟩
  · rw [he]
    refine ⟨hmore hlen, Nat.zero_le _, .inl ?_⟩
    rw [ha, List.append_nil, pending, pending, hwaiting, List.append_assoc]
    rfl
  · rw [he]
    refine ⟨hfull, Nat.le_of_eq hlen, .inl ?_⟩
    rw [ha, List.append_nil, pending, pending, hwaiting, List.append_assoc]
    rfl

theorem Sound.written (h : p.Sound cut) {stage : Stage} {a : Action} (ha : p.accepts a = [])
    (hsound : Sound cut { p with stage := stage, batch := [] }) :
    Delivers cut p a (p.written stage) where
  sound := hsound
  size := Nat.le_of_lt h.length_lt
  order := by
    rw [ha, List.append_nil]
    exact .inl rfl

theorem delivers_fail (cut : Batching) (p : Pipeline) (a : Action) :
    Delivers cut p a (unwritten p.fail) where
  sound := ⟨rfl, rfl, rfl⟩
  size := Nat.zero_le _
  order := .inr ⟨rfl, rfl⟩

theorem Sound.send (h : p.Sound cut) (e : UsageEvent) :
    Delivers cut p (.send e) (unwritten { p with queue := p.queue.send e }) := by
  cases hopen : p.queue.isOpen with
  | false =>
    rw [EventQueue.send_of_closed hopen]
    refine ⟨h, Nat.zero_le _, .inl ?_⟩
    rw [accepts, hopen]
    exact (List.append_nil _).symm
  | true =>
    have hsend : p.queue.send e = { p.queue with waiting := p.queue.waiting ++ [e] } := if_pos hopen
    rw [hsend]
    refine ⟨?_, Nat.zero_le _, .inl ?_⟩
    · rw [Sound] at h ⊢
      split at h <;> rename_i hstage <;> simp only [unwritten, hstage]
      · exact h
      · exact h
      · exact h
      all_goals exact absurd (h.1.symm.trans hopen) Bool.false_ne_true
    · rw [accepts, hopen, if_pos rfl]
      exact (List.append_assoc p.batch p.queue.waiting [e]).symm

theorem Sound.beginDrain (h : p.Sound cut) {a : Action} (ha : p.accepts a = []) :
    Delivers cut p a (unwritten p.beginDrain) where
  sound := ⟨rfl, h.length_lt⟩
  size := Nat.zero_le _
  order := by
    rw [ha, List.append_nil]
    exact .inl rfl

theorem Sound.of_unstarted (h : p.Sound cut) (hstage : p.stage = .unstarted) :
    p.queue.isOpen = true ∧ p.batch = [] := by
  rwa [Sound, hstage] at h

theorem Sound.of_idle (h : p.Sound cut) (hstage : p.stage = .idle) :
    p.queue.isOpen = true ∧ p.batch = [] := by
  rwa [Sound, hstage] at h

theorem Sound.of_gathering {deadline : Nat} (h : p.Sound cut)
    (hstage : p.stage = .gathering deadline) :
    p.queue.isOpen = true ∧ p.batch.length < cut.size := by
  rwa [Sound, hstage] at h

theorem Sound.of_draining (h : p.Sound cut) (hstage : p.stage = .draining) :
    p.queue.isOpen = false ∧ p.batch.length < cut.size := by
  rwa [Sound, hstage] at h

/-- Each action of the consumer and of those who report keeps the order of events. -/
theorem Sound.step (h : p.Sound cut) {a : Action} {r : Pipeline × List UsageEvent}
    (hstep : p.step cut a = some r) : Delivers cut p a r := by
  cases moves_of_step hstep with
  | send e => exact h.send e
  | hangUp | cancel | wait => exact ⟨h, Nat.zero_le _, .inl (List.append_nil _).symm⟩
  | setUp hstage _ =>
    exact ⟨h.of_unstarted hstage, Nat.zero_le _, .inl (List.append_nil _).symm⟩
  | setUpFails | firstFails => exact delivers_fail cut p _
  | first hstage hr _ =>
    have hopen := (EventQueue.isOpen_of_receive? hr).trans (h.of_idle hstage).1
    exact h.take hr rfl ⟨hopen, rfl⟩ fun hlen => ⟨hopen, hlen⟩
  | next hstage hr =>
    have hopen := (EventQueue.isOpen_of_receive? hr).trans (h.of_gathering hstage).1
    exact h.take hr rfl ⟨hopen, rfl⟩ fun hlen => ⟨hopen, hlen⟩
  | expire hstage _ | endByCancel hstage _ | endByHangUp hstage _ _ =>
    exact h.written rfl ⟨(h.of_gathering hstage).1, rfl⟩
  | leaveByCancel | leaveByHangUp => exact h.beginDrain rfl
  | drain hstage hr =>
    have hclosed := (EventQueue.isOpen_of_receive? hr).trans (h.of_draining hstage).1
    exact h.take hr rfl ⟨hclosed, cut.size_pos⟩ fun hlen => ⟨hclosed, hlen⟩
  | stop hstage hr =>
    have hclosed := (h.of_draining hstage).1
    exact h.written rfl ⟨hclosed, rfl, EventQueue.waiting_of_receive?_none hr⟩

end Step

theorem step_of_ended {cut : Batching} {p : Pipeline} {a : Action}
    {r : Pipeline × List UsageEvent} (h : p.stage.hasEnded = true) (hstep : p.step cut a = some r) :
    r.1.stage = p.stage ∧ r.2 = [] := by
  have hlive {stage : Stage} (hstage : p.stage = stage) (hlive : stage.hasEnded = false) : False := by
    rw [hstage, hlive] at h
    cases h
  cases moves_of_step hstep with
  | send | hangUp | cancel | wait => exact ⟨rfl, rfl⟩
  | setUp h | setUpFails h | first h | firstFails h | next h | expire h | leaveByCancel h
  | endByCancel h | leaveByHangUp h | endByHangUp h | drain h | stop h => exact (hlive h rfl).elim

theorem run_of_ended (cut : Batching) {p : Pipeline} (h : p.stage.hasEnded = true)
    (actions : List Action) :
    (run cut actions p).1.stage = p.stage ∧ (run cut actions p).2 = [] := by
  induction actions generalizing p with
  | nil => exact ⟨rfl, rfl⟩
  | cons a rest ih =>
    rw [run]
    cases hstep : p.step cut a with
    | none => exact ih h
    | some r =>
      obtain ⟨hstage, hbatch⟩ := step_of_ended h hstep
      obtain ⟨hlast, hnone⟩ := ih (p := r.1) (by rw [hstage, h])
      simp only [hbatch, hnone, hlast, hstage, List.isEmpty_nil, if_true, and_self]

/-- What was pending or was accepted since has been handed over, in order, or is pending. If the
consumer breaks off, what it has handed over is the beginning of that. -/
theorem run_sound {cut : Batching} {p : Pipeline} (h : p.Sound cut) (actions : List Action) :
    let last := (run cut actions p).1
    let events := (run cut actions p).2.flatten
    last.Sound cut ∧
      (∀ batch ∈ (run cut actions p).2, batch ≠ [] ∧ batch.length ≤ cut.size) ∧
      (events ++ last.pending = p.pending ++ accepted cut actions p ∨
        last.stage = .failed ∧ events <+: p.pending ++ accepted cut actions p) := by
  induction actions generalizing p with
  | nil => exact ⟨h, nofun, .inl (List.append_nil _).symm⟩
  | cons a rest ih =>
    rw [run, accepted]
    cases hstep : p.step cut a with
    | none => exact ih h
    | some r =>
      obtain ⟨q, batch⟩ := r
      obtain ⟨hsound, hsize, horder⟩ := h.step hstep
      obtain ⟨hlast, hbatches, hflatten⟩ := ih hsound
      have hall : batch ++ (run cut rest q).2.flatten ++ (run cut rest q).1.pending =
            p.pending ++ (p.accepts a ++ accepted cut rest q) ∨
          (run cut rest q).1.stage = .failed ∧ batch ++ (run cut rest q).2.flatten <+:
            p.pending ++ (p.accepts a ++ accepted cut rest q) := by
        rcases horder with horder | ⟨hfailed, hbatch⟩
        · rw [← List.append_assoc p.pending, ← horder, List.append_assoc, List.append_assoc,
            List.append_cancel_left_eq, List.prefix_append_right_inj]
          exact hflatten
        · obtain rfl : batch = [] := hbatch
          have hended : q.stage.hasEnded = true := congrArg Stage.hasEnded hfailed
          obtain ⟨hstage, hnone⟩ := run_of_ended cut hended rest
          rw [hnone]
          exact .inr ⟨hstage.trans hfailed, List.nil_prefix⟩
      cases batch with
      | nil => exact ⟨hlast, hbatches, hall⟩
      | cons e events =>
        refine ⟨hlast, ?_, hall⟩
        exact List.forall_mem_cons.2 ⟨⟨List.cons_ne_nil e events, hsize⟩, hbatches⟩

variable (cut : Batching)

theorem run_append (first second : List Action) (p : Pipeline) :
    run cut (first ++ second) p =
      ((run cut second (run cut first p).1).1,
        (run cut first p).2 ++ (run cut second (run cut first p).1).2) := by
  induction first generalizing p with
  | nil => rfl
  | cons a rest ih =>
    rw [List.cons_append, run, run]
    cases hstep : p.step cut a with
    | none => exact ih p
    | some r =>
      obtain ⟨q, batch⟩ := r
      simp only [ih q]
      cases batch <;> rfl

theorem accepted_append (first second : List Action) (p : Pipeline) :
    accepted cut (first ++ second) p =
      accepted cut first p ++ accepted cut second (run cut first p).1 := by
  induction first generalizing p with
  | nil => rfl
  | cons a rest ih =>
    rw [List.cons_append, accepted, accepted, run]
    cases hstep : p.step cut a with
    | none => exact ih p
    | some r =>
      obtain ⟨q, batch⟩ := r
      simp only [ih q, List.append_assoc]

theorem step_send_of_closed {p : Pipeline} (h : p.queue.isOpen = false) (e : UsageEvent) :
    p.step cut (.send e) = some (unwritten p) := by
  rw [step, EventQueue.send_of_closed h]

theorem run_send_of_closed {before : List Action} {p : Pipeline}
    (h : (run cut before p).1.queue.isOpen = false) (e : UsageEvent) (after : List Action) :
    run cut (before ++ .send e :: after) p = run cut (before ++ after) p := by
  rw [run_append, run_append, run, step_send_of_closed cut h]
  rfl

theorem accepted_send_of_closed {before : List Action} {p : Pipeline}
    (h : (run cut before p).1.queue.isOpen = false) (e : UsageEvent) (after : List Action) :
    accepted cut (before ++ .send e :: after) p = accepted cut (before ++ after) p := by
  rw [accepted_append, accepted_append, accepted, step_send_of_closed cut h, accepts, h]
  rfl

theorem stage_run_drains {p : Pipeline} (h : p.stage = .draining) {n : Nat}
    (hn : p.queue.waiting.length < n) :
    (run cut (List.replicate n .drain) p).1.stage = .stopped := by
  induction n generalizing p with
  | zero => cases hn
  | succ n ih =>
    rw [List.replicate_succ, run]
    cases hr : p.queue.receive? with
    | none =>
      simp only [step, h, hr]
      exact (run_of_ended cut (p := { p with stage := .stopped, batch := [] }) rfl _).1
    | some next =>
      obtain ⟨e, queue⟩ := next
      have hwaiting := EventQueue.waiting_of_receive? hr
      rw [hwaiting] at hn
      obtain ⟨hqueue, hstage⟩ := take_frame cut .draining .draining e queue p
      simp only [step, h, hr]
      refine ih (hstage.elim id id) ?_
      rw [hqueue]
      exact Nat.lt_of_succ_lt_succ hn

theorem hasEnded_shutDown (p : Pipeline) : (p.shutDown cut).1.stage.hasEnded = true := by
  have hdrains {q : Pipeline} (h : q.stage = .draining) (hw : q.queue.waiting = p.queue.waiting) :
      (run cut (List.replicate (p.queue.waiting.length + 1) .drain) q).1.stage.hasEnded = true := by
    rw [stage_run_drains cut h (hw ▸ Nat.lt_succ_self _)]
    rfl
  have hends {q : Pipeline} (h : q.stage.hasEnded = true) :
      (run cut (List.replicate (p.queue.waiting.length + 1) .drain) q).1.stage.hasEnded = true :=
    (run_of_ended cut h _).1 ▸ h
  obtain ⟨queue, hasSenders, cancelled, clock, stage, batch⟩ := p
  rw [shutDown, run_append]
  cases stage with
  | unstarted =>
    by_cases hsize : cut.size ≤ Batching.maxSize <;> simp only [run, step, hsize, if_true, if_false]
    · exact hdrains rfl rfl
    · exact hends rfl
  | idle | gathering | draining => exact hdrains rfl rfl
  | stopped | failed => exact hends rfl

end Pipeline

namespace Service

variable {σ : Type} [EventStore σ]

/-- The batches that are stored when all are tried one after the other. -/
def keptBatches : List (List UsageEvent) → σ → List (List UsageEvent)
  | [], _ => []
  | batch :: rest, s =>
    let r := EventStore.insertEvents batch s
    if r.1.isOk then batch :: keptBatches rest r.2 else keptBatches rest r.2

open LawfulEventStore in
/-- A batch that cannot be stored is lost, and no other one. -/
theorem events_storeBatches [LawfulEventStore σ] (batches : List (List UsageEvent)) (s : σ) :
    events (storeBatches batches s) =
      events s ++ (keptBatches batches s).flatten.map .ofEvent := by
  induction batches generalizing s with
  | nil => exact (List.append_nil _).symm
  | cons batch rest ih =>
    rw [storeBatches, List.foldl_cons, ← storeBatches, ih, keptBatches]
    cases hr : (EventStore.insertEvents batch s).1 with
    | error err =>
      rw [events_insert_error hr]
      rfl
    | ok u =>
      rw [events_insert hr, List.append_assoc, ← List.map_append]
      rfl

end Service

namespace Pipeline

section Fail

variable {cut : Batching} {p : Pipeline}

theorem clock_take (cut : Batching) (full more : Stage) (e : UsageEvent) (queue : EventQueue)
    (p : Pipeline) : (p.take cut full more e queue).1.clock = p.clock := by
  rw [take]
  split <;> rfl

theorem Moves.clock_le {a : Action} {r : Pipeline × List UsageEvent} (hmoves : Moves cut p a r) :
    p.clock ≤ r.1.clock := by
  cases hmoves with
  | first | next | drain => exact Nat.le_of_eq (clock_take ..).symm
  | wait nanos => exact Nat.le_add_right p.clock nanos
  | _ => exact Nat.le_refl _

theorem clock_le_run (cut : Batching) (actions : List Action) (p : Pipeline) :
    p.clock ≤ (run cut actions p).1.clock := by
  induction actions generalizing p with
  | nil => exact Nat.le_refl _
  | cons a rest ih =>
    rw [run]
    cases hstep : p.step cut a with
    | none => exact ih p
    | some r => exact Nat.le_trans (moves_of_step hstep).clock_le (ih r.1)

theorem Moves.stage_ne_failed {a : Action} {r : Pipeline × List UsageEvent}
    (hmoves : Moves cut p a r) (hsize : cut.size ≤ Batching.maxSize)
    (hclock : p.clock + cut.window.nanos < Batching.endOfTime) (h : p.stage ≠ .failed) :
    r.1.stage ≠ .failed := by
  cases hmoves with
  | send | hangUp | cancel | wait => exact h
  | setUpFails _ hlarge => exact absurd hsize (Nat.not_le_of_lt hlarge)
  | firstFails _ _ hlate => exact absurd hclock (Nat.not_lt_of_le hlate)
  | @first e queue | @next _ e queue | @drain e queue =>
    rcases (take_frame cut _ _ e queue p).2 with hstage | hstage <;> rw [hstage] <;> exact nofun
  | setUp | expire | leaveByCancel | endByCancel | leaveByHangUp | endByHangUp | stop =>
    exact nofun

/-- A consumer that can set room for a batch aside does not break off before the end of a window
cannot be shown. -/
theorem stage_run_ne_failed (hsize : cut.size ≤ Batching.maxSize) (h : p.stage ≠ .failed)
    {actions : List Action}
    (hclock : (run cut actions p).1.clock + cut.window.nanos < Batching.endOfTime) :
    (run cut actions p).1.stage ≠ .failed := by
  induction actions generalizing p with
  | nil => exact h
  | cons a rest ih =>
    have hnow : p.clock + cut.window.nanos < Batching.endOfTime :=
      Nat.lt_of_le_of_lt (Nat.add_le_add_right (clock_le_run cut (a :: rest) p) _) hclock
    rw [run] at hclock ⊢
    cases hstep : p.step cut a with
    | none =>
      rw [hstep] at hclock
      exact ih h hclock
    | some r =>
      rw [hstep] at hclock
      exact ih ((moves_of_step hstep).stage_ne_failed hsize hnow h) hclock

theorem stage_of_ended (hsize : cut.size ≤ Batching.maxSize) {actions : List Action}
    (hclock : (run cut actions start).1.clock + cut.window.nanos < Batching.endOfTime)
    (hended : (run cut actions start).1.stage.hasEnded = true) :
    (run cut actions start).1.stage = .stopped := by
  have hlive := stage_run_ne_failed hsize (p := start) nofun hclock
  cases hstage : (run cut actions start).1.stage with
  | stopped => rfl
  | failed => exact absurd hstage hlive
  | unstarted | idle | gathering | draining =>
    rw [hstage] at hended
    cases hended

theorem flatten_of_stopped {actions : List Action}
    (hstop : (run cut actions start).1.stage = .stopped) :
    (run cut actions start).2.flatten = accepted cut actions start := by
  obtain ⟨hlast, _, hflatten⟩ := run_sound (start_sound cut) actions
  rw [Sound, hstop] at hlast
  rcases hflatten with hflatten | ⟨hfailed, _⟩
  · rw [pending, hlast.2.1, hlast.2.2, List.append_nil, List.append_nil] at hflatten
    exact hflatten
  · cases hstop.symm.trans hfailed

/-- All that waits for a consumer is lost if it cannot set room for a batch aside or the window of
its first batch has no end. -/
theorem run_loses (hstage : p.stage = .unstarted) (hwaiting : p.queue.waiting ≠ [])
    (h : ¬ (cut.size ≤ Batching.maxSize ∧ p.clock + cut.window.nanos < Batching.endOfTime)) :
    run cut [.setUp, .receive] p = (p.fail, []) := by
  by_cases hsize : cut.size ≤ Batching.maxSize
  · obtain ⟨e, rest, hfirst⟩ := List.exists_cons_of_ne_nil hwaiting
    have hlate : Batching.endOfTime ≤ p.clock + cut.window.nanos :=
      Nat.le_of_not_lt fun hclock => h ⟨hsize, hclock⟩
    simp only [run, step, hstage, hsize, if_true, unwritten, EventQueue.receive?, hfirst,
      Option.map_some, Batching.deadline?_of_le hlate]
    rfl
  · simp only [run, step, hstage, hsize, if_false, unwritten]
    rfl

theorem run_loses_event (cut : Batching) {latest : Nat}
    (h : ¬ (cut.size ≤ Batching.maxSize ∧ latest + cut.window.nanos < Batching.endOfTime))
    (e : UsageEvent) :
    let actions := [.send e, .wait latest, .setUp, .receive]
    run cut actions start = ({ start with clock := latest }.fail, []) ∧
      e ∈ accepted cut actions start := by
  intro actions
  have hactions : actions = [.send e, .wait latest] ++ [.setUp, .receive] := rfl
  let first := (run cut [.send e, .wait latest] start).1
  have hfirst : first = { start with clock := latest, queue := ⟨[e], true⟩ } :=
    congrArg (fun clock => { start with clock := clock, queue := ⟨[e], true⟩ }) (Nat.zero_add latest)
  have hloses : run cut [.setUp, .receive] first = (first.fail, []) := by
    rw [hfirst]
    exact run_loses rfl (List.cons_ne_nil e []) h
  constructor
  · rw [hactions, run_append, hloses, hfirst]
    rfl
  · rw [hactions, accepted_append]
    exact List.mem_append_left _ (List.mem_singleton_self e)

end Fail

open LawfulEventStore in
/-- What a consumer hands over is the beginning of what was accepted, in order, in batches that are
neither empty nor too large. A batch that cannot be stored is lost, and no other one. What is
reported to a closed queue changes nothing. Once a consumer has ended all that was accepted has been
handed over, as long as its clock does not pass a time, exactly if room for a batch can be set aside
and a clock can show the end of a window from that time on. -/
theorem run_delivers_iff {σ : Type} [EventStore σ] [LawfulEventStore σ] (size : Nat)
    (window : Duration) (store : σ) :
    let cut := Batching.ofSize size window
    (∀ actions,
      let (last, batches) := run cut actions start
      batches.flatten <+: accepted cut actions start ∧
      (∀ batch ∈ batches, batch ≠ [] ∧ batch.length ≤ max size 1) ∧
      events (Service.storeBatches batches store) =
        events store ++ (Service.keptBatches batches store).flatten.map .ofEvent ∧
      ∀ before e after, actions = before ++ .send e :: after →
        (run cut before start).1.queue.isOpen = false →
          (last, batches) = run cut (before ++ after) start ∧
          accepted cut actions start = accepted cut (before ++ after) start) ∧
    ∀ latest, (∀ actions,
      let (last, batches) := run cut actions start
      last.clock ≤ latest → last.stage.hasEnded = true →
        batches.flatten = accepted cut actions start) ↔
      max size 1 ≤ Batching.maxSize ∧ latest + window.nanos < Batching.endOfTime := by
  intro cut
  refine ⟨fun actions => ?_, fun latest => ⟨fun hall => ?_, fun ⟨hsize, hlate⟩ actions => ?_⟩⟩
  · obtain ⟨_, hbatches, hflatten⟩ := run_sound (start_sound cut) actions
    refine ⟨?_, hbatches, Service.events_storeBatches _ store, ?_⟩
    · rcases hflatten with hflatten | ⟨_, hprefix⟩
      · exact ⟨_, hflatten⟩
      · exact hprefix
    · rintro before e after rfl hclosed
      exact ⟨run_send_of_closed cut hclosed e after, accepted_send_of_closed cut hclosed e after⟩
  · refine Classical.byContradiction fun hbad => ?_
    let e : UsageEvent := ⟨⟨1⟩, ⟨0, 0⟩, "", "", none, none⟩
    obtain ⟨hrun, hlost⟩ := run_loses_event cut hbad e
    have hsame := hall [.send e, .wait latest, .setUp, .receive]
    rw [hrun] at hsame
    rw [← hsame (Nat.le_refl latest) rfl] at hlost
    cases hlost
  · change (run cut actions start).1.clock ≤ latest → _ → (run cut actions start).2.flatten = _
    intro hclock hended
    have hshown := Nat.lt_of_le_of_lt (Nat.add_le_add_right hclock cut.window.nanos) hlate
    exact flatten_of_stopped (stage_of_ended hsize hshown hended)

/-- The second of three batches cannot be stored, and the last event comes too late. -/
theorem run_delivers_iff_of_refused_host :
    let event (id : Nat) (host : String) : UsageEvent := ⟨⟨id⟩, ⟨0, 0⟩, host, "Pooled", none, none⟩
    let actions : List Action := [.send (event 1 "a"), .send (event 2 "b"), .send (event 3 "a"),
      .setUp, .receive, .cancel, .receive, .heedCancel, .drain, .send (event 4 "a"), .drain]
    let batches := (run (.ofSize 0 .zero) actions start).2
    (run (.ofSize 0 .zero) actions start).1.stage = .stopped ∧
      batches.flatten = [event 1 "a", event 2 "b", event 3 "a"] ∧
      (Service.storeBatches batches (Database.fresh.refuseHost "b")).events.map StoredEvent.id =
        [⟨1⟩, ⟨3⟩] := by
  intro event actions batches
  obtain ⟨hevery, hends⟩ := run_delivers_iff 0 .zero (Database.fresh.refuseHost "b")
  have hstop : (run (.ofSize 0 .zero) actions start).1.stage = .stopped := by decide +kernel
  have hflatten := (hends 0).2 ⟨by decide, by decide⟩ actions (by decide +kernel)
    (congrArg Stage.hasEnded hstop)
  refine ⟨hstop, hflatten.trans (by decide +kernel), ?_⟩
  exact (congrArg (List.map StoredEvent.id) (hevery actions).2.2.1).trans (by decide +kernel)

/-- An event that waits before the consumer begins is lost. -/
theorem run_loses_of_huge_size :
    let event : UsageEvent := ⟨⟨1⟩, ⟨0, 0⟩, "a", "Pooled", none, none⟩
    let cut := Batching.ofSize 9223372036854775808 (.ofSeconds 1)
    let r := run cut [.send event, .setUp] start
    accepted cut [.send event, .setUp] start = [event] ∧ r.1.stage.hasEnded = true ∧
      r.1.pending = [] ∧ r.2 = [] := by
  decide +kernel

end Pipeline

end ProviderScout
