import ProviderScout.Proofs.Usage.Delivery

namespace ProviderScout

def Action.isConsumers : Action → Bool
  | .send _ | .hangUp | .cancel | .wait _ => false
  | _ => true

namespace Batching

/-- Cuts events into chunks of the full size; what is left at the end is one of its own. -/
def chunks (cut : Batching) (events : List UsageEvent) : List (List UsageEvent) :=
  match events with
  | [] => []
  | e :: rest => (e :: rest).take cut.size :: cut.chunks ((e :: rest).drop cut.size)
termination_by events.length
decreasing_by
  have hpos := cut.size_pos
  simp only [List.length_cons, List.length_drop]
  omega

theorem chunks_nil (cut : Batching) : cut.chunks [] = [] := by
  rw [chunks]

theorem chunks_of_le {cut : Batching} {events : List UsageEvent} (hne : events ≠ [])
    (h : events.length ≤ cut.size) : cut.chunks events = [events] := by
  cases events with
  | nil => exact absurd rfl hne
  | cons e rest => rw [chunks, List.take_of_length_le h, List.drop_of_length_le h, chunks_nil]

theorem chunks_append {cut : Batching} {full : List UsageEvent} (h : full.length = cut.size)
    (rest : List UsageEvent) : cut.chunks (full ++ rest) = full :: cut.chunks rest := by
  have hpos := cut.size_pos
  cases full with
  | nil =>
    rw [List.length_nil] at h
    omega
  | cons e others =>
    rw [List.cons_append, chunks, ← List.cons_append, List.take_left' h, List.drop_left' h]

end Batching

namespace Pipeline

/-- The events that an action takes from the queue, with the time. -/
def takes (a : Action) (p : Pipeline) : List (UsageEvent × Nat) :=
  match a, p.stage with
  | .receive, .idle | .receive, .gathering _ | .drain, .draining =>
    (p.queue.receive?.map fun (e, _) => (e, p.clock)).toList
  | _, _ => []

def taken (cut : Batching) : List Action → Pipeline → List (UsageEvent × Nat)
  | [], _ => []
  | a :: rest, p => match p.step cut a with
    | none => taken cut rest p
    | some (q, _) => p.takes a ++ taken cut rest q

/-- Whether a batch is what was taken last, its first event at some time. -/
def TookLast (log : List (UsageEvent × Nat)) (batch : List UsageEvent) (time : Nat) : Prop :=
  ∃ earlier first own, log = earlier ++ (first, time) :: own ∧ batch = first :: own.map (·.1)

theorem tookLast_first (log : List (UsageEvent × Nat)) (e : UsageEvent) (time : Nat) :
    TookLast (log ++ [(e, time)]) [e] time := ⟨log, e, [], rfl, rfl⟩

theorem TookLast.next {log : List (UsageEvent × Nat)} {batch : List UsageEvent} {time : Nat}
    (h : TookLast log batch time) (e : UsageEvent) (now : Nat) :
    TookLast (log ++ [(e, now)]) (batch ++ [e]) time := by
  obtain ⟨earlier, first, own, rfl, rfl⟩ := h
  refine ⟨earlier, first, own ++ [(e, now)], List.append_assoc _ _ _, ?_⟩
  rw [List.map_append]
  rfl

/-- Whether the deadline of a consumer is that of the first event it has in hand, and one that
writes what is left has a reason for it. -/
def Timed (cut : Batching) (log : List (UsageEvent × Nat)) (p : Pipeline) : Prop :=
  match p.stage with
  | .gathering deadline =>
    ∃ time, TookLast log p.batch time ∧ deadline = time + cut.window.nanos
  | .draining => p.hasSenders = false ∨ p.cancelled = true
  | _ => True

section Step

variable {cut : Batching} {p : Pipeline} {log : List (UsageEvent × Nat)}

theorem Timed.of_gathering {deadline : Nat} (h : Timed cut log p)
    (hstage : p.stage = .gathering deadline) :
    ∃ time, TookLast log p.batch time ∧ deadline = time + cut.window.nanos := by
  rwa [Timed, hstage] at h

theorem Timed.of_draining (h : Timed cut log p) (hstage : p.stage = .draining) :
    p.hasSenders = false ∨ p.cancelled = true := by
  rwa [Timed, hstage] at h

theorem Timed.mono {q : Pipeline} (h : Timed cut log p) (hstage : q.stage = p.stage)
    (hbatch : q.batch = p.batch) (hsenders : p.hasSenders = false → q.hasSenders = false)
    (hcancelled : p.cancelled = true → q.cancelled = true) : Timed cut log q := by
  rw [Timed] at h ⊢
  rw [hstage, hbatch]
  split at h
  · exact h
  · exact h.imp hsenders hcancelled
  · trivial

theorem Moves.timed {a : Action} {r : Pipeline × List UsageEvent} (hmoves : Moves cut p a r)
    (hsound : p.Sound cut) (h : Timed cut log p) : Timed cut (log ++ p.takes a) r.1 := by
  have hsame : Timed cut (log ++ []) p := (List.append_nil log).symm ▸ h
  cases hmoves with
  | send e => exact hsame
  | hangUp => exact hsame.mono rfl rfl (fun _ => rfl) id
  | cancel => exact hsame.mono rfl rfl id fun _ => rfl
  | wait nanos => exact hsame
  | setUp | setUpFails | firstFails => trivial
  | @first e queue hstage hr _ =>
    have htakes : p.takes .receive = [(e, p.clock)] := by simp only [takes, hstage, hr]; rfl
    rw [htakes]
    rcases take_cases .idle (.gathering (p.clock + cut.window.nanos)) e queue hsound.length_lt with
      ⟨htake, _⟩ | ⟨htake, _⟩ <;> rw [htake]
    · refine ⟨p.clock, ?_, rfl⟩
      change TookLast _ (p.batch ++ [e]) _
      rw [(hsound.of_idle hstage).2]
      exact tookLast_first log e p.clock
    · trivial
  | @next deadline e queue hstage hr =>
    have htakes : p.takes .receive = [(e, p.clock)] := by simp only [takes, hstage, hr]; rfl
    rw [htakes]
    obtain ⟨time, hlast, hdeadline⟩ := h.of_gathering hstage
    rcases take_cases .idle (.gathering deadline) e queue hsound.length_lt with
      ⟨htake, _⟩ | ⟨htake, _⟩ <;> rw [htake]
    · exact ⟨time, hlast.next e p.clock, hdeadline⟩
    · trivial
  | expire | endByCancel | endByHangUp | stop => trivial
  | leaveByCancel _ hcancelled => exact .inr hcancelled
  | leaveByHangUp _ hgone _ => exact .inl hgone
  | @drain e queue hstage hr =>
    rcases take_cases .draining .draining e queue hsound.length_lt with
      ⟨htake, _⟩ | ⟨htake, _⟩ <;> rw [htake] <;> exact h.of_draining hstage

theorem length_of_take {full more : Stage} {e : UsageEvent} {queue : EventQueue}
    (hsound : p.Sound cut) (hne : (p.take cut full more e queue).2 ≠ []) :
    (p.take cut full more e queue).2.length = cut.size := by
  rcases take_cases full more e queue hsound.length_lt with ⟨htake, _⟩ | ⟨htake, hfull⟩
  · rw [htake] at hne
    exact absurd rfl hne
  · rw [htake]
    exact hfull

/-- A batch that is not full is handed over for one of three reasons. -/
theorem Moves.on_time {a : Action} {r : Pipeline × List UsageEvent} (hmoves : Moves cut p a r)
    (hsound : p.Sound cut) (h : Timed cut log p) (hne : r.2 ≠ []) (hpart : r.2.length < cut.size) :
    (∃ time, TookLast log r.2 time ∧ time + cut.window.nanos ≤ p.clock) ∨
      p.hasSenders = false ∨ p.cancelled = true := by
  cases hmoves with
  | send | hangUp | cancel | wait => exact absurd rfl hne
  | setUp | setUpFails | firstFails | leaveByCancel | leaveByHangUp => exact absurd rfl hne
  | first | next | drain => exact absurd (length_of_take hsound hne) (Nat.ne_of_lt hpart)
  | expire hstage hover =>
    obtain ⟨time, hlast, rfl⟩ := h.of_gathering hstage
    exact .inl ⟨time, hlast, hover⟩
  | endByCancel _ hcancelled => exact .inr (.inr hcancelled)
  | endByHangUp _ hgone _ => exact .inr (.inl hgone)
  | stop hstage _ => exact .inr (h.of_draining hstage)

end Step

theorem run_timed {cut : Batching} {p : Pipeline} {log : List (UsageEvent × Nat)}
    (hsound : p.Sound cut) (h : Timed cut log p) (actions : List Action) :
    Timed cut (log ++ taken cut actions p) (run cut actions p).1 := by
  induction actions generalizing p log with
  | nil =>
    rw [taken, List.append_nil]
    exact h
  | cons a rest ih =>
    rw [run, taken]
    cases hstep : p.step cut a with
    | none => exact ih hsound h
    | some r =>
      rw [← List.append_assoc]
      exact ih (hsound.step hstep).sound ((moves_of_step hstep).timed hsound h)

/-- Whether an action is the consumer's, or time passes while there is nothing to take. -/
def quiet (a : Action) (p : Pipeline) : Bool :=
  match a with
  | .wait _ => p.queue.waiting.isEmpty
  | a => a.isConsumers

/-- Whether nobody but the consumer acts, and time passes only while there is nothing to take. -/
def isQuiet (cut : Batching) : List Action → Pipeline → Bool
  | [], _ => true
  | a :: rest, p => p.quiet a && match p.step cut a with
    | none => isQuiet cut rest p
    | some (q, _) => isQuiet cut rest q

/-- Whether the consumer has nothing to do for now. -/
def Rests (cut : Batching) (p : Pipeline) : Prop :=
  ∀ a : Action, a.isConsumers = true → p.step cut a = none

/-- The pipeline after events have been reported at once, at some time and before any other. -/
def burst (cut : Batching) (clock : Nat) (events : List UsageEvent) : Pipeline :=
  (run cut (.wait clock :: events.map .send) start).1

theorem run_sends {cut : Batching} {p : Pipeline} (h : p.queue.isOpen = true)
    (events : List UsageEvent) :
    (run cut (events.map .send) p).1 =
      { p with queue := { p.queue with waiting := p.queue.waiting ++ events } } := by
  induction events generalizing p with
  | nil =>
    rw [List.append_nil]
    rfl
  | cons e rest ih =>
    have hsend : p.queue.send e = { p.queue with waiting := p.queue.waiting ++ [e] } := if_pos h
    rw [List.map_cons, run, step, hsend]
    simp only [unwritten]
    rw [ih]
    · rw [List.append_assoc, List.singleton_append]
    · exact h

theorem burst_eq (cut : Batching) (clock : Nat) (events : List UsageEvent) :
    burst cut clock events = { start with clock := clock, queue := ⟨events, true⟩ } := by
  rw [burst, run, step]
  simp only [unwritten]
  rw [run_sends rfl]
  simp only [start, EventQueue.empty, List.nil_append, Nat.zero_add]

/-- Whether a consumer collects batches, and no window is over while there is something to take. -/
def Collects (p : Pipeline) : Prop :=
  match p.stage with
  | .unstarted | .idle => True
  | .gathering deadline => p.batch ≠ [] ∧ (p.queue.waiting ≠ [] → p.clock < deadline)
  | .draining | .stopped | .failed => False

/-- What holds of a consumer that is left alone with a burst. -/
structure Undisturbed (cut : Batching) (p : Pipeline) : Prop where
  sound : p.Sound cut
  senders : p.hasSenders = true
  cancelled : p.cancelled = false
  collects : p.Collects

def handed (batch : List UsageEvent) : List (List UsageEvent) :=
  if batch.isEmpty then [] else [batch]

section Quiet

variable {cut : Batching} {p : Pipeline}

theorem Collects.of_gathering {deadline : Nat} (h : p.Collects)
    (hstage : p.stage = .gathering deadline) :
    p.batch ≠ [] ∧ (p.queue.waiting ≠ [] → p.clock < deadline) := by
  rwa [Collects, hstage] at h

theorem Collects.not_draining (h : p.Collects) : p.stage ≠ .draining := by
  intro hstage
  rwa [Collects, hstage] at h

theorem Collects.not_ended (h : p.Collects) : p.stage.hasEnded = false := by
  cases hstage : p.stage with
  | unstarted | idle | gathering | draining => rfl
  | stopped | failed =>
    rw [Collects, hstage] at h
    exact h.elim

theorem Collects.wait (h : p.Collects) (hnone : p.queue.waiting = []) (nanos : Nat) :
    Collects { p with clock := p.clock + nanos } := by
  rw [Collects]
  split <;> rename_i hstage
  · trivial
  · trivial
  · exact ⟨(h.of_gathering hstage).1, fun hsome => absurd hnone hsome⟩
  · exact h.not_draining hstage
  · cases (congrArg Stage.hasEnded hstage).symm.trans h.not_ended
  · cases (congrArg Stage.hasEnded hstage).symm.trans h.not_ended

theorem Undisturbed.take (h : p.Undisturbed cut) {e : UsageEvent} {queue : EventQueue}
    (hr : p.queue.receive? = some (e, queue)) {deadline : Nat} (hdeadline : p.clock < deadline)
    {r : Pipeline × List UsageEvent} (hr' : p.take cut .idle (.gathering deadline) e queue = r)
    (hsound : r.1.Sound cut) :
    r.1.Undisturbed cut ∧ cut.chunks p.pending = handed r.2 ++ cut.chunks r.1.pending := by
  have hpending : p.pending = (p.batch ++ [e]) ++ queue.waiting := by
    rw [pending, EventQueue.waiting_of_receive? hr, List.append_assoc]
    rfl
  subst hr'
  rcases take_cases .idle (.gathering deadline) e queue h.sound.length_lt with
    ⟨htake, _⟩ | ⟨htake, hfull⟩ <;> rw [htake] at hsound ⊢
  · refine ⟨⟨hsound, h.senders, h.cancelled, ?_, fun _ => hdeadline⟩, ?_⟩
    · exact List.append_ne_nil_of_right_ne_nil _ (List.cons_ne_nil e [])
    · rw [hpending]
      rfl
  · refine ⟨⟨hsound, h.senders, h.cancelled, trivial⟩, ?_⟩
    rw [hpending, Batching.chunks_append hfull, handed, if_neg]
    · rfl
    · rw [List.isEmpty_iff]
      exact List.append_ne_nil_of_right_ne_nil _ (List.cons_ne_nil e [])

theorem Moves.undisturbed {a : Action} {r : Pipeline × List UsageEvent} (hmoves : Moves cut p a r)
    (hwindow : 0 < cut.window.nanos) (hsize : cut.size ≤ Batching.maxSize)
    (hclock : p.clock + cut.window.nanos < Batching.endOfTime) (hquiet : p.quiet a = true)
    (hsound : r.1.Sound cut) (h : p.Undisturbed cut) :
    r.1.Undisturbed cut ∧ cut.chunks p.pending = handed r.2 ++ cut.chunks r.1.pending := by
  cases hmoves with
  | send | hangUp | cancel => cases hquiet
  | wait nanos =>
    have hnone : p.queue.waiting = [] := List.isEmpty_iff.1 hquiet
    exact ⟨⟨hsound, h.senders, h.cancelled, h.collects.wait hnone nanos⟩, rfl⟩
  | setUp hstage _ => exact ⟨⟨hsound, h.senders, h.cancelled, trivial⟩, rfl⟩
  | setUpFails _ hlarge => exact absurd hsize (Nat.not_le_of_lt hlarge)
  | firstFails _ _ hlate => exact absurd hclock (Nat.not_lt_of_le hlate)
  | first hstage hr _ =>
    exact h.take hr (Nat.lt_add_of_pos_right hwindow) rfl hsound
  | next hstage hr =>
    have hwaiting := EventQueue.waiting_of_receive? hr
    have hbefore := (h.collects.of_gathering hstage).2 (hwaiting ▸ List.cons_ne_nil _ _)
    exact h.take hr hbefore rfl hsound
  | expire hstage hover =>
    obtain ⟨hne, hearly⟩ := h.collects.of_gathering hstage
    -- Time passed only while nothing waited, so a window that is over leaves nothing to take.
    have hnone : p.queue.waiting = [] := Classical.byContradiction fun hsome =>
      absurd hover (Nat.not_le_of_lt (hearly hsome))
    have hpending : p.pending = p.batch := by rw [pending, hnone, List.append_nil]
    refine ⟨⟨hsound, h.senders, h.cancelled, trivial⟩, ?_⟩
    change _ = handed p.batch ++ cut.chunks p.queue.waiting
    rw [hpending, Batching.chunks_of_le hne (Nat.le_of_lt h.sound.length_lt), handed,
      if_neg (mt List.isEmpty_iff.1 hne), hnone, Batching.chunks_nil, List.append_nil]
  | leaveByCancel _ hcancelled | endByCancel _ hcancelled =>
    cases h.cancelled.symm.trans hcancelled
  | leaveByHangUp _ hgone _ | endByHangUp _ hgone _ => cases h.senders.symm.trans hgone
  | drain hstage _ | stop hstage _ => exact absurd hstage h.collects.not_draining

theorem run_undisturbed (hwindow : 0 < cut.window.nanos) (hsize : cut.size ≤ Batching.maxSize)
    {actions : List Action}
    (hclock : (run cut actions p).1.clock + cut.window.nanos < Batching.endOfTime)
    (hquiet : isQuiet cut actions p = true) (h : p.Undisturbed cut) :
    (run cut actions p).1.Undisturbed cut ∧
      cut.chunks p.pending = (run cut actions p).2 ++ cut.chunks (run cut actions p).1.pending := by
  induction actions generalizing p with
  | nil => exact ⟨h, rfl⟩
  | cons a rest ih =>
    rw [isQuiet, Bool.and_eq_true] at hquiet
    obtain ⟨ha, hrest⟩ := hquiet
    have hnow : p.clock + cut.window.nanos < Batching.endOfTime :=
      Nat.lt_of_le_of_lt (Nat.add_le_add_right (clock_le_run cut (a :: rest) p) _) hclock
    rw [run] at hclock ⊢
    cases hstep : p.step cut a with
    | none =>
      rw [hstep] at hrest hclock
      exact ih hclock hrest h
    | some r =>
      obtain ⟨q, batch⟩ := r
      rw [hstep] at hrest hclock
      have hsound : q.Sound cut := (h.sound.step hstep).sound
      obtain ⟨hnext, hchunks⟩ :=
        (moves_of_step hstep).undisturbed hwindow hsize hnow ha hsound h
      obtain ⟨hlast, hothers⟩ := ih hclock hrest hnext
      refine ⟨hlast, hchunks.trans ?_⟩
      rw [hothers, ← List.append_assoc]
      cases batch <;> rfl

theorem waiting_of_rests (h : p.Collects) (hrests : p.Rests cut) : p.queue.waiting = [] := by
  have hreceive := hrests .receive rfl
  cases hstage : p.stage with
  | unstarted =>
    have hsetUp := hrests .setUp rfl
    simp only [step, hstage, reduceCtorEq] at hsetUp
  | idle | gathering deadline =>
    simp only [step, hstage, Option.map_eq_none_iff] at hreceive
    exact EventQueue.waiting_of_receive?_none hreceive
  | draining => exact absurd hstage h.not_draining
  | stopped | failed => cases (congrArg Stage.hasEnded hstage).symm.trans h.not_ended

/-- A consumer that has nothing to do has at most a batch in hand that is not full and whose window
is not over. -/
theorem pending_of_rests {log : List (UsageEvent × Nat)} (h : p.Undisturbed cut)
    (htimed : Timed cut log p) (hrests : p.Rests cut) :
    p.pending = [] ∨ p.pending.length < cut.size ∧
      ∃ time, TookLast log p.pending time ∧ p.clock < time + cut.window.nanos := by
  have hpending : p.pending = p.batch := by
    rw [pending, waiting_of_rests h.collects hrests, List.append_nil]
  rw [hpending]
  cases hstage : p.stage with
  | unstarted => exact .inl (h.sound.of_unstarted hstage).2
  | idle => exact .inl (h.sound.of_idle hstage).2
  | gathering deadline =>
    obtain ⟨time, hlast, rfl⟩ := htimed.of_gathering hstage
    have hexpire := hrests .expire rfl
    simp only [step, hstage, ite_eq_right_iff, reduceCtorEq, imp_false, Nat.not_le] at hexpire
    exact .inr ⟨h.sound.length_lt, time, hlast, hexpire⟩
  | draining => exact absurd hstage h.collects.not_draining
  | stopped | failed => cases (congrArg Stage.hasEnded hstage).symm.trans h.collects.not_ended

end Quiet

def remaining : Stage → Nat
  | .unstarted | .gathering _ => 3
  | .idle => 2
  | .draining => 1
  | .stopped | .failed => 0

/-- A bound on the actions of a consumer to which nothing is reported any more. -/
def effort (p : Pipeline) : Nat := 2 * p.queue.waiting.length + remaining p.stage

theorem effort_lt_of_stage {p q : Pipeline} (hstage : remaining q.stage < remaining p.stage)
    (hqueue : q.queue.waiting = p.queue.waiting) : q.effort < p.effort := by
  rw [effort, effort, hqueue]
  exact Nat.add_lt_add_left hstage _

theorem effort_take_lt {cut : Batching} {p : Pipeline} {full more : Stage} {e : UsageEvent}
    {queue : EventQueue} (hr : p.queue.receive? = some (e, queue))
    (hfull : remaining full ≤ remaining p.stage + 1)
    (hmore : remaining more ≤ remaining p.stage + 1) :
    (p.take cut full more e queue).1.effort < p.effort := by
  obtain ⟨hqueue, hstage⟩ := take_frame cut full more e queue p
  rw [effort, effort, hqueue, EventQueue.waiting_of_receive? hr, List.length_cons]
  rcases hstage with hstage | hstage <;> rw [hstage] <;> omega

theorem effort_fail_lt {p : Pipeline} (h : 0 < remaining p.stage) : p.fail.effort < p.effort :=
  Nat.lt_of_lt_of_le h (Nat.le_add_left _ _)

theorem Moves.effort_lt {cut : Batching} {p : Pipeline} {a : Action}
    {r : Pipeline × List UsageEvent} (hmoves : Moves cut p a r) (ha : a.isConsumers = true) :
    r.1.effort < p.effort := by
  cases hmoves with
  | send | hangUp | cancel | wait => cases ha
  | first h hr _ | next h hr | drain h hr =>
    apply effort_take_lt hr <;> simp only [h, remaining] <;> omega
  | setUpFails h _ | firstFails h _ _ =>
    apply effort_fail_lt
    simp only [h, remaining]
    omega
  | setUp h _ | expire h _ | leaveByCancel h _ | endByCancel h _ | leaveByHangUp h _ _
  | endByHangUp h _ _ | stop h _ =>
    apply effort_lt_of_stage
    · simp only [written, unwritten, beginDrain, h, remaining]
      omega
    · rfl

theorem exists_rests (cut : Batching) (p : Pipeline) :
    ∃ more : List Action, (∀ a ∈ more, a.isConsumers = true) ∧ (run cut more p).1.Rests cut := by
  induction hn : p.effort using Nat.strongRecOn generalizing p with
  | ind n ih =>
    by_cases hrests : p.Rests cut
    · exact ⟨[], nofun, hrests⟩
    · obtain ⟨a, hbusy⟩ := Classical.not_forall.1 hrests
      obtain ⟨ha, hsome⟩ := Classical.not_imp.1 hbusy
      obtain ⟨⟨q, batch⟩, hstep⟩ := Option.ne_none_iff_exists'.1 hsome
      -- Whatever the consumer can still do brings it closer to its end.
      have hlt : q.effort < n := hn ▸ (moves_of_step hstep).effort_lt ha
      obtain ⟨more, hmore, hrests⟩ := ih q.effort hlt q rfl
      refine ⟨a :: more, List.forall_mem_cons.2 ⟨ha, hmore⟩, ?_⟩
      rw [run, hstep]
      exact hrests

theorem quiet_of_isConsumers {a : Action} (h : a.isConsumers = true) (p : Pipeline) :
    p.quiet a = true := by
  cases a with
  | wait nanos => cases h
  | _ => exact h

theorem isQuiet_append {cut : Batching} {first second : List Action} {p : Pipeline}
    (hfirst : isQuiet cut first p = true) (hsecond : ∀ a ∈ second, a.isConsumers = true) :
    isQuiet cut (first ++ second) p = true := by
  induction first generalizing p with
  | nil =>
    induction second generalizing p with
    | nil => rfl
    | cons a rest ih =>
      obtain ⟨ha, hrest⟩ := List.forall_mem_cons.1 hsecond
      rw [List.nil_append, isQuiet, quiet_of_isConsumers ha, Bool.true_and]
      split <;> exact ih hrest rfl
  | cons a rest ih =>
    rw [isQuiet, Bool.and_eq_true] at hfirst
    rw [List.cons_append, isQuiet, hfirst.1, Bool.true_and]
    split <;> rename_i hstep <;> rw [hstep] at hfirst <;> exact ih hfirst.2

end Pipeline

namespace Batching

open Pipeline

/-- Whether a batch that is not full is handed over only when the window of its first event is over,
nobody is left who may report, or the consumer is asked to stop. -/
def CutsOnTime (cut : Batching) : Prop :=
  ∀ (actions : List Action) (a : Action) (q : Pipeline) (batch : List UsageEvent),
    let p := (run cut actions start).1
    p.step cut a = some (q, batch) → batch ≠ [] → batch.length < cut.size →
      (∃ time, TookLast (taken cut actions start) batch time ∧
        time + cut.window.nanos ≤ p.clock) ∨
      p.hasSenders = false ∨ p.cancelled = true

/-- How events that are reported at once, and no others, are handed over, as long as the clock does
not pass a time. -/
structure CutsInChunks (cut : Batching) (latest : Nat) : Prop where
  /-- The batches are the first of the chunks, and what is pending makes up the others. -/
  consecutive (clock : Nat) (events : List UsageEvent) (actions : List Action) :
    let first := burst cut clock events
    let p := (run cut actions first).1
    p.clock ≤ latest → isQuiet cut actions first = true →
      cut.chunks events = (run cut actions first).2 ++ cut.chunks p.pending
  /-- A consumer at rest has nothing in hand but a chunk that is not full and whose window is not
  over. -/
  settled (clock : Nat) (events : List UsageEvent) (actions : List Action) :
    let first := burst cut clock events
    let p := (run cut actions first).1
    p.clock ≤ latest → isQuiet cut actions first = true → p.Rests cut →
      p.pending = [] ∨ p.pending.length < cut.size ∧
        ∃ time, TookLast (taken cut actions first) p.pending time ∧
          p.clock < time + cut.window.nanos
  /-- A consumer comes to rest without any time passing. -/
  settles (clock : Nat) (events : List UsageEvent) (actions : List Action) :
    let first := burst cut clock events
    isQuiet cut actions first = true →
      ∃ more : List Action, (∀ a ∈ more, a.isConsumers = true) ∧
        isQuiet cut (actions ++ more) first = true ∧
        (run cut (actions ++ more) first).1.Rests cut

theorem cutsOnTime (cut : Batching) : cut.CutsOnTime := by
  intro actions a q batch p hstep hne hpart
  have hsound : p.Sound cut := (run_sound (start_sound cut) actions).1
  have hstart : Timed cut [] start := trivial
  have htimed := run_timed (start_sound cut) hstart actions
  exact (moves_of_step hstep).on_time hsound htimed hne hpart

theorem undisturbed_burst (cut : Batching) (clock : Nat) (events : List UsageEvent) :
    (burst cut clock events).Undisturbed cut ∧ Timed cut [] (burst cut clock events) ∧
      (burst cut clock events).pending = events := by
  rw [burst_eq]
  exact ⟨⟨⟨rfl, rfl⟩, rfl, rfl, trivial⟩, trivial, rfl⟩

theorem cutsInChunks {cut : Batching} {latest : Nat} (hwindow : 0 < cut.window.nanos)
    (hsize : cut.size ≤ maxSize) (hlate : latest + cut.window.nanos < endOfTime) :
    cut.CutsInChunks latest := by
  constructor
  · intro clock events actions first p hclock hquiet
    have hshown := Nat.lt_of_le_of_lt (Nat.add_le_add_right hclock cut.window.nanos) hlate
    obtain ⟨hfirst, _, hpending⟩ := undisturbed_burst cut clock events
    have hchunks := (run_undisturbed hwindow hsize hshown hquiet hfirst).2
    rwa [hpending] at hchunks
  · intro clock events actions first p hclock hquiet hrests
    have hshown := Nat.lt_of_le_of_lt (Nat.add_le_add_right hclock cut.window.nanos) hlate
    obtain ⟨hfirst, htimed, _⟩ := undisturbed_burst cut clock events
    have hlast := (run_undisturbed hwindow hsize hshown hquiet hfirst).1
    exact pending_of_rests hlast (run_timed hfirst.sound htimed actions) hrests
  · intro clock events actions first hquiet
    obtain ⟨more, hmore, hrests⟩ := exists_rests cut (run cut actions first).1
    refine ⟨more, hmore, isQuiet_append hquiet hmore, ?_⟩
    rw [run_append]
    exact hrests

theorem not_cutsInChunks {cut : Batching} {latest : Nat}
    (h : ¬ (cut.size ≤ maxSize ∧ latest + cut.window.nanos < endOfTime)) :
    ¬ cut.CutsInChunks latest := by
  intro hcuts
  let e : UsageEvent := ⟨⟨1⟩, ⟨0, 0⟩, "", "", none, none⟩
  have hburst := burst_eq cut latest [e]
  have hloses : run cut [.setUp, .receive] (burst cut latest [e]) =
      ((burst cut latest [e]).fail, []) := by
    rw [hburst]
    exact run_loses rfl (List.cons_ne_nil e []) h
  have hclock : (burst cut latest [e]).fail.clock = latest := by
    rw [hburst]
    rfl
  have hchunks := hcuts.consecutive latest [e] [.setUp, .receive]
  simp only [hloses] at hchunks
  have hquiet : isQuiet cut ([] ++ [.setUp, .receive]) (burst cut latest [e]) = true :=
    isQuiet_append rfl (by decide)
  have hnone := hchunks (Nat.le_of_eq hclock) hquiet
  rw [chunks_of_le (List.cons_ne_nil e []) cut.size_pos] at hnone
  exact List.cons_ne_nil [e] [] (hnone.trans (chunks_nil cut))

/-- Batches are cut on time. Events that are reported at once are cut in chunks, as long as the
clock does not pass a time, exactly if room for a batch of the full size can be set aside and a clock
can show the end of a window from that time on. -/
theorem cuts_iff (cut : Batching) :
    cut.CutsOnTime ∧ (0 < cut.window.nanos → ∀ latest,
      cut.CutsInChunks latest ↔ cut.size ≤ maxSize ∧ latest + cut.window.nanos < endOfTime) := by
  refine ⟨cutsOnTime cut, fun hwindow latest => ⟨fun hcuts => ?_, fun ⟨hsize, hlate⟩ => ?_⟩⟩
  · exact Classical.byContradiction fun hbad => not_cutsInChunks hbad hcuts
  · exact cutsInChunks hwindow hsize hlate

/-- A burst of 150 events with batches of 100: the other 50 are handed over when their window is
over. -/
theorem cuts_iff_of_burst :
    let event (id : Nat) : UsageEvent :=
      ⟨⟨id⟩, ⟨1700000000, 0⟩, "a", "Pooled", some "BODY", none⟩
    let cut := Batching.ofSize 100 (.ofMillis 200)
    let actions := .setUp :: List.replicate 150 Action.receive ++ [.wait 200000000, .expire]
    let events := (List.range 150).map event
    0 < cut.window.nanos ∧ cut.size ≤ maxSize ∧ isQuiet cut actions (burst cut 7 events) = true ∧
      (run cut actions (burst cut 7 events)).2 = cut.chunks events ∧
      (cut.chunks events).map List.length = [100, 50] := by
  intro event cut actions events
  have hwindow : 0 < cut.window.nanos := by decide +kernel
  have hsize : cut.size ≤ maxSize := by decide +kernel
  have hquiet : isQuiet cut actions (burst cut 7 events) = true := by decide +kernel
  have hcuts : cut.CutsInChunks 200000007 :=
    ((cuts_iff cut).2 hwindow 200000007).2 ⟨hsize, by decide +kernel⟩
  have hchunks := hcuts.consecutive 7 events actions (by decide +kernel) hquiet
  have hpending : (run cut actions (burst cut 7 events)).1.pending = [] := by decide +kernel
  rw [hpending, chunks_nil, List.append_nil] at hchunks
  exact ⟨hwindow, hsize, hquiet, hchunks.symm, by decide +kernel⟩

/-- With a size of 2^63 the consumer breaks off at once: an event is neither handed over when its
window is over nor kept. -/
theorem not_cutsInChunks_of_huge_size :
    let event : UsageEvent := ⟨⟨1⟩, ⟨1700000000, 0⟩, "a", "Pooled", some "BODY", none⟩
    let cut := Batching.ofSize 9223372036854775808 (.ofSeconds 5)
    let actions : List Action := [.setUp, .receive, .wait 5000000000, .expire]
    let r := run cut actions (burst cut 0 [event])
    0 < cut.window.nanos ∧ isQuiet cut actions (burst cut 0 [event]) = true ∧
      cut.chunks [event] = [[event]] ∧ r.2 = [] ∧ r.1.pending = [] ∧
      ∀ latest, ¬ cut.CutsInChunks latest := by
  intro event cut actions r
  have hlarge : ¬ cut.size ≤ maxSize := by decide +kernel
  exact ⟨by decide +kernel, by decide +kernel, by decide +kernel, by decide +kernel,
    by decide +kernel, fun latest => not_cutsInChunks fun hfits => hlarge hfits.1⟩

end Batching

end ProviderScout
