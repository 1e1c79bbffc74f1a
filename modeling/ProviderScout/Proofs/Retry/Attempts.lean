import Mathlib.Order.Bounds.Basic
import ProviderScout.Proofs.Retry.Delays

namespace ProviderScout

/-- Whether an operation is not tried again after an outcome, however often it may be. -/
def IsSettled {α : Type} : Except Error α → Prop
  | .ok _ => True
  | .error e => ¬ e.isRetryable

def refused (α : Type) : Except Error α := .error (.database .connectionFailed "refused")

theorem not_isSettled_refused (α : Type) : ¬ IsSettled (refused α) :=
  not_not.2 (rfl : Error.isRetryable _ = true)

namespace RetryPolicy

section

variable {α : Type} {p : RetryPolicy} {outcome : ℕ → Except Error α} {draw : ℕ → Float}
  {left n : ℕ} {d w : Duration} {r : Attempts α}

theorem attemptsFrom_last (h : left = 0 ∨ IsSettled (outcome n)) :
    p.attemptsFrom outcome draw left n d = ⟨1, [], .answered (outcome n)⟩ := by
  rw [attemptsFrom.eq_def]
  dsimp only
  generalize outcome n = a at h
  cases a with
  | ok a => rfl
  | error e =>
    cases left with
    | zero => rfl
    | succ left => exact if_neg (h.resolve_left nofun)

theorem attemptsFrom_again (h : ¬ IsSettled (outcome n)) :
    p.attemptsFrom outcome draw (left + 1) n d =
      match p.wait? (draw n) d with
      | none => ⟨1, [], .badDelay⟩
      | some wait => match p.next? d with
        | none => ⟨1, [wait], .badDelay⟩
        | some next =>
          let rest := p.attemptsFrom outcome draw left (n + 1) next
          ⟨rest.calls + 1, wait :: rest.waits, rest.ending⟩ := by
  rw [attemptsFrom.eq_def]
  dsimp only
  generalize outcome n = a at h
  cases a with
  | ok a => exact absurd trivial h
  | error e => exact if_pos (not_not.1 h)

/-- What a series of attempts does whose products are all lengths of time, from attempt `n` on. -/
structure Follows (p : RetryPolicy) (outcome : ℕ → Except Error α) (left n : ℕ) (r : Attempts α) :
    Prop where
  calls : r.calls = r.waits.length + 1
  most : r.waits.length ≤ left
  unsettled : ∀ i < r.waits.length, ¬ IsSettled (outcome (n + i))
  settled : r.waits.length = left ∨ IsSettled (outcome (n + r.waits.length))
  ending : r.ending = .answered (outcome (n + r.waits.length))
  waits : ∀ i (h : i < r.waits.length), ∃ d, p.delay? (n + i) = some d ∧ p.Waits d r.waits[i]

theorem Follows.last (h : left = 0 ∨ IsSettled (outcome n)) :
    Follows p outcome left n ⟨1, [], .answered (outcome n)⟩ where
  calls := rfl
  most := Nat.zero_le left
  unsettled := nofun
  settled := h.imp_left Eq.symm
  ending := rfl
  waits := nofun

theorem Follows.again (h : ¬ IsSettled (outcome n)) (hd : p.delay? n = some d) (hw : p.Waits d w)
    (hr : Follows p outcome left (n + 1) r) :
    Follows p outcome (left + 1) n ⟨r.calls + 1, w :: r.waits, r.ending⟩ := by
  have hshift (i : ℕ) : n + 1 + i = n + (i + 1) := by omega
  constructor
  case calls => exact congrArg (· + 1) hr.calls
  case most => exact Nat.succ_le_succ hr.most
  case unsettled =>
    intro i hi
    cases i with
    | zero => exact h
    | succ i =>
      rw [← hshift]
      exact hr.unsettled i (Nat.lt_of_succ_lt_succ hi)
  case settled =>
    have hsettled := hr.settled
    rw [hshift] at hsettled
    exact hsettled.imp_left (congrArg (· + 1))
  case ending =>
    have hending := hr.ending
    rw [hshift] at hending
    exact hending
  case waits =>
    intro i hi
    cases i with
    | zero => exact ⟨d, hd, hw⟩
    | succ i =>
      rw [← hshift]
      exact hr.waits i (Nat.lt_of_succ_lt_succ hi)

theorem follows_attemptsFrom (hp : p.IsRepresentable) (hdraw : ∀ i, 0.0 ≤ draw i ∧ draw i ≤ 1.0)
    (hleft : n + left = p.maxAttempts.toNat) (hd : p.delay? n = some d) :
    Follows p outcome left n (p.attemptsFrom outcome draw left n d) := by
  induction left generalizing n d with
  | zero =>
    rw [attemptsFrom_last (.inl rfl)]
    exact .last (.inl rfl)
  | succ left ih =>
    by_cases h : IsSettled (outcome n)
    · rw [attemptsFrom_last (.inr h)]
      exact .last (.inr h)
    · obtain ⟨d', hd', hproduct, hdouble⟩ := hp n (by omega)
      obtain rfl : d = d' := Option.some.inj (hd.symm.trans hd')
      obtain ⟨product, hproduct⟩ := Option.isSome_iff_exists.1 hproduct
      obtain ⟨w, hwait, hw⟩ := exists_wait? (hdraw n) hdouble
      have hnext : p.next? d = some (product.min p.maxDelay) := congrArg (Option.map _) hproduct
      have hdelay := delay?_succ hd
      rw [hnext] at hdelay
      rw [attemptsFrom_again h, hwait, hnext]
      exact .again h hd hw (ih (by omega) hdelay)

/-- An operation is tried until it answers for good or was tried again as often as may be. The
waits in between follow the delays. -/
theorem attempts_until_settled (p : RetryPolicy) (outcome : ℕ → Except Error α) (draw : ℕ → Float)
    (hp : p.IsRepresentable) (hdraw : ∀ i, 0.0 ≤ draw i ∧ draw i ≤ 1.0) :
    IsLeast {k | k = p.maxAttempts.toNat + 1 ∨ ∃ i, k = i + 1 ∧ IsSettled (outcome i)}
        (p.attempts outcome draw).calls ∧
      (p.attempts outcome draw).ending =
        .answered (outcome ((p.attempts outcome draw).calls - 1)) ∧
      (p.attempts outcome draw).waits.length = (p.attempts outcome draw).calls - 1 ∧
      ∀ i (h : i < (p.attempts outcome draw).waits.length),
        ∃ d, p.delay? i = some d ∧ p.Waits d (p.attempts outcome draw).waits[i] := by
  have h : Follows p outcome p.maxAttempts.toNat 0 (p.attempts outcome draw) :=
    follows_attemptsFrom hp hdraw (Nat.zero_add _) rfl
  generalize p.attempts outcome draw = r at h
  have hindex (i : ℕ) : 0 + i = i := Nat.zero_add i
  obtain ⟨hcalls, hmost, hunsettled, hsettled, hending, hwaits⟩ := h
  simp only [hindex] at hunsettled hsettled hending hwaits
  rw [hcalls, Nat.add_sub_cancel]
  refine ⟨⟨?_, ?_⟩, hending, rfl, hwaits⟩
  · exact hsettled.imp (congrArg (· + 1)) fun h => ⟨_, rfl, h⟩
  · rintro k (rfl | ⟨i, rfl, hi⟩)
    · exact Nat.succ_le_succ hmost
    · apply Nat.succ_le_succ
      exact Nat.le_of_not_lt fun hlt => hunsettled i hlt hi

/-- Storage that is ready at the third attempt. -/
theorem attempts_until_settled_of_late_storage :
    let outcome (n : ℕ) : Except Error ℕ := if n < 2 then refused ℕ else .ok 7
    let draw (_ : ℕ) : Float := 0.5
    let r := standard.attempts outcome draw
    standard.IsRepresentable ∧ (∀ i, 0.0 ≤ draw i ∧ draw i ≤ 1.0) ∧ r.calls = 3 ∧
      r.ending = .answered (.ok 7) ∧ r.waits = [.ofMillis 1500, .ofMillis 3000] ∧
      ∀ i (h : i < r.waits.length),
        ∃ d, standard.delay? i = some d ∧ standard.Waits d r.waits[i] := by
  intro outcome draw r
  have hp : standard.IsRepresentable := by decide +kernel
  have hdraw : ∀ i, 0.0 ≤ draw i ∧ draw i ≤ 1.0 := fun _ => by decide +kernel
  obtain ⟨-, hending, -, hwaits⟩ := attempts_until_settled standard outcome draw hp hdraw
  have hcalls : r.calls = 3 := by decide +kernel
  refine ⟨hp, hdraw, hcalls, ?_, by decide +kernel, hwaits⟩
  change r.ending = .answered (outcome (r.calls - 1)) at hending
  rw [hending, hcalls]
  rfl

end

section

variable {α : Type} {p : RetryPolicy} {outcome : ℕ → Except Error α} {draw : ℕ → Float}

theorem wait?_of_not_jitter (hj : p.jitter = false) (x : Float) (d : Duration) :
    p.wait? x d = some d := by
  rw [wait?, hj]
  rfl

theorem head?_waits_attemptsFrom {n : ℕ} (hj : p.jitter = false) (h : ¬ IsSettled (outcome n))
    (left : ℕ) (d : Duration) :
    (p.attemptsFrom outcome draw (left + 1) n d).waits.head? = some d := by
  rw [attemptsFrom_again h, wait?_of_not_jitter hj]
  cases p.next? d <;> rfl

theorem waits_attemptsFrom (hj : p.jitter = false) (left n : ℕ) (d : Duration) :
    (p.attemptsFrom outcome draw left n d).waits = [] ∨
      ∃ rest, (p.attemptsFrom outcome draw left n d).waits = d :: rest ∧
        ∀ w ∈ rest, w.nanos ≤ p.maxDelay.nanos := by
  induction left generalizing n d with
  | zero =>
    rw [attemptsFrom_last (.inl rfl)]
    exact .inl rfl
  | succ left ih =>
    by_cases h : IsSettled (outcome n)
    · rw [attemptsFrom_last (.inr h)]
      exact .inl rfl
    · rw [attemptsFrom_again h, wait?_of_not_jitter hj]
      right
      cases hnext : p.next? d with
      | none => exact ⟨[], rfl, nofun⟩
      | some next =>
        refine ⟨_, rfl, ?_⟩
        rcases ih (n + 1) next with hnone | ⟨rest, hrest, hall⟩
        · rw [hnone]
          exact nofun
        · rw [hrest]
          intro w hw
          rcases List.mem_cons.1 hw with rfl | hw
          · exact next?_le hnext
          · exact hall w hw

end

/-- Without chance the largest delay bounds all waits if it bounds the first one. It bounds the
others in any case. -/
theorem waits_within_largest_iff (α : Type) (p : RetryPolicy) (hj : p.jitter = false) :
    ((∀ (outcome : ℕ → Except Error α) (draw : ℕ → Float), ∀ w ∈ (p.attempts outcome draw).waits,
        w.nanos ≤ p.maxDelay.nanos) ↔
      p.maxAttempts.toNat = 0 ∨ p.initialDelay.nanos ≤ p.maxDelay.nanos) ∧
    ∀ (outcome : ℕ → Except Error α) (draw : ℕ → Float), ∀ w ∈ (p.attempts outcome draw).waits.tail,
      w.nanos ≤ p.maxDelay.nanos := by
  have hwaits (outcome : ℕ → Except Error α) (draw : ℕ → Float) :
      (p.attempts outcome draw).waits = [] ∨
        ∃ rest, (p.attempts outcome draw).waits = p.initialDelay :: rest ∧
          ∀ w ∈ rest, w.nanos ≤ p.maxDelay.nanos := waits_attemptsFrom hj _ _ _
  refine ⟨⟨?_, ?_⟩, ?_⟩
  · intro hall
    cases hmax : p.maxAttempts.toNat with
    | zero => exact .inl rfl
    | succ left =>
      right
      have hhead : (p.attempts (fun _ => refused α) fun _ => 0.0).waits.head? =
          some p.initialDelay := by
        rw [attempts, hmax]
        exact head?_waits_attemptsFrom hj (not_isSettled_refused α) left _
      exact hall _ _ _ (List.mem_of_head? hhead)
  · intro h outcome draw w hw
    rcases h with hzero | hle
    · rw [attempts, hzero, attemptsFrom_last (.inl rfl)] at hw
      cases hw
    · rcases hwaits outcome draw with hnone | ⟨rest, hrest, hall⟩
      · rw [hnone] at hw
        cases hw
      · rw [hrest] at hw
        rcases List.mem_cons.1 hw with rfl | hw
        · exact hle
        · exact hall w hw
  · intro outcome draw w hw
    rcases hwaits outcome draw with hnone | ⟨rest, hrest, hall⟩
    · rw [hnone] at hw
      cases hw
    · rw [hrest] at hw
      exact hall w hw

/-- Delays that double until the largest one is reached. -/
theorem waits_within_largest_iff_of_growth :
    let p : RetryPolicy := ⟨3, .ofMillis 20, .ofMillis 50, 2.0, false⟩
    let waits := (p.attempts (fun _ => refused ℕ) fun _ => 0.0).waits
    p.jitter = false ∧ waits = [.ofMillis 20, .ofMillis 40, .ofMillis 50] ∧
      ∀ w ∈ waits, w.nanos ≤ p.maxDelay.nanos := by
  intro p waits
  have hwithin := (waits_within_largest_iff ℕ p rfl).1.2 (.inr (by decide))
  exact ⟨rfl, by decide +kernel, hwithin _ _⟩

/-- A first delay of 200 ms is waited for although the largest is 50 ms. -/
theorem wait_beyond_largest_delay :
    let p : RetryPolicy := ⟨3, .ofMillis 200, .ofMillis 50, 2.0, false⟩
    let outcome (n : ℕ) : Except Error ℕ := if n = 0 then refused ℕ else .ok 1
    let waits := (p.attempts outcome fun _ => 0.0).waits
    p.IsRepresentable ∧ p.jitter = false ∧ waits = [.ofMillis 200] ∧
      ¬ ∀ w ∈ waits, w.nanos ≤ p.maxDelay.nanos := by
  intro p outcome waits
  have hwaits : waits = [.ofMillis 200] := by decide +kernel
  refine ⟨by decide +kernel, rfl, hwaits, ?_⟩
  rw [hwaits]
  decide

end RetryPolicy

end ProviderScout
