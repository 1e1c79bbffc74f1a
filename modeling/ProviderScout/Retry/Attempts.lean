import ProviderScout.Error.Basic
import ProviderScout.Retry.Policy

/-!
Trying an operation again while it fails in a way that may pass. The delay grows by the multiplier
of the policy up to the largest delay; a random part of it may be added to each wait, which does
not change the delays that follow.
-/

namespace ProviderScout

/-- How a series of attempts ends. -/
inductive Ending (α : Type) where
  | answered (a : Except Error α)
  /-- A delay came out negative, too long or not a number. -/
  | badDelay

/-- A series of attempts. -/
structure Attempts (α : Type) where
  calls : Nat
  /-- The waits, one after each call but the last; if a delay is bad, one may follow that call. -/
  waits : List Duration
  ending : Ending α

namespace RetryPolicy

variable {α : Type}

/-- The wait that a delay leads to; `draw` is between 0 and 1. -/
def wait? (p : RetryPolicy) (draw : Float) (delay : Duration) : Option Duration :=
  if p.jitter then Duration.ofFloat? (delay.toFloat * (1.0 + draw)) else some delay

def next? (p : RetryPolicy) (delay : Duration) : Option Duration :=
  (Duration.ofFloat? (delay.toFloat * p.multiplier)).map fun d => d.min p.maxDelay

/-- Makes attempt number `n` and those after it. `left` is how often the operation may be tried
again, `outcome` what each attempt would answer and `draw` what chance adds to each wait. -/
def attemptsFrom (p : RetryPolicy) (outcome : Nat → Except Error α) (draw : Nat → Float) :
    Nat → Nat → Duration → Attempts α
  | left, n, delay => match outcome n, left with
    | .ok a, _ => ⟨1, [], .answered (.ok a)⟩
    | .error e, 0 => ⟨1, [], .answered (.error e)⟩
    | .error e, left + 1 =>
      if e.isRetryable then
        match p.wait? (draw n) delay with
        | none => ⟨1, [], .badDelay⟩
        | some wait => match p.next? delay with
          | none => ⟨1, [wait], .badDelay⟩
          | some delay =>
            let rest := attemptsFrom p outcome draw left (n + 1) delay
            ⟨rest.calls + 1, wait :: rest.waits, rest.ending⟩
      else ⟨1, [], .answered (.error e)⟩

/-- Makes attempts until one succeeds, fails for good or is the last one. -/
def attempts (p : RetryPolicy) (outcome : Nat → Except Error α) (draw : Nat → Float) : Attempts α :=
  p.attemptsFrom outcome draw p.maxAttempts.toNat 0 p.initialDelay

end RetryPolicy

end ProviderScout
