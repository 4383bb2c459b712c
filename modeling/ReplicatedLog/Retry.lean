import ReplicatedLog.Fault

namespace ReplicatedLog

/-- When and how often a failed attempt is repeated. Delays are in nanoseconds. -/
structure RetryPolicy where
  /-- A number of 32 bits; 0 sets no limit. -/
  maxAttempts : Nat := 0
  initialDelay : Nat := 250000000
  maxDelay : Nat := 30000000000
  /-- What each delay is multiplied by to give the next. -/
  multiplier : Float := 2.0
  /-- How far a delay strays from its value, as a fraction of it. -/
  jitter : Float := 0.1

namespace RetryPolicy

def ofAttempts (maxAttempts initialDelay : Nat) : RetryPolicy :=
  { maxAttempts, initialDelay }

def quick : RetryPolicy :=
  { maxAttempts := 3, initialDelay := 50000000, maxDelay := 1000000000 }

def slow : RetryPolicy :=
  { maxAttempts := 5, initialDelay := 500000000, jitter := 0.2 }

/-- The same delay every time, without limit. -/
def fixed (delay : Nat) : RetryPolicy :=
  { initialDelay := delay, maxDelay := delay, multiplier := 1.0, jitter := 0.0 }

def validate (policy : RetryPolicy) : Except SettingFlaw Unit :=
  if policy.maxDelay < policy.initialDelay then .error .delayOrder
  else if policy.multiplier < 1.0 then .error .multiplier
  else if ¬(0.0 ≤ policy.jitter ∧ policy.jitter ≤ 1.0) then .error .jitter
  else .ok ()

/-- Counts one attempt more. The count has 32 bits and starts again behind the largest number. -/
def counted (attempts : Nat) : Nat :=
  (attempts + 1) % 0x100000000

/-- Whether there is another attempt after `attempts` of them failed. -/
def allows (policy : RetryPolicy) (attempts : Nat) : Bool :=
  policy.maxAttempts = 0 ∨ attempts < policy.maxAttempts

/-- The power `base ^ exponent` times `product`, by squaring. -/
def powerFrom (product base : Float) (exponent : Nat) : Float :=
  let product := if exponent % 2 = 1 then product * base else product
  if exponent / 2 = 0 then product else powerFrom product (base * base) (exponent / 2)
termination_by exponent
decreasing_by omega

/-- The delay before attempt number `attempt`, counted from 1, where `random` lies between 0 and
    1 and one half stands for no deviation. -/
def delay (policy : RetryPolicy) (attempt : Nat) (random : Float := 0.5) : Nat :=
  let exponent := min (attempt - 1) 0x7fffffff
  let grown := Float.ofNat policy.initialDelay * powerFrom 1.0 policy.multiplier exponent
  let limit := Float.ofNat policy.maxDelay
  let base := if grown < limit then grown else limit
  let delay := base + (random - 0.5) * 2.0 * (base * policy.jitter)
  (if 0.0 < delay then delay else 0.0).toUInt64.toNat

/-- A series of attempts that came to its end. -/
structure Series (α : Type) where
  calls : Nat
  /-- The delays between the calls, one after the other. -/
  waits : List Nat
  outcome : Except Fault α

/-- Calls for outcomes until one is a success, a failure not worth repeating, or one too many, and waits
    between two calls. `attempt` calls were made before, and `random` says how far the delay behind each
    call strays. None if `outcomes` ends before. -/
def series {α : Type} (policy : RetryPolicy) (random : Nat → Float) (attempt : Nat) :
    (outcomes : List (Except Fault α)) → Option (Series α)
  | [] => none
  | outcome :: rest =>
    let attempt := counted attempt
    match outcome with
    | .ok _ => some ⟨1, [], outcome⟩
    | .error fault =>
      if !fault.isRetryable || !policy.allows attempt then some ⟨1, [], outcome⟩
      else
        (series policy random attempt rest).map fun series =>
          ⟨series.calls + 1, policy.delay attempt (random attempt) :: series.waits, series.outcome⟩

/-- The number of calls and the last outcome of a series. -/
def run {α : Type} (policy : RetryPolicy) (attempt : Nat) (outcomes : List (Except Fault α)) :
    Option (Nat × Except Fault α) :=
  (policy.series (fun _ => 0.5) attempt outcomes).map fun series =>
    (attempt + series.calls, series.outcome)

end RetryPolicy

/-- The state of a series of attempts to connect. -/
structure Backoff where
  policy : RetryPolicy
  /-- Delays given since the last success, counted in 32 bits. -/
  attempts : Nat := 0

namespace Backoff

/-- The delay before the next attempt, none once the attempts are used up. -/
def next (backoff : Backoff) (random : Float := 0.5) : Option Nat × Backoff :=
  if backoff.policy.allows backoff.attempts then
    let attempts := RetryPolicy.counted backoff.attempts
    (some (backoff.policy.delay attempts random), { backoff with attempts })
  else (none, backoff)

def reset (backoff : Backoff) : Backoff :=
  { backoff with attempts := 0 }

end Backoff

end ReplicatedLog
