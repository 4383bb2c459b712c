import Mathlib.Data.List.DropRight
import ReplicatedLog.Retry

namespace ReplicatedLog

namespace RetryPolicy

variable {α : Type} {policy : RetryPolicy} {random : Nat → Float} {attempt calls : Nat}
  {outcome last : Except Fault α} {outcomes rest : List (Except Fault α)} {series : Series α}

/-- An outcome with no call behind it, by how many calls there were: a success, a failure not worth
    repeating, or one at the limit. -/
def Final (policy : RetryPolicy) (calls : Nat) : Except Fault α → Prop
  | .ok _ => True
  | .error fault =>
    fault.isRetryable = false ∨ (0 < policy.maxAttempts ∧ calls = policy.maxAttempts)

/-- The first outcome that is final, with `attempt` calls before those of `outcomes`. -/
structure EndsAt (policy : RetryPolicy) (attempt : Nat) (outcomes : List (Except Fault α))
    (calls : Nat) (outcome : Except Fault α) : Prop where
  one_le : 1 ≤ calls
  reached : outcomes[calls - 1]? = some outcome
  final : policy.Final (attempt + calls) outcome
  first : ∀ earlier other, 1 ≤ earlier → earlier < calls → outcomes[earlier - 1]? = some other →
    ¬ policy.Final (attempt + earlier) other

theorem allows_iff : policy.allows attempt = true ↔
    policy.maxAttempts = 0 ∨ attempt < policy.maxAttempts := by
  simp [allows]

/-- Fewer failures leave no fewer attempts. -/
theorem allows_antitone {fewer more : Nat} (hle : fewer ≤ more)
    (hrefused : policy.allows fewer = false) : policy.allows more = false := by
  simp only [allows, decide_eq_false_iff_not, not_or, not_lt] at hrefused ⊢
  exact ⟨hrefused.1, hrefused.2.trans hle⟩

theorem allows_zero (policy : RetryPolicy) : policy.allows 0 = true := by
  rw [allows_iff]
  omega

theorem EndsAt.le_maxAttempts (hends : policy.EndsAt 0 outcomes calls outcome)
    (hlimit : 0 < policy.maxAttempts) : calls ≤ policy.maxAttempts := by
  by_contra hmore
  have hreached := List.getElem?_eq_some_iff.mp hends.reached
  obtain ⟨hlength, -⟩ := hreached
  have hplace : policy.maxAttempts - 1 < outcomes.length := by omega
  refine hends.first policy.maxAttempts _ hlimit (by omega) (List.getElem?_eq_getElem hplace) ?_
  cases outcomes[policy.maxAttempts - 1] with
  | ok result => trivial
  | error fault => exact .inr ⟨hlimit, Nat.zero_add _⟩

end RetryPolicy

namespace Backoff

/-- What can be asked of a backoff. -/
inductive Move
  /-- A delay is wanted, with a random number that tells how far it strays. -/
  | next (random : Float)
  | reset

/-- What came of a move. -/
inductive Event
  | delayed
  | refused
  | reset
  deriving DecidableEq

def perform (backoff : Backoff) : Move → Event × Backoff
  | .next random =>
    (if (backoff.next random).1.isSome then .delayed else .refused, (backoff.next random).2)
  | .reset => (.reset, backoff.reset)

/-- The events of these moves and the backoff they leave behind. -/
def after (policy : RetryPolicy) (moves : List Move) : List Event × Backoff :=
  moves.foldl (fun (events, backoff) move =>
    (events ++ [(backoff.perform move).1], (backoff.perform move).2)) ([], { policy })

/-- How many delays were given since the last reset, or since the start if there was none. -/
def delaysSinceReset (events : List Event) : Nat :=
  (events.rtakeWhile fun event => event ≠ .reset).count .delayed

variable {policy : RetryPolicy} {backoff : Backoff} {events : List Event} {moves : List Move}

theorem delaysSinceReset_reset (events : List Event) :
    delaysSinceReset (events ++ [.reset]) = 0 := by
  rw [delaysSinceReset, List.rtakeWhile_concat_neg _ _ _ (by decide), List.count_nil]

theorem delaysSinceReset_concat (events : List Event) {event : Event} (hevent : event ≠ .reset) :
    delaysSinceReset (events ++ [event]) =
      delaysSinceReset events + if event = .delayed then 1 else 0 := by
  rw [delaysSinceReset, List.rtakeWhile_concat_pos _ _ _ (by simpa using hevent), List.count_append,
    List.count_singleton, delaysSinceReset]
  simp only [beq_iff_eq]

theorem next_of_allows (hallows : backoff.policy.allows backoff.attempts = true) (random : Float) :
    backoff.next random =
      (some (backoff.policy.delay (RetryPolicy.counted backoff.attempts) random),
        { backoff with attempts := RetryPolicy.counted backoff.attempts }) := by
  rw [next, if_pos hallows]

theorem next_of_not_allows (hrefused : ¬ backoff.policy.allows backoff.attempts = true)
    (random : Float) : backoff.next random = (none, backoff) := by
  rw [next, if_neg hrefused]

theorem isSome_next (backoff : Backoff) (random : Float) :
    (backoff.next random).1.isSome = backoff.policy.allows backoff.attempts := by
  by_cases hallows : backoff.policy.allows backoff.attempts = true
  · rw [next_of_allows hallows, hallows]
    rfl
  · rw [next_of_not_allows hallows, Bool.not_eq_true _ |>.mp hallows]
    rfl

/-- What is counted since the last reset. -/
structure Counts (policy : RetryPolicy) (events : List Event) (backoff : Backoff) : Prop where
  policy_eq : backoff.policy = policy
  attempts_eq : backoff.attempts = delaysSinceReset events % 0x100000000
  le_maxAttempts : 0 < policy.maxAttempts → delaysSinceReset events ≤ policy.maxAttempts

/-- Below a limit of 32 bits no delay is lost count of. -/
theorem Counts.allows_iff (hcounts : Counts policy events backoff)
    (hword : policy.maxAttempts < 0x100000000) :
    backoff.policy.allows backoff.attempts = true ↔
      policy.maxAttempts = 0 ∨ delaysSinceReset events < policy.maxAttempts := by
  obtain ⟨rfl, hattempts, hbound⟩ := hcounts
  rw [RetryPolicy.allows_iff, hattempts]
  omega

theorem Counts.perform (hcounts : Counts policy events backoff)
    (hword : policy.maxAttempts < 0x100000000) (move : Move) :
    Counts policy (events ++ [(backoff.perform move).1]) (backoff.perform move).2 := by
  have hiff := hcounts.allows_iff hword
  obtain ⟨rfl, hattempts, hbound⟩ := hcounts
  cases move with
  | next random =>
    simp only [Backoff.perform, isSome_next]
    by_cases hallows : backoff.policy.allows backoff.attempts = true
    · have hroom := hiff.mp hallows
      rw [next_of_allows hallows, if_pos hallows]
      have hcount := delaysSinceReset_concat events (show Event.delayed ≠ .reset by decide)
      rw [if_pos rfl] at hcount
      refine ⟨rfl, ?_, fun hlimit => ?_⟩
      · rw [hcount, RetryPolicy.counted, hattempts, Nat.mod_add_mod]
      · omega
    · have hcount := delaysSinceReset_concat events (show Event.refused ≠ .reset by decide)
      rw [if_neg (by decide), Nat.add_zero] at hcount
      rw [next_of_not_allows hallows, if_neg hallows]
      exact ⟨rfl, hcount ▸ hattempts, hcount ▸ hbound⟩
  | reset =>
    have hnone := delaysSinceReset_reset events
    exact ⟨rfl, hnone ▸ rfl, fun _ => hnone ▸ Nat.zero_le _⟩

end Backoff

namespace RetryPolicy

variable {α : Type}

end RetryPolicy

end ReplicatedLog
