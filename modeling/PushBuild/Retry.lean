import PushBuild.Time.Duration

/-!
Trying again after a lost race.

An operation that reads, changes and writes is repeated from its read when another writer was
faster, with a growing pause before each repetition.
-/

namespace PushBuild

/-- How often to try, and how long to wait in between. -/
structure RetryPolicy where
  maxAttempts : Nat := 5
  initialBackoff : Duration := .ofMillis 10
  maxBackoff : Duration := .ofSeconds 1
deriving Repr, DecidableEq, Inhabited

namespace RetryPolicy

/-- The pause after the one of length `backoff`. -/
def nextBackoff (policy : RetryPolicy) (backoff : Duration) : Duration :=
  backoff.doubled.shorter policy.maxBackoff

end RetryPolicy

universe u

variable {m : Type → Type u} [Monad m] {ε α : Type}

/-- Runs `op`, and again up to `more` times, as long as it fails with a conflict; `backoff` is the
next pause. -/
def retrying (policy : RetryPolicy) (sleep : Duration → m Unit) (isConflict : ε → Bool)
    (op : m (Except ε α)) : (more : Nat) → (backoff : Duration) → m (Except ε α)
  | 0, _ => op
  | more + 1, backoff => do
    match ← op with
    | .ok a => return .ok a
    | .error e =>
      if isConflict e then
        sleep backoff
        retrying policy sleep isConflict op more (policy.nextBackoff backoff)
      else return .error e

/-- Runs `op` until it does not fail with a conflict, but no more often than the policy allows, and
at least once.  The result is that of the last run. -/
def retryOnConflict (policy : RetryPolicy) (sleep : Duration → m Unit) (isConflict : ε → Bool)
    (op : m (Except ε α)) : m (Except ε α) :=
  retrying policy sleep isConflict op (policy.maxAttempts - 1) policy.initialBackoff

end PushBuild
