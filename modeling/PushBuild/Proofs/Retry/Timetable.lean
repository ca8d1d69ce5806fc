import Mathlib.Data.ENat.Lattice
import PushBuild.Config.Basic
import PushBuild.Proofs.Time.Instant

/-!
# How often and when something is tried again

An operation that loses races is called again and again, with a pause before each call.  Nothing is
known of it but the outcomes of its calls, of which there may be any sequence.

1. **Pauses.**  Each pause is computed from the one before, by doubling it up to a limit.  In closed
   form the pause after a call is a power of two times the first one, up to the limit
   (`nextBackoff_pauseAfter`); only the first one may be above the limit.
2. **Runs.**  A run is written down as it goes (`RetryEvent`).  What is done before a call is known
   when the call is (`prologue`), and so a run follows from how many calls lose their races
   (`run_retrying`).
3. **Numbers.**  How many calls there are depends on which outcome is the first that is no lost race
   (`firstSettled`), and on how many calls are allowed (`repetitions_eq`).
4. **The result** (`retries_timetable`), for the settings of any configuration, whose numbers leave
   room for every computation of a pause.
-/

namespace PushBuild

/-! ## Pauses -/

/-- The shorter of two lengths of time is that of the smaller number. -/
theorem Duration.shorter_eq (a b : Duration) : a.shorter b = ⟨min a.nanoseconds b.nanoseconds⟩ := by
  unfold shorter
  split
  · next hle => rw [Nat.min_eq_left hle]
  · next hle => rw [Nat.min_eq_right (Nat.le_of_not_le hle)]

namespace RetryPolicy

variable (policy : RetryPolicy)

/-- The pause after call `j`, counted from 1, if that call lost its race: the first one as it is
set, the others doubled with each call but no longer than the limit. -/
def pauseAfter (j : Nat) : Duration :=
  if j = 1 then policy.initialBackoff
  else ⟨min (policy.initialBackoff.nanoseconds * 2 ^ (j - 1)) policy.maxBackoff.nanoseconds⟩

/-- The first pause is as it is set, -/
theorem pauseAfter_one : policy.pauseAfter 1 = policy.initialBackoff := if_pos rfl

/-- and all others are doubled up to the limit. -/
theorem pauseAfter_add_two (j : Nat) : policy.pauseAfter (j + 2) =
    ⟨min (policy.initialBackoff.nanoseconds * 2 ^ (j + 1)) policy.maxBackoff.nanoseconds⟩ :=
  if_neg (by omega)

/-- **The pauses in closed form**: each is what is computed from the one before. -/
theorem nextBackoff_pauseAfter (j : Nat) :
    policy.nextBackoff (policy.pauseAfter (j + 1)) = policy.pauseAfter (j + 2) := by
  rw [nextBackoff, Duration.shorter_eq, pauseAfter_add_two, Duration.mk.injEq]
  cases j with
  | zero => rw [pauseAfter_one, Duration.doubled, Nat.zero_add, Nat.pow_one]
  | succ j =>
    -- what was cut off at the limit before is beyond it again when it is doubled
    have hdouble : policy.initialBackoff.nanoseconds * 2 ^ (j + 2) =
        policy.initialBackoff.nanoseconds * 2 ^ (j + 1) * 2 := by
      rw [Nat.pow_succ, Nat.mul_assoc]
    rw [pauseAfter_add_two, Duration.doubled, hdouble]
    dsimp only
    omega

/-- No pause is longer than the longer of the first one and the limit. -/
theorem pauseAfter_le (j : Nat) : (policy.pauseAfter j).nanoseconds ≤
    max policy.initialBackoff.nanoseconds policy.maxBackoff.nanoseconds := by
  unfold pauseAfter
  split
  · exact Nat.le_max_left _ _
  · exact (Nat.min_le_right _ _).trans (Nat.le_max_right _ _)

end RetryPolicy

/-! ## Runs -/

/-- What happens while something is tried again. -/
inductive RetryEvent where
  | call
  | pause (time : Duration)
deriving Repr, DecidableEq

/-- How long an event takes by itself, in nanoseconds. -/
def RetryEvent.waits : RetryEvent → Nat
  | call => 0
  | pause time => time.nanoseconds

section

variable {ε α : Type}

/-- The operation whose calls have these outcomes, one after the other, as it is written down. -/
def scripted (outcomes : Nat → Except ε α) : StateM (List RetryEvent) (Except ε α) := fun log =>
  (outcomes (log.count .call), log ++ [.call])

/-- A pause, as it is written down. -/
def writtenPause (time : Duration) : StateM (List RetryEvent) Unit :=
  fun log => ((), log ++ [.pause time])

/-- What is done before call `n + 1`, if all calls before it lost their races. -/
def RetryPolicy.prologue (policy : RetryPolicy) : Nat → List RetryEvent
  | 0 => []
  | n + 1 => policy.prologue n ++ [.call, .pause (policy.pauseAfter (n + 1))]

/-- What is done when there are so many calls: call after call, with its pause after each but the
last. -/
def RetryPolicy.timetable (policy : RetryPolicy) : Nat → List RetryEvent
  | 0 => []
  | n + 1 => policy.prologue n ++ [.call]

/-- The outcome is a lost race. -/
def isLost (isConflict : ε → Bool) : Except ε α → Bool
  | .error e => isConflict e
  | .ok _ => false

/-- How many of the calls after call `n + 1` are made, if there may be so many more. -/
def repetitions (isConflict : ε → Bool) (outcomes : Nat → Except ε α) :
    (more : Nat) → (n : Nat) → Nat
  | 0, _ => 0
  | more + 1, n =>
    if isLost isConflict (outcomes n) then repetitions isConflict outcomes more (n + 1) + 1 else 0

/-- Before call `n + 1` there are `n` calls. -/
theorem RetryPolicy.count_prologue (policy : RetryPolicy) (n : Nat) :
    (policy.prologue n).count .call = n := by
  induction n with
  | zero => rfl
  | succ n ih =>
    rw [prologue, List.count_append, ih]
    rfl

variable (isConflict : ε → Bool) (outcomes : Nat → Except ε α)

/-- That call has the outcome that is its turn. -/
theorem run_scripted (policy : RetryPolicy) (n : Nat) :
    (scripted outcomes).run (policy.prologue n) = (outcomes n, policy.timetable (n + 1)) := by
  show (outcomes ((policy.prologue n).count .call), _) = _
  rw [policy.count_prologue]
  rfl

/-- After a lost race there is a pause, and the operation is called again; another outcome is the
result. -/
theorem run_retrying_succ (policy : RetryPolicy) (more n : Nat) (backoff : Duration) :
    (retrying policy writtenPause isConflict (scripted outcomes) (more + 1) backoff).run
      (policy.prologue n) =
      if isLost isConflict (outcomes n) then
        (retrying policy writtenPause isConflict (scripted outcomes) more
          (policy.nextBackoff backoff)).run
          (policy.timetable (n + 1) ++ [.pause backoff])
      else (outcomes n, policy.timetable (n + 1)) := by
  rw [retrying, StateT.run_bind, run_scripted]
  cases outcomes n with
  | ok a => rfl
  | error e =>
    show StateT.run (if isConflict e = true then _ else _) _ = if isConflict e = true then _ else _
    split <;> rfl

/-- **A run** ends with the outcome of its last call, and until then each call is followed by its
pause. -/
theorem run_retrying (policy : RetryPolicy) (more n : Nat) :
    (retrying policy writtenPause isConflict (scripted outcomes) more
        (policy.pauseAfter (n + 1))).run
        (policy.prologue n) =
      (outcomes (n + repetitions isConflict outcomes more n),
        policy.timetable (n + repetitions isConflict outcomes more n + 1)) := by
  induction more generalizing n with
  | zero => exact run_scripted outcomes policy n
  | succ more ih =>
    rw [run_retrying_succ, repetitions]
    split
    · -- the pause belongs to what is done before the next call
      have hlog : policy.timetable (n + 1) ++ [.pause (policy.pauseAfter (n + 1))] =
          policy.prologue (n + 1) := by
        rw [RetryPolicy.timetable, RetryPolicy.prologue, List.append_assoc]
        rfl
      rw [hlog, policy.nextBackoff_pauseAfter, ih, Nat.add_right_comm n 1, Nat.add_assoc n]
    · rfl

/-! ## Numbers -/

/-- The number of the first call, counted from 1, whose outcome is no lost race; infinite if there
is none. -/
noncomputable def firstSettled : ℕ∞ :=
  ⨅ (n : ℕ) (_ : isLost isConflict (outcomes n) = false), ((n + 1 : ℕ) : ℕ∞)

/-- Calls that lost their races are not the first that did not. -/
theorem le_firstSettled {n : Nat} (hlost : ∀ m < n, isLost isConflict (outcomes m) = true) :
    ((n + 1 : ℕ) : ℕ∞) ≤ firstSettled isConflict outcomes := by
  refine le_iInf₂ fun m hm => Nat.cast_le.mpr ?_
  by_contra hlt
  exact Bool.false_ne_true (hm.symm.trans (hlost m (by omega)))

/-- **How many calls are made**, if those before call `n + 1` lost their races: up to the first that
does not, but no more than are allowed. -/
theorem repetitions_eq {n : Nat} (hlost : ∀ m < n, isLost isConflict (outcomes m) = true)
    (more : Nat) :
    ((n + repetitions isConflict outcomes more n + 1 : ℕ) : ℕ∞) =
      min (firstSettled isConflict outcomes) ((n + more + 1 : ℕ) : ℕ∞) := by
  have hle := le_firstSettled isConflict outcomes hlost
  induction more generalizing n with
  | zero => exact (min_eq_right hle).symm
  | succ more ih =>
    rw [repetitions]
    split
    · -- this one lost its race too
      next hthis =>
      have hlost' : ∀ m < n + 1, isLost isConflict (outcomes m) = true := by
        intro m hm
        rcases Nat.lt_succ_iff_lt_or_eq.mp hm with hm | rfl
        · exact hlost m hm
        · exact hthis
      have hrest := ih hlost' (le_firstSettled isConflict outcomes hlost')
      rw [Nat.add_right_comm n 1, Nat.add_right_comm n 1] at hrest
      exact hrest
    · -- this is the first that did not
      next hthis =>
      have hfirst : firstSettled isConflict outcomes ≤ ((n + 1 : ℕ) : ℕ∞) :=
        iInf₂_le n (Bool.eq_false_iff.mpr hthis)
      rw [le_antisymm hfirst hle]
      exact (min_eq_left (Nat.cast_le.mpr (by omega))).symm

/-! ## The result -/

/-- Of the pauses in a timetable each comes after a call, and before another one. -/
theorem RetryPolicy.exists_of_mem_timetable {policy : RetryPolicy} {calls : Nat} {time : Duration}
    (h : .pause time ∈ policy.timetable calls) :
    ∃ j, 0 < j ∧ j < calls ∧ time = policy.pauseAfter j := by
  cases calls with
  | zero => exact absurd h List.not_mem_nil
  | succ n =>
    have hprologue : .pause time ∈ policy.prologue n := by
      rcases List.mem_append.mp h with h | h
      · exact h
      · simp at h
    clear h
    induction n with
    | zero => exact absurd hprologue List.not_mem_nil
    | succ n ih =>
      rcases List.mem_append.mp hprologue with h | h
      · obtain ⟨j, hpos, hlt, htime⟩ := ih h
        exact ⟨j, hpos, by omega, htime⟩
      · obtain rfl : time = policy.pauseAfter (n + 1) := by simpa using h
        exact ⟨n + 1, by omega, by omega, rfl⟩

/-- The settings of a configuration are so small that no pause is too long to be doubled. -/
theorem Config.fits_pauseAfter (c : Config) (j : Nat) :
    (c.retryPolicy.pauseAfter j).Fits ∧ (c.retryPolicy.pauseAfter j).doubled.Fits := by
  have hpause := c.retryPolicy.pauseAfter_le j
  have hinitial : c.retryPolicy.initialBackoff.nanoseconds < 18446744073709551616 * 1000000 :=
    Nat.mul_lt_mul_of_pos_right c.initialBackoffMillis.toNat_lt (by decide)
  have hlimit : c.retryPolicy.maxBackoff.nanoseconds < 18446744073709551616 * 1000000 :=
    Nat.mul_lt_mul_of_pos_right c.maxBackoffMillis.toNat_lt (by decide)
  unfold Duration.Fits Duration.doubled Duration.seconds
  dsimp only
  omega

/-- So many pauses are no longer than so many times the longest. -/
theorem RetryPolicy.sum_prologue_le (policy : RetryPolicy) (n : Nat) :
    ((policy.prologue n).map RetryEvent.waits).sum ≤
      n * max policy.initialBackoff.nanoseconds policy.maxBackoff.nanoseconds := by
  induction n with
  | zero => exact Nat.zero_le _
  | succ n ih =>
    have hpause := policy.pauseAfter_le (n + 1)
    rw [prologue, List.map_append, List.sum_append, Nat.succ_mul]
    simp only [List.map_cons, List.map_nil, List.sum_cons, List.sum_nil, RetryEvent.waits]
    omega

end

/-- **How often and when an operation is tried again.**  By the settings of any configuration,
whatever counts as a conflict and whatever the outcomes of the calls are, one after the other: the
repetition ends, with the outcome of its last call.  The operation is called until an outcome is no
conflict, but no more often than is set, and at least once.  Before each further call there is the
pause after the call before, in closed form, and there are no other pauses; each pause, and its
double, is a length of time that can be told, and together they take no longer than as many of the
longest pauses as further calls are allowed. -/
theorem retries_timetable {ε α : Type} (c : Config) (isConflict : ε → Bool)
    (outcomes : Nat → Except ε α) :
    ∃ calls : Nat,
      (calls : ℕ∞) = min (firstSettled isConflict outcomes) (max 1 c.maxAttempts.toNat : ℕ) ∧
      (retryOnConflict c.retryPolicy writtenPause isConflict (scripted outcomes)).run [] =
        (outcomes (calls - 1), c.retryPolicy.timetable calls) ∧
      (∀ time, .pause time ∈ c.retryPolicy.timetable calls → time.Fits ∧ time.doubled.Fits) ∧
      ((c.retryPolicy.timetable calls).map RetryEvent.waits).sum ≤ (max 1 c.maxAttempts.toNat - 1) *
        max c.retryPolicy.initialBackoff.nanoseconds c.retryPolicy.maxBackoff.nanoseconds := by
  have hallowed : 0 + (c.retryPolicy.maxAttempts - 1) + 1 = max 1 c.maxAttempts.toNat := by
    show 0 + (c.maxAttempts.toNat - 1) + 1 = _
    omega
  have hcalls :=
    repetitions_eq isConflict outcomes (n := 0) (fun _ h => absurd h (Nat.not_lt_zero _))
    (c.retryPolicy.maxAttempts - 1)
  rw [hallowed] at hcalls
  have hrun := run_retrying isConflict outcomes c.retryPolicy (c.retryPolicy.maxAttempts - 1) 0
  generalize 0 + repetitions isConflict outcomes (c.retryPolicy.maxAttempts - 1) 0 =
    n at hcalls hrun
  refine ⟨n + 1, hcalls, hrun, fun time htime => ?_, ?_⟩
  · obtain ⟨j, -, -, rfl⟩ := RetryPolicy.exists_of_mem_timetable htime
    exact c.fits_pauseAfter j
  · have hn : n ≤ max 1 c.maxAttempts.toNat - 1 := by
      have hle : ((n + 1 : ℕ) : ℕ∞) ≤ ((max 1 c.maxAttempts.toNat : ℕ) : ℕ∞) :=
        hcalls ▸ min_le_right _ _
      have hle := Nat.cast_le.mp hle
      omega
    rw [RetryPolicy.timetable, List.map_append, List.sum_append]
    exact (c.retryPolicy.sum_prologue_le n).trans (Nat.mul_le_mul_right _ hn)

example : (retryOnConflict ⟨4, .ofMillis 10, .ofMillis 30⟩ writtenPause (fun _ => true)
      (scripted fun n => (.error n : Except Nat Unit))).run [] =
    (.error 3, [.call, .pause (.ofMillis 10), .call, .pause (.ofMillis 20), .call,
      .pause (.ofMillis 30), .call]) :=
  rfl

end PushBuild
