import PushBuild.Push.Event
import PushBuild.Resource.Request

/-!
When a push starts a build.

A push waits until no other push has come for the debounce window, and until the minimum interval
since the last start has passed.  There is one place for a waiting push, so of several the latest
is built.  What a start leaves behind is counted, so that every execution has a number of its own.
-/

namespace PushBuild

/-- The two windows of the trigger. -/
structure TriggerPolicy where
  /-- how long it has to be quiet after a push -/
  debounce : Window := ⟨10000⟩
  /-- how far apart two starts have to be -/
  minInterval : Window := ⟨30000⟩
deriving Repr, DecidableEq, Inhabited

/-- What a waiting push should do. -/
inductive TriggerDecision where
  /-- there is none -/
  | idle
  | debouncing (wait : Duration)
  | rateLimited (wait : Duration)
  | fire (push : PushRecord)
deriving Repr, DecidableEq

/-- When to decide again. -/
def TriggerDecision.requeueAfter : TriggerDecision → Option Duration
  | .debouncing wait | .rateLimited wait => some wait
  | .idle | .fire _ => none

/-- The end of the debounce window of a push. -/
def TriggerPolicy.quietAt (policy : TriggerPolicy) (push : PushRecord) : Instant :=
  push.receivedAt.deadline policy.debounce

/-- The end of the minimum interval after a start. -/
def TriggerPolicy.spacedAt (policy : TriggerPolicy) (last : TriggeredExecution) : Instant :=
  last.triggeredAt.deadline policy.minInterval

/-- What the waiting push should do at `now`. -/
def evaluate (state : Option OnCommitStatus) (policy : TriggerPolicy) (now : Instant) :
    TriggerDecision :=
  match state.bind (·.pending) with
  | none => .idle
  | some push =>
    match (policy.quietAt push).remaining? now with
    | some wait => .debouncing wait
    | none =>
      match (state.bind (·.lastTriggeredExecution)).bind
          fun last => (policy.spacedAt last).remaining? now with
      | some wait => .rateLimited wait
      | none => .fire push

namespace OnCommitStatus

/-- The state after a push at `now`, which takes the place of one that waits. -/
def recordPush (state : OnCommitStatus) (event : PushEvent) (now : Instant) : OnCommitStatus :=
  let record : PushRecord := ⟨event.ref, event.commit, now⟩
  { state with lastReceived := some record, pending := some record }

/-- The state after execution `name`, with number `counter`, was started for `fired`.  The waiting
push is done with only if it is that one. -/
def applyFire (state : OnCommitStatus) (fired : PushRecord) (name : String) (counter : Int)
    (now : Instant) : OnCommitStatus :=
  { state with
    triggerCounter := max state.triggerCounter counter
    lastTriggeredExecution := some ⟨name, now⟩
    pending := if state.pending = some fired then none else state.pending }

/-- What remains once a request is no longer built on pushes: the counter, so that executions are
numbered on from it, if there were any. -/
def retired (state : OnCommitStatus) : Option OnCommitStatus :=
  if 0 < state.triggerCounter then some { triggerCounter := state.triggerCounter } else none

/-- Whether a start with number `counter` comes too late, its number or a later one being taken by
another execution. -/
def supersedes (state : OnCommitStatus) (counter : Int) (execution : String) : Bool :=
  counter ≤ state.triggerCounter &&
    state.lastTriggeredExecution.map (·.name) != some execution

end OnCommitStatus

end PushBuild
