import PushBuild.Program
import PushBuild.Retry
import PushBuild.Trigger

/-!
Changing the status of a request that others change too.

A change is a function of the status as it is stored.  It is applied to a fresh read and written
only if nobody wrote in between; otherwise it is applied again, to what is stored then.
-/

namespace PushBuild

/-- What to make of a status: the new one, or none if there is nothing to change. -/
abbrev StatusChange := BuildRequest → BuildRequestStatus → Option BuildRequestStatus

namespace BuildRequest

/-- One attempt to change the status of a request.  Returns the request as last seen, and none if
there is no such request. -/
def tryModifyStatus (key : ObjectKey) (change : StatusChange) :
    StoreProgram (Option BuildRequest) := do
  let some request ← StoreCall.program (.getRequest key) | return none
  match change request request.statusOrDefault with
  | none => return some request
  | some status => some <$> StoreCall.program (.updateRequestStatus { request with status })

/-- Changes the status of a request. -/
def modifyStatus (retry : RetryPolicy) (key : ObjectKey) (change : StatusChange) :
    StoreProgram (Option BuildRequest) :=
  ExceptT.mk (retryOnConflict retry Program.sleep StoreError.isConflict
    (tryModifyStatus key change).run)

end BuildRequest

/-- Records a push on a request, whether or not pushes build it. -/
def PushEvent.change (event : PushEvent) (now : Instant) : StatusChange := fun _ status =>
  some { status with onCommit := some ((status.onCommit.getD {}).recordPush event now) }

/-- Records a push on a request that pushes build. -/
def PushEvent.changeOnCommit (event : PushEvent) (now : Instant) : StatusChange :=
  fun request status => if request.isOnCommit then event.change now request status else none

end PushBuild
