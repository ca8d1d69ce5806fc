import PushBuild.Controller.Status
import PushBuild.Proofs.Interleaving.Act

/-!
# What a call that changes a status does

`modifyStatus` reads, changes and writes, and starts over when another writer was faster.  Whatever
it is answered, its acts have one of few shapes, and this file lists them.

1. **Attempts.**  `Retried` is what has been done when every attempt so far failed: each was a read
   that failed, or a read and a write that was refused, and a pause.
2. **Ends.**  `Modified` and `Unmodified` are the ways to end: nothing was there, nothing was to be
   changed, the status was written; or the last attempt failed too.
3. **The rule** (`meets_modifyStatus`).  A duty that allows the reads, the pauses and the writes of
   the change to what was just read is a duty that the call obeys, and it ends in one of these ways.
4. **Duties about writes** (`meets_change`).  Most duties mind nothing but which executions are
   created, which statuses are written and which templates replaced; of these only the writes of the
   change are left to check.
-/

namespace PushBuild

/-- The request with a new status, as it is sent to the store. -/
abbrev BuildRequest.restated (r : BuildRequest) (status : BuildRequestStatus) : BuildRequest :=
  { r with status := some status }

section

variable (key : ObjectKey) (change : StatusChange) (before : List Act)

/-- What was done when every attempt so far failed, after `before`. -/
inductive Retried : List Act → Prop
  | start : Retried before
  | unread {acts : List Act} {e : StoreError} {time : Duration} (h : Retried acts) :
      Retried (.sleep time :: .getRequest key (.error e) :: acts)
  | refused {acts : List Act} {r : BuildRequest} {status : BuildRequestStatus} {e : StoreError}
      {time : Duration} (h : Retried acts) (hchange : change r r.statusOrDefault = some status) :
      Retried (.sleep time :: .updateRequestStatus (r.restated status) (.error e) ::
        .getRequest key (.ok (some r)) :: acts)

/-- What was done when the call succeeded, and its result. -/
inductive Modified : Option BuildRequest → List Act → Prop
  | gone {acts : List Act} (h : Retried key change before acts) :
      Modified none (.getRequest key (.ok none) :: acts)
  | unchanged {acts : List Act} {r : BuildRequest} (h : Retried key change before acts)
      (hchange : change r r.statusOrDefault = none) :
      Modified (some r) (.getRequest key (.ok (some r)) :: acts)
  | written {acts : List Act} {r w : BuildRequest} {status : BuildRequestStatus}
      (h : Retried key change before acts) (hchange : change r r.statusOrDefault = some status) :
      Modified (some w) (.updateRequestStatus (r.restated status) (.ok w) ::
        .getRequest key (.ok (some r)) :: acts)

/-- What was done when the call failed, and its failure. -/
inductive Unmodified : StoreError → List Act → Prop
  | unread {acts : List Act} {e : StoreError} (h : Retried key change before acts) :
      Unmodified e (.getRequest key (.error e) :: acts)
  | refused {acts : List Act} {r : BuildRequest} {status : BuildRequestStatus} {e : StoreError}
      (h : Retried key change before acts) (hchange : change r r.statusOrDefault = some status) :
      Unmodified e (.updateRequestStatus (r.restated status) (.error e) ::
        .getRequest key (.ok (some r)) :: acts)

end

variable {key : ObjectKey} {change : StatusChange} {before acts : List Act}

/-- After a pause, a failed attempt is one of the attempts so far. -/
theorem Unmodified.retried {e : StoreError} (h : Unmodified key change before e acts)
    (time : Duration) : Retried key change before (.sleep time :: acts) := by
  cases h with
  | unread h => exact h.unread
  | refused h hchange => exact h.refused hchange

/-- The attempts come after what was done before. -/
theorem Retried.suffix (h : Retried key change before acts) : before <:+ acts := by
  induction h with
  | start => exact List.suffix_rfl
  | unread _ ih => exact ih.trans ⟨[_, _], rfl⟩
  | refused _ _ ih => exact ih.trans ⟨[_, _, _], rfl⟩

/-- A duty that lets a call read, pause, and write its change to what it just read. -/
structure AllowsModify (duty : Duty) (key : ObjectKey) (change : StatusChange)
    (before : List Act) : Prop where
  read : ∀ {acts} answer, Retried key change before acts → duty acts (.getRequest key answer)
  pause : ∀ {acts} e time, Unmodified key change before e acts → duty acts (.sleep time)
  write : ∀ {acts r status} answer, Retried key change before acts →
    change r r.statusOrDefault = some status →
    duty (.getRequest key (.ok (some r)) :: acts)
      (.updateRequestStatus (r.restated status) answer)

variable {duty : Duty}

/-- One attempt. -/
theorem meets_tryModifyStatus (hduty : AllowsModify duty key change before)
    (h : Retried key change before acts) :
    Meets duty (BuildRequest.tryModifyStatus key change) (Modified key change before)
      (Unmodified key change before) acts := by
  unfold BuildRequest.tryModifyStatus
  rw [meets_bind, meets_call]
  refine fun answer => ⟨hduty.read answer h, ?_, ?_⟩
  · rintro (_ | r) rfl
    · -- the request is gone
      exact .gone h
    · dsimp only
      cases hchange : change r r.statusOrDefault with
      -- there is nothing to change
      | none => exact .unchanged h hchange
      | some status =>
        refine (meets_map _ _).mpr ((meets_call _).mpr ?_)
        refine fun answer => ⟨hduty.write answer h hchange, ?_, ?_⟩
        · rintro w rfl
          exact .written h hchange
        · rintro e rfl
          exact .refused h hchange
  · rintro e rfl
    exact .unread h

/-- **What a call that changes a status does**, and how it ends. -/
theorem meets_modifyStatus {retry : RetryPolicy} (hduty : AllowsModify duty key change before) :
    Meets duty (BuildRequest.modifyStatus retry key change) (Modified key change before)
      (Unmodified key change before) before := by
  -- every attempt starts after attempts that failed
  refine meets_retryOnConflict (Retried key change before) (fun h => ?_) .start
  refine (meets_tryModifyStatus hduty h).mono (fun _ _ hend => hend) fun e later hend => ?_
  exact ⟨hend, fun time => ⟨hduty.pause e time hend, hend.retried time⟩⟩

/-! ## Duties that mind what is created, written and replaced -/

/-- The act neither creates an execution, nor writes a status, nor replaces a template. -/
def Act.IsMinor : Act → Prop
  | .createExecution .. | .updateRequestStatus .. | .replaceTemplate .. => False
  | _ => True

/-- A duty that does not mind minor acts. -/
def AllowsMinor (duty : Duty) : Prop := ∀ acts act, Act.IsMinor act → duty acts act

/-- The act looks at a request, an execution or the clock, or waits. -/
def Act.IsLook : Act → Prop
  | .getRequest .. | .getExecution .. | .now _ | .sleep _ => True
  | _ => False

/-- A duty that does not mind looks. -/
def AllowsLooks (duty : Duty) : Prop := ∀ acts act, Act.IsLook act → duty acts act

/-- Looks are minor. -/
theorem AllowsMinor.looks {duty : Duty} (h : AllowsMinor duty) : AllowsLooks duty := by
  intro acts act hlook
  refine h acts act ?_
  cases act <;> first
    | exact hlook.elim
    | trivial

/-- A duty that lets a change be written to the request that was just read. -/
def AllowsChange (duty : Duty) (key : ObjectKey) (acts : List Act) (change : StatusChange) : Prop :=
  ∀ r status answer, change r r.statusOrDefault = some status →
    duty (.getRequest key (.ok (some r)) :: acts) (.updateRequestStatus (r.restated status) answer)

/-- A change that may be written whenever something more was done. -/
theorem meets_change {retry : RetryPolicy} (hlooks : AllowsLooks duty)
    (hchange : ∀ {later}, before <:+ later → AllowsChange duty key later change) :
    Meets duty (BuildRequest.modifyStatus retry key change) (Modified key change before)
      (Unmodified key change before) before := by
  refine meets_modifyStatus ⟨fun _ _ => hlooks _ _ trivial, fun _ _ _ => hlooks _ _ trivial, ?_⟩
  intro _ r status answer hretried hsome
  exact hchange hretried.suffix r status answer hsome

end PushBuild
