import PushBuild.Proofs.Controller.Duty
import PushBuild.Proofs.Store.Version
import PushBuild.Proofs.Time.Instant

/-!
# What is decided about pushes, and what is written

1. **The decision.**  A push that is due is the one that waits (`pending_of_fire`), and it is as far
   from the start recorded last as the policy says, off leap seconds (`TriggerPolicy.spaced`).
2. **The writes.**  There are six ways to change a status, and `Rewrites` says what each makes of it
   (`Grounds.rewrites`).
3. **Pushes.**  Three of them concern the pushes of a request: one is received, one starts an
   execution, and they are given up when they no longer build the request.  `TriggerChange` lists
   these three and says of the others that they leave the pushes alone (`Rewrites.triggerChange`).
4. **Builds.**  Two of them record an execution, and one of these also what it builds: `BuildChange`
   lists these two and says of the others that they leave the builds alone (`Rewrites.buildChange`).
5. **The request.**  A status that is written was made from the request as it is stored
   (`request_of_duty`), nobody but a program changes it (`System.Moment.status_changed`), and
   `Becomes` is what an act can make of that request (`becomes_of_duty`).
-/

namespace PushBuild

/-! ## The decision -/

/-- **The minimum interval.**  A start that may follow the one recorded does so no sooner than the
policy says. -/
theorem TriggerPolicy.spaced {policy : TriggerPolicy} {last : TriggeredExecution} {now : Instant}
    (hlast : last.triggeredAt.IsPlain) (hnow : now.IsPlain)
    (hsome : (last.triggeredAt.plus? policy.minInterval).isSome)
    (hready : (policy.spacedAt last).remaining? now = none) :
    policy.minInterval.millis * 1000000 ≤ now.total - last.triggeredAt.total := by
  obtain ⟨deadline, hdeadline⟩ := Option.isSome_iff_exists.mp hsome
  obtain ⟨hplain, htotal⟩ := Instant.plus?_eq hlast hdeadline
  -- the deadline is an instant, so it does not stand for the latest one
  have hspaced : policy.spacedAt last = deadline := by
    rw [spacedAt, Instant.deadline, hdeadline]
    rfl
  rw [hspaced, Instant.remaining?, Instant.since_eq hnow hplain] at hready
  split at hready
  · cases hready
  · omega

/-- A push that is due is the one that waits. -/
theorem pending_of_fire {state : Option OnCommitStatus} {policy : TriggerPolicy} {now : Instant}
    {push : PushRecord} (h : evaluate state policy now = .fire push) :
    state.bind (·.pending) = some push := by
  unfold evaluate at h
  split at h
  · cases h
  · next pending hpending =>
    split at h
    · cases h
    · split at h
      · cases h
      · rw [hpending, TriggerDecision.fire.inj h]

/-- A push that is due has been quiet for as long as the policy says, off leap seconds. -/
theorem quiet_of_fire {state : Option OnCommitStatus} {policy : TriggerPolicy} {now quiet : Instant}
    {push : PushRecord} (h : evaluate state policy now = .fire push) (hnow : now.IsPlain)
    (hquiet : push.receivedAt.plus? policy.debounce = some quiet) : quiet ≤ now := by
  have hdeadline : policy.quietAt push = quiet := by
    rw [TriggerPolicy.quietAt, Instant.deadline, hquiet]
    rfl
  have hpending := pending_of_fire h
  unfold evaluate at h
  rw [hpending] at h
  dsimp only at h
  rw [hdeadline] at h
  split at h
  · -- a push that is still within the window is not due
    cases h
  · next hnone => exact Instant.le_of_remaining?_eq_none hnow hnone

/-- A push that is due is not kept back by the minimum interval. -/
theorem remaining?_of_fire {state : Option OnCommitStatus} {policy : TriggerPolicy} {now : Instant}
    {push : PushRecord} {last : TriggeredExecution} (h : evaluate state policy now = .fire push)
    (hlast : state.bind (·.lastTriggeredExecution) = some last) :
    (policy.spacedAt last).remaining? now = none := by
  unfold evaluate at h
  split at h
  · cases h
  · split at h
    · cases h
    · rw [hlast, Option.bind_some] at h
      split at h
      · cases h
      · next hnone => exact hnone

/-! ## What is known about pushes -/

namespace BuildRequestStatus

/-- What is known about pushes, which is nothing if there is no such part. -/
def trigger (status : BuildRequestStatus) : OnCommitStatus := status.onCommit.getD {}

/-- The counter of a status, -/
theorem triggerCounter_eq (status : BuildRequestStatus) :
    status.triggerCounter = status.trigger.triggerCounter := by
  unfold triggerCounter trigger
  cases status.onCommit <;> rfl

/-- the start recorded last, -/
theorem lastTriggered?_eq (status : BuildRequestStatus) :
    status.lastTriggered? = status.trigger.lastTriggeredExecution := by
  unfold lastTriggered? trigger
  cases status.onCommit <;> rfl

/-- and the push that waits are those of what is known about pushes, -/
theorem pending?_eq (status : BuildRequestStatus) : status.pending? = status.trigger.pending := by
  unfold pending? trigger
  cases status.onCommit <;> rfl

/-- which is what the status has, if it has any. -/
theorem trigger_of_some {status : BuildRequestStatus} {state : OnCommitStatus}
    (h : status.onCommit = some state) : status.trigger = state := by
  rw [trigger, h]
  rfl

end BuildRequestStatus

namespace OnCommitStatus

/-- What is left of a state after it was retired is its counter. -/
theorem trigger_retired {state : OnCommitStatus} (hcounter : 0 ≤ state.triggerCounter)
    {status : BuildRequestStatus} (h : status.onCommit = state.retired) :
    status.trigger = { triggerCounter := state.triggerCounter } := by
  rw [BuildRequestStatus.trigger, h, retired]
  split
  · rfl
  · have hzero : state.triggerCounter = 0 := by omega
    rw [hzero]
    rfl

/-- A start that does not come too late has a new number, or is the one that was recorded last. -/
theorem of_not_supersedes {state : OnCommitStatus} {counter : Int} {execution : String}
    (h : state.supersedes counter execution = false) :
    state.triggerCounter < counter ∨ counter ≤ state.triggerCounter ∧
      ∃ last, state.lastTriggeredExecution = some last ∧ last.name = execution := by
  unfold supersedes at h
  by_cases hle : counter ≤ state.triggerCounter
  · refine Or.inr ⟨hle, ?_⟩
    simpa [hle] using h
  · exact Or.inl (by omega)

end OnCommitStatus

/-! ## The writes -/

/-- What a status write of the controller makes of the status of `r`, and on what grounds. -/
inductive Rewrites (policy : TriggerPolicy) (key : ObjectKey) (acts : List Act) (r : BuildRequest) :
    BuildRequestStatus → Prop
  /-- a push is received, at a time that was read -/
  | push (event : PushEvent) {time : Instant} (htime : .now time ∈ acts)
      (hmode : r.isOnCommit = true) :
      Rewrites policy key acts r { r.statusOrDefault with
        onCommit := some (r.statusOrDefault.trigger.recordPush event time) }
  /-- a start is recorded that does not come too late -/
  | fire (f : Firing) {time : Instant} (hf : f.Recordable policy key time acts)
      (hfirst : r.statusOrDefault.trigger.supersedes f.counter f.execution = false) :
      Rewrites policy key acts r { r.statusOrDefault with
        onCommit := some (r.statusOrDefault.trigger.applyFire f.push f.execution f.counter time)
        lastBuildRunRef := some f.execution }
  /-- what a pass built is recorded, for the execution that it created or found -/
  | build (b : SpecBuild) {x : BuildExecution} {admitted started : List Act}
      (hadmitted : b.Admitted key admitted) (hdesired : b.desired = .ok x)
      (hstarted : Started b.request x admitted started) (hacts : started <:+ acts) :
      Rewrites policy key acts r { r.statusOrDefault with
        buildRunCounter := max r.statusOrDefault.buildRunCounter b.counter
        lastBuildRunRef := some b.execution
        lastBuildSpec := some b.request.spec.snapshot }
  /-- the state is retired, for pushes do not build the request -/
  | retire {state : OnCommitStatus} (hmode : r.isOnCommit = false)
      (hbefore : r.statusOrDefault.onCommit = some state) :
      Rewrites policy key acts r { r.statusOrDefault with onCommit := state.retired }
  /-- a projection, by a pass that knows the template -/
  | project (reference : String) (projection : Option Projection) (time : Instant) {k : ObjectKey}
      {r₀ : BuildRequest} {templated : List Act} (htemplated : Templated key k r₀ templated)
      (hacts : templated <:+ acts) :
      Rewrites policy key acts r (projectedStatus reference projection time r r.statusOrDefault)
  /-- a failure is recorded -/
  | failure (error : BuildError) (time : Instant) :
      Rewrites policy key acts r (failedStatus error time r r.statusOrDefault)

section

variable {policy : TriggerPolicy} {key : ObjectKey} {acts : List Act} {r : BuildRequest}
  {status : BuildRequestStatus}

/-- What a projection changes: it names the template, and the generation of the request as observed,
and what else it writes are conditions and the image.  So pushes and builds can be followed without
looking into the projector. -/
theorem projectedStatus_frame (reference : String) (projection : Option Projection) (now : Instant)
    (r : BuildRequest) (status : BuildRequestStatus) :
    projectedStatus reference projection now r status =
      { status with
        buildRef := some reference
        observedGeneration := r.metadata.generation
        conditions := (projectedStatus reference projection now r status).conditions
        latestImage := (projectedStatus reference projection now r status).latestImage } := by
  unfold projectedStatus
  cases projection with
  | none => rfl
  -- the image is written or not, by the digest
  | some p =>
    unfold Projection.apply
    simp only [Option.map_some, Option.getD_some]
    split <;> rfl

/-- A change by a function gives what the function gives. -/
theorem eq_of_ofFunction {f : BuildRequest → BuildRequestStatus → BuildRequestStatus}
    (h : StatusChange.ofFunction f r r.statusOrDefault = some status) :
    status = f r r.statusOrDefault := by
  unfold StatusChange.ofFunction at h
  dsimp only at h
  split at h
  · cases h
  · exact (Option.some.inj h).symm

/-- The start that is recorded is the last one. -/
theorem recordFire_last {push : PushRecord} {name : String} {counter : Int} {now : Instant}
    {old : BuildRequestStatus} (h : recordFire push name counter now r old = some status) :
    status.lastTriggered? = some ⟨name, now⟩ := by
  simp only [recordFire] at h
  split at h
  · cases h
  · obtain rfl := Option.some.inj h
    rfl

/-- A push is recorded only on a request that pushes build. -/
theorem changeOnCommit_eq_some {event : PushEvent} {now : Instant}
    (h : event.changeOnCommit now r r.statusOrDefault = some status) :
    r.isOnCommit = true ∧ status = { r.statusOrDefault with
      onCommit := some (r.statusOrDefault.trigger.recordPush event now) } := by
  unfold PushEvent.changeOnCommit at h
  split at h
  · next hmode => exact ⟨hmode, (Option.some.inj h).symm⟩
  · cases h

/-- A start that comes too late is not recorded. -/
theorem recordFire_eq_some {push : PushRecord} {execution : String} {counter : Int} {now : Instant}
    (h : recordFire push execution counter now r r.statusOrDefault = some status) :
    r.statusOrDefault.trigger.supersedes counter execution = false ∧
      status = { r.statusOrDefault with
        onCommit := some (r.statusOrDefault.trigger.applyFire push execution counter now)
        lastBuildRunRef := some execution } := by
  unfold recordFire at h
  dsimp only at h
  split at h
  · cases h
  · next hfirst => exact ⟨Bool.eq_false_iff.mpr hfirst, (Option.some.inj h).symm⟩

/-- Pushes are given up only on a request that they do not build. -/
theorem retirePushes_eq_some (h : retirePushes r r.statusOrDefault = some status) :
    ∃ state, r.isOnCommit = false ∧ r.statusOrDefault.onCommit = some state ∧
      status = { r.statusOrDefault with onCommit := state.retired } := by
  unfold retirePushes at h
  split at h
  · cases h
  · next state hbefore =>
    split at h
    · cases h
    · next hkeeps =>
      rw [Bool.or_eq_true, not_or] at hkeeps
      exact ⟨state, Bool.eq_false_iff.mpr hkeeps.1, hbefore, (Option.some.inj h).symm⟩

/-- **A status write on grounds** makes one of these of the status. -/
theorem Grounds.rewrites {change : StatusChange} (h : Grounds policy key acts change)
    (hchange : change r r.statusOrDefault = some status) : Rewrites policy key acts r status := by
  cases h with
  | push event htime =>
    obtain ⟨hmode, rfl⟩ := changeOnCommit_eq_some hchange
    exact .push event htime hmode
  | fire f hf =>
    obtain ⟨hfirst, rfl⟩ := recordFire_eq_some hchange
    exact .fire f hf hfirst
  | build b hadmitted hdesired hstarted hacts =>
    obtain rfl := Option.some.inj hchange
    exact .build b hadmitted hdesired hstarted hacts
  | retire =>
    obtain ⟨state, hmode, hbefore, rfl⟩ := retirePushes_eq_some hchange
    exact .retire hmode hbefore
  | project reference projection htemplated hacts _ =>
    obtain rfl := eq_of_ofFunction hchange
    exact .project reference projection _ htemplated hacts
  | failure error _ =>
    obtain rfl := eq_of_ofFunction hchange
    exact .failure error _

end

/-! ## What is written about pushes -/

/-- What a status write of the controller does to what is known about the pushes of `r`, and on what
grounds.  Of the rest of the status it says only that the counter of builds does not go down. -/
inductive TriggerChange (policy : TriggerPolicy) (key : ObjectKey) (acts : List Act)
    (r : BuildRequest) (status : BuildRequestStatus) : Prop
  | unrelated (hstate : status.onCommit = r.statusOrDefault.onCommit)
      (hbuilds : r.statusOrDefault.buildRunCounter ≤ status.buildRunCounter)
  | push (event : PushEvent) {time : Instant} (htime : .now time ∈ acts)
      (hmode : r.isOnCommit = true)
      (hstate : status.onCommit = some (r.statusOrDefault.trigger.recordPush event time))
      (hbuilds : status.buildRunCounter = r.statusOrDefault.buildRunCounter)
  | fire (f : Firing) {time : Instant} (hf : f.Recordable policy key time acts)
      (hfirst : r.statusOrDefault.trigger.supersedes f.counter f.execution = false)
      (hstate : status.onCommit =
        some (r.statusOrDefault.trigger.applyFire f.push f.execution f.counter time))
      (hbuilds : status.buildRunCounter = r.statusOrDefault.buildRunCounter)
  | retire {state : OnCommitStatus} (hmode : r.isOnCommit = false)
      (hbefore : r.statusOrDefault.onCommit = some state) (hstate : status.onCommit = state.retired)
      (hbuilds : status.buildRunCounter = r.statusOrDefault.buildRunCounter)

section

variable {policy : TriggerPolicy} {key : ObjectKey} {acts : List Act} {r : BuildRequest}
  {status : BuildRequestStatus}

/-- **A status write** changes what is known about pushes in one of these ways. -/
theorem Rewrites.triggerChange (h : Rewrites policy key acts r status) :
    TriggerChange policy key acts r status := by
  cases h with
  | push event htime hmode => exact .push event htime hmode rfl rfl
  | fire f hf hfirst => exact .fire f hf hfirst rfl rfl
  | build b _ _ _ _ => exact .unrelated rfl (Int.le_max_left _ _)
  | retire hmode hbefore => exact .retire hmode hbefore rfl rfl
  | project reference projection _ _ _ =>
    rw [projectedStatus_frame]
    exact .unrelated rfl (Int.le_refl _)
  | failure error _ => exact .unrelated rfl (Int.le_refl _)

/-- No status write lowers the counter of builds. -/
theorem TriggerChange.builds_le (h : TriggerChange policy key acts r status) :
    r.statusOrDefault.buildRunCounter ≤ status.buildRunCounter := by
  cases h with
  | unrelated _ hbuilds => exact hbuilds
  | push _ _ _ _ hbuilds => exact Int.le_of_eq hbuilds.symm
  | fire _ _ _ _ hbuilds => exact Int.le_of_eq hbuilds.symm
  | retire _ _ _ hbuilds => exact Int.le_of_eq hbuilds.symm

/-- **What is known of the execution started last** stays as it is, or is given up with the pushes,
or a start is recorded. -/
theorem TriggerChange.last (h : TriggerChange policy key acts r status)
    (hnonneg : 0 ≤ r.statusOrDefault.triggerCounter) :
    (status.triggerCounter = r.statusOrDefault.triggerCounter ∧
      status.lastTriggered? = r.statusOrDefault.lastTriggered?) ∨
    (r.isOnCommit = false ∧ status.triggerCounter = r.statusOrDefault.triggerCounter ∧
      status.lastTriggered? = none) ∨
    ∃ f : Firing, ∃ time, f.Recordable policy key time acts ∧
      r.statusOrDefault.trigger.supersedes f.counter f.execution = false ∧
      status.triggerCounter = max r.statusOrDefault.triggerCounter f.counter ∧
      status.lastTriggered? = some ⟨f.execution, time⟩ := by
  rw [BuildRequestStatus.triggerCounter_eq] at hnonneg
  simp only [BuildRequestStatus.triggerCounter_eq, BuildRequestStatus.lastTriggered?_eq]
  cases h with
  | unrelated hstate _ =>
    rw [BuildRequestStatus.trigger, hstate]
    exact Or.inl ⟨rfl, rfl⟩
  -- a push that is received leaves counter and last start alone
  | push event _ _ hstate _ =>
    rw [BuildRequestStatus.trigger_of_some hstate]
    exact Or.inl ⟨rfl, rfl⟩
  | fire f hf hfirst hstate _ =>
    rw [BuildRequestStatus.trigger_of_some hstate]
    exact Or.inr (Or.inr ⟨f, _, hf, hfirst, rfl, rfl⟩)
  -- what is left is the counter, so no start is named any more
  | retire hmode hbefore hstate _ =>
    rw [BuildRequestStatus.trigger_of_some hbefore] at hnonneg ⊢
    rw [OnCommitStatus.trigger_retired hnonneg hstate]
    exact Or.inr (Or.inl ⟨hmode, rfl, rfl⟩)

/-- A push that waits after a status write waited before, or was received at a time that was
read. -/
theorem TriggerChange.pending (h : TriggerChange policy key acts r status) {push : PushRecord}
    (hpush : status.pending? = some push) :
    r.statusOrDefault.pending? = some push ∨ .now push.receivedAt ∈ acts := by
  rw [BuildRequestStatus.pending?_eq] at hpush ⊢
  cases h with
  | unrelated hstate _ =>
    rw [BuildRequestStatus.trigger, hstate] at hpush
    exact Or.inl hpush
  -- the push that was received waits now
  | push event htime _ hstate _ =>
    rw [BuildRequestStatus.trigger_of_some hstate] at hpush
    obtain rfl := Option.some.inj hpush
    exact Or.inr htime
  | fire f _ _ hstate _ =>
    rw [BuildRequestStatus.trigger_of_some hstate, OnCommitStatus.applyFire] at hpush
    split at hpush
    · -- a start takes away its own push, and else leaves the one that waits
      cases hpush
    · exact Or.inl hpush
  | retire _ _ hstate _ =>
    rw [BuildRequestStatus.trigger, hstate, OnCommitStatus.retired] at hpush
    split at hpush <;> cases hpush

/-- A push that no longer waits, and has no other in its place, was started, or was given up because
pushes do not build the request. -/
theorem TriggerChange.cleared (h : TriggerChange policy key acts r status) {push : PushRecord}
    (hbefore : r.statusOrDefault.pending? = some push) (hafter : status.pending? = none) :
    r.isOnCommit = false ∨ ∃ f : Firing, ∃ time, f.Recordable policy key time acts ∧ f.push = push ∧
      status.lastTriggered? = some ⟨f.execution, time⟩ := by
  rw [BuildRequestStatus.pending?_eq] at hbefore hafter
  cases h with
  | unrelated hstate _ =>
    rw [BuildRequestStatus.trigger, hstate] at hafter
    cases hbefore.symm.trans hafter
  | push event _ _ hstate _ =>
    rw [BuildRequestStatus.trigger_of_some hstate] at hafter
    -- after a push that is received one waits
    cases hafter
  | fire f hf _ hstate _ =>
    refine Or.inr ⟨f, _, hf, ?_, ?_⟩
    · rw [BuildRequestStatus.trigger_of_some hstate, OnCommitStatus.applyFire] at hafter
      split at hafter
      · -- the push that was taken away is the one that was started
        next hfired => exact Option.some.inj (hfired.symm.trans hbefore)
      · cases hbefore.symm.trans hafter
    · rw [BuildRequestStatus.lastTriggered?_eq, BuildRequestStatus.trigger_of_some hstate]
      rfl
  | retire hmode _ _ _ => exact Or.inl hmode

end

/-! ## What is written about builds -/

/-- The acts of a pass that may record now what it builds: it might create the execution for a
change of the specification, and did so or found it there. -/
def SpecBuild.Recordable (key : ObjectKey) (b : SpecBuild) (acts : List Act) : Prop :=
  ∃ x admitted started, b.Admitted key admitted ∧ b.desired = .ok x ∧
    Started b.request x admitted started ∧ started <:+ acts

/-- It may still do so later. -/
theorem SpecBuild.Recordable.mono {key : ObjectKey} {b : SpecBuild} {acts later : List Act}
    (h : b.Recordable key acts) (hacts : acts <:+ later) : b.Recordable key later := by
  obtain ⟨x, admitted, started, hadmitted, hx, hstarted, hbefore⟩ := h
  exact ⟨x, admitted, started, hadmitted, hx, hstarted, hbefore.trans hacts⟩

/-- What a status write of the controller does to what is known about the builds of `r`, and on what
grounds. -/
inductive BuildChange (policy : TriggerPolicy) (key : ObjectKey) (acts : List Act)
    (r : BuildRequest) (status : BuildRequestStatus) : Prop
  /-- nothing about builds -/
  | unrelated (href : status.lastBuildRunRef = r.statusOrDefault.lastBuildRunRef)
      (hspec : status.lastBuildSpec = r.statusOrDefault.lastBuildSpec)
      (hbuilds : status.buildRunCounter = r.statusOrDefault.buildRunCounter)
  /-- the execution of a start becomes the last one, and what was built from the specification
  stays -/
  | fire (f : Firing) {time : Instant} (hf : f.Recordable policy key time acts)
      (hfirst : r.statusOrDefault.trigger.supersedes f.counter f.execution = false)
      (hcounter : status.triggerCounter = max r.statusOrDefault.triggerCounter f.counter)
      (href : status.lastBuildRunRef = some f.execution)
      (hspec : status.lastBuildSpec = r.statusOrDefault.lastBuildSpec)
      (hbuilds : status.buildRunCounter = r.statusOrDefault.buildRunCounter)
  /-- a build from the specification is recorded -/
  | build (b : SpecBuild) (hb : b.Recordable key acts)
      (hstatus : recordBuild b.execution b.counter b.request.spec.snapshot r r.statusOrDefault =
        some status)

/-- **A status write** changes what is known about builds in one of these ways. -/
theorem Rewrites.buildChange {policy : TriggerPolicy} {key : ObjectKey} {acts : List Act}
    {r : BuildRequest} {status : BuildRequestStatus} (h : Rewrites policy key acts r status) :
    BuildChange policy key acts r status := by
  cases h with
  | push _ _ _ => exact .unrelated rfl rfl rfl
  | fire f hf hfirst =>
    refine .fire f hf hfirst ?_ rfl rfl rfl
    rw [BuildRequestStatus.triggerCounter_eq r.statusOrDefault]
    rfl
  | build b hadmitted hdesired hstarted hacts =>
    exact .build b ⟨_, _, _, hadmitted, hdesired, hstarted, hacts⟩ rfl
  | retire _ _ => exact .unrelated rfl rfl rfl
  | project _ _ _ _ _ =>
    rw [projectedStatus_frame]
    exact .unrelated rfl rfl rfl
  | failure _ _ => exact .unrelated rfl rfl rfl

/-! ## What becomes of the request -/

/-- What an act makes of the request `r`: nothing, it gives it a label, or it writes a status. -/
inductive Becomes (policy : TriggerPolicy) (key : ObjectKey) (acts : List Act) (r : BuildRequest) :
    BuildRequest → Prop
  | same : Becomes policy key acts r r
  | label (label : String) (value : Option String) (n : Nat) :
      Becomes policy key acts r ((r.withLabel label value).withVersion n)
  | status {status : BuildRequestStatus} (h : TriggerChange policy key acts r status) (n : Nat) :
      Becomes policy key acts r ((r.restated status).withVersion n)

section

variable {ι : Type} {ρ : ι → Type} [DecidableEq ι] {s : System ι ρ} {i : ι} {policy : TriggerPolicy}
  {key : ObjectKey} {r : BuildRequest} {act : Act} {t : MemoryStore}

/-- **A status that is written** to a request that the program read, even long ago, is written to
the request as it is stored. -/
theorem System.Versioned.written_to (hversioned : s.Versioned) (hinformed : s.Informed)
    (hr : s.store.requests.get? key = some r) {k : ObjectKey} {r₀ written : BuildRequest}
    {status : BuildRequestStatus} (hread : .getRequest k (.ok (some r₀)) ∈ s.acts i)
    (hkey : (r₀.restated status).key = key)
    (hanswer : s.Answers (.updateRequestStatus (r₀.restated status) (.ok written)) t) :
    k = key ∧ r₀ = r := by
  have hstored : s.Stored k r₀ := hinformed i k r₀ hread
  obtain rfl : k = key := (hversioned.key_eq hstored).symm.trans hkey
  have hr₀ := (hversioned.status_write hstored hanswer.requestEffect).1
  exact ⟨rfl, Option.some.inj (hr₀.symm.trans hr)⟩

/-- A status that is written by a program that does its duty was made, on grounds, from the request
as it is stored; and this is so also of a program for another request.  A program writes with the
version that it read, so a write that succeeds finds the request as it was read. -/
theorem request_of_duty {own : ObjectKey} (hversioned : s.Versioned) (hinformed : s.Informed)
    (hr : s.store.requests.get? key = some r) (hanswer : s.Answers act t)
    (hduty : controllerDuty policy own (s.acts i) act) :
    ∃ r', t.requests.get? key = some r' ∧ (r' = r ∨
      (∃ label value n, r' = (r.withLabel label value).withVersion n) ∨
      ∃ status n, r' = (r.restated status).withVersion n ∧
        Rewrites policy own (s.acts i) r status) := by
  obtain ⟨r', hr', rfl | ⟨label, value, _, n, -, rfl⟩ | ⟨request, n, rfl, hkey, -, rfl⟩⟩ :=
    hanswer.requestEffect.request hr
  · exact ⟨_, hr', Or.inl rfl⟩
  · exact ⟨_, hr', Or.inr (Or.inl ⟨label, value, n, rfl⟩)⟩
  · obtain ⟨k, r₀, status, change, before, hacts, hchange, rfl, hgrounds⟩ := hduty
    have hread : .getRequest k (.ok (some r₀)) ∈ s.acts i := by
      rw [hacts]
      exact List.mem_cons_self
    obtain ⟨rfl, rfl⟩ := hversioned.written_to hinformed hr hread hkey hanswer
    have hbefore : before <:+ s.acts i := hacts ▸ List.suffix_cons _ _
    exact ⟨_, hr', Or.inr (Or.inr ⟨status, n, rfl, (hgrounds.mono hbefore).rewrites hchange⟩)⟩

/-- **What becomes of the request** when a program that does its duty acts. -/
theorem becomes_of_duty (hversioned : s.Versioned) (hinformed : s.Informed)
    (hr : s.store.requests.get? key = some r) (hanswer : s.Answers act t)
    (hduty : controllerDuty policy key (s.acts i) act) :
    ∃ r', t.requests.get? key = some r' ∧ Becomes policy key (s.acts i) r r' := by
  obtain ⟨r', hr', rfl | ⟨label, value, n, rfl⟩ | ⟨status, n, rfl, hrewrites⟩⟩ :=
    request_of_duty hversioned hinformed hr hanswer hduty
  · exact ⟨_, hr', .same⟩
  · exact ⟨_, hr', .label label value n⟩
  · exact ⟨_, hr', .status hrewrites.triggerChange n⟩

/-- **Who changes the status.**  After an event the request has another status only if a program
wrote it. -/
theorem System.Moment.status_written {w : Surroundings} {s₀ : System ι ρ} {duty : ι → Duty}
    {e : Event ι} {earlier : List (Event ι)} {r' : BuildRequest} (h : Moment w s₀ duty e earlier s)
    (hallows : ∀ deed, w.allows s.store deed → ¬ deed.Inserts key)
    (hr : e.before.requests.get? key = some r) (hr' : e.after.requests.get? key = some r')
    (hchanged : r'.statusOrDefault ≠ r.statusOrDefault) :
    ∃ i request n, e.cause = .act i (.updateRequestStatus request (.ok r')) ∧ request.key = key ∧
      r' = ({ r with status := request.status } : BuildRequest).withVersion n ∧
      s.Answers (.updateRequestStatus request (.ok r')) e.after ∧
      duty i (s.acts i) (.updateRequestStatus request (.ok r')) := by
  rw [← h.store_eq] at hr
  cases hcause : e.cause with
  | deed deed =>
    -- others leave the status alone
    obtain ⟨hdeed, hafter⟩ := h.deed deed hcause
    obtain ⟨r'', hr'', hcases⟩ := Deed.request hr (hallows deed hdeed)
    rw [← hafter] at hr''
    obtain rfl := Option.some.inj (hr''.symm.trans hr')
    rcases hcases with rfl | ⟨_, _, _, rfl⟩ | ⟨_, _, -, rfl⟩ <;> exact absurd rfl hchanged
  | act i act =>
    obtain ⟨hanswer, hdoes⟩ := h.act i act hcause
    obtain ⟨r'', hr'', hcases⟩ := hanswer.requestEffect.request hr
    obtain rfl := Option.some.inj (hr''.symm.trans hr')
    rcases hcases with rfl | ⟨_, _, _, _, -, rfl⟩ | ⟨request, n, rfl, hkey, -, heq⟩
    · exact absurd rfl hchanged
    · exact absurd rfl hchanged
    · exact ⟨i, request, n, rfl, hkey, heq, hanswer, hdoes⟩

/-- A program that does its duty changes the status on grounds. -/
theorem System.Moment.status_changed {w : Surroundings} {s₀ : System ι ρ} {duty : ι → Duty}
    {e : Event ι} {earlier : List (Event ι)} {r' : BuildRequest} (h : Moment w s₀ duty e earlier s)
    (hversioned : s.Versioned) (hinformed : s.Informed)
    (hallows : ∀ deed, w.allows s.store deed → ¬ deed.Inserts key)
    (hr : e.before.requests.get? key = some r) (hr' : e.after.requests.get? key = some r')
    (hchanged : r'.statusOrDefault ≠ r.statusOrDefault) :
    ∃ i act, e.cause = .act i act ∧ duty i (s.acts i) act ∧
      ∀ policy, controllerDuty policy key (s.acts i) act →
        Rewrites policy key (s.acts i) r r'.statusOrDefault := by
  obtain ⟨i, request, n, hcause, -, -, hanswer, hdoes⟩ := h.status_written hallows hr hr' hchanged
  refine ⟨i, _, hcause, hdoes, fun policy hduty => ?_⟩
  rw [← h.store_eq] at hr
  obtain ⟨r'', hr'', hcases⟩ := request_of_duty hversioned hinformed hr hanswer hduty
  obtain rfl := Option.some.inj (hr''.symm.trans hr')
  rcases hcases with rfl | ⟨_, _, _, rfl⟩ | ⟨status, n, rfl, hrewrites⟩
  · -- nothing was written, or a label only, and so the status is what it was
    exact absurd rfl hchanged
  · exact absurd rfl hchanged
  · exact hrewrites

end

end PushBuild
