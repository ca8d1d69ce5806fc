import PushBuild.Proofs.Recovery.Parts

/-!
# Starting executions follows its decisions

To start an execution takes two writes: one creates it, and the other records it.  In between a pass
may be cut short; the next one finds the execution there, and goes on with the record.

1. **Builds** (`follows_build`).  An execution for a change of the specification.
2. **Pushes** (`follows_push`).  An execution for a push, unless one is running; or what is left of
   pushes is dropped.
-/

namespace PushBuild

variable {key : ObjectKey} {now : Instant} {fails : Prop}

/-! ## Builds -/

section

/-- The claim of an execution leaves the request as it is. -/
theorem within_claim (name trigger : String) :
    Within key (fun v v' => v'.requestAt key = v.requestAt key) (claimStep key name trigger) := by
  intro v w h
  obtain ⟨x, -, -, rfl⟩ := claimStep_writes h
  rfl

/-- The request as a program holds it knows of pushes what is known. -/
structure HoldsState (key : ObjectKey) (r : BuildRequest) (v : MemoryStore) : Prop where
  holds : Holds key r v
  onCommit : (v.requestAt key).statusOrDefault.onCommit = r.statusOrDefault.onCommit

/-- The part of a pass about what is to be built. -/
def buildIfDue (retry : RetryPolicy) (r : BuildRequest) : Pass Unit :=
  if r.spec.needsBuild (r.status.bind (·.lastBuildSpec)) then startBuild retry r else pure ()

/-- The name of the execution that is to be started next for a change of the specification. -/
def BuildRequest.nextBuild (r : BuildRequest) : String :=
  plainExecutionName r.name (r.statusOrDefault.buildRunCounter + 1)

/-- The record of that execution. -/
def BuildRequest.buildRecord (r : BuildRequest) : StatusChange :=
  recordBuild r.nextBuild (r.statusOrDefault.buildRunCounter + 1) r.spec.snapshot

section

variable {s : MemoryStore} {r : BuildRequest}

/-- While the request is as it was read, the next write is the claim's, or the record. -/
theorem HoldsAll.build {v : MemoryStore} (hv : HoldsAll r.key r v)
    (hdue : r.spec.needsBuild (r.status.bind (·.lastBuildSpec)) = true) :
    buildStep r.key v = (claimStep r.key r.nextBuild BuildTrigger.initial.label v >>= fun _ =>
      restateStep r.key r.buildRecord v) := by
  unfold buildStep
  rw [show v.requestAt r.key = r.unversioned from hv]
  exact if_pos hdue

/-- The execution is there, and it is recorded. -/
theorem followsAt_recordBuild (hs : s.Serving fails) (hsound : Sound r.key s.contents)
    (hr : HoldsAll r.key r s.contents)
    (hdue : r.spec.needsBuild (r.status.bind (·.lastBuildSpec)) = true)
    (hclaimed : claimStep r.key r.nextBuild BuildTrigger.initial.label s.contents = .ok ())
    {retry : RetryPolicy} :
    FollowsAt r.key now fails s
      (do let _ ← (BuildRequest.modifyStatus retry r.key r.buildRecord).pass)
      (buildStep r.key) fun _ _ v => HoldsState r.key r v := by
  have hrequest : s.contents.requestAt r.key = r.unversioned := hr
  have hrecord : buildStep r.key s.contents = restateStep r.key r.buildRecord s.contents := by
    rw [hr.build hdue, hclaimed]
    rfl
  refine followsAt_modifyStatus (fun _ _ => rfl) hs hsound (fun w hw => hrecord.trans hw)
    (fun _ _ hok => ?_) fun _ t w ht _ hw hcontents => ?_
  · cases restateStep_ok.mp hok
  · obtain ⟨status, hstatus, rfl⟩ := restateStep_writes hw
    -- the record says what was built, so nothing is to be built
    have hdone : buildStep r.key t.contents = .ok () := by
      rw [hcontents]
      refine buildStep_recorded r.nextBuild (r.statusOrDefault.buildRunCounter + 1) ?_
      rw [hrequest] at hstatus ⊢
      exact hstatus
    have hholds := hr.holds.restated status
    rw [hrequest] at hstatus hcontents
    rw [hrequest, ← show t.contents = _ from hcontents] at hholds
    refine followsAt_pure ht hdone ⟨hholds, ?_⟩
    rw [hcontents, Write.apply, MemoryStore.requestAt_withRequest, ← Option.some.inj hstatus]
    rfl

/-- Building what is to be built. -/
theorem follows_build {retry : RetryPolicy} (hkey : r.key = key) :
    Follows key now fails (HoldsAll key r) (buildIfDue retry r) (buildStep key)
      fun _ _ v => HoldsState key r v := by
  subst hkey
  intro s hs hsound hr
  unfold buildIfDue
  split
  · next hdue =>
    unfold startBuild
    refine (followsAt_create hs hr.holds).handover (I := HoldsAll r.key r) hr
      (fun v w hv hw => ⟨(within_claim _ _ v w hw).trans hv, ?_⟩) (fun v e hv he => ?_)
      fun _ _ t hadvanced _ hrt hclaimed _ => ?_
    · rw [hv.build hdue]
      exact Decision.bind_error.mpr (Or.inl hw)
    · rw [hv.build hdue]
      exact Decision.bind_error.mpr (Or.inl he)
    · exact followsAt_recordBuild hadvanced.serving (hadvanced.sound sound_build hsound) hrt hdue
        hclaimed
  · next hdue =>
    -- there is nothing to build
    have hdone : buildStep r.key s.contents = .ok () := by
      unfold buildStep
      rw [show s.contents.requestAt r.key = r.unversioned from hr]
      exact if_neg hdue
    refine followsAt_pure hs hdone ⟨hr.holds, ?_⟩
    rw [show s.contents.requestAt r.key = r.unversioned from hr]
    rfl

end

end

/-! ## Pushes -/

section

/-- Looking whether the execution that was started last runs. -/
theorem followsAt_active {s : MemoryStore} (hs : s.Serving fails) {r : BuildRequest}
    (hr : HoldsAll key r s.contents) :
    FollowsAt key now fails s (activeExecution r r.statusOrDefault.onCommit) (activeStep key)
      fun found active _ => found.isSome = active := by
  have hrequest : s.contents.requestAt key = r.unversioned := hr
  unfold activeExecution
  cases hlast : r.statusOrDefault.onCommit.bind (·.lastTriggeredExecution) with
  -- none was started
  | none =>
    have hlast' : r.unversioned.statusOrDefault.lastTriggered? = none := hlast
    refine followsAt_pure (b := false) hs ?_ rfl
    simp only [activeStep, hrequest, hlast']
  | some last =>
    have hlast' : r.unversioned.statusOrDefault.lastTriggered? = some last := hlast
    dsimp only
    refine followsAt_read hs rfl ?_
    cases hexecution : s.executions.get? ⟨r.namespace, last.name⟩ with
    -- it is not there any more
    | none =>
      have hexecution' : s.contents.executions.get? ⟨r.unversioned.namespace, last.name⟩ =
          none := by
        rw [MemoryStore.get?_executions_contents]
        exact congrArg _ hexecution
      refine followsAt_pure (b := false) hs ?_ rfl
      simp only [activeStep, hrequest, hlast', hexecution']
    | some x =>
      have hexecution' : s.contents.executions.get? ⟨r.unversioned.namespace, last.name⟩ =
          some x.unversioned := by
        rw [MemoryStore.get?_executions_contents]
        exact congrArg _ hexecution
      have hstep : activeStep key s.contents = (Decision.of r.uid >>= fun uid =>
          pure (Ownership.of x.metadata uid = .owned && !x.outcome.isTerminal)) := by
        simp only [activeStep, hrequest, hlast', hexecution']
        rfl
      refine followsAt_monadLift hs hstep fun uid _ hstep => ?_
      split
      · next hactive =>
        refine followsAt_pure hs hstep ?_
        exact hactive.symm
      · next hactive =>
        refine followsAt_pure hs hstep ?_
        exact (Bool.eq_false_iff.mpr hactive).symm

/-- What is left to do about a push that is due, once it is known that no execution runs. -/
theorem fireStep_idle {v : MemoryStore} {push : PushRecord}
    (hactive : activeStep key v = .ok false) :
    fireStep key now push v =
      (claimStep key (onCommitExecutionName key.name
          ((v.requestAt key).statusOrDefault.triggerCounter + 1)) BuildTrigger.onCommit.label v >>=
        fun _ => restateStep key (recordFire push (onCommitExecutionName key.name
          ((v.requestAt key).statusOrDefault.triggerCounter + 1))
          ((v.requestAt key).statusOrDefault.triggerCounter + 1) now) v) := by
  unfold fireStep
  rw [hactive]
  rfl

/-- Reporting a start that was recorded. -/
theorem followsAt_afterFire {s : MemoryStore} (hs : s.Serving fails) {r : BuildRequest}
    {policy : TriggerPolicy} {execution : String} {d : MemoryStore → Decision (Option Duration)}
    (hlast : r.statusOrDefault.lastTriggered?.map (·.name) = some execution)
    (hidle : evaluate r.statusOrDefault.onCommit policy now = .idle)
    (hd : d s.contents = .ok none) :
    FollowsAt key now fails s (afterFire policy r execution) d
      fun outcome requeueAfter _ => outcome.requeueAfter = requeueAfter := by
  have hstate := r.status_bind (·.onCommit) rfl
  unfold BuildRequestStatus.lastTriggered? at hlast
  unfold afterFire
  simp only [hstate]
  rw [if_pos hlast]
  refine followsAt_now (followsAt_pure hs hd ?_)
  rw [hidle]
  rfl

/-- The request is as the program holds it, and the push is due. -/
structure DuePush (key : ObjectKey) (policy : TriggerPolicy) (now : Instant) (r : BuildRequest)
    (push : PushRecord) (v : MemoryStore) : Prop where
  holds : HoldsAll key r v
  mode : (v.requestAt key).isOnCommit = true
  due : evaluate (v.requestAt key).statusOrDefault.onCommit policy now = .fire push

/-- The number of the execution that is to be started for a push next. -/
def BuildRequest.nextCounter (r : BuildRequest) : Int := r.statusOrDefault.triggerCounter + 1

/-- What is done once the execution is there: its start is recorded, and reported. -/
def recordStart (policy : TriggerPolicy) (retry : RetryPolicy) (key : ObjectKey) (push : PushRecord)
    (counter : Int) : Pass TriggerOutcome := do
  let now ← Pass.now
  let execution := onCommitExecutionName key.name counter
  match ← (BuildRequest.modifyStatus retry key (recordFire push execution counter now)).pass with
  | none => return .idle
  | some updated => afterFire policy updated execution

section

variable {s v : MemoryStore} {r : BuildRequest} {policy : TriggerPolicy} {push : PushRecord}

/-- A push that is due on the request as it is held is due on the one that is there. -/
theorem HoldsAll.due (hr : HoldsAll key r v) (hmode : r.isOnCommit = true)
    (hdue : evaluate r.statusOrDefault.onCommit policy now = .fire push) :
    DuePush key policy now r push v := by
  have hrequest : v.requestAt key = r.unversioned := hr
  refine ⟨hr, ?_, ?_⟩
  · rw [hrequest]
    exact hmode
  · rw [hrequest]
    exact hdue

/-- What is left to do about a push that is due, while no execution runs. -/
theorem DuePush.step (h : DuePush key policy now r push v) (hidle : activeStep key v = .ok false) :
    pushStep key policy now v =
      ((claimStep key (onCommitExecutionName key.name r.nextCounter)
        BuildTrigger.onCommit.label v >>= fun _ => restateStep key
          (recordFire push (onCommitExecutionName key.name r.nextCounter) r.nextCounter now) v) >>=
        fun _ => pure none) := by
  have hrequest : v.requestAt key = r.unversioned := h.holds
  rw [pushStep_due h.mode h.due, fireStep_idle hidle, hrequest]
  rfl

/-- The claim of the execution leaves the push due, and no execution runs after it.  So the same
start is still to be recorded. -/
theorem DuePush.claimed (h : DuePush key policy now r push v) (hsound : Sound key v)
    (hidle : activeStep key v = .ok false) {w : Write}
    (hw : claimStep key (onCommitExecutionName key.name r.nextCounter) BuildTrigger.onCommit.label
      v = .error (.writes w)) :
    Sound key (w.apply key v) ∧ DuePush key policy now r push (w.apply key v) ∧
      activeStep key (w.apply key v) = .ok false := by
  have hpush : pushStep key policy now v = .error (.writes w) := by
    rw [h.step hidle]
    exact Decision.bind_error.mpr (Or.inl (Decision.bind_error.mpr (Or.inl hw)))
  have hsame := within_claim _ _ v w hw
  have hcounter : (v.requestAt key).statusOrDefault.triggerCounter + 1 = r.nextCounter := by
    rw [show v.requestAt key = r.unversioned from h.holds]
    rfl
  rw [← hcounter] at hw
  exact ⟨sound_push policy now v w hpush hsound,
    ⟨hsame.trans h.holds, hsame ▸ h.mode, hsame ▸ h.due⟩, activeStep_claimed hsound h.mode hidle hw⟩

/-- The execution is there, and its start is recorded. -/
theorem followsAt_record (hs : s.Serving fails) (hsound : Sound key s.contents)
    (h : DuePush key policy now r push s.contents) (hidle : activeStep key s.contents = .ok false)
    (hclaimed : claimStep key (onCommitExecutionName key.name r.nextCounter)
      BuildTrigger.onCommit.label s.contents = .ok ()) {retry : RetryPolicy} :
    FollowsAt key now fails s (recordStart policy retry key push r.nextCounter)
      (pushStep key policy now) fun outcome requeueAfter _ => outcome.requeueAfter =
        requeueAfter := by
  have hrequest : s.contents.requestAt key = r.unversioned := h.holds
  have hrecord : pushStep key policy now s.contents =
      (restateStep key (recordFire push (onCommitExecutionName key.name r.nextCounter) r.nextCounter
        now) s.contents >>= fun _ => pure none) := by
    rw [h.step hidle, hclaimed]
    rfl
  refine followsAt_now (followsAt_modifyStatus (fun _ _ => rfl) hs hsound (fun w hw => ?_)
    (fun _ _ hok => ?_) fun updated t w ht hupdated hw hcontents => ?_)
  · rw [hrecord]
    exact Decision.bind_error.mpr (Or.inl hw)
  · -- the start does not come too late
    obtain ⟨w, hw⟩ := restateStep_recordFire key s.contents push
      (onCommitExecutionName key.name r.nextCounter) now
    rw [hrequest] at hw
    cases hw.symm.trans hok
  · obtain ⟨status, hstatus, rfl⟩ := restateStep_writes hw
    have hnew : updated.unversioned = (s.contents.requestAt key).restated status := by
      rw [← show t.contents.requestAt key = updated.unversioned from hupdated, hcontents,
        Write.apply, MemoryStore.requestAt_withRequest]
    have hstatusNew : updated.statusOrDefault = status :=
      congrArg BuildRequest.statusOrDefault hnew
    refine followsAt_afterFire ht ?_ ?_ ?_
    · rw [hstatusNew, recordFire_last hstatus]
      rfl
    · rw [hstatusNew]
      exact evaluate_recorded h.due hstatus
    · rw [hcontents]
      exact pushStep_recorded h.mode h.due hstatus

/-- A push that is due. -/
theorem followsAt_fire (hs : s.Serving fails) (hsound : Sound key s.contents)
    (hr : HoldsAll key r s.contents) (hmode : r.isOnCommit = true) {retry : RetryPolicy}
    (hdue : evaluate r.statusOrDefault.onCommit policy now = .fire push) :
    FollowsAt key now fails s (fire policy retry key r push) (pushStep key policy now)
      fun outcome requeueAfter _ => outcome.requeueAfter = requeueAfter := by
  -- first it is looked whether an execution runs
  unfold fire
  refine (followsAt_active hs hr).handover (I := HoldsAll key r) hr
    (fun v w _ hw => absurd hw (activeStep_settled w)) (fun v e hv he => ?_)
    fun found active t _ ht hrt hactive hfound => ?_
  · have hpush := hv.due hmode hdue
    rw [pushStep_due hpush.mode hpush.due]
    exact Decision.bind_error.mpr (Or.inl (Decision.bind_error.mpr (Or.inl he)))
  obtain rfl := ht.quiet activeStep_settled
  have hpush : DuePush key policy now r push t.contents := hr.due hmode hdue
  cases found with
  | some name =>
    obtain rfl : true = active := hfound
    refine followsAt_pure hs ?_ rfl
    rw [pushStep_due hpush.mode hpush.due]
    unfold fireStep
    rw [hactive]
    rfl
  | none =>
    obtain rfl : false = active := hfound
    -- it is the turn of the claim as long as the push is due and no execution runs
    refine (followsAt_create hs hr.holds).handover
      (I := fun v => Sound key v ∧ DuePush key policy now r push v ∧ activeStep key v = .ok false)
      ⟨hsound, hpush, hactive⟩ ?_ ?_ ?_
    · rintro v w ⟨hsound, hpush, hidle⟩ hw
      refine ⟨hpush.claimed hsound hidle hw, ?_⟩
      rw [hpush.step hidle]
      exact Decision.bind_error.mpr (Or.inl (Decision.bind_error.mpr (Or.inl hw)))
    · rintro v e ⟨-, hpush, hidle⟩ he
      rw [hpush.step hidle]
      exact Decision.bind_error.mpr (Or.inl (Decision.bind_error.mpr (Or.inl he)))
    · rintro _ _ t hadvanced - ⟨hsound, hpush, hidle⟩ hclaimed -
      exact followsAt_record hadvanced.serving hsound hpush hidle hclaimed

end

/-- The part of a pass about pushes. -/
def pushPart (settings : ControllerSettings) (r : BuildRequest) : Pass (Option Duration) :=
  if r.isOnCommit then do
    let outcome ← coordinate settings.trigger settings.retry r.key
    pure outcome.requeueAfter
  else do
    retireOnCommitState settings.retry r
    pure none

/-- Looking for a push, on the request as it is there. -/
theorem followsAt_coordinate {s : MemoryStore} (hs : s.Serving fails)
    (hsound : Sound key s.contents) {policy : TriggerPolicy} {retry : RetryPolicy}
    (hmode : (s.contents.requestAt key).isOnCommit = true) :
    FollowsAt key now fails s (coordinate policy retry key) (pushStep key policy now)
      fun outcome requeueAfter _ => outcome.requeueAfter = requeueAfter := by
  obtain ⟨r, hr, -, hrequest⟩ := hsound.stored
  -- what is not due is left waiting by the program and by the decision alike
  have hwaits : ∀ {decision : TriggerDecision},
      evaluate r.statusOrDefault.onCommit policy now = decision → (∀ push, decision ≠ .fire push) →
        pushStep key policy now s.contents = .ok decision.requeueAfter := by
    intro decision hdecision
    refine pushStep_waits hmode ?_
    rw [hrequest]
    exact hdecision
  rw [hrequest] at hmode
  have hmode : r.isOnCommit = true := hmode
  unfold coordinate
  refine followsAt_read hs (a := some r) (congrArg (fun found => (Except.ok found, s)) hr) ?_
  dsimp only
  rw [if_pos hmode]
  refine followsAt_now ?_
  cases hdue : evaluate r.statusOrDefault.onCommit policy now with
  | fire push => exact followsAt_fire hs hsound hrequest hmode hdue
  | idle => exact followsAt_pure hs (hwaits hdue fun _ h => by cases h) rfl
  | debouncing wait => exact followsAt_pure hs (hwaits hdue fun _ h => by cases h) rfl
  | rateLimited wait => exact followsAt_pure hs (hwaits hdue fun _ h => by cases h) rfl

/-- Dropping what is left of pushes. -/
theorem followsAt_retire {s : MemoryStore} (hs : s.Serving fails) (hsound : Sound key s.contents)
    {r : BuildRequest} (hkey : r.key = key) (hr : HoldsState key r s.contents)
    {policy : TriggerPolicy} {retry : RetryPolicy} (hmode : r.isOnCommit = false) :
    FollowsAt key now fails s
      (do retireOnCommitState retry r; pure (none : Option Duration)) (pushStep key policy now)
      fun a b _ => a = b := by
  subst hkey
  have hstep : ∀ {v}, Holds r.key r v → pushStep r.key policy now v =
      (restateStep r.key retirePushes v >>= fun _ => pure none) := by
    rintro v ⟨status, hrequest⟩
    refine pushStep_retires ?_
    rw [hrequest]
    exact hmode
  have hdone : ∀ {v}, Holds r.key r v → restateStep r.key retirePushes v = .ok () →
      pushStep r.key policy now v = .ok none := by
    intro v hv hok
    rw [hstep hv, hok]
    rfl
  have hstate := r.status_bind (·.onCommit) rfl
  unfold retireOnCommitState
  simp only [hstate]
  -- nothing is left, or nothing is to be dropped of it
  have hnothing : (∀ state, r.statusOrDefault.onCommit = some state → state.retired = some state) →
      pushStep r.key policy now s.contents = .ok none := by
    intro hkept
    refine hdone hr.holds (restateStep_ok.mpr (retirePushes_eq_none.mpr (Or.inr ?_)))
    rw [hr.onCommit]
    exact hkept
  cases honCommit : r.statusOrDefault.onCommit with
  | none => exact followsAt_pure hs (hnothing fun _ h => nomatch honCommit.symm.trans h) rfl
  | some state =>
    dsimp only
    split
    · next hkept =>
      refine followsAt_pure hs (hnothing fun state' h => ?_) rfl
      rw [← Option.some.inj (honCommit.symm.trans h)]
      exact hkept
    · rw [bind_assoc]
      refine followsAt_modifyStatus (fun _ _ => rfl) hs hsound (fun w hw => ?_)
        (fun _ _ hok => ?_) fun _ t w ht _ hw hcontents => ?_
      · rw [hstep hr.holds]
        exact Decision.bind_error.mpr (Or.inl hw)
      · exact followsAt_pure hs (hdone hr.holds hok) rfl
      · have hsettles := retireStep_settles hw
        obtain ⟨-, state, -, rfl⟩ := retireStep_writes hw
        rw [← hcontents] at hsettles
        refine followsAt_pure ht (hdone ?_ hsettles) rfl
        rw [hcontents]
        exact hr.holds.restated _

/-- The part about pushes follows its decision, in either mode. -/
theorem follows_push {settings : ControllerSettings} {r : BuildRequest} (hkey : r.key = key) :
    Follows key now fails (HoldsState key r) (pushPart settings r)
      (pushStep key settings.trigger now) fun a b _ => a = b := by
  intro s hs hsound hr
  unfold pushPart
  split
  · next hmode =>
    obtain ⟨status, hrequest⟩ := hr.holds
    have hmode' : (s.contents.requestAt key).isOnCommit = true := by
      rw [hrequest]
      exact hmode
    rw [hkey]
    exact FollowsAt.map (followsAt_coordinate hs hsound hmode') fun _ _ _ h => h
  · next hmode => exact followsAt_retire hs hsound hkey hr (Bool.eq_false_iff.mpr hmode)

end

end PushBuild
