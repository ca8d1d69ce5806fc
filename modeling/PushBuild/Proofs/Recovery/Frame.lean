import PushBuild.Proofs.Recovery.Decision

/-!
# What a later write leaves of earlier decisions

The parts of a pass decide one after the other.  What a later part writes does not concern the
earlier ones: the label, the template and the build do not depend on what comes after them.  So
while the later parts write, the earlier ones have still nothing to do.

1. **Frames.**  `SameTask`, `SameTemplates`, `SameBuild` and `SameProgress` say ever more of what
   two stores have in common; every part keeps its writes within one of them (`within_…`).
2. **Decisions** (`…_congr`, `…_keeps`, `…_failed`).  A part decides the same in stores that have
   enough in common.
-/

namespace PushBuild

/-! ## Frames -/

/-- The request is the same but for its status, and the policy and the strategies are the same. -/
structure SameTask (key : ObjectKey) (v v' : MemoryStore) : Prop where
  request : ∃ status, v'.requestAt key = { v.requestAt key with status }
  policy : v'.policy = v.policy
  strategies : v'.strategies = v.strategies

/-- And the templates are the same. -/
structure SameTemplates (key : ObjectKey) (v v' : MemoryStore) :
    Prop extends SameTask key v v' where
  templates : v'.templates = v.templates

/-- And so is what was built last. -/
structure SameBuild (key : ObjectKey) (v v' : MemoryStore) :
    Prop extends SameTemplates key v v' where
  lastBuildSpec : (v'.requestAt key).statusOrDefault.lastBuildSpec =
    (v.requestAt key).statusOrDefault.lastBuildSpec

/-- And so are the executions, their numbers and what is known about pushes. -/
structure SameProgress (key : ObjectKey) (v v' : MemoryStore) :
    Prop extends SameBuild key v v' where
  executions : v'.executions = v.executions
  buildRunCounter : (v'.requestAt key).statusOrDefault.buildRunCounter =
    (v.requestAt key).statusOrDefault.buildRunCounter
  onCommit : (v'.requestAt key).statusOrDefault.onCommit =
    (v.requestAt key).statusOrDefault.onCommit

/-- What is written keeps to a relation. -/
def Within {α : Type} (key : ObjectKey) (R : MemoryStore → MemoryStore → Prop)
    (d : MemoryStore → Decision α) : Prop :=
  ∀ v w, d v = .error (.writes w) → R v (w.apply key v)

/-- What keeps to a relation keeps to a wider one. -/
theorem Within.mono {α : Type} {key : ObjectKey} {R R' : MemoryStore → MemoryStore → Prop}
    {d : MemoryStore → Decision α} (h : Within key R d) (hR : ∀ v v', R v v' → R' v v') :
    Within key R' d :=
  fun v w hw => hR _ _ (h v w hw)

/-- A sequence keeps to what its parts keep to. -/
theorem Within.bind {α β : Type} {key : ObjectKey} {R : MemoryStore → MemoryStore → Prop}
    {d : MemoryStore → Decision α} {f : α → MemoryStore → Decision β} (h : Within key R d)
    (hf : ∀ a, Within key R (f a)) : Within key R fun v => d v >>= fun a => f a v := by
  intro v w hw
  rcases Decision.bind_error.mp hw with hw | ⟨a, -, hw⟩
  · exact h v w hw
  · exact hf a v w hw

section

variable {key : ObjectKey} {v : MemoryStore}

/-- A status write leaves what there is to do. -/
theorem sameTask_restated (status : BuildRequestStatus) :
    SameTask key v (Write.apply key (.request ((v.requestAt key).restated status)) v) := by
  refine ⟨⟨some status, ?_⟩, rfl, rfl⟩
  rw [Write.apply, MemoryStore.requestAt_withRequest]

/-- What is written of a template leaves the task as it is. -/
theorem within_template (strategy : String) :
    Within key (SameTask key) (templateStep key strategy) := by
  intro v w h
  obtain ⟨desired, uid, -, -, h⟩ := templateStep_writes h
  rcases convergeStep_writes h with ⟨-, rfl⟩ | ⟨existing, updated, -, -, rfl⟩
  · exact ⟨⟨_, rfl⟩, rfl, rfl⟩
  · exact ⟨⟨_, rfl⟩, rfl, rfl⟩

/-- What is written of a build leaves the templates as they are. -/
theorem within_build : Within key (SameTemplates key) (buildStep key) := by
  intro v w h
  rcases buildStep_writes h with ⟨x, rfl⟩ | ⟨name, counter, snapshot, rfl⟩
  · exact ⟨⟨⟨_, rfl⟩, rfl, rfl⟩, rfl⟩
  · exact ⟨sameTask_restated _, rfl⟩

/-- What is written of pushes leaves what was built last as it is. -/
theorem within_push (policy : TriggerPolicy) (now : Instant) :
    Within key (SameBuild key) (pushStep key policy now) := by
  intro v w h
  rcases pushStep_writes h with ⟨push, h⟩ | h
  · rcases fireStep_writes h with ⟨x, rfl⟩ | rfl
    · exact ⟨⟨⟨⟨_, rfl⟩, rfl, rfl⟩, rfl⟩, rfl⟩
    · refine ⟨⟨sameTask_restated _, rfl⟩, ?_⟩
      rw [Write.apply, MemoryStore.requestAt_withRequest]
      rfl
  · obtain ⟨-, state, -, rfl⟩ := retireStep_writes h
    refine ⟨⟨sameTask_restated _, rfl⟩, ?_⟩
    rw [Write.apply, MemoryStore.requestAt_withRequest]
    rfl

/-- A status that says how things stand leaves them as they are. -/
theorem sameProgress_restated {status : BuildRequestStatus}
    (hspec : status.lastBuildSpec = (v.requestAt key).statusOrDefault.lastBuildSpec)
    (hcounter : status.buildRunCounter = (v.requestAt key).statusOrDefault.buildRunCounter)
    (honCommit : status.onCommit = (v.requestAt key).statusOrDefault.onCommit) :
    SameProgress key v (Write.apply key (.request ((v.requestAt key).restated status)) v) := by
  have hrequest : ((Write.request ((v.requestAt key).restated status)).apply key v).requestAt key =
      (v.requestAt key).restated status := MemoryStore.requestAt_withRequest
  refine ⟨⟨⟨sameTask_restated status, rfl⟩, ?_⟩, rfl, ?_, ?_⟩
  · rw [hrequest]
    exact hspec
  · rw [hrequest]
    exact hcounter
  · rw [hrequest]
    exact honCommit

/-- To say how things stand leaves them as they are. -/
theorem within_project (reference : String) (now : Instant) :
    Within key (SameProgress key) (projectStep key reference now) := by
  intro v w h
  obtain ⟨projection, rfl⟩ := projectStep_writes h
  rw [projectedStatus_frame]
  exact sameProgress_restated rfl rfl rfl

/-- To say what blocked a pass leaves things as they are. -/
theorem within_failure (settings : ControllerSettings) (now : Instant) (error : BuildError) :
    Within key (SameProgress key) (failureStep key settings now error) := by
  intro v w h
  rw [failureStep_writes h]
  exact sameProgress_restated rfl rfl rfl

/-- The end of a pass, which says how things stand, leaves them as they are. -/
theorem within_report (reference : String) (now : Instant) (requeueAfter : Option Duration) :
    Within key (SameProgress key) (reportStep key reference now requeueAfter) :=
  (within_project reference now).bind fun _ _ _ hw => nomatch hw

/-- From the pushes on, a pass leaves what was built last as it is. -/
theorem within_settle (settings : ControllerSettings) (now : Instant) (reference : String) :
    Within key (SameBuild key) (settleStep key settings now reference) :=
  (within_push settings.trigger now).bind fun requeueAfter =>
    (within_report reference now requeueAfter).mono fun _ _ h => h.toSameBuild

/-- From the builds on, it leaves the templates as they are. -/
theorem within_advance (settings : ControllerSettings) (now : Instant) (reference : String) :
    Within key (SameTemplates key) (advanceStep key settings now reference) :=
  within_build.bind fun _ =>
    (within_settle settings now reference).mono fun _ _ h => h.toSameTemplates

/-- From the template on, it leaves the task as it is. -/
theorem within_install (settings : ControllerSettings) (now : Instant) (strategy : String) :
    Within key (SameTask key) (installStep key settings now strategy) :=
  (within_template strategy).bind fun reference =>
    (within_advance settings now reference).mono fun _ _ h => h.toSameTask

/-- The whole of it leaves the task as it is, for the strategy is only read. -/
theorem within_request (settings : ControllerSettings) (now : Instant) :
    Within key (SameTask key) (requestStep key settings now) :=
  Within.bind (fun _ w hw => absurd hw (strategyStep_settled w)) fun strategy =>
    within_install settings now strategy

/-- So it is when what blocks the pass is written. -/
theorem within_guarded (settings : ControllerSettings) (now : Instant) :
    Within key (SameTask key) (guardedStep key settings now) := by
  intro v w hw
  unfold guardedStep at hw
  split at hw
  · exact (within_failure settings now _ v w hw).toSameTask
  · exact within_request settings now v w hw

end

/-! ## Later writes -/

section

variable {key : ObjectKey} {v v' : MemoryStore}

/-- A label that is set stays so, while the task is the same. -/
theorem labelStep_keeps (h : SameTask key v v') (hok : labelStep key v = .ok ()) :
    labelStep key v' = .ok () := by
  obtain ⟨status, hr⟩ := h.request
  simp only [labelStep, hr] at hok ⊢
  split at hok
  · next hlabel => exact if_pos hlabel
  · cases hok

/-- The same task has the same strategy. -/
theorem strategyStep_congr (h : SameTask key v v') : strategyStep key v' = strategyStep key v := by
  obtain ⟨status, hr⟩ := h.request
  simp only [strategyStep, hr, h.policy, h.strategies]

/-- With the same templates, the same is decided about the template. -/
theorem templateStep_congr (h : SameTemplates key v v') (strategy : String) :
    templateStep key strategy v' = templateStep key strategy v := by
  obtain ⟨status, hr⟩ := h.request
  have hconverge : ∀ desired uid, convergeStep desired uid v' = convergeStep desired uid v := by
    intro desired uid
    simp only [convergeStep, h.templates]
  simp only [templateStep, hr, hconverge]
  rfl

/-- With the same executions, the same is decided about an execution. -/
theorem claimStep_congr (h : SameTask key v v') (hexecutions : v'.executions = v.executions)
    (name trigger : String) : claimStep key name trigger v' = claimStep key name trigger v := by
  obtain ⟨status, hr⟩ := h.request
  simp only [claimStep, adoptStep, hr, hexecutions]
  rfl

/-- There is nothing to build exactly if what was built last is what the request says. -/
theorem buildStep_ok : buildStep key v = .ok () ↔
    (v.requestAt key).spec.needsBuild (v.requestAt key).statusOrDefault.lastBuildSpec = false := by
  rw [← (v.requestAt key).status_bind (·.lastBuildSpec) rfl]
  unfold buildStep
  dsimp only
  split
  · next hdue =>
    refine ⟨fun h => ?_, fun h => absurd (h.symm.trans hdue) (by decide)⟩
    -- a build that is due is recorded, so there is a write
    obtain ⟨_, -, h⟩ := Decision.bind_ok.mp h
    cases h
  · next hdue => exact ⟨fun _ => Bool.eq_false_iff.mpr hdue, fun _ => rfl⟩

/-- What was built stays built. -/
theorem buildStep_keeps (h : SameBuild key v v') (hok : buildStep key v = .ok ()) :
    buildStep key v' = .ok () := by
  obtain ⟨status, hr⟩ := h.request
  have hspec : (v'.requestAt key).spec = (v.requestAt key).spec := by rw [hr]
  rw [buildStep_ok] at hok ⊢
  rw [hspec, h.lastBuildSpec]
  exact hok

/-- Nothing is to be written exactly if the change gives nothing. -/
theorem restateStep_ok {change : StatusChange} : restateStep key change v = .ok () ↔
    change (v.requestAt key) (v.requestAt key).statusOrDefault = none := by
  refine ⟨fun hok => ?_, restateStep_of_none⟩
  cases hchange : change (v.requestAt key) (v.requestAt key).statusOrDefault with
  | none => rfl
  | some status => cases (restateStep_of_some hchange).symm.trans hok

/-- Nothing is left of pushes, or they build the request.  A state that was retired is left as it
is, so to drop pushes twice is to drop them once. -/
theorem retirePushes_eq_none {r : BuildRequest} {status : BuildRequestStatus} :
    retirePushes r status = none ↔
      r.isOnCommit = true ∨ ∀ state, status.onCommit = some state → state.retired = some state := by
  unfold retirePushes
  split
  · next hnone =>
    refine ⟨fun _ => Or.inr fun state h => ?_, fun _ => rfl⟩
    cases hnone.symm.trans h
  · next state hstate =>
    have hiff : (∀ state', status.onCommit = some state' → state'.retired = some state') ↔
        state.retired = some state := by
      refine ⟨fun h => h state hstate, fun h state' hstate' => ?_⟩
      rw [Option.some.inj (hstate'.symm.trans hstate)]
      exact h
    rw [hiff]
    cases r.isOnCommit <;> simp

/-- A change never fails. -/
theorem restateStep_failed {change : StatusChange} {e : BuildError} :
    restateStep key change v ≠ .error (.failed e) := by
  intro h
  simp only [restateStep] at h
  split at h <;> cases h

/-- What blocks a build blocks it still when it is recorded. -/
theorem buildStep_failed (h : SameProgress key v v') {e : BuildError}
    (hfailed : buildStep key v = .error (.failed e)) : buildStep key v' = .error (.failed e) := by
  obtain ⟨status, hr⟩ := h.request
  have hspec : (v'.requestAt key).spec = (v.requestAt key).spec := by rw [hr]
  have hname : (v'.requestAt key).name = (v.requestAt key).name := by rw [hr]; rfl
  have hbuilt : ∀ r : BuildRequest,
      r.status.bind (·.lastBuildSpec) = r.statusOrDefault.lastBuildSpec :=
    fun r => r.status_bind _ rfl
  simp only [buildStep, hbuilt] at hfailed ⊢
  rw [hspec, h.lastBuildSpec, h.buildRunCounter, hname, claimStep_congr h.toSameTask h.executions]
  split at hfailed
  · next hdue =>
    rw [if_pos hdue]
    rcases Decision.bind_error.mp hfailed with hclaim | ⟨_, -, hrestate⟩
    · exact Decision.bind_error.mpr (Or.inl hclaim)
    · exact absurd hrestate restateStep_failed
  · cases hfailed

/-- Whether an execution runs does not depend on what is said of it. -/
theorem activeStep_congr (h : SameProgress key v v') : activeStep key v' = activeStep key v := by
  obtain ⟨status, hr⟩ := h.request
  have hlast : (v'.requestAt key).statusOrDefault.lastTriggered? =
      (v.requestAt key).statusOrDefault.lastTriggered? := by
    simp only [BuildRequestStatus.lastTriggered?, h.onCommit]
  have hplace : (v'.requestAt key).namespace = (v.requestAt key).namespace := by rw [hr]; rfl
  have huid : (v'.requestAt key).uid = (v.requestAt key).uid := by rw [hr]; rfl
  simp only [activeStep, hlast, hplace, huid, h.executions]

/-- The start of the next execution is not recorded too late. -/
theorem restateStep_recordFire (key : ObjectKey) (v : MemoryStore) (push : PushRecord)
    (execution : String) (now : Instant) :
    ∃ w, restateStep key (recordFire push execution
      ((v.requestAt key).statusOrDefault.triggerCounter + 1) now) v = .error (.writes w) := by
  -- the number is above the counter, so the start does not come too late
  have hfirst : ((v.requestAt key).statusOrDefault.onCommit.getD {}).supersedes
      ((v.requestAt key).statusOrDefault.triggerCounter + 1) execution = false := by
    have hcounter := (v.requestAt key).statusOrDefault.triggerCounter_eq
    unfold BuildRequestStatus.trigger at hcounter
    have hgt : ¬ (v.requestAt key).statusOrDefault.triggerCounter + 1 ≤
        ((v.requestAt key).statusOrDefault.onCommit.getD {}).triggerCounter := by omega
    simp [OnCommitStatus.supersedes, hgt]
  cases hchange :
    recordFire push execution ((v.requestAt key).statusOrDefault.triggerCounter + 1) now
      (v.requestAt key) (v.requestAt key).statusOrDefault with
  | none => simp only [recordFire, hfirst, Bool.false_eq_true, if_false, reduceCtorEq] at hchange
  | some status => exact ⟨_, restateStep_of_some hchange⟩

/-- What is to be decided about a push that is due stays so, unless there is something to write. -/
theorem fireStep_congr (h : SameProgress key v v') {now : Instant} {push : PushRecord}
    (hsettled : (fireStep key now push v).Settled) :
    fireStep key now push v' = fireStep key now push v := by
  have hcounter : (v'.requestAt key).statusOrDefault.triggerCounter =
      (v.requestAt key).statusOrDefault.triggerCounter := by
    simp only [BuildRequestStatus.triggerCounter, h.onCommit]
  unfold fireStep at hsettled ⊢
  rw [activeStep_congr h]
  cases hactive : activeStep key v with
  | error e => rfl
  | ok active =>
    cases active with
    | true => rfl
    | false =>
      rw [hactive] at hsettled
      simp only [hcounter]
      show (claimStep key _ _ v' >>= fun _ => _) = (claimStep key _ _ v >>= fun _ => _)
      rw [claimStep_congr h.toSameTask h.executions]
      cases hclaim : claimStep key (onCommitExecutionName key.name
          ((v.requestAt key).statusOrDefault.triggerCounter + 1)) BuildTrigger.onCommit.label v with
      | error e => rfl
      | ok _ =>
        -- the execution is there, so the start is to be recorded
        obtain ⟨w, hw⟩ := restateStep_recordFire key v push (onCommitExecutionName key.name
          ((v.requestAt key).statusOrDefault.triggerCounter + 1)) now
        refine absurd ?_ (hsettled w)
        refine Decision.bind_error.mpr (Or.inr ⟨false, rfl, ?_⟩)
        exact Decision.bind_error.mpr (Or.inr ⟨(), hclaim, hw⟩)

/-- What is to be decided about pushes stays so, unless there is something to write. -/
theorem pushStep_congr (h : SameProgress key v v') {policy : TriggerPolicy} {now : Instant}
    (hsettled : (pushStep key policy now v).Settled) :
    pushStep key policy now v' = pushStep key policy now v := by
  obtain ⟨status, hr⟩ := h.request
  have hmode : (v'.requestAt key).isOnCommit = (v.requestAt key).isOnCommit := by rw [hr]; rfl
  simp only [pushStep, hmode, h.onCommit] at hsettled ⊢
  split at hsettled
  · next hpushes =>
    rw [if_pos hpushes, if_pos hpushes]
    split at hsettled
    · next push hdue =>
      have hfire : (fireStep key now push v).Settled :=
        fun w hw => hsettled w (Decision.bind_error.mpr (Or.inl hw))
      rw [fireStep_congr h hfire]
    · rfl
  · next hinitial =>
    rw [if_neg hinitial, if_neg hinitial]
    -- a change does not fail, and this one is not to be written
    have hok : restateStep key retirePushes v = .ok () := by
      cases hstep : restateStep key retirePushes v with
      | ok _ => rfl
      | error halt =>
        cases halt with
        | failed e => exact absurd hstep restateStep_failed
        | writes w => exact absurd (Decision.bind_error.mpr (Or.inl hstep)) (hsettled w)
    have hok' : restateStep key retirePushes v' = .ok () := by
      rw [restateStep_ok, retirePushes_eq_none] at hok ⊢
      rw [hmode, h.onCommit]
      exact hok
    rw [hok, hok']

/-- What blocks a pass goes on to block it when it is recorded. -/
theorem settleStep_failed (h : SameProgress key v v') {settings : ControllerSettings}
    {now : Instant} {reference : String} {e : BuildError}
    (hfailed : settleStep key settings now reference v = .error (.failed e)) :
    settleStep key settings now reference v' = .error (.failed e) := by
  rcases Decision.bind_error.mp hfailed with hpush | ⟨requeueAfter, hpush, hreport⟩
  · refine Decision.bind_error.mpr (Or.inl ?_)
    rw [pushStep_congr h fun w hw => nomatch hw.symm.trans hpush]
    exact hpush
  · -- saying how things stand is not blocked
    rcases Decision.bind_error.mp hreport with hproject | ⟨_, -, hend⟩
    · exact absurd hproject restateStep_failed
    · cases hend

/-- What blocks a pass from the builds on goes on to block it. -/
theorem advanceStep_failed (h : SameProgress key v v') {settings : ControllerSettings}
    {now : Instant} {reference : String} {e : BuildError}
    (hfailed : advanceStep key settings now reference v = .error (.failed e)) :
    advanceStep key settings now reference v' = .error (.failed e) := by
  rcases Decision.bind_error.mp hfailed with hbuild | ⟨_, hbuild, hsettle⟩
  · exact Decision.bind_error.mpr (Or.inl (buildStep_failed h hbuild))
  · exact Decision.bind_error.mpr
      (Or.inr ⟨(), buildStep_keeps h.toSameBuild hbuild, settleStep_failed h hsettle⟩)

/-- What blocks a pass from the template on goes on to block it. -/
theorem installStep_failed (h : SameProgress key v v') {settings : ControllerSettings}
    {now : Instant} {strategy : String} {e : BuildError}
    (hfailed : installStep key settings now strategy v = .error (.failed e)) :
    installStep key settings now strategy v' = .error (.failed e) := by
  have htemplates := templateStep_congr h.toSameTemplates strategy
  rcases Decision.bind_error.mp hfailed with htemplate | ⟨reference, htemplate, hadvance⟩
  · exact Decision.bind_error.mpr (Or.inl (htemplates.trans htemplate))
  · exact Decision.bind_error.mpr
      (Or.inr ⟨reference, htemplates.trans htemplate, advanceStep_failed h hadvance⟩)

/-- What blocks a pass goes on to block it, whatever of it is recorded. -/
theorem requestStep_failed (h : SameProgress key v v') {settings : ControllerSettings}
    {now : Instant} {e : BuildError}
    (hfailed : requestStep key settings now v = .error (.failed e)) :
    requestStep key settings now v' = .error (.failed e) := by
  have hstrategies := strategyStep_congr h.toSameTask
  rcases Decision.bind_error.mp hfailed with hstrategy | ⟨strategy, hstrategy, hinstall⟩
  · exact Decision.bind_error.mpr (Or.inl (hstrategies.trans hstrategy))
  · exact Decision.bind_error.mpr
      (Or.inr ⟨strategy, hstrategies.trans hstrategy, installStep_failed h hinstall⟩)

end

end PushBuild
