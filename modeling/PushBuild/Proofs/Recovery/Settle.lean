import PushBuild.Proofs.Controller.Name
import PushBuild.Proofs.Recovery.Frame

/-!
# What a write leaves of the decision to make it

Where a part of a pass has made its write, it goes on: the write does what was to be done.

1. **Nothing new.**  To set a label, a condition or a template a second time changes nothing.
2. **Soundness.**  `Sound` is what is needed of a store; writes keep it (`sound_…`).
3. **Own writes** (`…_settles`, `…_recorded`).  After its write a part has nothing left to do.
-/

namespace PushBuild

/-! ## Nothing new -/

/-- A label that was set is there, or one that was taken away is not. -/
theorem Metadata.label?_setLabel (m : Metadata) (label : String) (value : Option String) :
    (m.setLabel label value).label? label = value := by
  unfold setLabel label?
  cases value with
  | some value => simp
  | none =>
    simp only [Option.bind_some]
    unfold SortedMap.erase SortedMap.get?
    rw [List.lookup_eq_none_iff]
    intro e he
    have hne : ¬ e.1 = label := of_decide_eq_true (List.mem_filter.mp he).2
    exact bne_iff_ne.mpr (Ne.symm hne)

/-- A condition that was set is as it was set. -/
theorem Condition.set_set (c : Condition) (now : Instant) (conditions : List Condition) :
    set c now (set c now conditions) = set c now conditions := by
  induction conditions with
  | nil => simp [set_nil, set_cons, succeeding]
  | cons old rest ih =>
    rw [set_cons]
    split
    · rw [set_cons, if_pos (type_succeeding old c now)]
      simp [succeeding]
    · next htype => rw [set_cons, if_neg htype, ih]

/-- A condition stays as it was set while one of another type is set. -/
theorem Condition.set_eq_of_ne {c other : Condition} (hne : other.type ≠ c.type) {now : Instant}
    {conditions : List Condition} (h : set c now conditions = conditions) :
    set c now (set other now conditions) = set other now conditions := by
  induction conditions with
  | nil => cases h
  | cons old rest ih =>
    rw [set_cons] at h
    split at h
    · next htype =>
      have hother : old.type ≠ other.type := by rw [htype]; exact hne.symm
      rw [set_cons, if_neg hother, set_cons, if_pos htype, (List.cons.inj h).1]
    · next htype =>
      have hrest := (List.cons.inj h).2
      rw [set_cons]
      split
      · -- the other condition is put in the place of one that it replaces
        have hother : (succeeding old other now).type ≠ c.type := hne
        rw [set_cons, if_neg hother, hrest]
      · rw [set_cons, if_neg htype, ih hrest]

/-- What is said about an execution is a condition of its own type. -/
theorem ExecutionOutcome.type_condition (outcome : ExecutionOutcome) :
    outcome.condition.type = Condition.buildSucceeded := by
  cases outcome <;> rfl

/-- Saying how things stand a second time says nothing new. -/
theorem projectedStatus_twice (reference : String) (request : BuildRequest)
    (projection : Option Projection)
    (hprojection : ∀ p ∈ projection, p.condition.type = Condition.buildSucceeded) (now : Instant)
    (status : BuildRequestStatus) :
    projectedStatus reference projection now request
        (projectedStatus reference projection now request status) =
      projectedStatus reference projection now request status := by
  have hne : Condition.ready ≠ Condition.buildSucceeded := by decide
  cases projection with
  | none => simp only [projectedStatus, Option.map_none, Option.getD_none, Condition.set_set]
  | some p =>
    have htype : Condition.ready ≠ p.condition.type := by
      rw [hprojection p rfl]
      exact hne
    simp only [projectedStatus, Option.map_some, Option.getD_some, Projection.apply]
    by_cases hlast : status.lastBuildRunRef = some p.execution
    · simp only [hlast, if_true]
      -- the condition of the execution is left alone when the one of the request is set
      have hkept := @Condition.set_eq_of_ne
        { p.condition with observedGeneration := request.metadata.generation }
        { type := Condition.ready, status := .true, reason := "Reconciled"
          message := "build template " ++ reference ++ " is up to date"
          observedGeneration := request.metadata.generation }
        htype now _ (Condition.set_set _ now status.conditions)
      rw [hkept, Condition.set_set]
      cases p.image <;> rfl
    · simp only [hlast, if_false, Condition.set_set]

/-- Saying what blocked a pass a second time says nothing new. -/
theorem failedStatus_twice (error : BuildError) (now : Instant) (r : BuildRequest)
    (status : BuildRequestStatus) :
    failedStatus error now r (failedStatus error now r status) =
      failedStatus error now r status := by
  simp only [failedStatus, Condition.set_set]

namespace BuildTemplate

/-- A label that was set needs not be set again. -/
theorem withLabels_twice (labels : Option Labels) (label value : String) :
    withLabels (withLabels labels (some (SortedMap.ofList [(label, value)])))
        (some (SortedMap.ofList [(label, value)])) =
      withLabels labels (some (SortedMap.ofList [(label, value)])) := by
  rw [withLabels_one labels]
  split
  · next hset => rw [withLabels_one, if_pos hset]
  · rw [withLabels_one, if_pos]
    simp

/-- A template that is as desired is left as it is. -/
theorem converged_fixed {t desired : BuildTemplate} {uid : String}
    (howned : Ownership.of t.metadata uid = .owned)
    (hlabels : withLabels t.metadata.labels desired.metadata.labels = t.metadata.labels)
    (hspec : t.spec = desired.spec) : t.converged desired uid = .ok t := by
  unfold converged
  rw [howned]
  simp only [if_true, hlabels, ← hspec]

end BuildTemplate

/-! ## Soundness -/

/-- If the request names as started last the execution that a push is to start next, that execution
is there. -/
def NextIsThere (key : ObjectKey) (v : MemoryStore) : Prop :=
  (v.requestAt key).isOnCommit = true → ∀ last,
    (v.requestAt key).statusOrDefault.lastTriggered? = some last →
    last.name = onCommitExecutionName key.name
      ((v.requestAt key).statusOrDefault.triggerCounter + 1) →
    (v.executions.get? ⟨key.namespace, last.name⟩).isSome = true

/-- What is needed of a store for a pass over the request under `key`: the request is there, and so
are templates, under their own keys; and no execution is named as started that is to be started
yet. -/
structure Sound (key : ObjectKey) (v : MemoryStore) : Prop where
  request : ∃ r, v.requests.get? key = some r ∧ r.key = key
  template : ∀ {k t}, v.templates.get? k = some t → t.key = k
  next : NextIsThere key v

section

variable {key : ObjectKey} {v : MemoryStore}

/-- The request of a sound store is under its own key. -/
theorem Sound.key_eq (h : Sound key v) : (v.requestAt key).key = key := by
  obtain ⟨r, hr, hkey⟩ := h.request
  rw [MemoryStore.requestAt_of_get? hr]
  exact hkey

/-- The executions of a pass are in the request's namespace. -/
theorem Sound.execution_key (h : Sound key v) {name trigger : String} {x : BuildExecution}
    (hx : BuildExecution.desired (v.requestAt key) name trigger = .ok x) :
    x.key = ⟨key.namespace, name⟩ := by
  have hplace : (v.requestAt key).namespace = key.namespace :=
    congrArg ObjectKey.namespace h.key_eq
  rw [(PushBuild.desired_eq hx).1, hplace]

/-- A request that keeps its key and names no execution that is to be started yet. -/
theorem Sound.withRequest (h : Sound key v) {r : BuildRequest} (hkey : r.key = key)
    (hnext : r.isOnCommit = true → ∀ last, r.statusOrDefault.lastTriggered? = some last →
      last.name = onCommitExecutionName key.name (r.statusOrDefault.triggerCounter + 1) →
      (v.executions.get? ⟨key.namespace, last.name⟩).isSome = true) :
    Sound key (v.withRequest key r) := by
  refine ⟨⟨r, ?_, hkey⟩, h.template, ?_⟩
  · simp [MemoryStore.withRequest]
  · unfold NextIsThere
    rw [MemoryStore.requestAt_withRequest]
    exact hnext

/-- A request about whose pushes nothing new is known. -/
theorem Sound.withRequest_of_onCommit (h : Sound key v) {r : BuildRequest} (hkey : r.key = key)
    (hspec : r.spec = (v.requestAt key).spec)
    (honCommit : r.statusOrDefault.onCommit = (v.requestAt key).statusOrDefault.onCommit) :
    Sound key (v.withRequest key r) := by
  refine h.withRequest hkey fun hmode last hlast hname => ?_
  unfold BuildRequest.isOnCommit at hmode
  unfold BuildRequestStatus.lastTriggered? at hlast
  unfold BuildRequestStatus.triggerCounter at hname
  rw [hspec] at hmode
  rw [honCommit] at hlast hname
  exact h.next hmode last hlast hname

/-- A store stays sound when an execution is added. -/
theorem Sound.withNewExecution (h : Sound key v) (x : BuildExecution) :
    Sound key (v.withNewExecution x) := by
  refine ⟨h.request, h.template, fun hmode last hlast hname => ?_⟩
  have hthere := h.next hmode last hlast hname
  simp only [MemoryStore.withNewExecution, SortedMap.get?_insert]
  split
  · rfl
  · exact hthere

/-- A template that is stored is under its own key. -/
theorem Sound.template_insert (h : Sound key v) (t : BuildTemplate) {k : ObjectKey}
    {t' : BuildTemplate} (ht' : (v.templates.insert t.key t).get? k = some t') : t'.key = k := by
  rw [SortedMap.get?_insert] at ht'
  split at ht'
  · next heq => rw [← Option.some.inj ht', heq]
  · exact h.template ht'

end

section

variable {key : ObjectKey}

/-- A sound store stays so. -/
def KeepsSound (key : ObjectKey) (v v' : MemoryStore) : Prop := Sound key v → Sound key v'

/-- The label keeps a store sound, for it has nothing to do with pushes. -/
theorem sound_label : Within key (KeepsSound key) (labelStep key) := by
  intro v w hw h
  rw [labelStep_writes hw]
  exact h.withRequest_of_onCommit h.key_eq rfl rfl

/-- The template does, for it is stored under its own key. -/
theorem sound_template (strategy : String) :
    Within key (KeepsSound key) (templateStep key strategy) := by
  intro v w hw h
  obtain ⟨desired, uid, -, -, hw⟩ := templateStep_writes hw
  rcases convergeStep_writes hw with ⟨-, rfl⟩ | ⟨existing, updated, -, -, rfl⟩
  · exact ⟨h.request, h.template_insert (desired.identified v.nextUid), h.next⟩
  · exact ⟨h.request, h.template_insert updated, h.next⟩

/-- Builds do, for they have nothing to do with pushes. -/
theorem sound_build : Within key (KeepsSound key) (buildStep key) := by
  intro v w hw h
  rcases buildStep_writes hw with ⟨x, rfl⟩ | ⟨name, counter, snapshot, rfl⟩
  · exact h.withNewExecution x
  · exact h.withRequest_of_onCommit h.key_eq rfl rfl

/-- Pushes do, for a start is recorded with its own number. -/
theorem sound_push (policy : TriggerPolicy) (now : Instant) :
    Within key (KeepsSound key) (pushStep key policy now) := by
  intro v w hw h
  rcases pushStep_writes hw with ⟨push, hw⟩ | hw
  · rcases fireStep_writes hw with ⟨x, rfl⟩ | rfl
    · exact h.withNewExecution x
    · refine h.withRequest h.key_eq fun _ last hlast hname => ?_
      -- the execution recorded has the number recorded, so it is not the next one
      cases hlast
      have hcounter := (v.requestAt key).statusOrDefault.triggerCounter_eq
      have heq := onCommitExecutionName_inj.mp hname
      simp only [BuildRequest.statusOrDefault, Option.getD_some, BuildRequestStatus.triggerCounter,
        Option.map_some, OnCommitStatus.applyFire] at heq hcounter
      omega
  · obtain ⟨hmode, state, -, rfl⟩ := retireStep_writes hw
    refine h.withRequest h.key_eq fun hpushes => ?_
    exact absurd (hmode.symm.trans hpushes) (by decide)

/-- How things stand is said without a word about pushes. -/
theorem sound_project (reference : String) (now : Instant) :
    Within key (KeepsSound key) (projectStep key reference now) := by
  intro v w hw h
  obtain ⟨projection, rfl⟩ := projectStep_writes hw
  rw [projectedStatus_frame]
  exact h.withRequest_of_onCommit h.key_eq rfl rfl

/-- The end of a pass keeps a store sound. -/
theorem sound_report (reference : String) (now : Instant) (requeueAfter : Option Duration) :
    Within key (KeepsSound key) (reportStep key reference now requeueAfter) :=
  (sound_project reference now).bind fun _ _ _ hw => nomatch hw

/-- A pass keeps a store sound, since each of its parts does. -/
theorem sound_request (settings : ControllerSettings) (now : Instant) :
    Within key (KeepsSound key) (requestStep key settings now) := by
  refine Within.bind (fun _ w hw => absurd hw (strategyStep_settled w)) fun strategy => ?_
  refine (sound_template strategy).bind fun reference => sound_build.bind fun _ => ?_
  exact (sound_push settings.trigger now).bind fun requeueAfter =>
    sound_report reference now requeueAfter

/-- What blocked a pass is said without a word about pushes. -/
theorem sound_failure (settings : ControllerSettings) (now : Instant) (error : BuildError) :
    Within key (KeepsSound key) (failureStep key settings now error) := by
  intro v w hw h
  rw [failureStep_writes hw]
  exact h.withRequest_of_onCommit h.key_eq rfl rfl

/-- A pass keeps a store sound, blocked or not. -/
theorem sound_pass (settings : ControllerSettings) (now : Instant) :
    Within key (KeepsSound key) (passStep key settings now) := by
  refine sound_label.bind fun _ v w hw => ?_
  unfold guardedStep at hw
  split at hw
  · exact sound_failure settings now _ v w hw
  · exact sound_request settings now v w hw

end

/-! ## Own writes -/

section

variable {key : ObjectKey} {v : MemoryStore} {w : Write}

/-- A label that was set is there. -/
theorem labelStep_settles (h : labelStep key v = .error (.writes w)) :
    labelStep key (w.apply key v) = .ok () := by
  rw [labelStep_writes h]
  simp only [labelStep, Write.apply, MemoryStore.requestAt_withRequest]
  exact if_pos (Metadata.label?_setLabel _ _ _)

/-- A template that was written is as desired, so it is written once. -/
theorem templateStep_settles (h : Sound key v) {strategy : String}
    (hw : templateStep key strategy v = .error (.writes w)) :
    ∃ desired, BuildTemplate.desired (v.requestAt key) strategy = .ok desired ∧
      templateStep key strategy (w.apply key v) = .ok desired.key.text := by
  obtain ⟨status, hr⟩ := (within_template strategy v w hw).request
  obtain ⟨desired, uid, hdesired, huid, hconverge⟩ := templateStep_writes hw
  obtain ⟨hlabels, howned⟩ := BuildTemplate.desired_eq hdesired
  refine ⟨desired, hdesired, ?_⟩
  have hdesired' : BuildTemplate.desired ((w.apply key v).requestAt key) strategy =
      .ok desired := by
    rw [hr]
    exact hdesired
  have huid' : ((w.apply key v).requestAt key).uid = .ok uid := by
    rw [hr]
    exact huid
  refine Decision.bind_ok.mpr ⟨desired, Decision.of_ok.mpr hdesired', ?_⟩
  refine Decision.bind_ok.mpr ⟨uid, Decision.of_ok.mpr huid', ?_⟩
  -- the template that is there now is as desired
  obtain ⟨t, ht, hkey, hfixed⟩ : ∃ t, (w.apply key v).templates.get? desired.key = some t ∧
      t.key = desired.key ∧ t.converged desired uid = .ok t := by
    rcases convergeStep_writes hconverge with ⟨-, rfl⟩ |
      ⟨existing, updated, hexisting, hupdated, rfl⟩
    · refine ⟨desired.identified v.nextUid, ?_, rfl, ?_⟩
      · simp [Write.apply, MemoryStore.withNewTemplate]
      · refine BuildTemplate.converged_fixed (howned uid huid) ?_ rfl
        rw [BuildTemplate.identified]
        simp only [Metadata.unversioned, hlabels]
        exact BuildTemplate.withLabels_twice none _ _
    · obtain ⟨hupdatedLabels, hspec, -⟩ := BuildTemplate.converged_eq hupdated
      have hupdatedOwned := BuildTemplate.converged_owned hupdated (howned uid huid)
      have hkey : updated.key = desired.key :=
        (BuildTemplate.key_converged hupdated).trans (h.template hexisting)
      refine ⟨updated, ?_, hkey, ?_⟩
      · simp [Write.apply, MemoryStore.withTemplate, hkey]
      · refine BuildTemplate.converged_fixed hupdatedOwned ?_ hspec
        rw [hupdatedLabels, hlabels]
        exact BuildTemplate.withLabels_twice _ _ _
  simp only [convergeStep, ht, hfixed, if_true, BuildTemplate.reference, hkey]

/-- An execution that was created is there, and the request's. -/
theorem claimStep_settles {name trigger : String}
    (hw : claimStep key name trigger v = .error (.writes w)) :
    claimStep key name trigger (w.apply key v) = .ok () := by
  obtain ⟨x, hx, -, rfl⟩ := claimStep_writes hw
  obtain ⟨-, -, uid, huid, howned⟩ := PushBuild.desired_eq hx
  have hthere : (v.withNewExecution x).executions.get? x.key = some (x.identified v.nextUid) := by
    simp [MemoryStore.withNewExecution]
  refine Decision.bind_ok.mpr ⟨x, Decision.of_ok.mpr hx, ?_⟩
  refine (adoptStep_of_some hthere).trans ?_
  refine Decision.bind_ok.mpr ⟨uid, Decision.of_ok.mpr (BuildRequest.uid_eq_ok.mpr huid), ?_⟩
  refine Decision.of_ok.mpr ?_
  have howned' : Ownership.of (x.identified v.nextUid).metadata uid = .owned := howned
  rw [Ownership.ensure, howned']

/-- Once a build is recorded, there is nothing to build. -/
theorem buildStep_recorded (name : String) (counter : Int) {status : BuildRequestStatus}
    (h : recordBuild name counter (v.requestAt key).spec.snapshot (v.requestAt key)
      (v.requestAt key).statusOrDefault = some status) :
    buildStep key (v.withRequest key ((v.requestAt key).restated status)) = .ok () := by
  rw [buildStep_ok, MemoryStore.requestAt_withRequest, ← Option.some.inj h]
  show ((some _ : Option BuildSnapshot) != some _) = false
  rw [bne_self_eq_false]

/-- Once a start is recorded, the push that was due does not wait any more.  So nothing is due at
the same instant. -/
theorem evaluate_recorded {policy : TriggerPolicy} {now : Instant} {push : PushRecord}
    {r : BuildRequest} {old status : BuildRequestStatus}
    (hdue : evaluate old.onCommit policy now = .fire push) {name : String} {counter : Int}
    (h : recordFire push name counter now r old = some status) :
    evaluate status.onCommit policy now = .idle := by
  have hpending := pending_of_fire hdue
  simp only [recordFire] at h
  split at h
  · cases h
  · obtain rfl := Option.some.inj h
    cases honCommit : old.onCommit with
    | none =>
      rw [honCommit] at hpending
      cases hpending
    | some state =>
      rw [honCommit] at hpending
      have hstate : state.pending = some push := hpending
      simp [evaluate, OnCommitStatus.applyFire, hstate]

/-- So nothing is left to do about pushes once a start is recorded. -/
theorem pushStep_recorded {policy : TriggerPolicy} {now : Instant} {push : PushRecord}
    (hmode : (v.requestAt key).isOnCommit = true)
    (hdue : evaluate (v.requestAt key).statusOrDefault.onCommit policy now = .fire push)
    {name : String} {counter : Int} {status : BuildRequestStatus}
    (h : recordFire push name counter now (v.requestAt key) (v.requestAt key).statusOrDefault =
      some status) :
    pushStep key policy now (v.withRequest key ((v.requestAt key).restated status)) = .ok none := by
  have hidle := evaluate_recorded hdue h
  have hmode' : ((v.requestAt key).restated status).isOnCommit = true := hmode
  have hstatus : ((v.requestAt key).restated status).statusOrDefault = status := rfl
  simp only [pushStep, MemoryStore.requestAt_withRequest, hstatus, hidle]
  rw [if_pos hmode']
  rfl

/-- What is left of pushes after they were dropped stays. -/
theorem retireStep_settles (hw : restateStep key retirePushes v = .error (.writes w)) :
    restateStep key retirePushes (w.apply key v) = .ok () := by
  obtain ⟨-, state, -, rfl⟩ := retireStep_writes hw
  rw [restateStep_ok, Write.apply, MemoryStore.requestAt_withRequest, retirePushes_eq_none]
  -- what is left of pushes stays so
  refine Or.inr fun left hleft => ?_
  have hretired : state.retired = some left := hleft
  unfold OnCommitStatus.retired at hretired ⊢
  split at hretired
  · next hpositive =>
    obtain rfl := Option.some.inj hretired
    exact if_pos hpositive
  · cases hretired

/-- A change by a function is no change where the function changes nothing. -/
theorem ofFunction_eq_none {f : BuildRequest → BuildRequestStatus → BuildRequestStatus}
    {r : BuildRequest} {status : BuildRequestStatus} :
    StatusChange.ofFunction f r status = none ↔ f r status = status := by
  simp only [StatusChange.ofFunction]
  split
  · next heq => exact ⟨fun _ => heq, fun _ => rfl⟩
  · next hne => exact ⟨nofun, fun heq => absurd heq hne⟩

/-- Once it is said how things stand, nothing is left to say. -/
theorem projectStep_settles {reference : String} {now : Instant}
    (hw : projectStep key reference now v = .error (.writes w)) :
    projectStep key reference now (w.apply key v) = .ok () := by
  obtain ⟨status, hstatus, rfl⟩ := restateStep_writes hw
  have hstatus := eq_of_ofFunction hstatus
  have hlast : status.lastBuildRunRef = (v.requestAt key).statusOrDefault.lastBuildRunRef := by
    rw [hstatus]
    rw [projectedStatus_frame]
  have hdefault : ((v.requestAt key).restated status).statusOrDefault = status := rfl
  simp only [projectStep, Write.apply, restateStep_ok, ofFunction_eq_none,
    MemoryStore.requestAt_withRequest, hdefault, hlast]
  -- what is said about the execution is computed from what the write leaves alone
  rw [hstatus]
  refine projectedStatus_twice reference _ _ (fun p hp => ?_) now _
  cases hrun : (v.requestAt key).statusOrDefault.lastBuildRunRef with
  | none =>
    rw [hrun] at hp
    cases hp
  | some name =>
    rw [hrun] at hp
    obtain rfl := Option.some.inj hp
    exact ExecutionOutcome.type_condition _

/-- Once it is said what blocked a pass, nothing is left to say. -/
theorem failureStep_settles {settings : ControllerSettings} {now : Instant} {error : BuildError}
    (hw : failureStep key settings now error v = .error (.writes w)) :
    failureStep key settings now error (w.apply key v) =
      .ok { requeueAfter := some settings.errorRequeue } := by
  have hwrite := failureStep_writes hw
  unfold failureStep at hw ⊢
  split at hw
  · next hrecordable =>
    rw [if_pos hrecordable]
    refine Decision.bind_ok.mpr ⟨(), ?_, rfl⟩
    rw [hwrite, restateStep_ok, ofFunction_eq_none, Write.apply, MemoryStore.requestAt_withRequest]
    exact failedStatus_twice error now _ _
  · cases hw

/-- While an execution is not running, neither is it once the next one is there. -/
theorem activeStep_claimed (h : Sound key v) (hmode : (v.requestAt key).isOnCommit = true)
    (hactive : activeStep key v = .ok false) {trigger : String}
    (hw : claimStep key (onCommitExecutionName key.name
      ((v.requestAt key).statusOrDefault.triggerCounter + 1)) trigger v = .error (.writes w)) :
    activeStep key (w.apply key v) = .ok false := by
  obtain ⟨x, hx, hfree, rfl⟩ := claimStep_writes hw
  have hplace : (v.requestAt key).namespace = key.namespace :=
    congrArg ObjectKey.namespace h.key_eq
  have hkey := h.execution_key hx
  have hrequest : ((Write.newExecution x).apply key v).requestAt key = v.requestAt key := rfl
  simp only [activeStep, hrequest] at hactive ⊢
  cases hlast : (v.requestAt key).statusOrDefault.lastTriggered? with
  | none => rfl
  | some last =>
    rw [hlast] at hactive
    -- the new execution is not the one that is named as started last, or that would be there
    have hother : (⟨(v.requestAt key).namespace, last.name⟩ : ObjectKey) ≠ x.key := by
      intro heq
      rw [hkey] at heq hfree
      have hthere := h.next hmode last hlast (ObjectKey.mk.inj heq).2
      rw [(ObjectKey.mk.inj heq).2, hfree] at hthere
      cases hthere
    simp only [Write.apply, MemoryStore.withNewExecution, SortedMap.get?_insert, if_neg hother]
    exact hactive

end

end PushBuild
