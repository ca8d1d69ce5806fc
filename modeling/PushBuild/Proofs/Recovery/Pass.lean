import PushBuild.Proofs.Recovery.Start

/-!
# A pass follows its decisions

1. **How things stand.**  The last write of a pass says how things stand (`follows_project`), or
   what blocked it (`follows_failure`).
2. **The pass** (`follows_reconcile`).  The parts in their order, with what blocks them.
-/

namespace PushBuild

variable {key : ObjectKey} {now : Instant} {fails : Prop}

/-! ## How things stand -/

section

/-- Saying how things stand. -/
theorem follows_project {retry : RetryPolicy} {reference : String} :
    Follows key now fails (fun _ => True) (projectStatus retry key reference)
      (projectStep key reference now) fun _ _ _ => True := by
  intro s hs hsound _
  obtain ⟨r, hr, -, hrequest⟩ := hsound.stored
  -- what is said about the latest execution is read off the store
  have hsay : ∀ projection,
      projection = r.statusOrDefault.lastBuildRunRef.map (fun name =>
        Projection.of r.unversioned name (s.contents.executions.get? ⟨key.namespace, name⟩)) →
      FollowsAt key now fails s
        (do
          let now ← Pass.now
          let _ ← (BuildRequest.modifyStatus retry key
            (.ofFunction (projectedStatus reference projection now))).pass)
        (projectStep key reference now) fun _ _ _ => True := by
    rintro projection rfl
    have hstep : projectStep key reference now s.contents = restateStep key (.ofFunction
        (projectedStatus reference (r.statusOrDefault.lastBuildRunRef.map fun name =>
          Projection.of r.unversioned name (s.contents.executions.get? ⟨key.namespace, name⟩)) now))
        s.contents := by
      unfold projectStep
      rw [hrequest]
      rfl
    refine followsAt_now (followsAt_modifyStatus (fun _ _ => rfl) hs hsound (fun w hw => ?_)
      (fun _ _ hok => ?_) fun _ t w ht _ hw hcontents => ?_)
    · exact hstep.trans hw
    · exact followsAt_pure hs (hstep.trans hok) trivial
    · have hsettles := projectStep_settles (hstep.trans hw)
      rw [← hcontents] at hsettles
      exact followsAt_pure ht hsettles trivial
  unfold projectStatus
  refine followsAt_read hs (a := some r) (congrArg (fun found => (Except.ok found, s)) hr) ?_
  dsimp only
  cases hlast : r.statusOrDefault.lastBuildRunRef with
  | none =>
    rw [hlast] at hsay
    exact hsay none rfl
  | some name =>
    rw [hlast] at hsay
    refine followsAt_read hs rfl (hsay _ (congrArg some ?_))
    dsimp only
    rw [MemoryStore.get?_executions_contents]
    cases s.executions.get? ⟨key.namespace, name⟩ <;> rfl

/-- What a pass does when it was blocked. -/
def failurePart (settings : ControllerSettings) (key : ObjectKey) (error : BuildError) :
    Pass ReconcileOutcome :=
  if error.isRecordable then do
    recordFailure settings.retry key error
    return { requeueAfter := some settings.errorRequeue }
  else throw error

/-- Saying what blocked a pass. -/
theorem follows_failure {settings : ControllerSettings} {error : BuildError} :
    Follows key now fails (fun _ => True) (failurePart settings key error)
      (failureStep key settings now error) fun a b _ => a = b := by
  intro s hs hsound _
  unfold failurePart
  split
  · next hrecordable =>
    have hstep : failureStep key settings now error s.contents =
        (restateStep key (.ofFunction (failedStatus error now)) s.contents >>= fun _ =>
          pure { requeueAfter := some settings.errorRequeue }) := if_pos hrecordable
    unfold recordFailure
    rw [bind_assoc]
    refine followsAt_now ?_
    rw [bind_assoc]
    refine followsAt_modifyStatus (fun _ _ => rfl) hs hsound (fun w hw => ?_) (fun _ _ hok => ?_)
      fun _ t w ht _ hw hcontents => ?_
    · rw [hstep]
      exact Decision.bind_error.mpr (Or.inl hw)
    · -- it was recorded already
      refine followsAt_pure hs ?_ rfl
      rw [hstep, hok]
      rfl
    · -- once it is recorded, there is nothing to record
      refine followsAt_pure ht ?_ rfl
      rw [hcontents]
      refine failureStep_settles (hstep.trans ?_)
      exact Decision.bind_error.mpr (Or.inl hw)
  · next hrecordable => exact followsAt_throw hs (if_neg hrecordable)

end

/-! ## The pass -/

section

variable {settings : ControllerSettings}

/-- What a pass does, as the sequence of its parts. -/
theorem reconcileRequest_eq (r : BuildRequest) : reconcileRequest settings r =
    (resolveStrategy r.spec >>= fun strategy =>
      BuildTemplate.reconcile r strategy settings.retry >>= fun template =>
        buildIfDue settings.retry r >>= fun _ =>
          pushPart settings r >>= fun requeueAfter =>
            projectStatus settings.retry r.key template.reference >>= fun _ =>
              pure { requeueAfter }) := by
  unfold reconcileRequest buildIfDue pushPart
  refine bind_congr fun strategy => bind_congr fun template => ?_
  split <;> split <;> simp only [bind_assoc, pure_bind]

/-- Saying how things stand is the end of a pass. -/
theorem follows_report {retry : RetryPolicy} {reference : String} {requeueAfter : Option Duration} :
    Follows key now fails (fun _ => True)
      (projectStatus retry key reference >>= fun _ => pure ({ requeueAfter } : ReconcileOutcome))
      (reportStep key reference now requeueAfter) fun a b _ => a = b :=
  follows_project.bind (sound_project reference now)
    (fun _ _ _ hs _ _ => followsAt_pure hs rfl rfl) fun _ _ _ _ hw => nomatch hw

/-- A pass follows its decisions from the pushes on. -/
theorem follows_settle {r : BuildRequest} (hkey : r.key = key) {reference : String} :
    Follows key now fails (HoldsState key r)
      (pushPart settings r >>= fun requeueAfter =>
        projectStatus settings.retry r.key reference >>= fun _ =>
          pure ({ requeueAfter } : ReconcileOutcome))
      (settleStep key settings now reference) fun a b _ => a = b := by
  refine (follows_push hkey).bind (sound_push settings.trigger now) ?_ ?_
  · rintro requeueAfter _ s hs hsound ⟨-, rfl⟩
    rw [hkey]
    exact follows_report s hs hsound trivial
  · intro requeueAfter v w hpush hw
    rw [pushStep_congr (within_report reference now requeueAfter v w hw)
      fun w hw => nomatch hw.symm.trans hpush]
    exact hpush

/-- So it does from the builds on. -/
theorem follows_advance {r : BuildRequest} (hkey : r.key = key) {reference : String} :
    Follows key now fails (HoldsAll key r)
      (buildIfDue settings.retry r >>= fun _ => pushPart settings r >>= fun requeueAfter =>
        projectStatus settings.retry r.key reference >>= fun _ =>
          pure ({ requeueAfter } : ReconcileOutcome))
      (advanceStep key settings now reference) fun a b _ => a = b := by
  refine (follows_build hkey).bind sound_build ?_ ?_
  · rintro _ _ s hs hsound ⟨-, hr⟩
    exact follows_settle hkey s hs hsound hr
  · intro _ v w hbuild hw
    exact buildStep_keeps (within_settle settings now reference v w hw) hbuild

/-- So it does from the template on. -/
theorem follows_install {r : BuildRequest} (hkey : r.key = key) {strategy : String} :
    Follows key now fails (HoldsAll key r)
      (BuildTemplate.reconcile r strategy settings.retry >>= fun template =>
        buildIfDue settings.retry r >>= fun _ => pushPart settings r >>= fun requeueAfter =>
          projectStatus settings.retry r.key template.reference >>= fun _ =>
            pure ({ requeueAfter } : ReconcileOutcome))
      (installStep key settings now strategy) fun a b _ => a = b := by
  refine follows_template.bind (sound_template strategy) ?_ ?_
  · rintro template _ s hs hsound ⟨-, rfl, hr⟩
    exact follows_advance hkey s hs hsound hr
  · intro reference v w htemplate hw
    rw [templateStep_congr (within_advance settings now reference v w hw)]
    exact htemplate

/-- So it does from the strategy on. -/
theorem follows_request {r : BuildRequest} (hkey : r.key = key) :
    Follows key now fails (HoldsAll key r) (reconcileRequest settings r)
      (requestStep key settings now) fun a b _ => a = b := by
  rw [reconcileRequest_eq]
  refine Follows.bind (fun s hs _ hr => followsAt_strategy hs hr)
    (fun v w hw => absurd hw (strategyStep_settled w)) ?_ ?_
  · rintro strategy _ s hs hsound ⟨-, rfl, hr⟩
    exact follows_install hkey s hs hsound hr
  · intro strategy v w hstrategy hw
    rw [strategyStep_congr (within_install settings now strategy v w hw)]
    exact hstrategy

/-- What blocks the pass is recorded, and leaves the pass blocked. -/
theorem follows_guarded {r : BuildRequest} (hkey : r.key = key) :
    Follows key now fails (HoldsAll key r)
      (tryCatch (reconcileRequest settings r) (failurePart settings key))
      (guardedStep key settings now) fun a b _ => a = b := by
  refine (follows_request hkey).recover (f := failureStep key settings now)
    (sound_request settings now) (fun e s hs hsound _ => follows_failure s hs hsound trivial)
    (fun _ => rfl) (fun v h => ?_) (fun v e h => ?_) fun e v w hv hw => ?_
  · unfold guardedStep
    split
    · next e he => exact absurd he (h e)
    · rfl
  · unfold guardedStep
    rw [h]
  · exact requestStep_failed (within_failure settings now e v w hw) hv

/-- **A pass follows its decisions**, whatever calls fail. -/
theorem follows_reconcile (settings : ControllerSettings) (now : Instant) :
    Follows key now fails (fun _ => True) (reconcile settings key) (passStep key settings now)
      fun a b _ => a = b := by
  intro s hs hsound _
  obtain ⟨r, hr, hkey, hrequest⟩ := hsound.stored
  unfold reconcile
  refine followsAt_read hs (a := some r) (congrArg (fun found => (Except.ok found, s)) hr) ?_
  refine Follows.bind (P := HoldsAll key r) (d := labelStep key)
    (fun s hs hsound hr => followsAt_label hs hsound hr hkey) sound_label ?_ ?_ s hs hsound hrequest
  · rintro r' _ t ht hsoundt ⟨-, hr', hkey'⟩
    exact follows_guarded hkey' t ht hsoundt hr'
  · intro _ v w hlabel hw
    exact labelStep_keeps (within_guarded settings now v w hw) hlabel

end

end PushBuild
