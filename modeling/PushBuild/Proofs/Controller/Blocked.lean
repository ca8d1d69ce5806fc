import PushBuild.Proofs.Controller.Obstacle
import PushBuild.Proofs.Recovery.Resume
import PushBuild.Proofs.Status.Conditions

/-!
# What a blocked pass leaves

One pass is made over a request, while nobody else writes and no call fails.  It may be blocked in
three places: before the template, before the build for a change of the specification, and before
the build for a push.  What was done in the places before is done, and nothing of what was to be
done there.

1. **What is kept.**  `Retains` says of a request that only its label, its `Ready` condition and its
   version are others.  `Blocked` says of a store that nothing else was changed, and that the
   request says why.
2. **Parts.**  The label is set first (`finishes_label`), and in the end it is said what blocked the
   pass (`finishes_failure`) or how things stand (`Carries.project`).
3. **Preparation** (`reconcile_prepared`).  A pass makes the label, the template and the build what
   they should be, and then it looks at pushes.  What blocks it before can be read off the store in
   which it starts (`finishes_preparation`), and what blocks it then, off the store that there is
   then (`finishes_settle`).
4. **The result** (`blocked_pass_leaves`).
-/

namespace PushBuild

/-! ## What is kept -/

/-- Only the label of the mode, the `Ready` condition and the version are others in `r'`.  A request
without a status counts as one about which nothing is known. -/
structure BuildRequest.Retains (r r' : BuildRequest) : Prop where
  spec : r'.spec = r.spec
  metadata : r'.metadata = { r.metadata with
    labels := r'.metadata.labels, resourceVersion := r'.metadata.resourceVersion }
  labels : ∀ label, label ≠ onCommitLabel → r'.metadata.label? label = r.metadata.label? label
  status : { r'.statusOrDefault with conditions := r.statusOrDefault.conditions } =
    r.statusOrDefault
  conditions : r'.statusOrDefault.conditions.filter (·.type ≠ Condition.ready) =
    r.statusOrDefault.conditions.filter (·.type ≠ Condition.ready)

/-- The request says that it is not ready, and why: this was found of its generation. -/
def BuildRequest.Reports (r : BuildRequest) (e : BuildError) : Prop :=
  ∃ c, Condition.find? r.statusOrDefault.conditions Condition.ready = some c ∧ c.status = .false ∧
    c.reason = e.reason ∧ c.message = e.message ∧ c.observedGeneration = r.metadata.generation

/-- A pass that was blocked by `e` when the store was `s` left the store `t`: the request says so,
and nothing else was changed; and the pass is to be made again after the time set for this. -/
structure Blocked (settings : ControllerSettings) (key : ObjectKey) (e : BuildError)
    (s : MemoryStore) (outcome : ReconcileOutcome) (t : MemoryStore) : Prop where
  request : ∃ r r', s.requests.get? key = some r ∧ t.requests.get? key = some r' ∧ r.Retains r' ∧
    r'.Reports e
  others : s.OnlyRequest key t
  requeue : outcome.requeueAfter = some settings.errorRequeue

namespace BuildRequest.Retains

variable {r r' r'' : BuildRequest}

/-- A request retains itself, and what retains what was retained retains it. -/
theorem refl (r : BuildRequest) : r.Retains r := ⟨rfl, rfl, fun _ _ => rfl, rfl, rfl⟩

theorem trans (h : r.Retains r') (h' : r'.Retains r'') : r.Retains r'' where
  spec := h'.spec.trans h.spec
  metadata := by
    rw [h'.metadata, h.metadata]
  labels label hlabel := (h'.labels label hlabel).trans (h.labels label hlabel)
  status := by
    rw [← h.status, ← h'.status]
  conditions := h'.conditions.trans h.conditions

/-- Its place, its uid and what it owns are the same for a store. -/
theorem key_eq (h : r.Retains r') : r'.key = r.key := by
  rw [BuildRequest.key, h.metadata]
  rfl

theorem uid_eq (h : r.Retains r') : r'.metadata.uid = r.metadata.uid := by
  rw [h.metadata]

theorem owns (h : r.Retains r') (howns : r.Owns) : r'.Owns := by
  refine ⟨?_, ?_⟩
  · rw [h.metadata]
    exact howns.named
  · rw [h.uid_eq]
    exact howns.identified

end BuildRequest.Retains

/-! ## Parts -/

/-- An erasure leaves what is under other keys. -/
theorem SortedMap.get?_erase_of_ne {κ α : Type} [DecidableEq κ] (m : SortedMap κ α) {k j : κ}
    (hne : j ≠ k) : (m.erase k).get? j = m.get? j := by
  obtain ⟨entries⟩ := m
  simp only [erase, get?]
  induction entries with
  | nil => rfl
  | cons e rest ih =>
    obtain ⟨i, v⟩ := e
    by_cases hi : i = k
    · rw [List.filter_cons_of_neg (by simpa using hi), ih, lookup_cons_eq, if_neg (hi ▸ hne)]
    · rw [List.filter_cons_of_pos (by simpa using hi), lookup_cons_eq, lookup_cons_eq, ih]

/-- The other labels stay as they are when one is set. -/
theorem Metadata.label?_setLabel_of_ne (m : Metadata) {label other : String} (hne : other ≠ label)
    (value : Option String) : (m.setLabel label value).label? other = m.label? other := by
  unfold setLabel label?
  cases value with
  | some value =>
    simp only [Option.bind_some, SortedMap.get?_insert, if_neg hne]
    cases m.labels <;> rfl
  | none =>
    simp only [Option.bind_some, SortedMap.get?_erase_of_ne _ hne]
    cases m.labels <;> rfl

section

variable {key : ObjectKey} {s t : MemoryStore} {r m : BuildRequest} {now : Instant}
  {settings : ControllerSettings}

/-- `r'` is `r` with the label of its mode. -/
structure BuildRequest.Labelled (r r' : BuildRequest) : Prop where
  retains : r.Retains r'
  status : r'.status = r.status
  label : r'.metadata.label? onCommitLabel = r'.modeLabel

/-- The store has the request `r`, labelled. -/
structure HasLabelled (key : ObjectKey) (r r' : BuildRequest) (t : MemoryStore) : Prop where
  serving : t.Serving False
  stored : t.requests.get? key = some r'
  labelled : r.Labelled r'

/-- The label of the mode is set.  If the request has it already there is no call at all; otherwise
the label is written and the request is read again, and that one is gone on with. -/
theorem finishes_label (hs : s.Serving False) (hr : s.requests.get? key = some r)
    (hkey : r.key = key) :
    Finishes now False (syncSelectionLabel r)
      (fun r' t => HasLabelled key r r' t ∧ s.OnlyRequest key t) (fun _ _ => False) s := by
  have hprogram : syncSelectionLabel r =
      if r.metadata.label? onCommitLabel = r.modeLabel then pure r
      else (StoreCall.setRequestLabel r.key onCommitLabel r.modeLabel).pass >>= fun _ =>
        (StoreCall.getRequest r.key).pass >>= fun found => pure (found.getD r) := rfl
  rw [hprogram]
  subst hkey
  split
  · -- the label is right
    next hsame => exact ⟨⟨hs, hr, .refl r, rfl, hsame⟩, .refl _ s⟩
  · -- the write answers, since nobody removes the request meanwhile, and the read finds what it
    -- wrote
    have honly := s.onlyRequest_rewritten r.key (r.withLabel onCommitLabel r.modeLabel)
    have ht := honly.serving hs
    refine (finishes_bind _ _).mpr (finishes_callPass _ ?_ fun h => h.elim)
    rw [hs.answered_label hr]
    refine finishes_read_bind (ht.getRequest _) ?_
    rw [MemoryStore.get?_rewritten]
    refine ⟨⟨ht, s.get?_rewritten _ _, ⟨rfl, rfl, fun label hlabel => ?_, rfl, rfl⟩, rfl, ?_⟩,
      honly⟩
    · exact r.metadata.label?_setLabel_of_ne hlabel _
    · exact r.metadata.label?_setLabel onCommitLabel r.modeLabel

/-- A status that is a function of the one before is what the function makes of that.  Where that is
nothing new the request is not written, so that it keeps its version too. -/
theorem changed_ofFunction (hr : s.requests.get? key = some r) (hkey : r.key = key)
    (f : BuildRequest → BuildRequestStatus → BuildRequestStatus) :
    s.OnlyRequest key (s.changed r (.ofFunction f)) ∧
      ∃ r', (s.changed r (.ofFunction f)).requests.get? key = some r' ∧
        (r' = r ∧ f r r.statusOrDefault = r.statusOrDefault ∨
          ∃ n, r' = (r.restated (f r r.statusOrDefault)).withVersion n) := by
  subst hkey
  unfold MemoryStore.changed StatusChange.ofFunction
  dsimp only
  split
  · next hnone =>
    refine ⟨.refl _ s, r, hr, Or.inl ⟨rfl, ?_⟩⟩
    by_contra hne
    rw [if_neg hne] at hnone
    cases hnone
  · next status hstatus =>
    refine ⟨s.onlyRequest_rewritten _ _, _, s.get?_rewritten _ _, Or.inr ⟨s.lastVersion + 1, ?_⟩⟩
    split at hstatus
    · cases hstatus
    · rw [Option.some.inj hstatus]

/-- The other conditions are kept when it is said what failed. -/
theorem conditions_failedStatus (e : BuildError) (status : BuildRequestStatus) :
    (failedStatus e now r status).conditions.filter (·.type ≠ Condition.ready) =
      status.conditions.filter (·.type ≠ Condition.ready) :=
  Condition.filter_put { type := Condition.ready, status := .false, reason := e.reason
                         message := e.message, observedGeneration := r.metadata.generation } now
    status.conditions

/-- The `Ready` condition says what failed. -/
theorem reports_failedStatus {e : BuildError} {r' : BuildRequest}
    (hstatus : r'.statusOrDefault = failedStatus e now r r.statusOrDefault)
    (hgeneration : r'.metadata.generation = r.metadata.generation) : r'.Reports e := by
  unfold BuildRequest.Reports
  rw [hstatus, hgeneration]
  refine ⟨_, Condition.find?_set_self _ now r.statusOrDefault.conditions, ?_⟩
  split <;> exact ⟨rfl, rfl, rfl, rfl⟩

/-- What blocked a pass is said, and nothing else is changed. -/
theorem finishes_failure (hs : s.Serving False) (hr : s.requests.get? key = some r)
    (hkey : r.key = key) {e : BuildError} (he : e.isRecordable = true) :
    Finishes now False (failurePart settings key e)
      (fun outcome t => Blocked settings key e s outcome t ∧ Carries key r t)
        (fun _ _ => False) s := by
  obtain ⟨honly, r', hr', hcases⟩ := changed_ofFunction hr hkey (failedStatus e now)
  unfold failurePart recordFailure
  rw [if_pos he, bind_assoc]
  refine finishes_now_bind ?_
  rw [bind_assoc]
  refine (finishes_modify hs hr hkey).pass.bind ?_ fun _ _ h => h.elim
  rintro found _ ⟨rfl, -⟩
  have ht := honly.serving hs
  rcases hcases with ⟨rfl, hsame⟩ | ⟨n, rfl⟩
  · -- the request says so already, and nothing is written
    have hreports : r'.Reports e := reports_failedStatus hsame.symm rfl
    exact ⟨⟨⟨r', r', hr, hr', .refl r', hreports⟩, honly, rfl⟩, carries_of_stored ht hr'⟩
  · refine ⟨⟨⟨r, _, hr, hr', ⟨rfl, rfl, fun _ _ => rfl, rfl, ?_⟩, reports_failedStatus rfl rfl⟩,
      honly, rfl⟩, ⟨ht, _, hr', rfl, rfl⟩⟩
    exact conditions_failedStatus e r.statusOrDefault

/-- It is said how things stand.  Whatever that is, it is one change of the status, and the request
goes on being carried; so the cases are only those of what was read before. -/
theorem Carries.project (h : Carries key r s) (hkey : r.key = key) {retry : RetryPolicy}
    {reference : String} :
    Finishes now False (projectStatus retry key reference) (fun _ t => Carries key r t)
      (fun _ _ => False) s := by
  have hwritten : ∀ change, Finishes now False
      (do let _ ← (BuildRequest.modifyStatus retry key change).pass : Pass Unit)
      (fun _ t => Carries key r t) (fun _ _ => False) s := fun change =>
    (h.modify hkey).pass.bind (fun _ _ h => h.1) fun _ _ h => h.elim
  obtain ⟨m, hm, -⟩ := h.request
  unfold projectStatus
  refine finishes_read_bind (h.serving.getsRequest hm) ?_
  dsimp only
  split
  · exact finishes_now_bind (hwritten _)
  · exact finishes_read_bind (h.serving.getExecution _) (finishes_now_bind (hwritten _))

/-- What is left of pushes is dropped. -/
theorem Carries.retire (h : Carries key r s) (hkey : r.key = key) {retry : RetryPolicy} :
    Finishes now False (retireOnCommitState retry r) (fun _ t => Carries key r t)
      (fun _ _ => False) s := by
  subst hkey
  unfold retireOnCommitState
  split
  · exact h
  · split
    · exact h
    · exact (h.modify rfl).pass.bind (fun _ _ h => h.1) fun _ _ h => h.elim

end

/-! ## Preparation -/

/-- A pass as far as it goes before it looks at pushes: the label, the template, and the build that
is due.  Returns the request as it was read, and its template; none if there is no request. -/
def preparation (settings : ControllerSettings) (key : ObjectKey) :
    Pass (Option (BuildRequest × BuildTemplate)) := do
  let some (request, template) ← convergence settings key | return none
  buildIfDue settings.retry request
  return some (request, template)

/-- What a pass does after its preparation. -/
def afterPreparation (settings : ControllerSettings) (key : ObjectKey) :
    Except BuildError (Option (BuildRequest × BuildTemplate)) →
      Program (Except BuildError ReconcileOutcome)
  | .ok (some (r, template)) =>
    (tryCatch (settlePart settings r template.reference) (failurePart settings key)).run
  | .ok none => .done (.ok {})
  | .error e => (failurePart settings key e).run

/-- **A pass is its preparation and what comes after it.** -/
theorem reconcile_prepared (settings : ControllerSettings) (key : ObjectKey) :
    (reconcile settings key).run =
      (preparation settings key).run.bind (afterPreparation settings key) := by
  rw [reconcile_eq]
  unfold preparation
  refine Eq.trans ?_ (Pass.run_bind _ _ _).symm
  congr 1
  funext converged
  rcases converged with e | _ | ⟨r, template⟩
  · rfl
  · rfl
  · refine (Pass.run_tryCatch_bind _ _ _).trans (Eq.trans ?_ (Pass.run_bind _ _ _).symm)
    rfl

/-- The world when a pass has prepared everything, or was blocked before. -/
def World.prepared (settings : ControllerSettings) (key : ObjectKey) (w : World) : World :=
  (w.perform (preparation settings key).run).2

section

variable {key : ObjectKey} {s t : MemoryStore} {r r' : BuildRequest} {now : Instant}
  {settings : ControllerSettings}

/-- The label is not in the way of the template. -/
theorem BuildRequest.Retains.obstacle?_eq (h : r.Retains r') (ht : s.OnlyRequest key t) :
    t.obstacle? r' = s.obstacle? r := by
  have hstore : t.obstacle? r' = s.obstacle? r' := by
    rw [ht.rest]
    rfl
  have hnamespace : r'.namespace = r.namespace := congrArg ObjectKey.namespace h.key_eq
  have hname : r'.templateName = r.templateName :=
    congrArg (fun key : ObjectKey => key.name ++ "-build") h.key_eq
  rw [hstore]
  simp only [MemoryStore.obstacle?, MemoryStore.templateObstacle?, BuildRequest.ownership, h.spec,
    hnamespace, hname, h.uid_eq]

/-- Neither the label nor the template is in the way of the build. -/
theorem BuildRequest.Retains.buildObstacle?_eq (h : r.Retains r')
    (ht : t.executions = s.executions) :
    t.buildObstacle? r' = s.buildObstacle? r := by
  have hlast := congrArg BuildRequestStatus.lastBuildSpec h.status
  have hcounter := congrArg BuildRequestStatus.buildRunCounter h.status
  change r'.statusOrDefault.lastBuildSpec = r.statusOrDefault.lastBuildSpec at hlast
  change r'.statusOrDefault.buildRunCounter = r.statusOrDefault.buildRunCounter at hcounter
  have hnamespace : r'.namespace = r.namespace := congrArg ObjectKey.namespace h.key_eq
  have hname : r'.name = r.name := congrArg ObjectKey.name h.key_eq
  simp only [MemoryStore.buildObstacle?, MemoryStore.nameObstacle?, BuildRequest.nextBuild,
    BuildRequest.ownership, h.spec, hlast, hcounter, hnamespace, hname, h.uid_eq, ht]

/-- The label does not change what is known about the request once its build was started. -/
theorem BuildRequest.Labelled.builtStatus_eq (h : r.Labelled r') :
    r'.builtStatus = r.builtStatus := by
  have hstatus : r'.statusOrDefault = r.statusOrDefault := congrArg (·.getD {}) h.status
  have hname : r'.name = r.name := congrArg ObjectKey.name h.retains.key_eq
  simp only [BuildRequest.builtStatus, BuildRequest.nextBuild, hstatus, hname, h.retains.spec]

/-- The label and the template are put in place, unless there is an obstacle. -/
theorem finishes_convergence (hs : s.Serving False) (hkeyed : s.WellKeyed)
    (hr : s.requests.get? key = some r) (hkey : r.key = key) (howns : r.Owns) :
    Finishes now False (convergence settings key)
      (fun found t => s.obstacle? r = none ∧ t.executions = s.executions ∧
        ∃ r' template, found = some (r', template) ∧ HasLabelled key r r' t)
      (fun e t => s.obstacle? r = some e ∧ s.OnlyRequest key t ∧ ∃ r', HasLabelled key r r' t)
        s := by
  unfold convergence
  refine finishes_read_bind (hs.getsRequest hr) ?_
  refine (finishes_label hs hr hkey).bind ?_ fun _ _ h => h.elim
  rintro r' u ⟨hhas, honly⟩
  have hretains := hhas.labelled.retains
  have hkept : u.WellKeyed := hkeyed.of_eq (by rw [honly.rest])
  have hexecutions : u.executions = s.executions := by rw [honly.rest]
  -- the obstacle is looked for in the store in which the label is set already
  rw [← hretains.obstacle?_eq honly, ← bind_assoc]
  refine (finishes_install hhas.serving hkept (hretains.owns howns)).bind ?_ ?_
  · rintro template t ⟨hfree, ht, hrequests, hsame⟩
    have hstored : t.requests.get? key = some r' := hrequests ▸ hhas.stored
    exact ⟨hfree, hsame.trans hexecutions, r', template, rfl, ht, hstored, hhas.labelled⟩
  · rintro e _ ⟨rfl, hobstacle⟩
    exact ⟨hobstacle, honly, r', hhas⟩

/-- **A preparation** is finished, unless there is an obstacle in the store in which it starts. -/
theorem finishes_preparation (hs : s.Serving False) (hkeyed : s.WellKeyed)
    (hr : s.requests.get? key = some r) (hkey : r.key = key) (howns : r.Owns) :
    Finishes now False (preparation settings key)
      (fun found t => s.obstacle? r = none ∧ s.buildObstacle? r = none ∧
        ∃ r' template, found = some (r', template) ∧ r.Labelled r' ∧ Carries key r' t ∧
          ∃ m, t.requests.get? key = some m ∧ m.statusOrDefault = r.builtStatus)
      (fun e t => (∃ r', HasLabelled key r r' t) ∧ (s.obstacle? r = some e ∧ s.OnlyRequest key t ∨
        s.obstacle? r = none ∧ s.buildObstacle? r = some e ∧ t.executions = s.executions)) s := by
  unfold preparation
  refine (finishes_convergence hs hkeyed hr hkey howns).bind ?_ ?_
  · rintro _ t ⟨hfree, hexecutions, r', template, rfl, hhas⟩
    -- the template is in place, and what is in the way of the build is what was in the way at the
    -- start
    have hretains := hhas.labelled.retains
    rw [← hretains.buildObstacle?_eq hexecutions, ← hhas.labelled.builtStatus_eq]
    refine (finishes_build hhas.serving hhas.stored (hretains.key_eq.trans hkey)
      (hretains.owns howns)).bind ?_ ?_
    · rintro _ u ⟨hbuild, hcarries, hbuilt⟩
      exact ⟨hfree, hbuild, r', template, rfl, hhas.labelled, hcarries, hbuilt⟩
    · rintro e _ ⟨rfl, hobstacle⟩
      exact ⟨⟨r', hhas⟩, Or.inr ⟨hfree, hobstacle, hexecutions⟩⟩
  · rintro e t ⟨hobstacle, honly, hhas⟩
    exact ⟨hhas, Or.inl ⟨hobstacle, honly⟩⟩

/-- **What comes after** is finished, unless there is an obstacle in the store in which it starts.
Pushes are looked at in the mode that builds them; in the other one what is left of them is dropped,
and nothing can be in the way. -/
theorem finishes_settle (h : Carries key r s) (hkey : r.key = key) (howns : r.Owns)
    {m : BuildRequest} (hm : s.requests.get? key = some m) {reference : String} :
    Finishes now False (settlePart settings r reference)
      (fun _ t => s.pushObstacle? m settings.trigger now = none ∧ Carries key r t)
      (fun e t => t = s ∧ s.pushObstacle? m settings.trigger now = some e) s := by
  obtain ⟨m', hm', hspec, hmetadata⟩ := h.request
  obtain rfl := Option.some.inj (hm.symm.trans hm')
  have hplace : m.key = key := (BuildRequest.key_of_unversioned hmetadata).trans hkey
  have hmode : m.isOnCommit = r.isOnCommit :=
    congrArg (fun spec => spec.rebuildMode == .onCommit) hspec
  -- the last part is the same whether a push was looked at or not
  have hreport : ∀ {t : MemoryStore} {requeueAfter : Option Duration}, Carries key r t →
      Finishes now False (projectStatus settings.retry key reference >>= fun _ =>
          pure ({ requeueAfter } : ReconcileOutcome))
        (fun _ u => Carries key r u) (fun _ _ => False) t := fun ht =>
    (ht.project hkey).bind (fun _ _ h => h) fun _ _ h => h
  unfold settlePart pushPart
  rw [hkey]
  split
  · rw [bind_assoc]
    refine (finishes_evaluate h.serving hm hplace (howns.of_unversioned hmetadata)).bind ?_
      fun _ _ h => h
    rintro outcome t ⟨hfree, ht⟩
    exact (hreport (ht.of_request hspec hmetadata)).mono (fun _ _ h => ⟨hfree, h⟩)
      fun _ _ h => h.elim
  · next hinitial =>
    have hfree : s.pushObstacle? m settings.trigger now = none :=
      MemoryStore.pushObstacle?_of_initial (hmode.trans (Bool.eq_false_iff.mpr hinitial))
    rw [bind_assoc]
    refine (h.retire hkey).bind ?_ fun _ _ h => h.elim
    intro _ t ht
    exact (hreport ht).mono (fun _ _ h => ⟨hfree, h⟩) fun _ _ h => h.elim

/-- What comes after a preparation ends without an error: what blocks it is recorded.  The record is
made in the store as it was found, since what was blocked changed nothing. -/
theorem finishes_afterwards (h : Carries key r s) (hkey : r.key = key) (howns : r.Owns)
    {m : BuildRequest} (hm : s.requests.get? key = some m) {reference : String} :
    Finishes now False (tryCatch (settlePart settings r reference) (failurePart settings key))
      (fun outcome t => Carries key r t ∧ ∀ e, s.pushObstacle? m settings.trigger now = some e →
        Blocked settings key e s outcome t)
      (fun _ _ => False) s := by
  obtain ⟨m', hm', hspec, hmetadata⟩ := h.request
  obtain rfl := Option.some.inj (hm.symm.trans hm')
  have hplace : m.key = key := (BuildRequest.key_of_unversioned hmetadata).trans hkey
  refine (finishes_tryCatch _ _).mpr ((finishes_settle h hkey howns hm).mono ?_ ?_)
  · rintro outcome t ⟨hfree, ht⟩
    exact ⟨ht, fun e he => nomatch hfree.symm.trans he⟩
  · rintro e _ ⟨rfl, hobstacle⟩
    refine (finishes_failure h.serving hm hplace
      (MemoryStore.pushObstacle?_isRecordable hobstacle)).mono
      ?_ fun _ _ h => h
    rintro outcome t ⟨hblocked, ht⟩
    refine ⟨ht.of_request hspec hmetadata, fun e' he' => ?_⟩
    obtain rfl := Option.some.inj (hobstacle.symm.trans he')
    exact hblocked

end

/-! ## The result -/

section

variable {key : ObjectKey} {s t : MemoryStore} {w : World} {r r' : BuildRequest}
  {settings : ControllerSettings} {e : BuildError} {outcome : ReconcileOutcome}

/-- Whoever looks for the label finds the request exactly if pushes build it. -/
theorem BuildRequest.Labelled.label_eq_true (h : r.Labelled r') (ht : Carries key r' t) :
    ∃ m, t.requests.get? key = some m ∧ m.spec = r.spec ∧
      (m.metadata.label? onCommitLabel = some "true" ↔ r.isOnCommit = true) := by
  obtain ⟨m, hm, hspec, hmetadata⟩ := ht.request
  have hlabel := congrArg (Metadata.label? · onCommitLabel) hmetadata
  change m.metadata.label? onCommitLabel = r'.metadata.label? onCommitLabel at hlabel
  have hmode : r'.isOnCommit = r.isOnCommit :=
    congrArg (fun spec => spec.rebuildMode == .onCommit) h.retains.spec
  refine ⟨m, hm, hspec.trans h.retains.spec, ?_⟩
  rw [hlabel, h.label, modeLabel, hmode]
  split
  · next hpushes => simp [hpushes]
  · next hinitial => simp [hinitial]

/-- What is blocked after the label was set was blocked before. -/
theorem Blocked.of_labelled (h : Blocked settings key e s outcome t) {s₀ : MemoryStore}
    (hr : s₀.requests.get? key = some r) (hs : HasLabelled key r r' s)
    (honly : s₀.OnlyRequest key s) :
    Blocked settings key e s₀ outcome t := by
  obtain ⟨r₁, r₂, hr₁, hr₂, hretains, hreports⟩ := h.request
  obtain rfl := Option.some.inj (hs.stored.symm.trans hr₁)
  exact ⟨⟨r, r₂, hr, hr₂, hs.labelled.retains.trans hretains, hreports⟩,
    honly.trans h.others, h.requeue⟩

/-- What is kept after the label was set was kept before. -/
theorem Blocked.retains (h : Blocked settings key e s outcome t) (hs : HasLabelled key r r' s) :
    ∃ r₂, t.requests.get? key = some r₂ ∧ r.Retains r₂ := by
  obtain ⟨r₁, r₂, hr₁, hr₂, hretains, -⟩ := h.request
  obtain rfl := Option.some.inj (hs.stored.symm.trans hr₁)
  exact ⟨r₂, hr₂, hs.labelled.retains.trans hretains⟩

/-- What a pass at `now` leaves in the store `t`, which starts with the request `r` in the store
`s`, and was prepared, or blocked before, in the store `u`. -/
structure PassLeaves (settings : ControllerSettings) (key : ObjectKey) (now : Instant)
    (r : BuildRequest) (s u : MemoryStore) (outcome : ReconcileOutcome) (t : MemoryStore) :
    Prop where
  /-- the request has the label of its mode -/
  label : ∃ r', t.requests.get? key = some r' ∧ r'.spec = r.spec ∧
    (r'.metadata.label? onCommitLabel = some "true" ↔ r.isOnCommit = true)
  /-- without a strategy, or if the template is somebody else's, everything is as it was at the
  start -/
  unresolved : ∀ e, s.obstacle? r = some e → Blocked settings key e s outcome t
  /-- if the name of the build is taken, everything is as it was when the template was put in place;
  of the request this is what it was at the start, and so are executions -/
  unbuilt : s.obstacle? r = none → ∀ e, s.buildObstacle? r = some e →
    Blocked settings key e u outcome t ∧ t.executions = s.executions ∧
      ∃ r', t.requests.get? key = some r' ∧ r.Retains r'
  /-- if the name of the build of a push is taken, everything is as it was when the other build was
  started, and this is all that is new about the request then -/
  unfired : s.obstacle? r = none → s.buildObstacle? r = none →
    ∃ m, u.requests.get? key = some m ∧ m.spec = r.spec ∧ m.statusOrDefault = r.builtStatus ∧
      ∀ e, u.pushObstacle? m settings.trigger now = some e → Blocked settings key e u outcome t

/-- A pass that was blocked before it looked at pushes. -/
theorem Blocked.leaves {u : MemoryStore} {now : Instant} (h : Blocked settings key e u outcome t)
    (hr : s.requests.get? key = some r) (hu : HasLabelled key r r' u) (ht : Carries key r' t)
    (hwhere : s.obstacle? r = some e ∧ s.OnlyRequest key u ∨
      s.obstacle? r = none ∧ s.buildObstacle? r = some e ∧ u.executions = s.executions) :
    PassLeaves settings key now r s u outcome t := by
  -- the three places are told apart by what was in the way first
  have hlabel := hu.labelled.label_eq_true ht
  rcases hwhere with ⟨hobstacle, honly⟩ | ⟨hfree, hobstacle, hexecutions⟩
  · refine ⟨hlabel, fun e' he' => ?_, fun hfree => ?_, fun hfree => ?_⟩
    · obtain rfl := Option.some.inj (hobstacle.symm.trans he')
      exact h.of_labelled hr hu honly
    · exact nomatch hfree.symm.trans hobstacle
    · exact nomatch hfree.symm.trans hobstacle
  · refine ⟨hlabel, fun e' he' => ?_, fun _ e' he' => ?_, fun _ hbuild => ?_⟩
    · exact nomatch hfree.symm.trans he'
    · obtain rfl := Option.some.inj (hobstacle.symm.trans he')
      have hsame : t.executions = u.executions := by rw [h.others.rest]
      exact ⟨h, hsame.trans hexecutions, h.retains hu⟩
    · exact nomatch hbuild.symm.trans hobstacle

/-- A program that does not fail, performed. -/
theorem Finishes.performed {α : Type} {p : Pass α} {ok : α → MemoryStore → Prop}
    (h : Finishes w.now False p ok (fun _ _ => False) w.store) :
    ∃ a, (w.perform p.run).1 = .ok a ∧ ok a (w.perform p.run).2.store := by
  have hend := Program.Ends.perform h
  generalize w.perform p.run = performed at hend ⊢
  obtain ⟨result, v⟩ := performed
  cases result with
  | ok a => exact ⟨a, rfl, hend⟩
  | error e => exact hend.elim

/-- **A blocked pass leaves things as they are.**  A pass over a request with a name, while nobody
else writes and no call fails, ends without an error, and the request has the label of its mode
then.

If there is no policy, no strategy for the request, or none installed, or if the template is
somebody else's, nothing is changed in the store but this label, the `Ready` condition and the
version of the request.  If the name of the build that is due is taken by an execution that the
request does not control, the same is true of the request, and of the rest of the store once the
template was put in place.  If the name of the build of the push that is due is so taken, nothing
but the `Ready` condition and the version is changed once the other build was started.  In all these
cases `Ready` is false and says what is in the way, as found of the generation of the request, and
the pass is to be made again after the time that is set for this. -/
theorem blocked_pass_leaves (hserves : w.Serves key) (hr : w.store.requests.get? key = some r)
    (hname : r.metadata.name.isSome = true) (settings : ControllerSettings) :
    ∃ outcome, (w.perform (reconcile settings key).run).1 = .ok outcome ∧
      PassLeaves settings key w.now r w.store (w.prepared settings key).store outcome
        (w.after key (.call (.reconcile settings))).store := by
  have hkey : r.key = key := hserves.made.wellFormed.key_eq hr
  have howns : r.Owns := ⟨hname, hserves.made.identified hr⟩
  have hprepares : Finishes w.now False (preparation settings key) _ _ w.store :=
    finishes_preparation hserves.serving hserves.made.wellKeyed hr hkey howns
  have hprepared := Program.Ends.perform hprepares
  have hnow : (w.prepared settings key).now = w.now := World.now_perform
  have hpass : w.perform (reconcile settings key).run = (w.prepared settings key).perform
      (afterPreparation settings key (w.perform (preparation settings key).run).1) := by
    rw [reconcile_prepared, World.perform_bind]
    rfl
  rw [show w.after key (.call (.reconcile settings)) =
    (w.perform (reconcile settings key).run).2 from rfl, hpass, ← hnow]
  unfold World.prepared
  generalize w.perform (preparation settings key).run = prepared at hprepared ⊢
  obtain ⟨result, u⟩ := prepared
  cases result with
  | error e =>
    -- the preparation was blocked, and this is recorded
    obtain ⟨⟨r₁, hhas⟩, hwhere⟩ := hprepared
    have he : e.isRecordable = true := by
      rcases hwhere with ⟨hobstacle, -⟩ | ⟨-, hobstacle, -⟩
      · exact MemoryStore.obstacle?_isRecordable hobstacle
      · exact MemoryStore.buildObstacle?_isRecordable hobstacle
    have hfails : Finishes u.now False (failurePart settings key e) _ _ u.store :=
      finishes_failure hhas.serving hhas.stored (hhas.labelled.retains.key_eq.trans hkey) he
    obtain ⟨outcome, hok, hblocked, hcarries⟩ := hfails.performed
    exact ⟨outcome, hok, hblocked.leaves hr hhas hcarries hwhere⟩
  | ok found =>
    obtain ⟨hfree, hbuild, r₁, template, rfl, hlabelled, hcarries, m, hm, hbuilt⟩ := hprepared
    have hafterwards : Finishes u.now False (tryCatch (settlePart settings r₁ template.reference)
        (failurePart settings key)) _ _ u.store :=
      finishes_afterwards hcarries (hlabelled.retains.key_eq.trans hkey)
        (hlabelled.retains.owns howns) hm
    obtain ⟨outcome, hok, hends, hblocked⟩ := hafterwards.performed
    obtain ⟨m', hm', hspec, -⟩ := hcarries.request
    obtain rfl := Option.some.inj (hm.symm.trans hm')
    refine ⟨outcome, hok, hlabelled.label_eq_true hends, fun e he => ?_, fun _ e he => ?_,
      fun _ _ => ?_⟩
    · exact nomatch hfree.symm.trans he
    · exact nomatch hbuild.symm.trans he
    · exact ⟨m, hm, hspec.trans hlabelled.retains.spec, hbuilt, hblocked⟩

end

/-- The policy is taken away. -/
def policyRemoved : Deed := .setPolicy none

/-- The name of the first build is taken, by an execution that nobody controls. -/
def buildNameTaken : Deed :=
  .putExecution { metadata := { name := some "app-buildrun-1", «namespace» := some "default" } }

/-- The name of the first build of a push is taken, by an execution of a job. -/
def pushNameTaken : Deed :=
  .putExecution {
    metadata := {
      name := some "app-buildrun-oncommit-1"
      «namespace» := some "default"
      ownerReferences := some
        [{ controller := some true, kind := "Job", name := "other", uid := "u" }] } }

/-- A world in order, but without a policy. -/
def unsetWorld : World := { plainWorld with store := policyRemoved.apply plainStore }

/-- A world in order, but the first build cannot have its name. -/
def takenWorld : World := { plainWorld with store := buildNameTaken.apply plainStore }

/-- A push is due, and its build cannot have its name. -/
def takenForPush : World :=
  { now := pushedLater, store := pushNameTaken.apply (pushedStore waitingPush) }

/-- A store that was made by its own operations serves, if it is told to. -/
theorem World.serves_of_made {w : World} {key : ObjectKey} (hmade : w.store.Made)
    (havailable : w.store.unavailable = false ∧ w.store.conflicts = 0)
    (hpresent : (w.store.requests.get? key).isSome = true) : w.Serves key :=
  ⟨hmade, ⟨havailable.1, Or.inr havailable.2⟩, Option.isSome_iff_exists.mp hpresent⟩

/-- What blocks these passes is said, and nothing else is changed. -/
theorem blocked_pass_leaves_taken :
    (∃ outcome, (unsetWorld.perform (reconcile {} appKey).run).1 = .ok outcome ∧
      Blocked {} appKey .missingPolicy unsetWorld.store outcome
        (unsetWorld.after appKey (.call (.reconcile {}))).store) ∧
    (∃ outcome, (takenWorld.perform (reconcile {} appKey).run).1 = .ok outcome ∧
      Blocked {} appKey (.ownedByOther .execution "app-buildrun-1" "nobody")
        (takenWorld.prepared {} appKey).store outcome
        (takenWorld.after appKey (.call (.reconcile {}))).store) ∧
    ∃ outcome, (takenForPush.perform (reconcile {} pushedKey).run).1 = .ok outcome ∧
      Blocked {} pushedKey (.ownedByOther .execution "app-buildrun-oncommit-1" "Job/other")
        (takenForPush.prepared {} pushedKey).store outcome
        (takenForPush.after pushedKey (.call (.reconcile {}))).store := by
  refine ⟨?_, ?_, ?_⟩
  · -- no policy
    obtain ⟨r, hr, hname, hobstacle⟩ : ∃ r ∈ unsetWorld.store.requests.get? appKey,
        r.metadata.name.isSome = true ∧ unsetWorld.store.obstacle? r = some .missingPolicy := by
      decide +kernel
    have hserves : unsetWorld.Serves appKey :=
      World.serves_of_made (.deed policyRemoved plainStore_made) (by decide +kernel)
        (Option.isSome_of_mem hr)
    obtain ⟨outcome, hok, hleaves⟩ := blocked_pass_leaves hserves hr hname {}
    exact ⟨outcome, hok, hleaves.unresolved _ hobstacle⟩
  · -- the name of the first build is taken
    obtain ⟨r, hr, hname, hfree, hobstacle⟩ : ∃ r ∈ takenWorld.store.requests.get? appKey,
        r.metadata.name.isSome = true ∧ takenWorld.store.obstacle? r = none ∧
        takenWorld.store.buildObstacle? r =
          some (.ownedByOther .execution "app-buildrun-1" "nobody") := by
      decide +kernel
    have hserves : takenWorld.Serves appKey :=
      World.serves_of_made (.deed buildNameTaken plainStore_made) (by decide +kernel)
        (Option.isSome_of_mem hr)
    obtain ⟨outcome, hok, hleaves⟩ := blocked_pass_leaves hserves hr hname {}
    exact ⟨outcome, hok, (hleaves.unbuilt hfree _ hobstacle).1⟩
  · -- the name of the first build of a push is taken, which is seen after the other build was
    -- started
    obtain ⟨r, hr, hname, hfree, hbuild⟩ : ∃ r ∈ takenForPush.store.requests.get? pushedKey,
        r.metadata.name.isSome = true ∧ takenForPush.store.obstacle? r = none ∧
        takenForPush.store.buildObstacle? r = none := by
      decide +kernel
    have hserves : takenForPush.Serves pushedKey :=
      World.serves_of_made (.deed pushNameTaken (pushedStore_made _)) (by decide +kernel)
        (Option.isSome_of_mem hr)
    obtain ⟨outcome, hok, hleaves⟩ := blocked_pass_leaves hserves hr hname {}
    obtain ⟨m, hm, -, -, hunfired⟩ := hleaves.unfired hfree hbuild
    have hobstacle : ∀ m ∈ (takenForPush.prepared {} pushedKey).store.requests.get? pushedKey,
        (takenForPush.prepared {} pushedKey).store.pushObstacle? m {} takenForPush.now =
          some (.ownedByOther .execution "app-buildrun-oncommit-1" "Job/other") := by
      decide +kernel
    exact ⟨outcome, hok, hunfired _ (hobstacle m hm)⟩

end PushBuild
