import PushBuild.Proofs.Controller.Foreign
import PushBuild.Proofs.Specification.Exact

/-!
# What stands in the way of a pass

A pass stops where something is missing that the cluster has to have, or where a resource is
somebody else's.  What it will be can be read off the store, and nothing has been written then by
the part that stops.

1. **Obstacles.**  `obstacle?` finds what keeps a request from its template, `buildObstacle?` what
   keeps it from the build that is due, and `pushObstacle?` what keeps it from the build of the push
   that is due.
2. **Writes alone.**  While nobody else writes and nothing fails, a call is answered at once, and
   what the store is then is known to the last version (`Serving.answered_status` and the lemmas
   after it).
3. **Parts** (`finishes_install`, `finishes_build`, `finishes_evaluate`).  A part of a pass fails
   exactly if there is an obstacle.  It fails with this, and leaves the store as it is.
-/

namespace PushBuild

/-! ## Obstacles -/

/-- Who controls a resource, as seen from the request. -/
def BuildRequest.ownership (r : BuildRequest) (resource : Metadata) : Ownership :=
  Ownership.of resource (r.metadata.uid.getD "")

/-- For a request with a uid this is what the uid says. -/
theorem BuildRequest.ownership_eq {r : BuildRequest} {uid : String}
    (huid : r.metadata.uid = some uid) (resource : Metadata) :
    r.ownership resource = Ownership.of resource uid := by
  rw [ownership, huid, Option.getD_some]

namespace MemoryStore

variable (s : MemoryStore) (r : BuildRequest)

/-- The strategy that the policy has for a specification, which has to be installed. -/
def strategyFor (spec : BuildRequestSpec) : Except BuildError String :=
  match s.policy with
  | none => .error .missingPolicy
  | some policy =>
    match policy.strategyFor? spec.buildFile with
    | none =>
      .error (.strategyNotFound ("no strategy configured for buildFile=" ++ spec.buildFile.name))
    | some name =>
      match s.strategies.get? name with
      | none => .error (.strategyNotFound name)
      | some _ => .ok name

/-- The template in the place of the request's is somebody else's. -/
def templateObstacle? : Option BuildError :=
  match s.templates.get? ⟨r.namespace, r.templateName⟩ with
  | none => none
  | some t =>
    match r.ownership t.metadata with
    | .foreign owner => some (.ownedByOther .template r.templateName owner)
    | .owned | .unowned => none

/-- What keeps the request from its template. -/
def obstacle? : Option BuildError :=
  match s.strategyFor r.spec with
  | .error e => some e
  | .ok _ => s.templateObstacle? r

/-- The place of an execution of that name is taken by one that the request does not control. -/
def nameObstacle? (name : String) : Option BuildError :=
  match s.executions.get? ⟨r.namespace, name⟩ with
  | none => none
  | some x =>
    match r.ownership x.metadata with
    | .owned => none
    | other => some (.ownedByOther .execution x.name other.owner)

/-- What keeps the request from the build for a change of its specification, if one is due. -/
def buildObstacle? : Option BuildError :=
  if r.spec.needsBuild r.statusOrDefault.lastBuildSpec then s.nameObstacle? r r.nextBuild else none

/-- The execution that a push started last is there, is the request's and has not ended. -/
def runs : Bool :=
  match r.statusOrDefault.lastTriggered?.bind fun last =>
      s.executions.get? ⟨r.namespace, last.name⟩ with
  | none => false
  | some x => r.ownership x.metadata = .owned && !x.outcome.isTerminal

/-- What keeps the request from the build of the push that waits, if that is due. -/
def pushObstacle? (policy : TriggerPolicy) (now : Instant) : Option BuildError :=
  match evaluate r.statusOrDefault.onCommit policy now with
  | .fire _ =>
    if r.isOnCommit && !s.runs r then
      s.nameObstacle? r (onCommitExecutionName r.name r.nextCounter)
    else none
  | _ => none

section

variable {s r} {e : BuildError} {policy : TriggerPolicy} {now : Instant}

/-- What is in the way is for others to remove, and so it is recorded. -/
theorem obstacle?_isRecordable (h : s.obstacle? r = some e) : e.isRecordable = true := by
  unfold obstacle? strategyFor templateObstacle? at h
  grind [BuildError.isRecordable]

/-- So it is for the place of an execution, for the build that is due, and for that of a push. -/
theorem nameObstacle?_isRecordable {name : String} (h : s.nameObstacle? r name = some e) :
    e.isRecordable = true := by
  unfold nameObstacle? at h
  split at h
  · cases h
  · split at h
    · cases h
    · cases h
      rfl

theorem buildObstacle?_isRecordable (h : s.buildObstacle? r = some e) : e.isRecordable = true := by
  unfold buildObstacle? at h
  split at h
  · exact nameObstacle?_isRecordable h
  · cases h

theorem pushObstacle?_isRecordable (h : s.pushObstacle? r policy now = some e) :
    e.isRecordable = true := by
  unfold pushObstacle? at h
  split at h
  · split at h
    · exact nameObstacle?_isRecordable h
    · cases h
  · cases h

/-- A request that pushes do not build has no obstacle to their builds. -/
theorem pushObstacle?_of_initial (h : r.isOnCommit = false) :
    s.pushObstacle? r policy now = none := by
  unfold pushObstacle?
  rw [h, Bool.false_and]
  split <;> rfl

end

end MemoryStore

/-! ## Writes alone -/

namespace MemoryStore

/-- The store with the request under a key written, as of the next version. -/
def rewritten (s : MemoryStore) (key : ObjectKey) (r : BuildRequest) : MemoryStore :=
  { s with
    lastVersion := s.lastVersion + 1
    requests := s.requests.insert key (r.withVersion (s.lastVersion + 1)) }

/-- The request that was written is there, as of the next version. -/
@[simp] theorem get?_rewritten (s : MemoryStore) (key : ObjectKey) (r : BuildRequest) :
    (s.rewritten key r).requests.get? key = some (r.withVersion (s.lastVersion + 1)) := by
  simp [rewritten]

/-- Only the request under a key is another, or has another version. -/
structure OnlyRequest (key : ObjectKey) (s t : MemoryStore) : Prop where
  rest : t = { s with lastVersion := t.lastVersion, requests := t.requests }
  others : ∀ k, k ≠ key → t.requests.get? k = s.requests.get? k

section

variable {key : ObjectKey} {s t u : MemoryStore}

/-- That only one request is another is kept by doing nothing and by doing one thing after
another. -/
theorem OnlyRequest.refl (key : ObjectKey) (s : MemoryStore) : s.OnlyRequest key s :=
  ⟨rfl, fun _ _ => rfl⟩

theorem OnlyRequest.trans (h : s.OnlyRequest key t) (h' : t.OnlyRequest key u) :
    s.OnlyRequest key u := by
  refine ⟨?_, fun k hk => (h'.others k hk).trans (h.others k hk)⟩
  rw [h'.rest]
  rw [h.rest]

/-- A write of a request changes no other. -/
theorem onlyRequest_rewritten (s : MemoryStore) (key : ObjectKey) (r : BuildRequest) :
    s.OnlyRequest key (s.rewritten key r) := by
  refine ⟨rfl, fun k hk => ?_⟩
  simp [rewritten, hk]

/-- Whether a store answers does not hang on its requests. -/
theorem OnlyRequest.serving (h : s.OnlyRequest key t) (hs : s.Serving False) : t.Serving False := by
  rw [h.rest]
  exact ⟨hs.available, hs.steady⟩

end

namespace Serving

variable {key : ObjectKey} {s : MemoryStore} {r : BuildRequest}

/-- The request that is there is read. -/
theorem getsRequest (h : s.Serving False) (hr : s.requests.get? key = some r) :
    s.call (.getRequest key) = (.ok (some r), s) := by
  rw [h.getRequest, hr]

/-- A status is written to the request that is stored.  Nobody else was faster, since the version is
that of the request at hand. -/
theorem answered_status (h : s.Serving False) (hr : s.requests.get? key = some r)
    (hkey : r.key = key) (status : BuildRequestStatus) :
    s.call (.updateRequestStatus (r.restated status)) =
      (.ok ((r.restated status).withVersion (s.lastVersion + 1)),
        s.rewritten key (r.restated status)) := by
  rw [h.call_eq]
  show s.updateRequestStatus _ = _
  have hconflicts : ¬ 0 < s.conflicts := by
    have := h.steady.resolve_left id
    omega
  have hplace : (r.restated status).key = key := hkey
  unfold MemoryStore.updateRequestStatus
  rw [if_neg hconflicts]
  simp only [takeVersion, hplace, hr, if_true]
  rfl

/-- A label is set on the request that is stored, whatever its version. -/
theorem answered_label (h : s.Serving False) (hr : s.requests.get? key = some r) (label : String)
    (value : Option String) :
    s.call (.setRequestLabel key label value) =
      (.ok (), s.rewritten key (r.withLabel label value)) := by
  rw [h.call_eq]
  show s.setRequestLabel _ _ _ = _
  simp only [MemoryStore.setRequestLabel, takeVersion, hr]
  rfl

end Serving

end MemoryStore

/-- What a change of the status makes of the store, in which the request is `r`. -/
def MemoryStore.changed (s : MemoryStore) (r : BuildRequest) (change : StatusChange) :
    MemoryStore :=
  match change r r.statusOrDefault with
  | none => s
  | some status => s.rewritten r.key (r.restated status)

section

variable {key : ObjectKey} {s : MemoryStore} {r : BuildRequest} {now : Instant}
  {change : StatusChange}

/-- A change of the status is made at once.  The retry is for other writers, and here there are
none, so that one attempt is enough; a change that declines writes nothing. -/
theorem finishes_modify (hs : s.Serving False) (hr : s.requests.get? key = some r)
    (hkey : r.key = key) {retry : RetryPolicy} :
    Finishes now False (BuildRequest.modifyStatus retry key change)
      (fun found t => t = s.changed r change ∧ found = t.requests.get? key)
        (fun _ _ => False) s := by
  unfold BuildRequest.modifyStatus
  refine finishes_retryOnConflict (fun t => t = s) ?_ rfl
  rintro _ rfl
  unfold BuildRequest.tryModifyStatus MemoryStore.changed
  refine (finishes_bind _ _).mpr (finishes_call _ ?_ fun h => h.elim)
  rw [hs.getRequest key, hr]
  dsimp only
  cases hchange : change r r.statusOrDefault with
  | none => exact ⟨rfl, hr.symm⟩
  | some status =>
    refine (finishes_map _ _).mpr (finishes_call _ ?_ fun h => h.elim)
    rw [hs.answered_status hr hkey]
    subst hkey
    exact ⟨rfl, (MemoryStore.get?_rewritten _ _ _).symm⟩

end

/-! ## Parts -/

section

variable {s : MemoryStore} {r : BuildRequest} {now : Instant}

/-- Looking up the strategy.  The cases are the places at which the lookup may end: no policy, none
for the build file, none installed. -/
theorem finishes_resolveStrategy (hs : s.Serving False) (spec : BuildRequestSpec) :
    Finishes now False (resolveStrategy spec) (fun name t => t = s ∧ s.strategyFor spec = .ok name)
      (fun e t => t = s ∧ s.strategyFor spec = .error e) s := by
  unfold resolveStrategy MemoryStore.strategyFor
  refine finishes_read_bind (a := s.policy) (hs.call_eq _) ?_
  cases s.policy with
  | none => exact ⟨rfl, rfl⟩
  | some policy =>
    dsimp only
    cases policy.strategyFor? spec.buildFile with
    | none => exact ⟨rfl, rfl⟩
    | some name =>
      refine finishes_read_bind (a := s.strategies.get? name) (hs.call_eq _) ?_
      dsimp only
      cases s.strategies.get? name with
      | none => exact ⟨rfl, rfl⟩
      | some strategy => exact ⟨rfl, rfl⟩

/-- What keeps a template that is there from being converged is the obstacle.  Both only ask whose
it is. -/
theorem templateObstacle?_eq_some {strategy uid : String} {existing desired : BuildTemplate}
    (hdesired : BuildTemplate.desired r strategy = .ok desired) (huid : r.metadata.uid = some uid)
    (hexisting : s.templates.get? desired.key = some existing) {e : BuildError} :
    s.templateObstacle? r = some e ↔ existing.converged desired uid = .error e := by
  obtain ⟨hplace, -⟩ := BuildTemplate.desired_place hdesired
  have hname : desired.name = r.templateName := congrArg ObjectKey.name hplace
  unfold MemoryStore.templateObstacle? BuildTemplate.converged
  rw [← hplace, hexisting, hname]
  dsimp only
  rw [BuildRequest.ownership_eq huid]
  cases Ownership.of existing.metadata uid with
  | foreign owner =>
    exact ⟨fun h => congrArg _ (Option.some.inj h), fun h => congrArg _ (Except.error.inj h)⟩
  | owned | unowned => exact ⟨nofun, nofun⟩

/-- The template is made as desired at once, unless it is somebody else's. -/
theorem finishes_applyTemplate (hs : s.Serving False) (hkeyed : s.WellKeyed) {strategy uid : String}
    {desired : BuildTemplate} (hdesired : BuildTemplate.desired r strategy = .ok desired)
    (huid : r.metadata.uid = some uid) :
    Finishes now False (BuildTemplate.apply desired uid)
      (fun _ t => s.templateObstacle? r = none ∧ t.Serving False ∧ t.requests = s.requests ∧
        t.executions = s.executions)
      (fun e t => t = s ∧ s.templateObstacle? r = some e) s := by
  unfold BuildTemplate.apply
  refine finishes_read_bind (a := s.templates.get? desired.key) (hs.call_eq _) ?_
  cases hexisting : s.templates.get? desired.key with
  | none =>
    -- no template is there: one is created, and what it was not in the way of stays as it was
    have hfree : s.templateObstacle? r = none := by
      rw [MemoryStore.templateObstacle?, ← (BuildTemplate.desired_place hdesired).1, hexisting]
    obtain ⟨w, t, hcall, ht, -⟩ := hs.createTemplate hexisting
    have hserved : (Act.createTemplate desired (.ok w)).Served s now t := hcall
    obtain ⟨-, hrequests, hexecutions, -⟩ := hserved.effects []
    refine (finishes_tryCatch _ _).mpr (finishes_callPass _ ?_ fun h => h.elim)
    rw [hcall]
    exact ⟨hfree, ht, hrequests, hexecutions⟩
  | some existing =>
    -- one is there: it is converged unless it is somebody else's, and written if that changes it
    have hobstacle : ∀ {e}, s.templateObstacle? r = some e ↔
        existing.converged desired uid = .error e :=
      templateObstacle?_eq_some hdesired huid hexisting
    refine finishes_monadLift_bind (fun updated hupdated => ?_) fun e he => ⟨rfl, hobstacle.mpr he⟩
    have hfree : s.templateObstacle? r = none :=
      Option.eq_none_iff_forall_ne_some.mpr fun e he => nomatch hupdated.symm.trans
        (hobstacle.mp he)
    split
    · exact ⟨hfree, hs, rfl, rfl⟩
    · obtain ⟨-, -, hmetadata⟩ := BuildTemplate.converged_eq hupdated
      obtain ⟨w, t, hcall, ht, -⟩ := hs.replaceTemplate hexisting (hkeyed _ _ hexisting) hmetadata
      have hserved : (Act.replaceTemplate updated (.ok w)).Served s now t := hcall
      obtain ⟨-, hrequests, hexecutions, -⟩ := hserved.effects []
      refine finishes_callPass _ ?_ fun h => h.elim
      rw [hcall]
      exact ⟨hfree, ht, hrequests, hexecutions⟩

/-- A request with a name and a uid, which can own what it makes. -/
structure BuildRequest.Owns (r : BuildRequest) : Prop where
  named : r.metadata.name.isSome = true
  identified : ∃ uid, r.metadata.uid = some uid

/-- Such a request has a reference for what it makes, -/
theorem BuildRequest.Owns.ownerReference (h : r.Owns) : ∃ owner, r.ownerReference = .ok owner := by
  obtain ⟨name, hname⟩ := Option.isSome_iff_exists.mp h.named
  obtain ⟨uid, huid⟩ := h.identified
  unfold BuildRequest.ownerReference
  rw [hname, huid]
  exact ⟨_, rfl⟩

/-- and a template. -/
theorem BuildRequest.Owns.template (h : r.Owns) (strategy : String) :
    ∃ desired, BuildTemplate.desired r strategy = .ok desired := by
  obtain ⟨owner, howner⟩ := h.ownerReference
  unfold BuildTemplate.desired
  rw [howner]
  exact ⟨_, rfl⟩

/-- **The template** is put in place, unless it is somebody else's. -/
theorem finishes_template (hs : s.Serving False) (hkeyed : s.WellKeyed) (howns : r.Owns)
    (strategy : String) {retry : RetryPolicy} :
    Finishes now False (BuildTemplate.reconcile r strategy retry)
      (fun _ t => s.templateObstacle? r = none ∧ t.Serving False ∧ t.requests = s.requests ∧
        t.executions = s.executions)
      (fun e t => t = s ∧ s.templateObstacle? r = some e) s := by
  obtain ⟨desired, hdesired⟩ := howns.template strategy
  obtain ⟨uid, huid⟩ := howns.identified
  unfold BuildTemplate.reconcile
  refine finishes_ok_bind hdesired (finishes_ok_bind (BuildRequest.uid_eq_ok.mpr huid) ?_)
  refine finishes_retryOnConflict (fun t => t = s) ?_ rfl
  rintro _ rfl
  exact (finishes_applyTemplate hs hkeyed hdesired huid).mono (fun _ _ h => h) fun _ _ h => ⟨h, h.1⟩

/-- What a pass is blocked by before its template is in place: the lookup of the strategy comes
first, so its obstacle hides that of the template. -/
theorem finishes_install (hs : s.Serving False) (hkeyed : s.WellKeyed) (howns : r.Owns)
    {retry : RetryPolicy} :
    Finishes now False
      (resolveStrategy r.spec >>= fun strategy => BuildTemplate.reconcile r strategy retry)
      (fun _ t => s.obstacle? r = none ∧ t.Serving False ∧ t.requests = s.requests ∧
        t.executions = s.executions)
      (fun e t => t = s ∧ s.obstacle? r = some e) s := by
  unfold MemoryStore.obstacle?
  refine (finishes_resolveStrategy hs r.spec).bind ?_ ?_
  · rintro strategy _ ⟨rfl, hstrategy⟩
    rw [hstrategy]
    exact finishes_template hs hkeyed howns strategy
  · rintro e _ ⟨rfl, hunresolved⟩
    rw [hunresolved]
    exact ⟨rfl, rfl⟩

/-- **An execution** is created, or it is there and is the request's, unless it is somebody
else's. -/
theorem finishes_claim (hs : s.Serving False) (howns : r.Owns) (name trigger : String) :
    Finishes now False (BuildExecution.create r name trigger)
      (fun _ t => s.nameObstacle? r name = none ∧ t.Serving False ∧ t.requests = s.requests)
      (fun e t => t = s ∧ s.nameObstacle? r name = some e) s := by
  obtain ⟨strategy, hstrategy⟩ := howns.template ""
  obtain ⟨x, hx⟩ := BuildExecution.exists_desired hstrategy name trigger
  obtain ⟨hplace, -, uid, huid, -⟩ := desired_eq hx
  unfold BuildExecution.create MemoryStore.nameObstacle?
  rw [← hplace]
  refine finishes_ok_bind hx ?_
  refine (finishes_tryCatch _ _).mpr (finishes_callPass _ ?_ fun h => h.elim)
  cases hexisting : s.executions.get? x.key with
  | none =>
    obtain ⟨w, t, hcall, ht, -⟩ := hs.createExecution hexisting
    have hserved : (Act.createExecution x (.ok w)).Served s now t := hcall
    rw [hcall]
    exact ⟨rfl, ht, (hserved.effects []).2.1⟩
  | some y =>
    -- the name is taken: whose the execution is decides
    obtain ⟨kind, other, hcall⟩ := hs.createExecution_exists hexisting
    rw [hcall]
    dsimp only
    rw [BuildRequest.ownership_eq huid]
    unfold BuildExecution.adopt
    refine finishes_read_bind (a := some y) ((hs.getExecution _).trans (by rw [hexisting])) ?_
    refine finishes_ok_bind (BuildRequest.uid_eq_ok.mpr huid) ?_
    refine finishes_monadLift_bind (fun _ howned => ?_) fun e he => ?_
    · rw [Ownership.of_ensure howned]
      exact ⟨rfl, hs, rfl⟩
    · obtain ⟨hother, rfl⟩ := Ownership.ensure_eq_error he
      refine ⟨rfl, ?_⟩
      cases howner : Ownership.of y.metadata uid with
      | owned => exact absurd howner hother
      | unowned | foreign _ => rfl

/-- The store serves, and it has the request, whatever its status and its version. -/
structure Carries (key : ObjectKey) (r : BuildRequest) (s : MemoryStore) : Prop where
  serving : s.Serving False
  request : ∃ m, s.requests.get? key = some m ∧ m.spec = r.spec ∧
    m.metadata.unversioned = r.metadata.unversioned

section

variable {key : ObjectKey} {t : MemoryStore} {m : BuildRequest} {change : StatusChange}
  {retry : RetryPolicy} {policy : TriggerPolicy}

/-- Place and ownership do not hang on the version. -/
theorem BuildRequest.key_of_unversioned (h : m.metadata.unversioned = r.metadata.unversioned) :
    m.key = r.key := by
  have hkey := congrArg Metadata.key h
  exact hkey

theorem BuildRequest.Owns.of_unversioned (h : r.Owns)
    (hm : m.metadata.unversioned = r.metadata.unversioned) : m.Owns := by
  have hname := congrArg Metadata.name hm
  have huid := congrArg Metadata.uid hm
  change m.metadata.name = r.metadata.name at hname
  change m.metadata.uid = r.metadata.uid at huid
  exact ⟨hname ▸ h.named, huid ▸ h.identified⟩

/-- A store that has the request carries it, -/
theorem carries_of_stored (hs : s.Serving False) (hr : s.requests.get? key = some r) :
    Carries key r s := ⟨hs, r, hr, rfl, rfl⟩

/-- and so does one with the same requests. -/
theorem Carries.of_requests (h : Carries key r s) (ht : t.Serving False)
    (hrequests : t.requests = s.requests) : Carries key r t :=
  ⟨ht, hrequests ▸ h.request⟩

theorem Carries.of_request (h : Carries key m s) (hspec : m.spec = r.spec)
    (hmetadata : m.metadata.unversioned = r.metadata.unversioned) : Carries key r s := by
  obtain ⟨m', hm', hspec', hmetadata'⟩ := h.request
  exact ⟨h.serving, m', hm', hspec'.trans hspec, hmetadata'.trans hmetadata⟩

/-- A change of the status leaves the rest of the request, whether it writes or declines. -/
theorem Carries.modify (h : Carries key r s) (hkey : r.key = key) :
    Finishes now False (BuildRequest.modifyStatus retry key change)
      (fun found t => Carries key r t ∧ found = t.requests.get? key) (fun _ _ => False) s := by
  obtain ⟨m, hm, hspec, hmetadata⟩ := h.request
  have hplace : m.key = key := (BuildRequest.key_of_unversioned hmetadata).trans hkey
  refine (finishes_modify h.serving hm hplace).mono ?_ fun _ _ h => h
  rintro found _ ⟨rfl, rfl⟩
  refine ⟨?_, rfl⟩
  unfold MemoryStore.changed
  split
  · exact h
  · rw [hplace]
    exact ⟨(s.onlyRequest_rewritten key _).serving h.serving, _, s.get?_rewritten _ _,
      hspec, hmetadata⟩

/-- What is known about the request once the build that is due was started. -/
def BuildRequest.builtStatus (r : BuildRequest) : BuildRequestStatus :=
  if r.spec.needsBuild r.statusOrDefault.lastBuildSpec then
    { r.statusOrDefault with
      buildRunCounter := r.statusOrDefault.buildRunCounter + 1
      lastBuildRunRef := some r.nextBuild
      lastBuildSpec := some r.spec.snapshot }
  else r.statusOrDefault

/-- **The build** that is due is started, unless its name is taken by somebody else's. -/
theorem finishes_build (hs : s.Serving False) (hr : s.requests.get? key = some r)
    (hkey : r.key = key) (howns : r.Owns) :
    Finishes now False (buildIfDue retry r)
      (fun _ t => s.buildObstacle? r = none ∧ Carries key r t ∧
        ∃ m, t.requests.get? key = some m ∧ m.statusOrDefault = r.builtStatus)
      (fun e t => t = s ∧ s.buildObstacle? r = some e) s := by
  have hlast := r.status_bind (·.lastBuildSpec) rfl
  unfold buildIfDue MemoryStore.buildObstacle? BuildRequest.builtStatus
  rw [hlast]
  split
  · unfold startBuild
    refine (finishes_claim hs howns _ _).bind ?_ fun _ _ h => h
    rintro _ t ⟨hfree, ht, hrequests⟩
    subst hkey
    have hstored : t.requests.get? r.key = some r := hrequests ▸ hr
    refine (finishes_modify ht hstored rfl).pass.bind ?_ fun _ _ h => h.elim
    rintro found u ⟨rfl, -⟩
    have hwritten := t.get?_rewritten r.key (r.restated { r.statusOrDefault with
      buildRunCounter :=
        max r.statusOrDefault.buildRunCounter (r.statusOrDefault.buildRunCounter + 1)
      lastBuildRunRef := some r.nextBuild
      lastBuildSpec := some r.spec.snapshot })
    refine ⟨hfree, ⟨(t.onlyRequest_rewritten r.key _).serving ht, _, hwritten, rfl, rfl⟩, _,
      hwritten, ?_⟩
    -- the count was not written by anybody else, so the larger of the two is the new one
    rw [max_eq_right (Int.le_add_one (Int.le_refl _))]
    rfl
  · exact ⟨rfl, carries_of_stored hs hr, r, hr, rfl⟩

/-- Looking whether the execution that a push started last runs.  It does if it is there, is the
request's and has not ended. -/
theorem finishes_activeExecution (hs : s.Serving False) (howns : r.Owns) :
    Finishes now False (activeExecution r r.statusOrDefault.onCommit)
      (fun found t => t = s ∧ found.isSome = s.runs r) (fun _ _ => False) s := by
  unfold activeExecution MemoryStore.runs BuildRequestStatus.lastTriggered?
  cases r.statusOrDefault.onCommit.bind (·.lastTriggeredExecution) with
  | none => exact ⟨rfl, rfl⟩
  | some last =>
    refine finishes_read_bind (hs.getExecution _) ?_
    dsimp only [Option.bind_some]
    cases s.executions.get? ⟨r.namespace, last.name⟩ with
    | none => exact ⟨rfl, rfl⟩
    | some x =>
      obtain ⟨uid, huid⟩ := howns.identified
      dsimp only
      rw [BuildRequest.ownership_eq huid]
      refine finishes_ok_bind (BuildRequest.uid_eq_ok.mpr huid) ?_
      split
      · next hruns => exact ⟨rfl, hruns.symm⟩
      · next hrests => exact ⟨rfl, (Bool.eq_false_iff.mpr hrests).symm⟩

/-- Reporting a start only reads. -/
theorem finishes_afterFire (hs : s.Serving False) (howns : r.Owns) (execution : String) :
    Finishes now False (afterFire policy r execution) (fun _ t => t = s) (fun _ _ => False) s := by
  have hstate := r.status_bind (·.onCommit) rfl
  unfold afterFire
  simp only [hstate]
  split
  · exact finishes_now_bind rfl
  · refine (finishes_activeExecution hs howns).bind ?_ fun _ _ h => h
    rintro found _ ⟨rfl, -⟩
    cases found with
    | some active => exact rfl
    | none =>
      refine finishes_now_bind ?_
      split <;> exact rfl

/-- **The build of the push** that is due is started, unless its name is taken by somebody else's.
Up to the start nothing is written, so an evaluation that is blocked there has left everything. -/
theorem finishes_evaluate (hs : s.Serving False) (hr : s.requests.get? key = some r)
    (hkey : r.key = key) (howns : r.Owns) :
    Finishes now False (coordinate policy retry key)
      (fun _ t => s.pushObstacle? r policy now = none ∧ Carries key r t)
      (fun e t => t = s ∧ s.pushObstacle? r policy now = some e) s := by
  have hrests := carries_of_stored hs hr
  unfold coordinate MemoryStore.pushObstacle?
  refine finishes_read_bind (hs.getsRequest hr) ?_
  dsimp only
  split
  · next hmode =>
    refine finishes_now_bind ?_
    cases hdue : evaluate r.statusOrDefault.onCommit policy now with
    | idle => exact ⟨rfl, hrests⟩
    | debouncing wait => exact ⟨rfl, hrests⟩
    | rateLimited wait => exact ⟨rfl, hrests⟩
    | fire push =>
      dsimp only
      rw [hmode, Bool.true_and]
      unfold fire
      refine (finishes_activeExecution hs howns).bind ?_ fun _ _ h => h.elim
      -- the push is due; it has to wait if the last execution runs
      rintro found _ ⟨rfl, hruns⟩
      cases found with
      | some active =>
        rw [← hruns]
        exact ⟨rfl, hrests⟩
      | none =>
        rw [← hruns]
        subst hkey
        -- otherwise its execution is created or adopted, the start is recorded, and reported
        refine (finishes_claim hs howns _ _).bind ?_ fun _ _ h => h
        rintro _ t ⟨hfree, ht, hrequests⟩
        have hcarries := hrests.of_requests ht hrequests
        refine finishes_now_bind ((hcarries.modify rfl).pass.bind ?_ fun _ _ h => h.elim)
        rintro found u ⟨hu, rfl⟩
        obtain ⟨m, hm, hspec, hmetadata⟩ := hu.request
        rw [hm]
        exact (finishes_afterFire hu.serving (howns.of_unversioned hmetadata) _).mono
          (fun _ _ h => h ▸ ⟨hfree, hu⟩) fun _ _ h => h.elim
  · next hmode => exact ⟨MemoryStore.pushObstacle?_of_initial (Bool.eq_false_iff.mpr hmode), hrests⟩

end

end

end PushBuild
