import PushBuild.Controller.Reconcile
import PushBuild.Proofs.OnCommit.Change
import PushBuild.Proofs.Recovery.Contents

/-!
# What a pass does next

A pass makes up to eight writes.  Between any two of them it may be cut short, and then another pass
starts over, with no memory of the first.  That this does no harm is because a pass has no use for a
memory: what it does after a write can be read off the store, and it is what a new pass would do
there.

1. **Decisions.**  `passStep` looks at the contents of a store and decides what comes next: a write,
   a failure, or that there is nothing left to do.  It is put together from one decision for each
   part of a pass.
2. **Composition.**  A part that goes on leaves the decision to the next one.
3. **Writes** (`…_writes`).  What each part may write.
-/

namespace PushBuild

/-! ## Decisions -/

/-- A write to the contents of a store. -/
inductive Write where
  /-- the request gets a label or a status -/
  | request (r : BuildRequest)
  | newTemplate (t : BuildTemplate)
  | template (t : BuildTemplate)
  | newExecution (x : BuildExecution)

/-- The contents after a write of a pass over the request under `key`. -/
def Write.apply (key : ObjectKey) : Write → MemoryStore → MemoryStore
  | request r, v => v.withRequest key r
  | newTemplate t, v => v.withNewTemplate t
  | template t, v => v.withTemplate t
  | newExecution x, v => v.withNewExecution x

/-- Why a part of a pass does not go on to the next part. -/
inductive Halt where
  | failed (error : BuildError)
  | writes (write : Write)

/-- What a part of a pass decides: to go on with a value, or to halt. -/
abbrev Decision := Except Halt

/-- To fail as a function does that has no effects. -/
def Decision.of {α : Type} : Except BuildError α → Decision α
  | .ok a => .ok a
  | .error e => .error (.failed e)

/-- Not to write. -/
def Decision.Settled {α : Type} (d : Decision α) : Prop := ∀ w, d ≠ .error (.writes w)

/-- The value of the label by which pushes find the request. -/
def BuildRequest.modeLabel (r : BuildRequest) : Option String :=
  if r.isOnCommit then some "true" else none

section

variable (key : ObjectKey)

/-- The request gets the label of its mode. -/
def labelStep (v : MemoryStore) : Decision Unit :=
  let r := v.requestAt key
  if r.metadata.label? onCommitLabel = r.modeLabel then .ok ()
  else .error (.writes (.request (r.withLabel onCommitLabel r.modeLabel)))

/-- The strategy is looked up. -/
def strategyStep (v : MemoryStore) : Decision String :=
  let spec := (v.requestAt key).spec
  match v.policy with
  | none => .error (.failed .missingPolicy)
  | some policy =>
    match policy.strategyFor? spec.buildFile with
    | none =>
      .error (.failed (.strategyNotFound
        ("no strategy configured for buildFile=" ++ spec.buildFile.name)))
    | some name =>
      match v.strategies.get? name with
      | none => .error (.failed (.strategyNotFound name))
      | some _ => .ok name

/-- The template that is there becomes what is desired. -/
def convergeStep (desired : BuildTemplate) (uid : String) (v : MemoryStore) : Decision String :=
  match v.templates.get? desired.key with
  | none => .error (.writes (.newTemplate desired))
  | some existing =>
    match existing.converged desired uid with
    | .error e => .error (.failed e)
    | .ok updated =>
      if updated = existing then .ok existing.reference else .error (.writes (.template updated))

/-- The request gets its template; the decision is where that is found. -/
def templateStep (strategy : String) (v : MemoryStore) : Decision String := do
  let r := v.requestAt key
  let desired ← Decision.of (BuildTemplate.desired r strategy)
  let uid ← Decision.of r.uid
  convergeStep desired uid v

/-- The execution is made, or the one that is there is the request's. -/
def adoptStep (desired : BuildExecution) (v : MemoryStore) : Decision Unit :=
  match v.executions.get? desired.key with
  | none => .error (.writes (.newExecution desired))
  | some x => do
    let uid ← Decision.of (v.requestAt key).uid
    Decision.of (Ownership.ensure .execution x.metadata uid)

/-- The request gets an execution. -/
def claimStep (name trigger : String) (v : MemoryStore) : Decision Unit := do
  let desired ← Decision.of (BuildExecution.desired (v.requestAt key) name trigger)
  adoptStep key desired v

/-- The request gets another status, if it is to be changed. -/
def restateStep (change : StatusChange) (v : MemoryStore) : Decision Unit :=
  let r := v.requestAt key
  match change r r.statusOrDefault with
  | none => .ok ()
  | some status => .error (.writes (.request (r.restated status)))

/-- What is to be built gets its execution, and that is recorded. -/
def buildStep (v : MemoryStore) : Decision Unit :=
  let r := v.requestAt key
  if r.spec.needsBuild (r.status.bind (·.lastBuildSpec)) then do
    let counter := r.statusOrDefault.buildRunCounter + 1
    let execution := plainExecutionName r.name counter
    claimStep key execution BuildTrigger.initial.label v
    restateStep key (recordBuild execution counter r.spec.snapshot) v
  else .ok ()

/-- The execution that a push started last is looked at; the decision is whether it runs. -/
def activeStep (v : MemoryStore) : Decision Bool :=
  let r := v.requestAt key
  match r.statusOrDefault.lastTriggered? with
  | none => .ok false
  | some last =>
    match v.executions.get? ⟨r.namespace, last.name⟩ with
    | none => .ok false
    | some x => do
      let uid ← Decision.of r.uid
      return Ownership.of x.metadata uid = .owned && !x.outcome.isTerminal

/-- A push that is due gets its execution, unless one is running, and that is recorded. -/
def fireStep (now : Instant) (push : PushRecord) (v : MemoryStore) : Decision Unit := do
  if ← activeStep key v then return ()
  let counter := (v.requestAt key).statusOrDefault.triggerCounter + 1
  let execution := onCommitExecutionName key.name counter
  claimStep key execution BuildTrigger.onCommit.label v
  restateStep key (recordFire push execution counter now) v

/-- A push that waits is looked at, or what is left of pushes is dropped; the decision is when to
look again. -/
def pushStep (policy : TriggerPolicy) (now : Instant) (v : MemoryStore) :
    Decision (Option Duration) :=
  let r := v.requestAt key
  if r.isOnCommit then
    match evaluate r.statusOrDefault.onCommit policy now with
    | .fire push => do
      fireStep key now push v
      return none
    | decision => .ok decision.requeueAfter
  else do
    restateStep key retirePushes v
    return none

/-- The request says how things stand. -/
def projectStep (reference : String) (now : Instant) (v : MemoryStore) : Decision Unit :=
  let r := v.requestAt key
  let projection := r.statusOrDefault.lastBuildRunRef.map fun name =>
    Projection.of r name (v.executions.get? ⟨key.namespace, name⟩)
  restateStep key (.ofFunction (projectedStatus reference projection now)) v

/-- The request says how things stand, and the pass is over. -/
def reportStep (reference : String) (now : Instant) (requeueAfter : Option Duration)
    (v : MemoryStore) : Decision ReconcileOutcome := do
  projectStep key reference now v
  return { requeueAfter }

/-- Pushes are looked at, and then the pass is over. -/
def settleStep (settings : ControllerSettings) (now : Instant) (reference : String)
    (v : MemoryStore) : Decision ReconcileOutcome := do
  let requeueAfter ← pushStep key settings.trigger now v
  reportStep key reference now requeueAfter v

/-- What is to be built is built, and so is what was pushed. -/
def advanceStep (settings : ControllerSettings) (now : Instant) (reference : String)
    (v : MemoryStore) : Decision ReconcileOutcome := do
  buildStep key v
  settleStep key settings now reference v

/-- The template is put in place, and then the rest. -/
def installStep (settings : ControllerSettings) (now : Instant) (strategy : String)
    (v : MemoryStore) : Decision ReconcileOutcome := do
  let reference ← templateStep key strategy v
  advanceStep key settings now reference v

/-- What the request says is put in place. -/
def requestStep (settings : ControllerSettings) (now : Instant) (v : MemoryStore) :
    Decision ReconcileOutcome := do
  let strategy ← strategyStep key v
  installStep key settings now strategy v

/-- The request says what blocked the pass, if that is to be said. -/
def failureStep (settings : ControllerSettings) (now : Instant) (error : BuildError)
    (v : MemoryStore) : Decision ReconcileOutcome :=
  if error.isRecordable then do
    restateStep key (.ofFunction (failedStatus error now)) v
    return { requeueAfter := some settings.errorRequeue }
  else .error (.failed error)

/-- What the request says is put in place, or it says why not. -/
def guardedStep (settings : ControllerSettings) (now : Instant) (v : MemoryStore) :
    Decision ReconcileOutcome :=
  match requestStep key settings now v with
  | .error (.failed e) => failureStep key settings now e v
  | decision => decision

/-- What comes next in a pass. -/
def passStep (settings : ControllerSettings) (now : Instant) (v : MemoryStore) :
    Decision ReconcileOutcome := do
  labelStep key v
  guardedStep key settings now v

end

/-! ## Composition -/

namespace Decision

variable {α β : Type} {d : Decision α} {f : α → Decision β} {h : Halt} {a : α} {b : β}

/-- A sequence of decisions halts where one of its parts halts. -/
theorem bind_error :
    (d >>= f) = .error h ↔ d = .error h ∨ ∃ a, d = .ok a ∧ f a = .error h := by
  cases d with
  | error h' =>
    refine ⟨?_, ?_⟩
    · rintro ⟨⟩
      exact Or.inl rfl
    · rintro (heq | ⟨_, hd, _⟩)
      · rw [Except.error.inj heq]
        rfl
      · cases hd
  | ok a =>
    refine ⟨fun heq => Or.inr ⟨a, rfl, heq⟩, ?_⟩
    rintro (hd | ⟨_, ⟨⟩, heq⟩)
    · cases hd
    · exact heq

/-- It goes on if both of its parts do. -/
theorem bind_ok : (d >>= f) = .ok b ↔ ∃ a, d = .ok a ∧ f a = .ok b := by
  cases d with
  | error h' => exact ⟨nofun, fun ⟨_, hd, _⟩ => nomatch hd⟩
  | ok a =>
    refine ⟨fun heq => ⟨a, rfl, heq⟩, ?_⟩
    rintro ⟨_, ⟨⟩, heq⟩
    exact heq

/-- A function without effects that fails decides to fail. -/
theorem of_error {r : Except BuildError α} :
    of r = .error h ↔ ∃ e, r = .error e ∧ h = .failed e := by
  cases r with
  | error e =>
    refine ⟨fun heq => ⟨e, rfl, (Except.error.inj heq).symm⟩, ?_⟩
    rintro ⟨_, ⟨⟩, rfl⟩
    rfl
  | ok a => exact ⟨nofun, fun ⟨_, hr, _⟩ => nomatch hr⟩

/-- One that succeeds decides to go on with what it gives. -/
theorem of_ok {r : Except BuildError α} : of r = .ok a ↔ r = .ok a := by
  cases r with
  | error e => exact ⟨nofun, nofun⟩
  | ok b =>
    exact ⟨fun heq => congrArg _ (Except.ok.inj heq), fun heq => congrArg _ (Except.ok.inj heq)⟩

/-- A function that has no effects does not write. -/
theorem settled_of (r : Except BuildError α) : (of r).Settled := by
  intro w hw
  obtain ⟨e, -, heq⟩ := of_error.mp hw
  cases heq

end Decision

/-! ## What the parts write -/

section

variable {key : ObjectKey} {v : MemoryStore} {w : Write}

/-- The label that is written is that of the mode. -/
theorem labelStep_writes (h : labelStep key v = .error (.writes w)) :
    w = .request ((v.requestAt key).withLabel onCommitLabel (v.requestAt key).modeLabel) := by
  simp only [labelStep] at h
  split at h
  · cases h
  · cases h
    rfl

/-- Where the change gives no status, none is written. -/
theorem restateStep_of_none {change : StatusChange}
    (h : change (v.requestAt key) (v.requestAt key).statusOrDefault = none) :
    restateStep key change v = .ok () := by
  simp only [restateStep, h]

/-- Where it gives one, that is written. -/
theorem restateStep_of_some {change : StatusChange} {status : BuildRequestStatus}
    (h : change (v.requestAt key) (v.requestAt key).statusOrDefault = some status) :
    restateStep key change v = .error (.writes (.request ((v.requestAt key).restated status))) := by
  simp only [restateStep, h]

/-- Nothing else is written. -/
theorem restateStep_writes {change : StatusChange}
    (h : restateStep key change v = .error (.writes w)) :
    ∃ status, change (v.requestAt key) (v.requestAt key).statusOrDefault = some status ∧
      w = .request ((v.requestAt key).restated status) := by
  simp only [restateStep] at h
  split at h
  · cases h
  · next status hchange =>
    cases h
    exact ⟨status, hchange, rfl⟩

/-- The strategy is only looked up. -/
theorem strategyStep_settled : (strategyStep key v).Settled := by
  intro w hw
  simp only [strategyStep] at hw
  split at hw
  · cases hw
  · split at hw
    · cases hw
    · split at hw <;> cases hw

/-- A template that is missing is created. -/
theorem convergeStep_of_none {desired : BuildTemplate} {uid : String}
    (h : v.templates.get? desired.key = none) :
    convergeStep desired uid v = .error (.writes (.newTemplate desired)) := by
  simp only [convergeStep, h]

/-- One that is there becomes what is desired, if it is not so yet. -/
theorem convergeStep_of_some {desired existing : BuildTemplate} {uid : String}
    (h : v.templates.get? desired.key = some existing) :
    convergeStep desired uid v = Decision.of (existing.converged desired uid) >>= fun updated =>
      if updated = existing then .ok existing.reference else
        .error (.writes (.template updated)) := by
  simp only [convergeStep, h]
  cases existing.converged desired uid <;> rfl

/-- Of a template nothing else is written. -/
theorem convergeStep_writes {desired : BuildTemplate} {uid : String}
    (h : convergeStep desired uid v = .error (.writes w)) :
    (v.templates.get? desired.key = none ∧ w = .newTemplate desired) ∨
      ∃ existing updated, v.templates.get? desired.key = some existing ∧
        existing.converged desired uid = .ok updated ∧ w = .template updated := by
  simp only [convergeStep] at h
  split at h
  · next hnone =>
    cases h
    exact Or.inl ⟨hnone, rfl⟩
  · next existing hexisting =>
    split at h
    · cases h
    · next updated hupdated =>
      split at h
      · cases h
      · cases h
        exact Or.inr ⟨existing, updated, hexisting, hupdated, rfl⟩

/-- What is written of a template comes from the request as it is there. -/
theorem templateStep_writes {strategy : String}
    (h : templateStep key strategy v = .error (.writes w)) :
    ∃ desired uid, BuildTemplate.desired (v.requestAt key) strategy = .ok desired ∧
      (v.requestAt key).uid = .ok uid ∧ convergeStep desired uid v = .error (.writes w) := by
  rcases Decision.bind_error.mp h with h | ⟨desired, hdesired, h⟩
  · exact absurd h (Decision.settled_of _ w)
  · rcases Decision.bind_error.mp h with h | ⟨uid, huid, h⟩
    · exact absurd h (Decision.settled_of _ w)
    · exact ⟨desired, uid, Decision.of_ok.mp hdesired, Decision.of_ok.mp huid, h⟩

/-- An execution that is missing is created. -/
theorem adoptStep_of_none {x : BuildExecution} (h : v.executions.get? x.key = none) :
    adoptStep key x v = .error (.writes (.newExecution x)) := by
  simp only [adoptStep, h]

/-- One that is there has to be the request's. -/
theorem adoptStep_of_some {x existing : BuildExecution}
    (h : v.executions.get? x.key = some existing) :
    adoptStep key x v = Decision.of (v.requestAt key).uid >>= fun uid =>
      Decision.of (Ownership.ensure .execution existing.metadata uid) := by
  simp only [adoptStep, h]

/-- To claim an execution is to create it where none is, with what the request says. -/
theorem claimStep_writes {name trigger : String}
    (h : claimStep key name trigger v = .error (.writes w)) :
    ∃ x, BuildExecution.desired (v.requestAt key) name trigger = .ok x ∧
      v.executions.get? x.key = none ∧ w = .newExecution x := by
  rcases Decision.bind_error.mp h with h | ⟨x, hx, h⟩
  · exact absurd h (Decision.settled_of _ w)
  · simp only [adoptStep] at h
    split at h
    · next hnone =>
      cases h
      exact ⟨x, Decision.of_ok.mp hx, hnone, rfl⟩
    · rcases Decision.bind_error.mp h with h | ⟨uid, -, h⟩
      · exact absurd h (Decision.settled_of _ w)
      · exact absurd h (Decision.settled_of _ w)

/-- A build writes its execution, and then its record. -/
theorem buildStep_writes (h : buildStep key v = .error (.writes w)) :
    (∃ x, w = .newExecution x) ∨ ∃ name counter snapshot,
      w = .request ((v.requestAt key).restated { (v.requestAt key).statusOrDefault with
        buildRunCounter := counter, lastBuildRunRef := some name,
        lastBuildSpec := some snapshot }) := by
  simp only [buildStep] at h
  split at h
  · rcases Decision.bind_error.mp h with h | ⟨_, -, h⟩
    · obtain ⟨x, -, -, hw⟩ := claimStep_writes h
      exact Or.inl ⟨x, hw⟩
    · obtain ⟨status, hstatus, hw⟩ := restateStep_writes h
      cases hstatus
      exact Or.inr ⟨_, _, _, hw⟩
  · cases h

/-- The execution that was started last is only looked at. -/
theorem activeStep_settled : (activeStep key v).Settled := by
  intro w hw
  simp only [activeStep] at hw
  split at hw
  · cases hw
  · split at hw
    · cases hw
    · rcases Decision.bind_error.mp hw with hw | ⟨uid, -, hw⟩
      · exact Decision.settled_of _ w hw
      · cases hw

/-- A start writes its execution, and then its record. -/
theorem fireStep_writes {now : Instant} {push : PushRecord}
    (h : fireStep key now push v = .error (.writes w)) :
    (∃ x, w = .newExecution x) ∨
      w = .request ((v.requestAt key).restated { (v.requestAt key).statusOrDefault with
        onCommit := some ((v.requestAt key).statusOrDefault.trigger.applyFire push
          (onCommitExecutionName key.name ((v.requestAt key).statusOrDefault.triggerCounter + 1))
          ((v.requestAt key).statusOrDefault.triggerCounter + 1) now)
        lastBuildRunRef := some
          (onCommitExecutionName key.name ((v.requestAt key).statusOrDefault.triggerCounter + 1)) })
            := by
  rcases Decision.bind_error.mp h with h | ⟨active, -, h⟩
  · exact absurd h (activeStep_settled w)
  · cases active with
    | true => cases h
    | false =>
      rcases Decision.bind_error.mp h with h | ⟨_, -, h⟩
      · obtain ⟨x, -, -, hw⟩ := claimStep_writes h
        exact Or.inl ⟨x, hw⟩
      · obtain ⟨status, hstatus, hw⟩ := restateStep_writes h
        simp only [recordFire] at hstatus
        split at hstatus
        · cases hstatus
        · cases hstatus
          exact Or.inr hw

/-- What is left of pushes is written without the rest of the state. -/
theorem retireStep_writes (h : restateStep key retirePushes v = .error (.writes w)) :
    (v.requestAt key).isOnCommit = false ∧
      ∃ state, (v.requestAt key).statusOrDefault.onCommit = some state ∧
        w = .request ((v.requestAt key).restated
          { (v.requestAt key).statusOrDefault with onCommit := state.retired }) := by
  obtain ⟨status, hstatus, hw⟩ := restateStep_writes h
  simp only [retirePushes] at hstatus
  split at hstatus
  · cases hstatus
  · next state hstate =>
    split at hstatus
    · cases hstatus
    · next hkeeps =>
      cases hstatus
      rw [Bool.or_eq_true, not_or] at hkeeps
      exact ⟨Bool.eq_false_iff.mpr hkeeps.1, state, hstate, hw⟩

/-- A push that is due is started. -/
theorem pushStep_due {policy : TriggerPolicy} {now : Instant} {push : PushRecord}
    (hmode : (v.requestAt key).isOnCommit = true)
    (hdue : evaluate (v.requestAt key).statusOrDefault.onCommit policy now = .fire push) :
    pushStep key policy now v = fireStep key now push v >>= fun _ => pure none := by
  simp only [pushStep, hmode, hdue]
  rfl

/-- One that is not due is left waiting. -/
theorem pushStep_waits {policy : TriggerPolicy} {now : Instant} {decision : TriggerDecision}
    (hmode : (v.requestAt key).isOnCommit = true)
    (hdecision : evaluate (v.requestAt key).statusOrDefault.onCommit policy now = decision)
    (hwaits : ∀ push, decision ≠ .fire push) :
    pushStep key policy now v = .ok decision.requeueAfter := by
  subst hdecision
  simp only [pushStep, hmode, if_true]

/-- Where pushes do not build the request, what is left of them is dropped. -/
theorem pushStep_retires {policy : TriggerPolicy} {now : Instant}
    (hmode : (v.requestAt key).isOnCommit = false) :
    pushStep key policy now v = restateStep key retirePushes v >>= fun _ => pure none := by
  unfold pushStep
  exact if_neg (Bool.eq_false_iff.mp hmode)

/-- So a write about pushes is one of a start, or it drops them. -/
theorem pushStep_writes {policy : TriggerPolicy} {now : Instant}
    (h : pushStep key policy now v = .error (.writes w)) :
    (∃ push, fireStep key now push v = .error (.writes w)) ∨
      restateStep key retirePushes v = .error (.writes w) := by
  simp only [pushStep] at h
  split at h
  · split at h
    · next push _ =>
      rcases Decision.bind_error.mp h with h | ⟨_, -, h⟩
      · exact Or.inl ⟨push, h⟩
      · cases h
    · cases h
  · rcases Decision.bind_error.mp h with h | ⟨_, -, h⟩
    · exact Or.inr h
    · cases h

/-- How things stand is written as the projector says. -/
theorem projectStep_writes {reference : String} {now : Instant}
    (h : projectStep key reference now v = .error (.writes w)) :
    ∃ projection, w = .request ((v.requestAt key).restated
      (projectedStatus reference projection now (v.requestAt key)
        (v.requestAt key).statusOrDefault)) := by
  obtain ⟨status, hstatus, hw⟩ := restateStep_writes h
  rw [eq_of_ofFunction hstatus] at hw
  exact ⟨_, hw⟩

/-- What blocked the pass is written as its failure says. -/
theorem failureStep_writes {settings : ControllerSettings} {now : Instant} {error : BuildError}
    (h : failureStep key settings now error v = .error (.writes w)) :
    w = .request ((v.requestAt key).restated
      (failedStatus error now (v.requestAt key) (v.requestAt key).statusOrDefault)) := by
  unfold failureStep at h
  split at h
  · rcases Decision.bind_error.mp h with h | ⟨_, -, h⟩
    · obtain ⟨status, hstatus, hw⟩ := restateStep_writes h
      rw [eq_of_ofFunction hstatus] at hw
      exact hw
    · cases h
  · cases h

end

end PushBuild
