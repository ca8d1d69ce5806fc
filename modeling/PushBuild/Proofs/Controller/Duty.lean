import PushBuild.Proofs.Controller.Convergence
import PushBuild.Proofs.Interleaving.System
import PushBuild.Proofs.Status.Modify
import PushBuild.Webhook.Acceptance

/-!
# What the controller and the webhook do

Whatever they are answered, a pass over a request, an evaluation of its trigger and a delivery
create executions and write statuses only on certain grounds.  Those grounds are acts of their own,
done before, and this file says which (`controllerDuty`).  Theorems about runs need nothing else of
the programs.

1. **Executions.**  One is created for a push after an evaluation found the push due and the
   execution started last not running (`Firing.Admitted`); and one is created for a change of the
   specification, just after the template was made to say what the specification says
   (`SpecBuild.Admitted`).
2. **Templates.**  A template is replaced only by what it becomes when the request that was read
   last corrects it (`Correction`).
3. **Statuses.**  A status is written to the request as it was just read, and changed in one of six
   ways (`Grounds`).  A start is recorded only after the execution was created, or found
   (`Started`), and how things stand is said only after the template was made as desired
   (`Templated`), of the execution that the request named when it was read before (`Projected`).
4. **Reports.**  An evaluation that ends without an error says what it found or did last
   (`Coordinated`).
5. **The programs.**  `keeps_coordinate`, `keeps_reconcile` and `keeps_accept` say that the three
   programs do this duty, each over the parts it is made of.  They say so of every duty that allows
   what the programs create and write on their grounds (`AllowsPass`, `AllowsDelivery`).
6. **Calls.**  Any number of these programs make a system, for one request (`startCalls`) or for
   several (`startEach`).
-/

namespace PushBuild

namespace BuildRequestStatus

/-- The number of the execution that a push started last; without pushes it is zero. -/
def triggerCounter (status : BuildRequestStatus) : Int :=
  (status.onCommit.map (·.triggerCounter)).getD 0

/-- The execution that a push started last. -/
def lastTriggered? (status : BuildRequestStatus) : Option TriggeredExecution :=
  status.onCommit.bind (·.lastTriggeredExecution)

/-- The push that waits. -/
def pending? (status : BuildRequestStatus) : Option PushRecord :=
  status.onCommit.bind (·.pending)

end BuildRequestStatus

/-! ## Grounds -/

/-- The keys that a program for `key` may speak of: this one, and the keys of requests it was told
of. -/
inductive Known (key : ObjectKey) (acts : List Act) : ObjectKey → Prop
  | given : Known key acts key
  | read {k : ObjectKey} {r : BuildRequest} (h : Known key acts k)
      (hread : .getRequest k (.ok (some r)) ∈ acts) : Known key acts r.key

/-- The execution that a state names as started last was looked for after `before`, if there is one,
and it is missing, or not the request's, or has ended. -/
inductive Examined (r : BuildRequest) (state : Option OnCommitStatus) (before : List Act) :
    List Act → Prop
  | never (hlast : state.bind (·.lastTriggeredExecution) = none) : Examined r state before before
  | missing {last : TriggeredExecution}
      (hlast : state.bind (·.lastTriggeredExecution) = some last) :
      Examined r state before (.getExecution ⟨r.namespace, last.name⟩ (.ok none) :: before)
  | idle {last : TriggeredExecution} {x : BuildExecution} {uid : String}
      (hlast : state.bind (·.lastTriggeredExecution) = some last) (huid : r.metadata.uid = some uid)
      (hidle : Ownership.of x.metadata uid = .owned → x.outcome.isTerminal = true) :
      Examined r state before (.getExecution ⟨r.namespace, last.name⟩ (.ok (some x)) :: before)

/-- The execution that a state names as started last was found after `before`: it is the request's,
and has not ended. -/
inductive FoundRunning (r : BuildRequest) (state : Option OnCommitStatus) (name : String)
    (before : List Act) : List Act → Prop
  | found {last : TriggeredExecution} {x : BuildExecution} {uid : String}
      (hlast : state.bind (·.lastTriggeredExecution) = some last) (hname : last.name = name)
      (huid : r.metadata.uid = some uid) (howned : Ownership.of x.metadata uid = .owned)
      (hruns : x.outcome.isTerminal = false) :
      FoundRunning r state name before
        (.getExecution ⟨r.namespace, last.name⟩ (.ok (some x)) :: before)

/-- After `before` the execution `e` was created, or one of its name was there and is the
request's. -/
inductive Started (r : BuildRequest) (e : BuildExecution) (before : List Act) : List Act → Prop
  | created {w : BuildExecution} : Started r e before (.createExecution e (.ok w) :: before)
  | adopted {x : BuildExecution} {uid name : String} {kind : ResourceKind}
      (huid : r.metadata.uid = some uid) (howned : Ownership.of x.metadata uid = .owned) :
      Started r e before (.getExecution e.key (.ok (some x)) ::
        .createExecution e (.error (.alreadyExists kind name)) :: before)

/-- A start for a push: the request that was read, under which key, and the push that waited. -/
structure Firing where
  key : ObjectKey
  request : BuildRequest
  push : PushRecord

namespace Firing

/-- The number of the execution. -/
def counter (f : Firing) : Int := f.request.statusOrDefault.triggerCounter + 1

/-- The name of the execution. -/
def execution (f : Firing) : String := onCommitExecutionName f.key.name f.counter

/-- The execution. -/
def desired (f : Firing) : Except BuildError BuildExecution :=
  BuildExecution.desired f.request f.execution BuildTrigger.onCommit.label

/-- The acts of an evaluator that may create the execution now: it read the request and the time,
the push is due then, and the execution started last does not run. -/
structure Admitted (policy : TriggerPolicy) (key : ObjectKey) (f : Firing) (acts : List Act) :
    Prop where
  known : Known key acts f.key
  onCommit : f.request.isOnCommit = true
  due : ∃ time before, evaluate f.request.statusOrDefault.onCommit policy time = .fire f.push ∧
    Examined f.request f.request.statusOrDefault.onCommit
      (.now time :: .getRequest f.key (.ok (some f.request)) :: before) acts

/-- The acts of an evaluator that may record the start now: it might create the execution, did so or
found it there, and then read the time. -/
def Recordable (policy : TriggerPolicy) (key : ObjectKey) (f : Firing) (time : Instant)
    (acts : List Act) : Prop :=
  ∃ e admitted started, f.Admitted policy key admitted ∧ f.desired = .ok e ∧
    Started f.request e admitted started ∧ .now time :: started <:+ acts

/-- The acts of an evaluator that recorded the start: it might do so, it read a request on which the
start did not come too late, and the write succeeded. -/
def Recorded (policy : TriggerPolicy) (key : ObjectKey) (f : Firing) (time : Instant)
    (acts : List Act) : Prop :=
  ∃ r status w before, f.Recordable policy key time before ∧
    recordFire f.push f.execution f.counter time r r.statusOrDefault = some status ∧
    .updateRequestStatus (r.restated status) (.ok w) :: .getRequest f.key
      (.ok (some r)) :: before <:+
      acts

end Firing

/-- The acts of a pass that has just made the template as the request `r` desires it, after it read
that request under `k`. -/
def Templated (key k : ObjectKey) (r : BuildRequest) (acts : List Act) : Prop :=
  ∃ strategy desired uid before, Known key before k ∧ .getRequest k (.ok (some r)) ∈ before ∧
    BuildTemplate.desired r strategy = .ok desired ∧ Converged desired uid before acts

/-- The act is about templates. -/
def Act.IsOfTemplate : Act → Prop
  | .getTemplate .. | .createTemplate .. | .replaceTemplate .. => True
  | _ => False

/-- Since `before` nothing was done about templates. -/
inductive TemplatesLeft (before : List Act) : List Act → Prop
  | start : TemplatesLeft before before
  | step {act : Act} {acts : List Act} (h : TemplatesLeft before acts) (hact : ¬ act.IsOfTemplate) :
      TemplatesLeft before (act :: acts)

/-- What is to be said was made of a request that was read under `k`, and of the execution that this
request names, which was looked for right after. -/
inductive Projected (k : ObjectKey) (acts : List Act) : Option Projection → Prop
  | nothing : Projected k acts none
  | of {p : BuildRequest} {name : String} {found : Option BuildExecution} {before : List Act}
      (hname : p.statusOrDefault.lastBuildRunRef = some name)
      (hacts : .getExecution ⟨k.namespace, name⟩ (.ok found) :: .getRequest k
        (.ok (some p)) :: before <:+ acts) :
      Projected k acts (some (Projection.of p name found))

/-- The acts of a pass that may replace the template `t` by `updated` now: it has just found `t`,
and `updated` is what the request that it read last makes of it. -/
def Correction (r : BuildRequest) (t updated : BuildTemplate) (acts : List Act) : Prop :=
  ∃ strategy desired uid before, BuildTemplate.desired r strategy = .ok desired ∧ r.uid = .ok uid ∧
    t.converged desired uid = .ok updated ∧ lastRead? before = some r ∧
    acts = .getTemplate desired.key (.ok (some t)) :: before

/-- A start for a change of the specification, on the request as it was read. -/
structure SpecBuild where
  key : ObjectKey
  request : BuildRequest

namespace SpecBuild

/-- The number of the execution. -/
def counter (b : SpecBuild) : Int := b.request.statusOrDefault.buildRunCounter + 1

/-- The name of the execution. -/
def execution (b : SpecBuild) : String := plainExecutionName b.request.name b.counter

/-- The execution. -/
def desired (b : SpecBuild) : Except BuildError BuildExecution :=
  BuildExecution.desired b.request b.execution BuildTrigger.initial.label

/-- The acts of a pass that may create the execution now: it has just made the template as the
request desires it, and what is to be built is not what was built last. -/
structure Admitted (key : ObjectKey) (b : SpecBuild) (acts : List Act) : Prop where
  templated : Templated key b.key b.request acts
  due : b.request.spec.needsBuild (b.request.status.bind (·.lastBuildSpec)) = true

end SpecBuild

/-- The ways to change a status, and what was done before each. -/
inductive Grounds (policy : TriggerPolicy) (key : ObjectKey) (acts : List Act) : StatusChange → Prop
  /-- a push was received -/
  | push (event : PushEvent) {time : Instant} (htime : .now time ∈ acts) :
      Grounds policy key acts (event.changeOnCommit time)
  /-- an execution was started for a push -/
  | fire (f : Firing) {time : Instant} (hf : f.Recordable policy key time acts) :
      Grounds policy key acts (recordFire f.push f.execution f.counter time)
  /-- an execution was started for a change of the specification -/
  | build (b : SpecBuild) {e : BuildExecution} {admitted started : List Act}
      (hadmitted : b.Admitted key admitted) (hdesired : b.desired = .ok e)
      (hstarted : Started b.request e admitted started) (hacts : started <:+ acts) :
      Grounds policy key acts (recordBuild b.execution b.counter b.request.spec.snapshot)
  /-- pushes no longer build the request -/
  | retire : Grounds policy key acts retirePushes
  /-- a pass says how things stand -/
  | project (reference : String) (projection : Option Projection) {time : Instant} {k : ObjectKey}
      {r : BuildRequest} {templated : List Act} (htemplated : Templated key k r templated)
      (hacts : templated <:+ acts) (htime : .now time ∈ acts) :
      Grounds policy key acts (.ofFunction (projectedStatus reference projection time))
  /-- a pass says what blocked it -/
  | failure (error : BuildError) {time : Instant} (htime : .now time ∈ acts) :
      Grounds policy key acts (.ofFunction (failedStatus error time))

/-- **The duty**: executions are created and statuses written on grounds, and a status is written to
what was just read. -/
def controllerDuty (policy : TriggerPolicy) (key : ObjectKey) : Duty := fun acts act =>
  match act with
  | .createExecution e _ =>
    (∃ f : Firing, f.Admitted policy key acts ∧ f.desired = .ok e) ∨
      ∃ b : SpecBuild, b.Admitted key acts ∧ b.desired = .ok e
  | .updateRequestStatus request _ => ∃ k r status change before,
    acts = .getRequest k (.ok (some r)) :: before ∧ change r r.statusOrDefault = some status ∧
    request = r.restated status ∧ Grounds policy key before change
  | _ => True

section

variable {policy : TriggerPolicy} {key k : ObjectKey} {acts later : List Act}

/-- What was done stays done: grounds are told by acts that lie before, so more acts do not take
them away. -/
theorem Known.mono (h : Known key acts k) (hacts : acts <:+ later) : Known key later k := by
  induction h with
  | given => exact .given
  | read _ hread ih => exact .read ih (hacts.mem hread)

/-- A pass that made the template knew the key of its request, -/
theorem Templated.known {r : BuildRequest} (h : Templated key k r acts) : Known key acts k := by
  obtain ⟨strategy, desired, uid, before, hknown, -, -, hconverged⟩ := h
  exact hknown.mono hconverged.suffix

/-- and read that request. -/
theorem Templated.read {r : BuildRequest} (h : Templated key k r acts) :
    .getRequest k (.ok (some r)) ∈ acts := by
  obtain ⟨strategy, desired, uid, before, -, hread, -, hconverged⟩ := h
  exact hconverged.suffix.mem hread

/-- Looking at executions and starting them only adds acts. -/
theorem Examined.suffix {r : BuildRequest} {state : Option OnCommitStatus}
    (h : Examined r state acts later) : acts <:+ later := by
  cases h with
  | never _ => exact List.suffix_rfl
  | missing _ => exact List.suffix_cons _ _
  | idle _ _ _ => exact List.suffix_cons _ _

/-- So does everything that leaves templates. -/
theorem TemplatesLeft.suffix (h : TemplatesLeft acts later) : acts <:+ later := by
  induction h with
  | start => exact List.suffix_rfl
  | step _ _ ih => exact ih.trans (List.suffix_cons _ _)

/-- What is to be said was made of what was read, whatever was done since. -/
theorem Projected.mono {projection : Option Projection} (h : Projected k acts projection)
    (hacts : acts <:+ later) : Projected k later projection := by
  cases h with
  | nothing => exact .nothing
  | of hname hbefore => exact .of hname (hbefore.trans hacts)

theorem FoundRunning.suffix {r : BuildRequest} {state : Option OnCommitStatus} {name : String}
    (h : FoundRunning r state name acts later) : acts <:+ later := by
  cases h
  exact List.suffix_cons _ _

theorem Started.suffix {r : BuildRequest} {e : BuildExecution} (h : Started r e acts later) :
    acts <:+ later := by
  cases h with
  | created => exact List.suffix_cons _ _
  | adopted _ _ => exact ⟨[_, _], rfl⟩

/-- A start may be recorded also later than it could be first. -/
theorem Firing.Recordable.mono {f : Firing} {time : Instant}
    (h : f.Recordable policy key time acts) (hacts : acts <:+ later) :
    f.Recordable policy key time later := by
  obtain ⟨e, admitted, started, hadmitted, hdesired, hstarted, htime⟩ := h
  exact ⟨e, admitted, started, hadmitted, hdesired, hstarted, htime.trans hacts⟩

/-- So every ground of a change stays one. -/
theorem Grounds.mono {change : StatusChange} (h : Grounds policy key acts change)
    (hacts : acts <:+ later) : Grounds policy key later change := by
  cases h with
  | push event htime => exact .push event (hacts.mem htime)
  | fire f hf => exact .fire f (hf.mono hacts)
  | build b hadmitted hdesired hstarted hstart =>
    exact .build b hadmitted hdesired hstarted (hstart.trans hacts)
  | retire => exact .retire
  | project reference projection htemplated hbefore htime =>
    exact .project reference projection htemplated (hbefore.trans hacts) (hacts.mem htime)
  | failure error htime => exact .failure error (hacts.mem htime)

end

/-! ## How an evaluation ends -/

/-- What is reported after `before`, when the execution of this name was to be recorded and
`updated` is the request as it was seen then.  Only a recorded execution of this very name counts as
started; after any other the evaluation says what there is to do next. -/
inductive Announced (policy : TriggerPolicy) (updated : BuildRequest) (execution : String)
    (before : List Act) : TriggerOutcome → List Act → Prop
  | fired {time : Instant}
      (hlast : updated.statusOrDefault.lastTriggered?.map (·.name) = some execution) :
      Announced policy updated execution before
        (.fired execution (evaluate updated.statusOrDefault.onCommit policy time).requeueAfter)
        (.now time :: before)
  /-- another execution is recorded, and runs -/
  | active {name : String} {acts : List Act}
      (hlast : updated.statusOrDefault.lastTriggered?.map (·.name) ≠ some execution)
      (hruns : FoundRunning updated updated.statusOrDefault.onCommit name before acts) :
      Announced policy updated execution before (.active name) acts
  | waits {time : Instant} {wait : Duration} {acts : List Act}
      (hlast : updated.statusOrDefault.lastTriggered?.map (·.name) ≠ some execution)
      (hexamined : Examined updated updated.statusOrDefault.onCommit before acts)
      (hwait : (evaluate updated.statusOrDefault.onCommit policy time).requeueAfter = some wait) :
      Announced policy updated execution before (.deferred wait) (.now time :: acts)
  | rests {time : Instant} {acts : List Act}
      (hlast : updated.statusOrDefault.lastTriggered?.map (·.name) ≠ some execution)
      (hexamined : Examined updated updated.statusOrDefault.onCommit before acts)
      (hrests : (evaluate updated.statusOrDefault.onCommit policy time).requeueAfter = none) :
      Announced policy updated execution before .idle (.now time :: acts)

/-- How an evaluation of the request under `k` ends that a program for `key` makes after `before`.
The cases are the ways through the evaluation: it stops at the request, at what its state says, at
the execution started last, or after it started one. -/
inductive Coordinated (policy : TriggerPolicy) (key k : ObjectKey) (before : List Act) :
    TriggerOutcome → List Act → Prop
  | missing : Coordinated policy key k before .idle (.getRequest k (.ok none) :: before)
  /-- pushes do not build the request -/
  | unasked {r : BuildRequest} (hmode : r.isOnCommit = false) :
      Coordinated policy key k before .idle (.getRequest k (.ok (some r)) :: before)
  /-- no push waits -/
  | nothing {r : BuildRequest} {time : Instant}
      (hdecision : evaluate r.statusOrDefault.onCommit policy time = .idle) :
      Coordinated policy key k before .idle (.now time :: .getRequest k (.ok (some r)) :: before)
  /-- a push waits, but its time has not come -/
  | waits {r : BuildRequest} {time : Instant} {wait : Duration}
      (hwait : (evaluate r.statusOrDefault.onCommit policy time).requeueAfter = some wait) :
      Coordinated policy key k before (.deferred wait)
        (.now time :: .getRequest k (.ok (some r)) :: before)
  /-- a push is due, but the execution started last runs -/
  | active {r : BuildRequest} {time : Instant} {name : String} {acts : List Act}
      (hruns : FoundRunning r r.statusOrDefault.onCommit name
        (.now time :: .getRequest k (.ok (some r)) :: before) acts) :
      Coordinated policy key k before (.active name) acts
  /-- the execution was created or found, but the request is gone -/
  | gone {f : Firing} {time : Instant} {acts : List Act} (hf : f.Recordable policy key time acts) :
      Coordinated policy key k before .idle (.getRequest k (.ok none) :: acts)
  /-- the start came too late to be recorded -/
  | late {f : Firing} {time : Instant} {r : BuildRequest} {acts later : List Act}
      {outcome : TriggerOutcome} (hf : f.Recordable policy key time acts)
      (hlate : recordFire f.push f.execution f.counter time r r.statusOrDefault = none)
      (h : Announced policy r f.execution (.getRequest k (.ok (some r)) :: acts) outcome later) :
      Coordinated policy key k before outcome later
  /-- the start was recorded -/
  | recorded {f : Firing} {time : Instant} {r w : BuildRequest} {status : BuildRequestStatus}
      {acts later : List Act} {outcome : TriggerOutcome} (hkey : f.key = k)
      (hf : f.Recordable policy key time acts)
      (hchange : recordFire f.push f.execution f.counter time r r.statusOrDefault = some status)
      (h : Announced policy w f.execution (.updateRequestStatus (r.restated status) (.ok w) ::
        .getRequest k (.ok (some r)) :: acts) outcome later) :
      Coordinated policy key k before outcome later

/-- What is done for a report comes after the start. -/
theorem Announced.suffix {policy : TriggerPolicy} {updated : BuildRequest} {execution : String}
    {acts later : List Act} {outcome : TriggerOutcome}
    (h : Announced policy updated execution acts outcome later) : acts <:+ later := by
  cases h with
  | fired _ => exact List.suffix_cons _ _
  | active _ hruns => exact hruns.suffix
  | waits _ hexamined _ | rests _ hexamined _ => exact hexamined.suffix.trans (List.suffix_cons _ _)

/-! ## Duties that the programs do -/

/-- A duty that does not mind looks, and allows what an evaluation for `key` creates and writes, on
the grounds that it has. -/
structure AllowsEvaluation (duty : Duty) (policy : TriggerPolicy) (key : ObjectKey) : Prop where
  looks : AllowsLooks duty
  createForPush : ∀ {acts} {f : Firing} {e} answer, f.Admitted policy key acts → f.desired = .ok e →
    duty acts (.createExecution e answer)
  /-- a start is recorded on the request that was read -/
  fire : ∀ {acts} {f : Firing} {time}, f.Recordable policy key time acts →
    AllowsChange duty f.key acts (recordFire f.push f.execution f.counter time)

/-- A duty that minds only what is created, replaced and written, and allows what a pass for `key`
creates, replaces and writes, on the grounds that it has.  Whoever has a property of runs to show
proves these fields for it, and then has it of every pass. -/
structure AllowsPass (duty : Duty) (policy : TriggerPolicy) (key : ObjectKey) : Prop where
  minor : AllowsMinor duty
  correct : ∀ {acts r t updated} answer, Correction r t updated acts →
    duty acts (.replaceTemplate updated answer)
  createForSpec : ∀ {acts} {b : SpecBuild} {e} answer, b.Admitted key acts → b.desired = .ok e →
    duty acts (.createExecution e answer)
  build : ∀ {acts k} {b : SpecBuild} {e admitted started}, b.Admitted key admitted →
    b.desired = .ok e → Started b.request e admitted started → started <:+ acts →
    AllowsChange duty k acts (recordBuild b.execution b.counter b.request.spec.snapshot)
  /-- within a pass the trigger is evaluated after the template was made -/
  createForPush : ∀ {acts k r templated} {f : Firing} {e} answer, f.Admitted policy key acts →
    f.desired = .ok e → Templated key k r templated → TemplatesLeft templated acts →
    duty acts (.createExecution e answer)
  fire : ∀ {acts} {f : Firing} {time}, f.Recordable policy key time acts →
    AllowsChange duty f.key acts (recordFire f.push f.execution f.counter time)
  retire : ∀ {acts k}, AllowsChange duty k acts retirePushes
  project : ∀ {acts k r templated reference projection time}, Templated key k r templated →
    templated <:+ acts → Projected r.key acts projection → .now time ∈ acts →
    AllowsChange duty r.key acts (.ofFunction (projectedStatus reference projection time))
  failure : ∀ {acts k error time}, .now time ∈ acts →
    AllowsChange duty k acts (.ofFunction (failedStatus error time))

/-- A delivery is the push `event`, as the first provider that knows its headers reads it. -/
structure Delivery.Brings (d : Delivery) (providers : List Provider) (provider : Provider)
    (event : PushEvent) : Prop where
  detected : Provider.detect providers d.headers = .ok provider
  parsed : provider.parse d.headers d.body = .ok event

/-- A duty that minds only what is created and written, and allows a delivery to record its push. -/
structure AllowsDelivery (duty : Duty) (d : Delivery) (providers : List Provider) : Prop where
  minor : AllowsMinor duty
  push : ∀ {acts k provider event time}, d.Brings providers provider event → .now time ∈ acts →
    AllowsChange duty k acts (event.changeOnCommit time)

/-- The duty of the controller minds only what is created and written, -/
theorem allowsMinor_controllerDuty (policy : TriggerPolicy) (key : ObjectKey) :
    AllowsMinor (controllerDuty policy key) := by
  intro acts act h
  cases act <;> first
    | exact h.elim
    | trivial

/-- A change on grounds is one that the duty allows. -/
theorem Grounds.allowed {policy : TriggerPolicy} {key k : ObjectKey} {acts : List Act}
    {change : StatusChange} (h : Grounds policy key acts change) :
    AllowsChange (controllerDuty policy key) k acts change :=
  fun r status _ hchange => ⟨k, r, status, change, acts, rfl, hchange, rfl, h⟩

/-- and its grounds are those that the programs have: for an evaluation, -/
theorem allowsEvaluation_controllerDuty (policy : TriggerPolicy) (key : ObjectKey) :
    AllowsEvaluation (controllerDuty policy key) policy key where
  looks := (allowsMinor_controllerDuty policy key).looks
  createForPush _ hf he := Or.inl ⟨_, hf, he⟩
  fire hf := Grounds.allowed (.fire _ hf)

/-- for a pass, -/
theorem allowsPass_controllerDuty (policy : TriggerPolicy) (key : ObjectKey) :
    AllowsPass (controllerDuty policy key) policy key where
  minor := allowsMinor_controllerDuty policy key
  correct _ _ := trivial
  createForSpec _ hb he := Or.inr ⟨_, hb, he⟩
  build hb he hstarted hacts := Grounds.allowed (.build _ hb he hstarted hacts)
  createForPush _ hf he _ _ := Or.inl ⟨_, hf, he⟩
  fire hf := Grounds.allowed (.fire _ hf)
  retire := Grounds.allowed .retire
  project htemplated hacts _ htime := Grounds.allowed (.project _ _ htemplated hacts htime)
  failure htime := Grounds.allowed (.failure _ htime)

/-- and for a delivery. -/
theorem allowsDelivery_controllerDuty (policy : TriggerPolicy) (key : ObjectKey) (d : Delivery)
    (providers : List Provider) : AllowsDelivery (controllerDuty policy key) d providers where
  minor := allowsMinor_controllerDuty policy key
  push _ htime := Grounds.allowed (.push _ htime)

/-! ## What is read off a request -/

/-- A status that is missing holds nothing, and nor does the one that stands in for it. -/
theorem BuildRequest.status_bind {α : Type} (r : BuildRequest) (f : BuildRequestStatus → Option α)
    (hnothing : f {} = none) : r.status.bind f = f r.statusOrDefault := by
  unfold statusOrDefault
  cases r.status with
  | none => exact hnothing.symm
  | some _ => rfl

/-! ## Executions -/

/-- Who may go on with a resource owns it. -/
theorem Ownership.of_ensure {kind : ResourceKind} {m : Metadata} {uid : String} {u : Unit}
    (h : Ownership.ensure kind m uid = .ok u) : Ownership.of m uid = .owned := by
  unfold Ownership.ensure at h
  split at h
  · next howned => exact howned
  · cases h

section

variable {r : BuildRequest} {name trigger : String} {e : BuildExecution}

/-- What a request makes is its own, and has the name and the label it was to have. -/
theorem desired_eq (h : BuildExecution.desired r name trigger = .ok e) :
    e.key = ⟨r.namespace, name⟩ ∧ e.metadata.label? triggerLabel = some trigger ∧
      ∃ uid, r.metadata.uid = some uid ∧ Ownership.of e.metadata uid = .owned := by
  unfold BuildExecution.desired BuildRequest.ownerReference at h
  split at h
  · next uid _ huid =>
    obtain rfl := Except.ok.inj h
    refine ⟨rfl, ?_, uid, huid, ?_⟩
    · simp [Metadata.label?, SortedMap.ofList]
    · simp [Ownership.of, Metadata.controller?, Metadata.owners]
  · cases h

variable {duty : Duty} {acts : List Act}

/-- **Starting an execution** that may be created.  It is created, or one of its name was there and
was found to be the request's; any other end is an error. -/
theorem meets_create (hlooks : AllowsLooks duty)
    (hcreate : ∀ e answer, BuildExecution.desired r name trigger = .ok e →
      duty acts (.createExecution e answer)) :
    Meets duty (BuildExecution.create r name trigger)
      (fun _ later => ∃ e, BuildExecution.desired r name trigger = .ok e ∧ Started r e acts later)
      (fun _ _ => True) acts := by
  unfold BuildExecution.create
  refine meets_monadLift_bind fun e he => ?_
  refine (meets_tryCatch _ _).mpr
    ((meets_callPass _).mpr fun answer => ⟨hcreate e answer he, ?_, ?_⟩)
  · rintro w rfl
    exact ⟨e, he, .created⟩
  · rintro error rfl
    cases error with
    | alreadyExists kind other =>
      -- the name is taken, so the owner of what is there decides
      show Meets _ (BuildExecution.adopt r ⟨r.namespace, name⟩) _ _ _
      rw [← (desired_eq he).1]
      refine meets_callPass_bind (fun _ => hlooks _ _ trivial) ?_
      rintro (_ | x)
      · trivial
      · refine meets_monadLift_bind fun uid huid => ?_
        refine meets_monadLift_bind fun _ howned => ?_
        exact ⟨e, he, .adopted (BuildRequest.uid_eq_ok.mp huid) (Ownership.of_ensure howned)⟩
    | _ => trivial

end

/-! ## The trigger -/

section

variable {duty : Duty} {policy : TriggerPolicy} {key k : ObjectKey} {acts : List Act}
  {retry : RetryPolicy}

/-- Looking at the execution started last: it was examined, unless it was found running.  That it
runs means that it is the request's and has not ended; one that is missing or somebody else's does
not keep a push waiting. -/
theorem meets_activeExecution {r : BuildRequest} {state : Option OnCommitStatus}
    (hlooks : AllowsLooks duty) :
    Meets duty (activeExecution r state)
      (fun active later => match active with
        | none => Examined r state acts later
        | some name => FoundRunning r state name acts later)
      (fun _ _ => True) acts := by
  unfold activeExecution
  cases hlast : state.bind (·.lastTriggeredExecution) with
  | none => exact .never hlast
  | some last =>
    refine meets_callPass_bind (fun _ => hlooks _ _ trivial) ?_
    rintro (_ | x)
    · exact .missing hlast
    · refine meets_monadLift_bind fun uid huid => ?_
      have huid := BuildRequest.uid_eq_ok.mp huid
      show Meets _ (if _ then _ else _ : Pass _) _ _ _
      split
      · next hruns =>
        rw [Bool.and_eq_true, decide_eq_true_eq, Bool.not_eq_true'] at hruns
        exact .found hlast rfl huid hruns.1 hruns.2
      · next hruns =>
        exact .idle hlast huid fun howned => by simpa [howned] using hruns

/-- What is reported after a start changes nothing, and the start itself is reported only if it is
the one that is recorded. -/
theorem meets_afterFire {updated : BuildRequest} {execution : String} (hlooks : AllowsLooks duty) :
    Meets duty (afterFire policy updated execution) (Announced policy updated execution acts)
      (fun _ _ => True) acts := by
  have hstate := updated.status_bind (·.onCommit) rfl
  unfold afterFire
  simp only [hstate]
  show Meets _ (if _ then _ else _ : Pass _) _ _ acts
  split
  · -- the start is recorded, so it is reported, with the time of the next look
    next hlast => exact meets_now_bind (fun _ => hlooks _ _ trivial) fun time => .fired hlast
  · next hlast =>
    -- another execution is recorded: it is examined, and then the state as it is now
    refine (meets_bind _ _).mpr ((meets_activeExecution hlooks).mono
      (fun active later hactive => ?_) fun _ _ h => h)
    cases active with
    | some name => exact .active hlast hactive
    | none =>
      refine meets_now_bind (fun _ => hlooks _ _ trivial) fun now => ?_
      split
      · next wait hwait => exact .waits hlast hactive hwait
      · next hrests => exact .rests hlast hactive hrests

/-- A start that is not recorded comes too late. -/
theorem supersedes_of_recordFire {push : PushRecord} {execution : String} {counter : Int}
    {time : Instant} {r : BuildRequest}
    (h : recordFire push execution counter time r r.statusOrDefault = none) :
    (r.statusOrDefault.onCommit.getD {}).supersedes counter execution = true := by
  simp only [recordFire] at h
  split at h
  · next hsupersedes => exact hsupersedes
  · cases h

/-- A start that comes too late is not the one that is recorded. -/
theorem recordFire_eq_none {push : PushRecord} {execution : String} {counter : Int} {time : Instant}
    {r : BuildRequest} (h : recordFire push execution counter time r r.statusOrDefault = none) :
    r.statusOrDefault.lastTriggered?.map (·.name) ≠ some execution := by
  have hsupersedes := supersedes_of_recordFire h
  unfold OnCommitStatus.supersedes at hsupersedes
  rw [Bool.and_eq_true, bne_iff_ne] at hsupersedes
  unfold BuildRequestStatus.lastTriggered?
  cases honCommit : r.statusOrDefault.onCommit with
  | none => exact nofun
  | some state =>
    rw [honCommit] at hsupersedes
    exact hsupersedes.2

/-- A start for a push that is due, on the request as it was read just before the clock was. -/
theorem meets_fire {f : Firing} {time : Instant} {before : List Act}
    (hduty : AllowsEvaluation duty policy key)
    (hacts : acts = .now time :: .getRequest f.key (.ok (some f.request)) :: before)
    (hadmitted : ∀ later, Examined f.request f.request.statusOrDefault.onCommit acts later →
      f.Admitted policy key later) :
    Meets duty (fire policy retry f.key f.request f.push) (Coordinated policy key f.key before)
      (fun _ _ => True) acts := by
  unfold fire
  refine (meets_bind _ _).mpr ((meets_activeExecution hduty.looks).mono
    (fun active examined hactive => ?_) fun _ _ h => h)
  cases active with
  -- while an execution runs nothing is done
  | some active => exact .active (hacts ▸ hactive)
  | none =>
    have hf := hadmitted examined hactive
    have hcreate : ∀ e answer, f.desired = .ok e → duty examined (.createExecution e answer) :=
      fun e answer he => hduty.createForPush answer hf he
    refine (meets_bind _ _).mpr ((meets_create hduty.looks hcreate).mono ?_ fun _ _ h => h)
    rintro _ started ⟨e, he, hstarted⟩
    refine meets_now_bind (fun _ => hduty.looks _ _ trivial) fun time => ?_
    have hrecordable : f.Recordable policy key time (.now time :: started) :=
      ⟨e, _, _, hf, he, hstarted, List.suffix_rfl⟩
    refine (meets_bind _ _).mpr ((meets_adapt _ _).mpr ((meets_change hduty.looks fun hlater =>
      hduty.fire (hrecordable.mono hlater)).mono ?_ fun _ _ _ => trivial))
    rintro _ later (⟨hretried⟩ | ⟨hretried, hchange⟩ | ⟨hretried, hchange⟩)
    · exact .gone (hrecordable.mono hretried.suffix)
    · exact (meets_afterFire hduty.looks).mono
        (fun outcome _ h => .late (hrecordable.mono hretried.suffix) hchange h) fun _ _ h => h
    · exact (meets_afterFire hduty.looks).mono
        (fun outcome _ h => .recorded rfl (hrecordable.mono hretried.suffix) hchange h)
          fun _ _ h => h

/-- **An evaluation of the trigger does its duty**, and ends in one of the ways it may end. -/
theorem meets_coordinate (hduty : AllowsEvaluation duty policy key) (hk : Known key acts k) :
    Meets duty (coordinate policy retry k) (Coordinated policy key k acts)
      (fun _ _ => True) acts := by
  unfold coordinate
  refine meets_callPass_bind (fun _ => hduty.looks _ _ trivial) ?_
  rintro (_ | r)
  · exact .missing
  · show Meets _ (if r.isOnCommit then _ else _ : Pass _) _ _ _
    split
    · next honCommit =>
      refine meets_now_bind (fun _ => hduty.looks _ _ trivial) fun time => ?_
      split
      · next hdecision => exact .nothing hdecision
      · next wait hdecision => exact .waits (congrArg TriggerDecision.requeueAfter hdecision)
      · next wait hdecision => exact .waits (congrArg TriggerDecision.requeueAfter hdecision)
      · next push hdue =>
        -- the push is due now, and `meets_fire` has the execution started last examined next
        refine meets_fire (f := ⟨k, r, push⟩) hduty rfl fun later hexamined => ?_
        have hacts : acts <:+ later := List.IsSuffix.trans ⟨[_, _], rfl⟩ hexamined.suffix
        exact ⟨hk.mono hacts, honCommit, time, acts, hdue, hexamined⟩
    · next honCommit => exact .unasked (Bool.not_eq_true _ ▸ honCommit)

/-- Who reports a start recorded it. -/
theorem Coordinated.reported {before later : List Act} {name : String}
    {requeueAfter : Option Duration}
    (h : Coordinated policy key k before (.fired name requeueAfter) later) :
    ∃ f : Firing, ∃ time, f.execution = name ∧ f.Recorded policy key time later := by
  cases h with
  | late _ hlate h =>
    cases h with
    | fired hlast => exact absurd hlast (recordFire_eq_none hlate)
  | recorded hkey hf hchange h =>
    subst hkey
    refine ⟨_, _, ?_, _, _, _, _, hf, hchange, h.suffix⟩
    cases h with
    | fired _ => rfl

/-- For a pass it counts only that the duty was done. -/
theorem keeps_coordinate (hduty : AllowsEvaluation duty policy key) (hk : Known key acts k) :
    Keeps duty (coordinate policy retry k) acts :=
  (meets_coordinate hduty hk).keeps

end

/-! ## A pass -/

section

variable {duty : Duty} {policy : TriggerPolicy} {key k : ObjectKey} {acts : List Act}
  {retry : RetryPolicy}

/-- A change as part of a pass. -/
theorem keeps_modify {change : StatusChange} (hlooks : AllowsLooks duty)
    (hchange : ∀ {later}, acts <:+ later → AllowsChange duty k later change) :
    Keeps duty (BuildRequest.modifyStatus retry k change).pass acts :=
  (keeps_adapt _ _).mpr (meets_change hlooks hchange).keeps

/-- Looking for the strategy changes nothing, and reads no request. -/
theorem meets_resolveStrategy {spec : BuildRequestSpec} (hminor : AllowsMinor duty) :
    Meets duty (resolveStrategy spec) (fun _ later => lastRead? later = lastRead? acts)
      (fun _ _ => True) acts := by
  unfold resolveStrategy
  refine meets_callPass_bind (fun _ => hminor _ _ trivial) fun clusterPolicy => ?_
  split
  · split
    · refine meets_callPass_bind (fun _ => hminor _ _ trivial) fun strategy => ?_
      split
      · rfl
      · trivial
    · trivial
  · trivial

/-- A pass that converges the template of the request that it has read last. -/
theorem meets_template {r : BuildRequest} {strategy : String} (hduty : AllowsPass duty policy key)
    (hk : Known key acts k) (hread : .getRequest k (.ok (some r)) ∈ acts)
    (hlast : lastRead? acts = some r) :
    Meets duty (BuildTemplate.reconcile r strategy retry)
      (fun _ later => Templated key k r later) (fun _ _ => True) acts := by
  refine (meets_reconcileTemplate fun desired uid hdesired huid => ?_).mono ?_ fun _ _ h => h
  · refine ⟨fun _ _ _ => hduty.minor _ _ trivial, fun _ _ _ => hduty.minor _ _ trivial, ?_,
      fun _ _ => hduty.minor _ _ trivial⟩
    intro _ _ _ answer hsame hupdated
    exact hduty.correct answer ⟨strategy, desired, uid, _, hdesired, huid, hupdated,
      hsame.trans hlast, rfl⟩
  · rintro _ later ⟨desired, uid, hdesired, hconverged⟩
    exact ⟨strategy, desired, uid, acts, hk, hread, hdesired, hconverged⟩

/-- The request that the label was given to is one that may be spoken of, and the one that was read
last.  After the label was written the request is read again, and if it is gone by then, the one at
hand stays in use. -/
theorem meets_syncSelectionLabel {r : BuildRequest} (hminor : AllowsMinor duty)
    (hr : Known key acts k) (hread : .getRequest k (.ok (some r)) ∈ acts)
    (hlast : lastRead? acts = some r) :
    Meets duty (syncSelectionLabel r)
      (fun r later => (∃ k, Known key later k ∧ .getRequest k (.ok (some r)) ∈ later) ∧
        lastRead? later = some r)
      (fun _ _ => True) acts := by
  unfold syncSelectionLabel
  extract_lets desired
  split
  · -- the label is right already
    exact ⟨⟨k, hr, hread⟩, hlast⟩
  · refine meets_callPass_bind (fun _ => hminor _ _ trivial) fun _ => ?_
    refine meets_callPass_bind (fun _ => hminor _ _ trivial) ?_
    have hacts : ∀ a b, acts <:+ a :: b :: acts := fun a b => ⟨[a, b], rfl⟩
    rintro (_ | r')
    · exact ⟨⟨k, hr.mono (hacts _ _), (hacts _ _).mem hread⟩, hlast⟩
    · exact ⟨⟨r.key, (hr.mono (hacts _ _)).read ((hacts _ _).mem hread), List.mem_cons_self⟩, rfl⟩

/-- A start for a change of the specification. -/
theorem keeps_startBuild {b : SpecBuild} (hlooks : AllowsLooks duty)
    (hcreate : ∀ e answer, b.desired = .ok e → duty acts (.createExecution e answer))
    (hbuild : ∀ {e started later}, b.desired = .ok e → Started b.request e acts started →
      started <:+ later → AllowsChange duty b.request.key later (recordBuild b.execution b.counter
      b.request.spec.snapshot)) :
    Keeps duty (startBuild retry b.request) acts := by
  unfold startBuild
  refine (meets_create hlooks hcreate).bind_keeps ?_
  rintro _ started - ⟨e, he, hstarted⟩
  exact (keeps_modify hlooks (hbuild he hstarted)).bind fun _ _ _ => trivial

/-- Dropping what is left of pushes is a change like others, and is made only where there is
something to drop. -/
theorem keeps_retireOnCommitState {r : BuildRequest} (hlooks : AllowsLooks duty)
    (hretire : ∀ {later}, AllowsChange duty r.key later retirePushes) :
    Keeps duty (retireOnCommitState retry r) acts := by
  unfold retireOnCommitState
  split
  · trivial
  · split
    · trivial
    · exact (keeps_modify hlooks fun _ => hretire).bind fun _ _ _ => trivial

/-- **Saying how things stand.**  The request is read and, if it names one, its latest execution
right after; what is said is made of these two. -/
theorem keeps_projectStatus {reference : String} (hlooks : AllowsLooks duty)
    (hproject : ∀ {later projection time}, acts <:+ later → Projected k later projection →
      .now time ∈ later →
      AllowsChange duty k later (.ofFunction (projectedStatus reference projection time))) :
    Keeps duty (projectStatus retry k reference) acts := by
  -- the write, whatever was found; the time is read just before it
  have hwrite : ∀ projection later, acts <:+ later → Projected k later projection → Keeps duty (do
      let now ← Pass.now
      let _ ← (BuildRequest.modifyStatus retry k
        (.ofFunction (projectedStatus reference projection now))).pass) later := by
    intro projection later hlater hprojected
    refine meets_now_bind (fun _ => hlooks _ _ trivial) fun time => ?_
    refine (keeps_modify hlooks fun h => ?_).bind fun _ _ _ => trivial
    have hnow := (List.suffix_cons (.now time) later).trans h
    exact hproject (hlater.trans hnow) (hprojected.mono hnow) (h.mem List.mem_cons_self)
  unfold projectStatus
  refine meets_callPass_bind (fun _ => hlooks _ _ trivial) fun found => ?_
  cases found with
  | none => trivial
  | some r =>
    dsimp only
    split
    · exact hwrite none _ (List.suffix_cons _ _) .nothing
    · next name hname =>
      refine meets_callPass_bind (fun _ => hlooks _ _ trivial) fun x => ?_
      exact hwrite _ _ ⟨[_, _], rfl⟩ (.of hname List.suffix_rfl)

/-- Saying what blocked a pass. -/
theorem keeps_recordFailure {error : BuildError} (hlooks : AllowsLooks duty)
    (hfailure : ∀ {later time}, .now time ∈ later →
      AllowsChange duty k later (.ofFunction (failedStatus error time))) :
    Keeps duty (recordFailure retry k error) acts := by
  unfold recordFailure
  refine meets_now_bind (fun _ => hlooks _ _ trivial) fun time => ?_
  refine (keeps_modify hlooks fun h => ?_).bind fun _ _ _ => trivial
  exact hfailure (h.mem List.mem_cons_self)

/-- The duty for as long as nothing was done about templates since `before`, and to do nothing about
them. -/
def leavingTemplates (before : List Act) (duty : Duty) : Duty := fun acts act =>
  TemplatesLeft before acts → duty acts act ∧ TemplatesLeft before (act :: acts)

/-- Looks do nothing about templates, -/
theorem AllowsLooks.leavingTemplates (h : AllowsLooks duty) (before : List Act) :
    AllowsLooks (leavingTemplates before duty) := by
  refine fun acts act hlook hleft => ⟨h acts act hlook, hleft.step ?_⟩
  cases act <;> first
    | exact hlook.elim
    | exact id

/-- and nor do writes of a status. -/
theorem AllowsChange.leavingTemplates {change : StatusChange} (h : AllowsChange duty k acts change)
    (before : List Act) : AllowsChange (leavingTemplates before duty) k acts change :=
  fun r status answer hchange hleft => ⟨h r status answer hchange, hleft.step id⟩

/-- A pass that made the template may go on to evaluate the trigger. -/
theorem AllowsPass.evaluation (h : AllowsPass duty policy key) {r : BuildRequest}
    {templated : List Act} (htemplated : Templated key k r templated) :
    AllowsEvaluation (leavingTemplates templated duty) policy key where
  looks := h.minor.looks.leavingTemplates templated
  createForPush answer hf he hleft :=
    ⟨h.createForPush answer hf he htemplated hleft, hleft.step id⟩
  fire hf := (h.fire hf).leavingTemplates templated

/-- **A pass over a request that was read.**  Its parts follow one another, and the grounds of each
are acts of those before; an error is recorded by the last part, which has grounds of its own. -/
theorem keeps_reconcileRequest {settings : ControllerSettings} {r : BuildRequest}
    (hduty : AllowsPass duty settings.trigger key) (hk : Known key acts k)
    (hread : .getRequest k (.ok (some r)) ∈ acts) (hlast : lastRead? acts = some r) :
    Keeps duty (reconcileRequest settings r) acts := by
  unfold reconcileRequest
  refine (meets_resolveStrategy hduty.minor).bind_keeps fun strategy acts₁ h₁ hsame => ?_
  refine (meets_template hduty (hk.mono h₁) (h₁.mem hread) (hsame.trans hlast)).bind_keeps
    fun template acts₂ h₂ htemplated => ?_
  have hacts := h₁.trans h₂
  have hlooks := hduty.minor.looks
  have hproject (later : List Act) (hlater : acts₂ <:+ later) :
      Keeps duty (projectStatus settings.retry r.key template.reference) later :=
    keeps_projectStatus hlooks fun h hprojected htime =>
      hduty.project htemplated (hlater.trans h) hprojected htime
  extract_lets finish push
  -- what follows the build for a change of the specification
  have hpush : ∀ u later, TemplatesLeft acts₂ later → Keeps duty (push u) later := by
    intro u later hleft
    show Keeps _ (if r.isOnCommit = true then _ else _ : Pass _) later
    split
    · have hlater := hacts.trans hleft.suffix
      have hr : Known key later r.key := (hk.mono hlater).read (hlater.mem hread)
      have hcoordinate : Keeps (leavingTemplates acts₂ duty)
          (coordinate settings.trigger settings.retry r.key) later :=
        keeps_coordinate (hduty.evaluation htemplated) hr
      refine (hcoordinate.along hleft).bind_keeps fun outcome _ _ hend => ?_
      exact (hproject _ hend.1.suffix).bind fun _ _ _ => trivial
    · refine (keeps_retireOnCommitState hlooks hduty.retire).bind fun _ _ h => ?_
      exact (hproject _ (hleft.suffix.trans h)).bind fun _ _ _ => trivial
  split
  · next hdue =>
    have hb : SpecBuild.Admitted key ⟨k, r⟩ acts₂ := ⟨htemplated, hdue⟩
    have hstart : Keeps (leavingTemplates acts₂ duty) (startBuild settings.retry r) acts₂ :=
      keeps_startBuild (b := ⟨k, r⟩) (hlooks.leavingTemplates acts₂)
        (fun e answer he hleft => ⟨hduty.createForSpec answer hb he, hleft.step id⟩)
        fun he hstarted hlater => (hduty.build hb he hstarted hlater).leavingTemplates acts₂
    exact (hstart.along .start).bind_keeps fun u later _ hend => hpush u later hend.1
  · exact hpush () acts₂ .start

/-- **A pass does its duty.** -/
theorem keeps_reconcile {settings : ControllerSettings}
    (hduty : AllowsPass duty settings.trigger key) : Keeps duty (reconcile settings key) acts := by
  unfold reconcile
  refine meets_callPass_bind (fun _ => hduty.minor _ _ trivial) ?_
  rintro (_ | r)
  · trivial
  · refine (meets_syncSelectionLabel hduty.minor .given List.mem_cons_self rfl).bind_keeps ?_
    rintro r later - ⟨⟨k, hk, hread⟩, hlast⟩
    refine (keeps_reconcileRequest hduty hk hread hlast).tryCatch fun e _ _ => ?_
    show Keeps _ (if _ then _ else _ : Pass _) _
    split
    · exact (keeps_recordFailure hduty.minor.looks hduty.failure).bind fun _ _ _ => trivial
    · trivial

end

/-! ## A delivery -/

section

variable {duty : Duty} {d : Delivery} {providers : List Provider} {acts : List Act}
  {retry : RetryPolicy}

/-- Asking for secrets only looks. -/
theorem keeps_authenticated {provider : Provider} (hminor : AllowsMinor duty)
    (rs : List BuildRequest) : Keeps duty (d.authenticated provider rs) acts := by
  induction rs generalizing acts with
  | nil => trivial
  | cons r rest ih =>
    refine Keeps.bind ?_ fun accepted _ _ => ih.bind fun others _ _ => trivial
    unfold Delivery.authenticatedFor
    split
    · refine Keeps.bind ((keeps_adapt _ _).mpr ((keeps_call _).mpr fun _ => hminor _ _ trivial))
        fun data _ _ => ?_
      split <;> trivial
    · trivial

/-- Recording a push that may be recorded whenever the time was read. -/
theorem keeps_record {event : PushEvent} {r : BuildRequest} (hminor : AllowsMinor duty)
    (hpush : ∀ {later time}, .now time ∈ later →
      AllowsChange duty r.key later (event.changeOnCommit time)) :
    Keeps duty (Delivery.record retry event r) acts := by
  refine meets_now_bind (fun _ => hminor _ _ trivial) fun time => ?_
  have hmodify : Meets duty (BuildRequest.modifyStatus retry r.key (event.changeOnCommit time)) _ _
      (.now time :: acts) := meets_change hminor.looks fun h => hpush (h.mem List.mem_cons_self)
  exact Keeps.bind ((keeps_adapt _ _).mpr hmodify.keeps) fun _ _ _ => trivial

/-- What a provider says is what a delivery gets. -/
theorem ofProvider_eq_ok {α : Type} {result : Except ProviderError α} {a : α} :
    ofProvider result = .ok a ↔ result = .ok a := by
  cases result with
  | ok b => exact ⟨fun h => congrArg _ (Except.ok.inj h), fun h => congrArg _ (Except.ok.inj h)⟩
  | error e => exact ⟨nofun, nofun⟩

/-- **A delivery does its duty.** -/
theorem keeps_accept (hduty : AllowsDelivery duty d providers) :
    Keeps duty (d.accept retry providers) acts := by
  unfold Delivery.accept
  refine meets_monadLift_bind fun provider hdetected => meets_monadLift_bind fun event hparsed => ?_
  have hbrings : d.Brings providers provider event :=
    ⟨ofProvider_eq_ok.mp hdetected, ofProvider_eq_ok.mp hparsed⟩
  refine Keeps.bind ((keeps_adapt _ _).mpr ((keeps_call _).mpr fun _ => hduty.minor _ _ trivial))
    fun rs _ _ => ?_
  split
  · trivial
  · refine (keeps_authenticated hduty.minor _).bind fun accepted later _ => ?_
    -- the records are made one after the other, on the requests that were accepted
    have hrecord : ∀ (rs : List BuildRequest) acts,
        Keeps duty (rs.forM (Delivery.record retry event)) acts := by
      intro rs
      induction rs with
      | nil => exact fun _ => trivial
      | cons r rest ih =>
        exact fun acts => (keeps_record hduty.minor (hduty.push hbrings)).bind fun _ _ _ => ih _
    refine (hrecord accepted later).bind fun _ _ _ => ?_
    split <;> trivial

end

/-! ## Calls -/

/-- A call for one request: its trigger is evaluated, a pass is made over it, or a delivery is taken
in, which may be for others too. -/
inductive ControllerCall where
  | coordinate (policy : TriggerPolicy) (retry : RetryPolicy)
  | reconcile (settings : ControllerSettings)
  | accept (delivery : Delivery) (retry : RetryPolicy) (providers : List Provider)

namespace ControllerCall

/-- What the call returns. -/
abbrev Result : ControllerCall → Type
  | coordinate .. => Except BuildError TriggerOutcome
  | reconcile _ => Except BuildError ReconcileOutcome
  | accept .. => Except WebhookError Acceptance

/-- The windows that the call goes by.  A delivery goes by none, so nothing has to pass for it. -/
def policy : ControllerCall → TriggerPolicy
  | coordinate policy _ => policy
  | reconcile settings => settings.trigger
  | accept .. => ⟨⟨0⟩, ⟨0⟩⟩

/-- The program of the call. -/
def program (key : ObjectKey) : (c : ControllerCall) → Program c.Result
  | coordinate policy retry => (PushBuild.coordinate policy retry key).run
  | reconcile settings => (PushBuild.reconcile settings key).run
  | accept delivery retry providers => (delivery.accept retry providers).run

/-- **Every call does its duty.** -/
theorem obeys (c : ControllerCall) (key : ObjectKey) :
    (c.program key).Obeys (controllerDuty c.policy key) (fun _ _ => True) [] := by
  cases c with
  | coordinate policy retry =>
    exact Program.Obeys.mono (fun _ _ _ => trivial)
      (keeps_coordinate (allowsEvaluation_controllerDuty policy key) .given)
  | reconcile settings =>
    refine Program.Obeys.mono (fun _ _ _ => trivial) (keeps_reconcile ?_)
    exact allowsPass_controllerDuty settings.trigger key
  | accept delivery retry providers =>
    refine Program.Obeys.mono (fun _ _ _ => trivial) (keeps_accept ?_)
    exact allowsDelivery_controllerDuty _ key delivery providers

end ControllerCall

/-- The state of any number of calls for the request under `key`, before the first of them
starts. -/
def startCalls {ι : Type} (call : ι → ControllerCall) (key : ObjectKey) (store : MemoryStore)
    (now : Instant) : System ι fun i => (call i).Result :=
  System.start store now fun i => (call i).program key

/-- The state of any number of calls before the first of them starts.  An evaluation and a pass are
for a request of their own, a delivery is for all. -/
def startEach {ι : Type} (call : ι → ControllerCall) (keys : ι → ObjectKey) (store : MemoryStore)
    (now : Instant) : System ι fun i => (call i).Result :=
  System.start store now fun i => (call i).program (keys i)

end PushBuild
