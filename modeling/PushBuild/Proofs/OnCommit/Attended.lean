import PushBuild.Proofs.OnCommit.Admission
import PushBuild.Proofs.OnCommit.Report

/-!
# Pushes that an evaluation leaves waiting

An evaluation of the trigger ends, and on the request as it last saw it a push waits.  Somebody has
to come back to that push.  Mostly somebody does: the evaluation asks to be repeated when a window
has passed, or it saw an execution run whose end will bring the controller back, or it started one.

1. **What was seen last** (`lastSeen?`, `lastTime?`).
2. **One evaluation** (`Coordinated.attended`).  A push that waits is told for how long, or it is
   due, so each way in which an evaluation may end leaves it in one of four ways (`Attended`).
3. **The result** (`pending_push_attended`).  It holds of every evaluation, whatever other
   evaluations, passes, deliveries and edits there are, in whatever order, and from whatever store.
4. **The fourth way.**  An evaluation whose start came too late looks at the request again, as
   others left it.  If a push is due there and the execution started last has ended, it reports that
   there is nothing to do, and nobody comes back (`due_push_left_idle`).
-/

namespace PushBuild

open PushBuild.System

/-! ## What was seen last -/

/-- The request as it was read or written last, if it was there. -/
def lastSeen? : List Act → Option BuildRequest
  | [] => none
  | .getRequest _ (.ok found) :: _ => found
  | .updateRequestStatus _ (.ok written) :: _ => some written
  | _ :: acts => lastSeen? acts

/-- The time that was told last. -/
def lastTime? : List Act → Option Instant
  | [] => none
  | .now time :: _ => some time
  | _ :: acts => lastTime? acts

/-- Whoever looks at an execution still has the same request before him, -/
theorem Examined.lastSeen {r : BuildRequest} {state : Option OnCommitStatus} {acts later : List Act}
    (h : Examined r state acts later) : lastSeen? later = lastSeen? acts := by
  cases h <;> rfl

/-- be it found running or not. -/
theorem FoundRunning.lastSeen {r : BuildRequest} {state : Option OnCommitStatus} {name : String}
    {acts later : List Act} (h : FoundRunning r state name acts later) :
    lastSeen? later = lastSeen? acts := by
  cases h
  rfl

/-! ## One evaluation -/

/-- A push that waits is told for how long, or it is due. -/
theorem evaluate_of_pending {state : Option OnCommitStatus} {p : PushRecord}
    (hpending : state.bind (·.pending) = some p) (policy : TriggerPolicy) (now : Instant) :
    (∃ wait, (evaluate state policy now).requeueAfter = some wait) ∨
      evaluate state policy now = .fire p := by
  unfold evaluate
  simp only [hpending]
  split
  · next wait _ => exact Or.inl ⟨wait, rfl⟩
  · split
    · next wait _ => exact Or.inl ⟨wait, rfl⟩
    · exact Or.inr rfl

/-- How an evaluation leaves the push `p`, which waits on `r`. -/
inductive Attended (policy : TriggerPolicy) (key : ObjectKey) (r : BuildRequest) (p : PushRecord)
    (acts : List Act) : TriggerOutcome → Prop
  /-- the push has to wait, and the evaluation asks to be repeated then -/
  | requeued {time : Instant} {wait : Duration} {outcome : TriggerOutcome}
      (htime : lastTime? acts = some time)
      (hwait : (evaluate r.statusOrDefault.onCommit policy time).requeueAfter = some wait)
      (hrequeue : outcome.requeueAfter = some wait) : Attended policy key r p acts outcome
  /-- the execution started last was found running, just before the evaluation ended -/
  | running {name : String} {before : List Act}
      (h : FoundRunning r r.statusOrDefault.onCommit name before acts) :
      Attended policy key r p acts (.active name)
  /-- the push is due, and the evaluation has just started an execution for another one -/
  | started {f : Firing} {recorded time : Instant} (hf : f.Recorded policy key recorded acts)
      (hlast : r.statusOrDefault.lastTriggered? = some ⟨f.execution, recorded⟩)
      (htime : lastTime? acts = some time)
      (hdue : evaluate r.statusOrDefault.onCommit policy time = .fire p) :
      Attended policy key r p acts (.fired f.execution none)
  /-- the push is due and nothing runs, but another evaluation was faster with what this one had to
  record -/
  | overtaken {f : Firing} {recorded time : Instant} {read examined : List Act}
      (hf : f.Recordable policy key recorded read)
      (hlate : r.statusOrDefault.trigger.supersedes f.counter f.execution = true)
      (hexamined : Examined r r.statusOrDefault.onCommit (.getRequest key (.ok (some r)) :: read)
        examined)
      (hacts : acts = .now time :: examined)
      (hdue : evaluate r.statusOrDefault.onCommit policy time = .fire p) :
      Attended policy key r p acts .idle

section

variable {policy : TriggerPolicy} {key : ObjectKey} {r : BuildRequest} {p : PushRecord}
  {acts : List Act} {outcome : TriggerOutcome}

/-- **An evaluation leaves a push that waits in one of four ways**, so long as it was told of its
writes what it had written. -/
theorem Coordinated.attended (h : Coordinated policy key key [] outcome acts)
    (hwritten : ∀ request written, .updateRequestStatus request (.ok written) ∈ acts →
      written.status = request.status)
    (hseen : lastSeen? acts = some r) (hmode : r.isOnCommit = true)
    (hpending : r.statusOrDefault.pending? = some p) : Attended policy key r p acts outcome := by
  have hevaluate := evaluate_of_pending hpending policy
  cases h with
  | missing => cases hseen
  | unasked hmode' =>
    -- a request that pushes do not build has no push that waits for them
    obtain rfl := Option.some.inj hseen
    cases hmode.symm.trans hmode'
  | nothing hdecision =>
    obtain rfl := Option.some.inj hseen
    -- nothing was decided, though a push waits: this is not how decisions are
    rcases hevaluate _ with ⟨wait, hwait⟩ | hdue
    · rw [hdecision] at hwait
      cases hwait
    · cases hdecision.symm.trans hdue
  | waits hwait =>
    obtain rfl := Option.some.inj hseen
    exact .requeued rfl hwait rfl
  | active hruns =>
    obtain rfl := Option.some.inj (hruns.lastSeen.symm.trans hseen)
    exact .running hruns
  | gone hf => cases hseen
  -- the start came too late: what remains is how the evaluation went on from the fresh request
  | late hf hlate h =>
    cases h with
    | fired hlast => exact absurd hlast (recordFire_eq_none hlate)
    | active _ hruns =>
      obtain rfl := Option.some.inj (hruns.lastSeen.symm.trans hseen)
      exact .running hruns
    | waits _ hexamined hwait =>
      obtain rfl := Option.some.inj (hexamined.lastSeen.symm.trans hseen)
      exact .requeued rfl hwait rfl
    | rests _ hexamined hrests =>
      obtain rfl := Option.some.inj (hexamined.lastSeen.symm.trans hseen)
      -- the evaluation went by a wait that was not there, and so the push is due
      refine .overtaken hf (supersedes_of_recordFire hlate) hexamined rfl ?_
      rcases hevaluate _ with ⟨wait, hwait⟩ | hdue
      · cases hrests.symm.trans hwait
      · exact hdue
  | @recorded f time _ written _ _ _ _ hkey hf hchange h =>
    subst hkey
    have hrecorded : f.Recorded policy f.key time acts := ⟨_, _, _, _, hf, hchange, h.suffix⟩
    -- the request came back with the start on it, so the start is what is reported
    have hstatus : written.status = some _ := hwritten _ _ (h.suffix.mem List.mem_cons_self)
    have hlast : written.statusOrDefault.lastTriggered? = some ⟨f.execution, time⟩ := by
      rw [BuildRequest.statusOrDefault, hstatus]
      exact recordFire_last hchange
    cases h with
    | @fired told _ =>
      obtain rfl := Option.some.inj hseen
      rcases hevaluate told with ⟨wait, hwait⟩ | hdue
      · exact .requeued rfl hwait hwait
      · rw [hdue]
        exact .started hrecorded hlast rfl hdue
    | active hother _ | waits hother _ _ | rests hother _ _ =>
      exact absurd (congrArg (Option.map (·.name)) hlast) hother

end

/-! ## The result -/

/-- A write that succeeded was answered with the status that was written.  This is what the stored
requests are used for here; where they come from does not matter, so the surroundings may be any. -/
theorem System.Reaches.written_status {ι : Type} [DecidableEq ι] {ρ : ι → Type} {w : Surroundings}
    {s₀ s : System ι ρ} (hrun : Reaches w s₀ s) (hstart : s₀.log = []) {i : ι}
    {request written : BuildRequest} (h : .updateRequestStatus request (.ok written) ∈ s.acts i) :
    written.status = request.status := by
  refine hrun.invariant (J := fun s => ∀ i (request written : BuildRequest),
    .updateRequestStatus request (.ok written) ∈ s.acts i → written.status = request.status)
    ?_ ?_ (fun _ _ hold _ => hold) (fun _ _ hold => hold) i request written h
  · intro i request written h
    rw [System.acts, hstart] at h
    cases h
  · intro s j act rest t hold hanswer i request written h
    rcases mem_acts_acted h with rfl | h
    · obtain ⟨stored, -, -, rfl, -⟩ := hanswer.requestEffect
      rfl
    · exact hold i request written h

section

variable {ι : Type} [DecidableEq ι] {call : ι → ControllerCall} {keys : ι → ObjectKey}
  {store : MemoryStore} {now : Instant} {w : Surroundings} {s : System ι fun i => (call i).Result}

/-- **A push that waits is attended to, unless the evaluation was overtaken.**  An evaluation has
returned, and on the request as it read or wrote it last, which pushes build, a push waits.  Then
the evaluation asks to be repeated when a window has passed that the push has to wait for; or it
found the execution started last running, just before; or it has just started an execution for
another push, and this one is due already; or its start came too late, the push is due, and the
execution started last was missing or had ended.  Only then does it report that there is nothing to
do. -/
theorem pending_push_attended (hrun : Reaches w (startEach call keys store now) s) {i : ι}
    {outcome : TriggerOutcome} (hreturned : Returned s i outcome) {r : BuildRequest}
    {p : PushRecord} (hseen : lastSeen? (s.acts i) = some r) (hmode : r.isOnCommit = true)
    (hpending : r.statusOrDefault.pending? = some p) :
    Attended (call i).policy (keys i) r p (s.acts i) outcome :=
  (hreturned.coordinated hrun).attended (fun _ _ h => hrun.written_status rfl h) hseen
    hmode hpending

end

/-! ## Runs -/

/-- A push comes in and an evaluation starts an execution; the next push comes in, and thirty
seconds later another evaluation finds the execution still running. -/
def heldBackChoices : List (Choice Caller) :=
  List.flatten [List.replicate 5 (.serve .push), [.tick (secondsIn 11)],
    List.replicate 7 (.serve .evaluation), List.replicate 5 (.serve .laterPush),
    [.tick (secondsIn 41)], List.replicate 3 (.serve .laterEvaluation)]

/-- The state in which the second push waits for the execution to end. -/
def heldBack : System Caller fun i => (appCalls {} i).Result := (appStart {}).play heldBackChoices

/-- The push that waits for an execution to end is attended to. -/
theorem pending_push_attended_running : ∃ r p,
    lastSeen? (heldBack.acts .laterEvaluation) = some r ∧ r.statusOrDefault.pending? = some p ∧
      Returned heldBack .laterEvaluation (.active (onCommitExecutionName "app" 1)) ∧
      Attended {} appKey r p (heldBack.acts .laterEvaluation)
        (.active (onCommitExecutionName "app" 1)) := by
  obtain ⟨hpermits, hreturned, r, hseen, hmode, hwaits⟩ :
      Permits (othersLeave appKey "uid-1") (appStart {}) heldBackChoices ∧
      Returned heldBack .laterEvaluation (.active (onCommitExecutionName "app" 1)) ∧
      ∃ r ∈ lastSeen? (heldBack.acts .laterEvaluation), r.isOnCommit = true ∧
        r.statusOrDefault.pending?.isSome := by
    decide +kernel
  obtain ⟨p, hpending⟩ := Option.isSome_iff_exists.mp hwaits
  have hrun : Reaches (othersLeave appKey "uid-1")
      (startEach (appCalls {}) (fun _ => appKey) appStore (secondsIn 1)) heldBack :=
    reaches_play heldBackChoices hpermits
  exact ⟨r, p, hseen, hpending, hreturned,
    pending_push_attended hrun hreturned hseen hmode hpending⟩

/-- Who calls in a rush: pushes are delivered, and the trigger is evaluated. -/
inductive RushCaller where
  | push (n : Nat)
  | evaluation (n : Nat)
deriving DecidableEq

/-- The calls of a rush. -/
def rushCalls : RushCaller → ControllerCall
  | .push _ => .accept appDelivery {} Provider.all
  | .evaluation _ => .coordinate {} {}

/-- The calls of a rush before the first of them starts. -/
def rushStart : System RushCaller fun i => (rushCalls i).Result :=
  startEach rushCalls (fun _ => appKey) appStore (secondsIn 1)

/-- A push comes in and an evaluation finds it due.  Before it goes on, two others start an
execution each, for this push and for the next, both executions end, and a third push comes in.
When that push is due the first evaluation goes on to its end. -/
def rush : List (Choice RushCaller) :=
  List.flatten [List.replicate 5 (.serve (.push 0)), [.tick (secondsIn 11)],
    List.replicate 2 (.serve (.evaluation 0)), List.replicate 7 (.serve (.evaluation 1)),
    [.deed (.report (pushPlace appKey 1) succeededReport)],
    List.replicate 5 (.serve (.push 1)), [.tick (secondsIn 41)],
    List.replicate 8 (.serve (.evaluation 2)),
    [.deed (.report (pushPlace appKey 2) succeededReport)],
    List.replicate 5 (.serve (.push 2)), [.tick (secondsIn 71)],
    List.replicate 6 (.serve (.evaluation 0))]

/-- The act found an execution that has not ended. -/
def Act.findsRunning : Act → Bool
  | .getExecution _ (.ok (some x)) => !x.outcome.isTerminal
  | _ => false

/-- An evaluation reports that there is nothing to do, and asks for nothing, while on the request as
it read it last, which is how it stands, a push is due; and it found no execution running. -/
theorem due_push_left_idle :
    ∃ s, Reaches (othersLeave appKey "uid-1") rushStart s ∧ Returned s (.evaluation 0) .idle ∧
      (∀ act ∈ s.acts (.evaluation 0), act.findsRunning = false) ∧
      ∃ r ∈ lastSeen? (s.acts (.evaluation 0)), s.store.requests.get? appKey = some r ∧
        r.isOnCommit = true ∧ ∃ p ∈ r.statusOrDefault.pending?,
          evaluate r.statusOrDefault.onCommit {} s.now = .fire p := by
  obtain ⟨hpermits, hidle⟩ :
      Permits (othersLeave appKey "uid-1") rushStart rush ∧
      Returned (rushStart.play rush) (.evaluation 0) .idle ∧
      (∀ act ∈ (rushStart.play rush).acts (.evaluation 0), act.findsRunning = false) ∧
      ∃ r ∈ lastSeen? ((rushStart.play rush).acts (.evaluation 0)),
        (rushStart.play rush).store.requests.get? appKey = some r ∧
        r.isOnCommit = true ∧ ∃ p ∈ r.statusOrDefault.pending?,
          evaluate r.statusOrDefault.onCommit {} (rushStart.play rush).now = .fire p := by
    decide +kernel
  exact ⟨_, reaches_play rush hpermits, hidle⟩

end PushBuild
