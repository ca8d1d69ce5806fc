import PushBuild.Proofs.Interleaving.Schedule
import PushBuild.Proofs.OnCommit.Admission
import PushBuild.Proofs.Status.Linear

/-!
# How a push stops waiting

Evaluations, passes and deliveries for any number of requests are interleaved, with reads that may
be out of date and calls that may fail, while others change specifications and modes.  A push that
waits on one of the requests stops waiting in three ways only.

1. **The duty** (`pushDuty`).  Whatever it is answered, a call writes to a status it has just read,
   and says of pushes what it said before, or one of three things (`PushWrite`): a delivery records
   its own push, an evaluation or a pass records a start for the push that it read on the same
   request and found due, or pushes are given up.
2. **The request.**  A write that succeeds is made to the request as it is stored, even if the
   program read it long ago (`System.Versioned.written_to`), so what is said of pushes is said of
   those that wait then.
3. **The result** (`pending_push_leaves`).  A start takes away only the push that its evaluator
   itself read and found due, so a push that is recorded meanwhile still waits.
4. **Leap seconds.**  What an evaluator takes to be quiet for long enough has been so, if its clock
   did not show an instant in a leap second; in one a push can be taken too early
   (`fires_early_in_leap_second`).
-/

namespace PushBuild

open PushBuild.System

/-! ## What a write says of pushes -/

/-- What a status write of a call for `key` says of pushes, made to `r`, which was read under
`k`. -/
inductive PushWrite (c : ControllerCall) (key : ObjectKey) (acts : List Act) (k : ObjectKey)
    (r : BuildRequest) (status : BuildRequestStatus) : Prop
  | unrelated (hstate : status.onCommit = r.statusOrDefault.onCommit)
  | push {d : Delivery} {retry : RetryPolicy} {providers : List Provider} {provider : Provider}
      {event : PushEvent} {time : Instant} (hcall : c = .accept d retry providers)
      (hbrings : d.Brings providers provider event) (htime : .now time ∈ acts)
      (hmode : r.isOnCommit = true)
      (hstate : status.onCommit = some (r.statusOrDefault.trigger.recordPush event time))
  | fire (f : Firing) {time : Instant} (hkey : f.key = k) (hf : f.Recordable c.policy key time acts)
      (hstate : status.onCommit =
        some (r.statusOrDefault.trigger.applyFire f.push f.execution f.counter time))
  | retire {state : OnCommitStatus} (hmode : r.isOnCommit = false)
      (hstate : status.onCommit = state.retired)

/-- **The duty**: what is written is written to what was just read, and says this of pushes. -/
def pushDuty (c : ControllerCall) (key : ObjectKey) : Duty := fun acts act =>
  match act with
  | .updateRequestStatus request _ => ∃ k r status before,
    acts = .getRequest k (.ok (some r)) :: before ∧ request = r.restated status ∧
    PushWrite c key before k r status
  | _ => True

section

variable {c : ControllerCall} {key k : ObjectKey} {acts : List Act}

/-- Only status writes have a duty here, and what is minor is none, -/
theorem allowsMinor_pushDuty : AllowsMinor (pushDuty c key) := by
  intro acts act h
  cases act <;> first
    | exact h.elim
    | trivial

/-- and a status write does it if what it says of pushes is one of these things. -/
theorem allowsChange_pushDuty {change : StatusChange}
    (h : ∀ r status, change r r.statusOrDefault = some status → PushWrite c key acts k r status) :
    AllowsChange (pushDuty c key) k acts change :=
  fun r status _ hchange => ⟨k, r, status, acts, rfl, rfl, h r status hchange⟩

/-- An evaluation does the duty, -/
theorem allowsEvaluation_pushDuty : AllowsEvaluation (pushDuty c key) c.policy key where
  looks := allowsMinor_pushDuty.looks
  createForPush _ _ _ := trivial
  fire {_ f _} hf := allowsChange_pushDuty fun r status h => by
    obtain ⟨-, rfl⟩ := recordFire_eq_some h
    exact .fire f rfl hf rfl

/-- and so does a pass. -/
theorem allowsPass_pushDuty : AllowsPass (pushDuty c key) c.policy key where
  minor := allowsMinor_pushDuty
  correct _ _ := trivial
  createForSpec _ _ _ := trivial
  createForPush _ _ _ _ _ := trivial
  fire := allowsEvaluation_pushDuty.fire
  -- what a pass writes besides leaves the pushes alone
  build _ _ _ _ := allowsChange_pushDuty fun r status h => by
    obtain rfl := Option.some.inj h
    exact .unrelated rfl
  retire := allowsChange_pushDuty fun r status h => by
    obtain ⟨state, hmode, -, rfl⟩ := retirePushes_eq_some h
    exact .retire hmode rfl
  project _ _ _ _ := allowsChange_pushDuty fun r status h => by
    rw [eq_of_ofFunction h, projectedStatus_frame]
    exact .unrelated rfl
  failure _ := allowsChange_pushDuty fun r status h => by
    rw [eq_of_ofFunction h]
    exact .unrelated rfl

/-- A delivery does the duty. -/
theorem allowsDelivery_pushDuty {d : Delivery} {retry : RetryPolicy} {providers : List Provider} :
    AllowsDelivery (pushDuty (.accept d retry providers) key) d providers where
  minor := allowsMinor_pushDuty
  push hbrings htime := allowsChange_pushDuty fun r status h => by
    obtain ⟨hmode, rfl⟩ := changeOnCommit_eq_some h
    exact .push rfl hbrings htime hmode rfl

/-- **Every call does its duty** about pushes. -/
theorem ControllerCall.obeys_pushDuty (c : ControllerCall) (key : ObjectKey) :
    (c.program key).Obeys (pushDuty c key) (fun _ _ => True) [] := by
  cases c with
  | coordinate policy retry =>
    refine Program.Obeys.mono (fun _ _ _ => trivial) (keeps_coordinate ?_ .given)
    exact allowsEvaluation_pushDuty (c := .coordinate policy retry)
  | reconcile settings =>
    refine Program.Obeys.mono (fun _ _ _ => trivial) (keeps_reconcile ?_)
    exact allowsPass_pushDuty (c := .reconcile settings)
  | accept d retry providers =>
    exact Program.Obeys.mono (fun _ _ _ => trivial) (keeps_accept allowsDelivery_pushDuty)

end

/-! ## How a push stops waiting -/

/-- Among these acts, an evaluator read the request under `key` with the push `p` waiting, read the
time, and found the push due. -/
def DecidesToFire (policy : TriggerPolicy) (key : ObjectKey) (p : PushRecord) (decided : Instant)
    (acts : List Act) : Prop :=
  ∃ r before, .now decided :: .getRequest key (.ok (some r)) :: before <:+ acts ∧
    r.statusOrDefault.pending? = some p ∧
    evaluate r.statusOrDefault.onCommit policy decided = .fire p

/-- How the push `p`, which waits on `r`, may no longer do so on `r'`, which a call for `k` wrote
after `acts`. -/
inductive Leaves (c : ControllerCall) (k key : ObjectKey) (acts : List Act) (p : PushRecord)
    (r r' : BuildRequest) : Prop
  /-- a delivery put its push in the place of `p`, on a request that pushes build -/
  | replaced {d : Delivery} {retry : RetryPolicy} {providers : List Provider} {provider : Provider}
      {event : PushEvent} {time : Instant} (hcall : c = .accept d retry providers)
      (hbrings : d.Brings providers provider event) (htime : .now time ∈ acts)
      (hmode : r.isOnCommit = true)
      (hpending : r'.statusOrDefault.pending? = some ⟨event.ref, event.commit, time⟩)
      (hlast : r'.statusOrDefault.trigger.lastReceived = some ⟨event.ref, event.commit, time⟩)
  /-- an execution was recorded as started for `p` by an evaluator that had itself read `p` on this
  request and found it due, after it had been quiet for as long as the policy says.  It is the
  execution with the number after those that the request it read had counted, which it created or
  found there, and the time is the one that it was told next -/
  | fired (request : BuildRequest) {decided time : Instant} (hkey : k = key)
      (hdecides : DecidesToFire c.policy key p decided acts)
      (hstarted : (Firing.mk key request p).Recordable c.policy k time acts)
      (hquiet : decided.IsPlain → ∀ quiet, p.receivedAt.plus? c.policy.debounce = some quiet →
        quiet ≤ decided)
      (hpending : r'.statusOrDefault.pending? = none)
      (hlast : r'.statusOrDefault.lastTriggered? =
        some ⟨onCommitExecutionName key.name (request.statusOrDefault.triggerCounter + 1), time⟩)
  /-- pushes were given up on a request that they do not build -/
  | retired (hmode : r.isOnCommit = false) (hpending : r'.statusOrDefault.pending? = none)

section

variable {c : ControllerCall} {k key : ObjectKey} {acts later : List Act} {p : PushRecord}
  {r r' : BuildRequest}

/-- What was decided stays decided, -/
theorem DecidesToFire.mono {policy : TriggerPolicy} {decided : Instant}
    (h : DecidesToFire policy key p decided acts) (hacts : acts <:+ later) :
    DecidesToFire policy key p decided later := by
  obtain ⟨r, before, hread, hwaits, hdue⟩ := h
  exact ⟨r, before, hread.trans hacts, hwaits, hdue⟩

/-- and why a push left does not change while the program goes on. -/
theorem Leaves.mono (h : Leaves c k key acts p r r') (hacts : acts <:+ later) :
    Leaves c k key later p r r' := by
  cases h with
  | replaced hcall hbrings htime hmode hpending hlast =>
    exact .replaced hcall hbrings (hacts.mem htime) hmode hpending hlast
  | fired request hkey hdecides hstarted hquiet hpending hlast =>
    exact .fired request hkey (hdecides.mono hacts) (hstarted.mono hacts) hquiet hpending hlast
  | retired hmode hpending => exact .retired hmode hpending

/-- A start that may be recorded was decided on by an evaluator that read the push. -/
theorem Firing.Recordable.decided {policy : TriggerPolicy} {f : Firing} {time : Instant}
    (h : f.Recordable policy key time acts) :
    Known key acts f.key ∧ ∃ decided, DecidesToFire policy f.key f.push decided acts := by
  obtain ⟨e, admitted, started, hadmitted, -, hstarted, htime⟩ := h
  have hacts : admitted <:+ acts :=
    (hstarted.suffix.trans (List.suffix_cons _ _)).trans htime
  obtain ⟨decided, before, hdue, hexamined⟩ := hadmitted.due
  refine ⟨hadmitted.known.mono hacts, decided, f.request, before,
    hexamined.suffix.trans hacts, ?_, hdue⟩
  exact pending_of_fire hdue

/-- **What a status write takes away.**  A push that waits on the request that is written to, and
waits no longer, left in one of the three ways.  A start takes a push away only if it is the one
started, so the push that left is the one that was decided on. -/
theorem PushWrite.leaves {status : BuildRequestStatus} (h : PushWrite c k acts key r status)
    (hknown : ∀ {k'}, Known k acts k' → k' = k) {n : Nat}
    (hp : r.statusOrDefault.pending? = some p) (hleft : status.pending? ≠ some p) :
    Leaves c k key acts p r ((r.restated status).withVersion n) := by
  have hwritten : ((r.restated status).withVersion n).statusOrDefault = status := rfl
  rw [BuildRequestStatus.pending?_eq] at hp hleft
  cases h with
  | unrelated hstate =>
    rw [BuildRequestStatus.trigger, hstate] at hleft
    exact absurd hp hleft
  | push hcall hbrings htime hmode hstate =>
    refine .replaced hcall hbrings htime hmode ?_ ?_
    · rw [hwritten, BuildRequestStatus.pending?_eq, BuildRequestStatus.trigger_of_some hstate]
      rfl
    · rw [hwritten, BuildRequestStatus.trigger_of_some hstate]
      rfl
  | @fire f time hkey hf hstate =>
    obtain ⟨hk, decided, hdecides⟩ := hf.decided
    obtain ⟨own, request, push⟩ := f
    obtain rfl : own = key := hkey
    have hown : own = k := hknown hk
    -- the start takes away the push that it is for, and no other
    obtain rfl : push = p := by
      by_contra hother
      rw [BuildRequestStatus.trigger_of_some hstate, OnCommitStatus.applyFire, if_neg] at hleft
      · exact hleft hp
      · rw [hp]
        exact fun heq => hother (Option.some.inj heq).symm
    have hquiet : decided.IsPlain → ∀ quiet, push.receivedAt.plus? c.policy.debounce = some quiet →
        quiet ≤ decided := by
      obtain ⟨_, _, _, _, hdue⟩ := hdecides
      exact fun hplain _ hplus => quiet_of_fire hdue hplain hplus
    refine .fired request hown.symm hdecides hf hquiet ?_ ?_
    · rw [hwritten, BuildRequestStatus.pending?_eq, BuildRequestStatus.trigger_of_some hstate,
        OnCommitStatus.applyFire, if_pos hp]
    · rw [hwritten, BuildRequestStatus.lastTriggered?_eq, BuildRequestStatus.trigger_of_some hstate]
      rfl
  | retire hmode hstate =>
    refine .retired hmode ?_
    rw [hwritten, BuildRequestStatus.pending?_eq, BuildRequestStatus.trigger, hstate,
      OnCommitStatus.retired]
    split <;> rfl

end

section

variable {ι : Type} [DecidableEq ι] {call : ι → ControllerCall} {keys : ι → ObjectKey}
  {key : ObjectKey} {store : MemoryStore} {now : Instant} {s : System ι fun i => (call i).Result}

/-- **A push stops waiting for a reason.**  Whatever the order of evaluations, passes and
deliveries, each evaluation and each pass for a request of its own, whatever others do meanwhile but
put another request in the place of this one, and whichever calls fail or are answered with what was
stored earlier: an event after which a push no longer waits is a status write of a call; and the
call is a delivery that put its push in its place, or an evaluation or a pass that had read the
push, found it due and recorded a start for it, or pushes did not build the request.  So a push
still waits after a start was recorded by an evaluator that decided on another one. -/
theorem pending_push_leaves (hmade : store.Made)
    (hrun : Reaches (othersKeep key) (startEach call keys store now) s) {e : Event ι}
    {later earlier : List (Event ι)} (hlog : s.log = later ++ e :: earlier) {r r' : BuildRequest}
    (hr : e.before.requests.get? key = some r) (hr' : e.after.requests.get? key = some r')
    {p : PushRecord} (hp : r.statusOrDefault.pending? = some p) :
    (r'.statusOrDefault.pending? ≠ some p → ∃ i request,
      e.cause = .act i (.updateRequestStatus request (.ok r')) ∧
        Leaves (call i) (keys i) key (actsOf i earlier) p r r') ∧
    ∀ i act, e.cause = .act i act → r.isOnCommit = true →
      (∀ d retry providers, call i ≠ .accept d retry providers) →
      (∀ decided, ¬ DecidesToFire (call i).policy key p decided (actsOf i earlier)) →
      r'.statusOrDefault.pending? = some p := by
  have hleaves : r'.statusOrDefault.pending? ≠ some p → ∃ i request,
      e.cause = .act i (.updateRequestStatus request (.ok r')) ∧
        Leaves (call i) (keys i) key (actsOf i earlier) p r r' := by
    intro hleft
    have hobeys : (startEach call keys store now).Obeys (fun i => pushDuty (call i) (keys i))
        fun _ _ _ => True := fun i => (call i).obeys_pushDuty (keys i)
    obtain ⟨s₁, h₁⟩ := hrun.moment hobeys rfl hlog
    obtain ⟨hversioned, hinformed⟩ := h₁.reaches.versioned hmade
    have hchanged : r'.statusOrDefault ≠ r.statusOrDefault := fun hsame => hleft (hsame ▸ hp)
    obtain ⟨i, request, n, hcause, hkey, rfl, hanswer, k, r₀, status, before, hacts, rfl, hwrite⟩ :=
      h₁.status_written (fun _ h => h) hr hr' hchanged
    rw [← h₁.store_eq] at hr
    have hread : .getRequest k (.ok (some r₀)) ∈ s₁.acts i := by
      rw [hacts]
      exact List.mem_cons_self
    -- what was read is what is stored, for otherwise the version would have stood in the way
    obtain ⟨rfl, rfl⟩ := hversioned.written_to hinformed hr hread hkey hanswer
    have hbefore : before <:+ s₁.acts i := hacts ▸ List.suffix_cons _ _
    have hknown : ∀ {k'}, Known (keys i) before k' → k' = keys i := fun hk =>
      Known.eq_key hversioned hinformed (hk.mono hbefore)
    have hacts' : actsOf i earlier = .getRequest k (.ok (some r₀)) :: before := by
      rw [← hacts, System.acts, h₁.log_eq]
    refine ⟨i, _, hcause, ?_⟩
    rw [hacts']
    exact (hwrite.leaves hknown hp hleft).mono (List.suffix_cons _ _)
  refine ⟨hleaves, fun i act hcause hmode hevaluator hother => ?_⟩
  -- none of the three ways is left to this call
  by_contra hleft
  obtain ⟨j, request, hcause', hway⟩ := hleaves hleft
  obtain ⟨rfl, -⟩ := Cause.act.inj (hcause'.symm.trans hcause)
  cases hway with
  | replaced hcall _ _ _ _ _ => exact hevaluator _ _ _ hcall
  | fired _ _ hdecides _ _ _ _ => exact hother _ hdecides
  | retired hmode' _ => exact absurd (hmode.symm.trans hmode') (by decide)

end

/-! ## Runs -/

/-- A push has to be quiet for one second. -/
def oneSecondQuiet : TriggerPolicy := ⟨⟨1000⟩, ⟨0⟩⟩

/-- Pushes and evaluations for one request, before the first of them starts. -/
def quietStart (now : Instant) : System Caller fun i => (appCalls oneSecondQuiet i).Result :=
  startEach (appCalls oneSecondQuiet) (fun _ => appKey) appStore now

/-- A push comes in, and at the second instant an evaluation decides on it, creates the execution
and records the start. -/
def startAfter (second : Instant) : List (Choice Caller) :=
  List.replicate 5 (.serve .push) ++ [.tick second] ++ List.replicate 6 (.serve .evaluation)

/-- The state just after the start was recorded. -/
def recordedAt (first second : Instant) :
    System Caller fun i => (appCalls oneSecondQuiet i).Result :=
  (quietStart first).play (startAfter second)

/-- The last event took away the push `p` that waited on `r`. -/
def TakenLast (s : System Caller fun i => (appCalls oneSecondQuiet i).Result) (e : Event Caller)
    (r r' : BuildRequest) (p : PushRecord) : Prop :=
  s.log.head? = some e ∧ e.before.requests.get? appKey = some r ∧
    e.after.requests.get? appKey = some r' ∧ r.statusOrDefault.pending? = some p ∧
    r'.statusOrDefault.pending? = none

/-- A push that came in four seconds before left for one of the reasons. -/
theorem pending_push_leaves_recorded : ∃ e earlier r r' p,
    (recordedAt (secondsIn 1) (secondsIn 5)).log = e :: earlier ∧
    TakenLast (recordedAt (secondsIn 1) (secondsIn 5)) e r r' p ∧ ∃ i request,
      e.cause = .act i (.updateRequestStatus request (.ok r')) ∧
        Leaves (appCalls oneSecondQuiet i) appKey appKey (actsOf i earlier) p r r' := by
  -- the run is computed once, for all that has to be decided about it
  obtain ⟨hpermits, e, hlast, r, hr, r', hr', p, hp, hgone⟩ :
      Permits (othersKeep appKey) (quietStart (secondsIn 1)) (startAfter (secondsIn 5)) ∧
      ∃ e ∈ (recordedAt (secondsIn 1) (secondsIn 5)).log.head?,
        ∃ r ∈ e.before.requests.get? appKey, ∃ r' ∈ e.after.requests.get? appKey,
          ∃ p ∈ r.statusOrDefault.pending?, r'.statusOrDefault.pending? = none := by
    decide +kernel
  obtain ⟨earlier, hlog⟩ := List.head?_eq_some_iff.mp hlast
  have hleft : r'.statusOrDefault.pending? ≠ some p := by
    rw [hgone]
    exact nofun
  have hrun := reaches_play (startAfter (secondsIn 5)) hpermits
  obtain ⟨i, request, hcause, hway⟩ :=
    (pending_push_leaves appStore_inserted.made hrun (hlog.trans (List.nil_append _).symm)
      hr hr' hp).1
      hleft
  exact ⟨e, earlier, r, r', p, hlog, ⟨hlast, hr, hr', hp, hgone⟩, i, request, hcause, hway⟩

/-- The time that the clock told, if the act read it. -/
def Act.time? : Act → Option Instant
  | .now time => some time
  | _ => none

/-- The clock told of no time from `quiet` on. -/
def ToldBefore (quiet : Instant) (acts : List Act) : Prop :=
  ∀ act ∈ acts, ∀ time ∈ act.time?, ¬ quiet ≤ time

instance (quiet : Instant) (acts : List Act) : Decidable (ToldBefore quiet acts) :=
  inferInstanceAs (Decidable (∀ act ∈ acts, ∀ time ∈ act.time?, ¬ quiet ≤ time))

/-- In a leap second a push can be taken before it has been quiet for as long as the policy says: a
tenth of a second after the push came in it is gone, on a request that pushes build, by the write of
an evaluation that was told of no time at which the second was over. -/
theorem fires_early_in_leap_second :
    ∃ s, Reaches (othersKeep appKey) (quietStart (leapTenth 2)) s ∧
      ∃ e earlier r r' p quiet, s.log = e :: earlier ∧ TakenLast s e r r' p ∧
        e.actor? = some .evaluation ∧ r.isOnCommit = true ∧
        p.receivedAt.plus? oneSecondQuiet.debounce = some quiet ∧
        ToldBefore quiet (actsOf .evaluation earlier) := by
  let s := recordedAt (leapTenth 2) (leapTenth 3)
  obtain ⟨hpermits, e, hlast, hactor, r, hr, hmode, r', hr', p, hp, hgone, quiet, hquiet, htold⟩ :
      Permits (othersKeep appKey) (quietStart (leapTenth 2)) (startAfter (leapTenth 3)) ∧
      ∃ e ∈ s.log.head?, e.actor? = some .evaluation ∧
        ∃ r ∈ e.before.requests.get? appKey, r.isOnCommit = true ∧
        ∃ r' ∈ e.after.requests.get? appKey, ∃ p ∈ r.statusOrDefault.pending?,
          r'.statusOrDefault.pending? = none ∧
          ∃ quiet ∈ p.receivedAt.plus? oneSecondQuiet.debounce,
            ToldBefore quiet (actsOf .evaluation s.log.tail) := by
    -- the run is computed, and with it everything that is said of it
    decide +kernel
  obtain ⟨earlier, hlog⟩ := List.head?_eq_some_iff.mp hlast
  refine ⟨s, reaches_play _ hpermits, e, earlier, r, r', p, quiet, hlog,
    ⟨hlast, hr, hr', hp, hgone⟩, hactor, hmode, hquiet, ?_⟩
  rw [hlog, List.tail_cons] at htold
  exact htold

end PushBuild
