import PushBuild.Proofs.OnCommit.Recording

/-!
# Who reports a start

Two evaluators that read a request before either of them recorded a start compute the same number.
One of them creates the execution, and the other one finds it.  Then both record it: what the first
one recorded bears the name that the second one is about to record, so it does not stand in the way.

1. **Reports.**  An evaluation ends in one of few ways (`Returned.coordinated`).  One that reports a
   start has recorded it (`Reported.recorded`, `Firing.Recorded.exists_event`), and it had created
   the execution or found it (`Firing.Recordable.created_or_adopted`).
2. **Creations.**  Of several that report one execution, one at most created it
   (`adopted_of_recordable`).
3. **Records.**  The execution that is recorded as started last changes only when a later one is
   recorded or pushes are given up, or when an evaluator that computed the same number records it
   again (`record_changed`).
4. **The other case.**  It happens: one execution is reported by two evaluations, and the time of
   its start is overwritten (`start_reported_twice`).
-/

namespace PushBuild

open PushBuild.System

/-! ## Reports -/

namespace ControllerCall

/-- The call is an evaluation of the trigger, and returned this outcome. -/
def Returns : (c : ControllerCall) → c.Result → TriggerOutcome → Prop
  | coordinate .., .ok outcome, o => outcome = o
  | _, _, _ => False

instance Returns.decidable : (c : ControllerCall) → (result : c.Result) → (o : TriggerOutcome) →
    Decidable (c.Returns result o)
  | coordinate .., .ok outcome, o => inferInstanceAs (Decidable (outcome = o))
  | coordinate .., .error _, _ | reconcile _, _, _ | accept .., _, _ => .isFalse nofun

/-- The call returned that it started the execution of this name for a push. -/
def Reports : (c : ControllerCall) → c.Result → String → Prop
  | coordinate .., .ok (.fired execution _), name => execution = name
  | _, _, _ => False

instance Reports.decidable : (c : ControllerCall) → (result : c.Result) → (name : String) →
    Decidable (c.Reports result name)
  | coordinate .., .ok (.fired execution _), name => inferInstanceAs (Decidable (execution = name))
  | coordinate .., .ok .idle, _ | coordinate .., .ok (.deferred _), _
  | coordinate .., .ok (.active _), _ | coordinate .., .error _, _ => .isFalse nofun
  | reconcile _, _, _ | accept .., _, _ => .isFalse nofun

/-- Who reports a start has returned one. -/
theorem Reports.returns {c : ControllerCall} {result : c.Result} {name : String}
    (h : c.Reports result name) : ∃ requeueAfter, c.Returns result (.fired name requeueAfter) := by
  cases c with
  | coordinate policy retry =>
    rcases result with e | outcome
    · exact h.elim
    · cases outcome with
      | fired execution requeueAfter =>
        obtain rfl : execution = name := h
        exact ⟨requeueAfter, rfl⟩
      | _ => exact h.elim
  | reconcile settings => exact h.elim
  | accept delivery retry providers => exact h.elim

/-- Every call does its duty, and an evaluation ends in one of the ways it may end. -/
theorem obeys_returns (c : ControllerCall) (key : ObjectKey) :
    (c.program key).Obeys (controllerDuty c.policy key)
      (fun result acts => ∀ outcome, c.Returns result outcome →
        Coordinated c.policy key key [] outcome acts) [] := by
  cases c with
  | coordinate policy retry =>
    refine Program.Obeys.mono ?_
      (meets_coordinate (allowsEvaluation_controllerDuty policy key) .given)
    rintro (e | outcome) acts hend o hreturns
    · exact hreturns.elim
    · obtain rfl : outcome = o := hreturns
      exact hend
  -- a pass and a delivery return no such outcome
  | reconcile settings =>
    exact ((reconcile settings).obeys key).mono fun _ _ _ _ hreturns => hreturns.elim
  | accept delivery retry providers =>
    exact ((accept delivery retry providers).obeys key).mono fun _ _ _ _ hreturns => hreturns.elim

end ControllerCall

section

variable {ι : Type} [DecidableEq ι] {call : ι → ControllerCall} {key : ObjectKey} {uid : String}
  {store : MemoryStore} {now : Instant} {s : System ι fun i => (call i).Result}

/-- Call `i` has ended and reports that it started the execution of this name. -/
def Reported (s : System ι fun i => (call i).Result) (i : ι) (name : String) : Prop :=
  ∃ result ∈ s.result? i, (call i).Reports result name

instance (s : System ι fun i => (call i).Result) (i : ι) (name : String) :
    Decidable (Reported s i name) :=
  inferInstanceAs (Decidable (∃ result ∈ s.result? i, (call i).Reports result name))

/-- The event is a status write of program `i` after which `last` is recorded as started last. -/
def Event.Records (key : ObjectKey) (i : ι) (last : TriggeredExecution) (e : Event ι) : Prop :=
  (∃ request written, e.cause = .act i (.updateRequestStatus request (.ok written))) ∧
    ∃ r, e.after.requests.get? key = some r ∧ r.statusOrDefault.lastTriggered? = some last

/-- Call `i` has ended, and was an evaluation with this outcome. -/
def Returned (s : System ι fun i => (call i).Result) (i : ι) (outcome : TriggerOutcome) : Prop :=
  ∃ result ∈ s.result? i, (call i).Returns result outcome

instance (s : System ι fun i => (call i).Result) (i : ι) (outcome : TriggerOutcome) :
    Decidable (Returned s i outcome) :=
  inferInstanceAs (Decidable (∃ result ∈ s.result? i, (call i).Returns result outcome))

omit [DecidableEq ι] in
/-- Who has reported a start has returned one. -/
theorem Reported.returned {i : ι} {name : String} (h : Reported s i name) :
    ∃ requeueAfter, Returned s i (.fired name requeueAfter) := by
  obtain ⟨result, hresult, hreports⟩ := h
  obtain ⟨requeueAfter, hreturns⟩ := hreports.returns
  exact ⟨requeueAfter, result, hresult, hreturns⟩

/-- An evaluation that has returned has ended in one of the ways it may end. -/
theorem Returned.coordinated {w : Surroundings} {keys : ι → ObjectKey}
    (hrun : Reaches w (startEach call keys store now) s) {i : ι} {outcome : TriggerOutcome}
    (h : Returned s i outcome) :
    Coordinated (call i).policy (keys i) (keys i) [] outcome (s.acts i) := by
  obtain ⟨result, hresult, hreturns⟩ := h
  exact hrun.returned ((call i).obeys_returns (keys i)) hresult outcome hreturns

/-- Whoever reports a start has recorded it. -/
theorem Reported.recorded (hrun : Reaches (othersLeave key uid) (startCalls call key store now) s)
    {i : ι} {name : String} (h : Reported s i name) :
    ∃ f : Firing, ∃ time, f.execution = name ∧ f.Recorded (call i).policy key time (s.acts i) := by
  obtain ⟨requeueAfter, hreturned⟩ := h.returned
  have hcoordinated : Coordinated (call i).policy key key [] _ (s.acts i) :=
    hreturned.coordinated hrun
  exact hcoordinated.reported

/-- A start that was recorded was recorded by an event. -/
theorem Firing.Recorded.exists_event (hinserted : Inserted store key uid)
    (hrun : Reaches (othersLeave key uid) (startCalls call key store now) s) {i : ι} {f : Firing}
    {time : Instant} (hf : f.Recorded (call i).policy key time (s.acts i)) :
    ∃ e ∈ s.log, e.Records key i ⟨f.execution, time⟩ := by
  obtain ⟨r, status, w, before, ⟨x, admitted, started, hadmitted, -, hstarted, htime⟩, hchange,
    hwritten⟩ := hf
  obtain ⟨later, e, earlier, s₁, hlog, hcause, h₁, hacts⟩ :=
    hrun.moment_act (obeys_startCalls call key store now) rfl hwritten
  obtain ⟨r₀, m, hnumbered⟩ := numbered_of_reaches hinserted h₁.reaches
  have hbefore : before <:+ s₁.acts i := hacts ▸ List.suffix_cons _ _
  obtain ⟨hkey, -, -⟩ := hnumbered.firing hadmitted
    (hstarted.suffix.trans ((List.suffix_cons _ _).trans (htime.trans hbefore)))
  -- the write was made to the request that had just been read
  have hread : s₁.Stored key r := by
    refine hnumbered.informed i key r ?_
    rw [hacts, hkey]
    exact List.mem_cons_self
  obtain ⟨-, hw, hafter⟩ :=
    hnumbered.versioned.status_write hread (h₁.act i _ hcause).1.requestEffect
  refine ⟨e, ?_, ⟨_, w, hcause⟩, w, ?_, ?_⟩
  · rw [hlog]
    exact List.mem_append_right _ List.mem_cons_self
  · rw [hafter, SortedMap.get?_insert, if_pos rfl]
  · rw [hw]
    exact recordFire_last hchange

/-- What was recorded could be recorded. -/
theorem Firing.Recorded.recordable {policy : TriggerPolicy} {f : Firing} {time : Instant}
    {acts : List Act} (hf : f.Recorded policy key time acts) :
    f.Recordable policy key time acts := by
  obtain ⟨r, status, w, before, hrecordable, -, hwritten⟩ := hf
  exact hrecordable.mono (List.IsSuffix.trans ⟨[_, _], rfl⟩ hwritten)

/-! ## Creations -/

/-- Whoever may record a start created the execution, or found it there. -/
theorem Firing.Recordable.created_or_adopted (hinserted : Inserted store key uid)
    (hrun : Reaches (othersLeave key uid) (startCalls call key store now) s) {i : ι} {f : Firing}
    {time : Instant} (hf : f.Recordable (call i).policy key time (s.acts i)) :
    (∃ e ∈ s.log, e.actor? = some i ∧ e.creates (pushPlace key f.counter) = true) ∨
      Adopted (pushPlace key f.counter) (s.acts i) := by
  obtain ⟨x, admitted, started, hadmitted, hx, hstarted, htime⟩ := hf
  obtain ⟨r, m, hnumbered⟩ := numbered_of_reaches hinserted hrun
  have hacts : started <:+ s.acts i := (List.suffix_cons _ _).trans htime
  obtain ⟨-, -, hdesired⟩ := hnumbered.firing hadmitted (hstarted.suffix.trans hacts)
  have hkey : x.key = pushPlace key f.counter := (hdesired hx).1
  cases hstarted with
  -- the creation is an event of the log
  | @created w =>
    obtain ⟨later, e, earlier, hlog, hcause, -⟩ := exists_event hacts
    refine Or.inl ⟨e, ?_, Event.actor?_eq_some.mpr ⟨_, hcause⟩,
      Event.creates_iff.mpr ⟨i, x, w, hcause, hkey⟩⟩
    rw [hlog]
    exact List.mem_append_right _ List.mem_cons_self
  | @adopted y uid' name kind huid howned =>
    rw [hkey] at hacts
    exact Or.inr ⟨x, y, kind, name, admitted, hkey, hacts⟩

/-- Of two calls that may record a start of one number, one at least found the execution there. -/
theorem adopted_of_recordable (hinserted : Inserted store key uid)
    (hrun : Reaches (othersLeave key uid) (startCalls call key store now) s) {i j : ι} (hij : i ≠ j)
    {f g : Firing} {time time' : Instant} (hf : f.Recordable (call i).policy key time (s.acts i))
    (hg : g.Recordable (call j).policy key time' (s.acts j)) (hcounter : f.counter = g.counter) :
    Adopted (pushPlace key f.counter) (s.acts i) ∨
    Adopted (pushPlace key f.counter) (s.acts j) := by
  rcases hf.created_or_adopted hinserted hrun with ⟨e, he, hactor, hcreates⟩ | hadopted
  · rcases hg.created_or_adopted hinserted hrun with ⟨e', he', hactor', hcreates'⟩ | hadopted
    · -- both created it, so by one event, which has one actor
      obtain ⟨r, m, hnumbered⟩ := numbered_of_reaches hinserted hrun
      rw [← hcounter] at hcreates'
      obtain rfl := eq_of_countP_le_one (hnumbered.kept.once _) he he' hcreates hcreates'
      exact absurd (Option.some.inj (hactor.symm.trans hactor')) hij
    · exact Or.inr (hcounter ▸ hadopted)
  · exact Or.inl hadopted

/-! ## Records -/

/-- The execution that is recorded as started last is another one after an event only if pushes were
given up, or a start with a greater number was recorded, or one with the same number.  The last case
is a start that did not come too late though its number is not new, as the name recorded is its
own. -/
theorem record_changed (hinserted : Inserted store key uid)
    (hrun : Reaches (othersLeave key uid) (startCalls call key store now) s)
    {later earlier : List (Event ι)} {e : Event ι} (hlog : s.log = later ++ e :: earlier)
    {r r' : BuildRequest} {last : TriggeredExecution} (hr : e.before.requests.get? key = some r)
    (hr' : e.after.requests.get? key = some r')
    (hlast : r.statusOrDefault.lastTriggered? = some last)
    (hother : r'.statusOrDefault.lastTriggered? ≠ some last) :
    (r.isOnCommit = false ∧ r'.statusOrDefault.lastTriggered? = none) ∨
      ∃ i, ∃ f : Firing, ∃ time, e.actor? = some i ∧
        f.Recordable (call i).policy key time (actsOf i earlier) ∧
        r'.statusOrDefault.lastTriggered? = some ⟨f.execution, time⟩ ∧
        (r.statusOrDefault.triggerCounter < f.counter ∨
          f.counter = r.statusOrDefault.triggerCounter ∧ f.execution = last.name) := by
  obtain ⟨s₁, h₁⟩ := hrun.moment (obeys_startCalls call key store now) rfl hlog
  obtain ⟨r₀, m, hnumbered⟩ := numbered_of_reaches hinserted h₁.reaches
  have hcurrent : s₁.store.requests.get? key = some r := h₁.store_eq ▸ hr
  obtain rfl := Option.some.inj (hnumbered.current.symm.trans hcurrent)
  obtain ⟨i, act, hcause, hduty, hrewrites⟩ := h₁.status_changed hnumbered.versioned
    hnumbered.informed (fun _ h => h.1) hr hr' fun hsame => hother (hsame ▸ hlast)
  rcases (hrewrites _ hduty).triggerChange.last
    (hnumbered.counter_nonneg (stored_of_get? hcurrent)) with
    ⟨-, hsame⟩ | ⟨hmode, -, hnone⟩ | ⟨f, time, hf, hfirst, -, hnew⟩
  · exact absurd (hsame.trans hlast) hother
  · exact Or.inl ⟨hmode, hnone⟩
  · refine Or.inr ⟨i, f, time, Event.actor?_eq_some.mpr ⟨act, hcause⟩, h₁.log_eq ▸ hf, hnew, ?_⟩
    have hmax := hnumbered.fire_counter hf hfirst
    rcases OnCommitStatus.of_not_supersedes hfirst with hlt | ⟨hle, own, hown, hexecution⟩
    · rw [← BuildRequestStatus.triggerCounter_eq] at hlt
      exact Or.inl hlt
    · -- the number is not new, so the name that is recorded is the start's own
      rw [← BuildRequestStatus.lastTriggered?_eq] at hown
      rw [← BuildRequestStatus.triggerCounter_eq] at hle
      obtain rfl := Option.some.inj (hown.symm.trans hlast)
      exact Or.inr ⟨by omega, hexecution.symm⟩

/-- **Who reports a start, and what becomes of its record.**  Whatever the order of calls, and
whichever of them fail or are answered with requests that were stored earlier: a call that reports a
start computed its number from a request that was stored, recorded it, and created the execution or
found it there; of two calls that report one start, one found the execution.  And the execution that
is recorded as started last is replaced only by nothing, when pushes are given up, by a later one,
or by itself, when it is recorded by another call that may record it. -/
theorem starts_reported (hinserted : Inserted store key uid)
    (hrun : Reaches (othersLeave key uid) (startCalls call key store now) s) :
    (∀ i name, Reported s i name → ∃ n, name = onCommitExecutionName key.name n ∧
      (∃ r, s.Stored key r ∧ r.statusOrDefault.triggerCounter + 1 = n) ∧
      (∃ e ∈ s.log, ∃ time, e.Records key i ⟨name, time⟩) ∧
      ((∃ e ∈ s.log, e.actor? = some i ∧ e.creates (pushPlace key n) = true) ∨
        Adopted (pushPlace key n) (s.acts i))) ∧
    (∀ i j name, i ≠ j → Reported s i name → Reported s j name →
      Adopted ⟨key.namespace, name⟩ (s.acts i) ∨ Adopted ⟨key.namespace, name⟩ (s.acts j)) ∧
    ∀ later e earlier, s.log = later ++ e :: earlier → ∀ r r' last,
      e.before.requests.get? key = some r → e.after.requests.get? key = some r' →
      r.statusOrDefault.lastTriggered? = some last → r'.statusOrDefault.lastTriggered? ≠ some last →
      (r.isOnCommit = false ∧ r'.statusOrDefault.lastTriggered? = none) ∨
      ∃ i, ∃ f : Firing, ∃ time, e.actor? = some i ∧
        f.Recordable (call i).policy key time (actsOf i earlier) ∧
        r'.statusOrDefault.lastTriggered? = some ⟨f.execution, time⟩ ∧
        (r.statusOrDefault.triggerCounter < f.counter ∨
          f.counter = r.statusOrDefault.triggerCounter ∧ f.execution = last.name) := by
  obtain ⟨r₀, m, hnumbered⟩ := numbered_of_reaches hinserted hrun
  refine ⟨fun i name hreported => ?_, fun i j name hij hi hj => ?_, ?_⟩
  · obtain ⟨f, time, rfl, hf⟩ := hreported.recorded hrun
    have hrecordable := hf.recordable
    have ⟨x, admitted, started, hadmitted, _, hstarted, htime⟩ := hrecordable
    obtain ⟨-, hread, -⟩ := hnumbered.firing hadmitted
      (hstarted.suffix.trans ((List.suffix_cons _ _).trans htime))
    obtain ⟨e, he, hrecords⟩ := hf.exists_event hinserted hrun
    exact ⟨f.counter, (hnumbered.recordable hrecordable).1, ⟨f.request, hread, rfl⟩,
      ⟨e, he, time, hrecords⟩, hrecordable.created_or_adopted hinserted hrun⟩
  · obtain ⟨f, time, rfl, hf⟩ := hi.recorded hrun
    obtain ⟨g, time', hname, hg⟩ := hj.recorded hrun
    have hf' := (hnumbered.recordable hf.recordable).1
    have hg' := (hnumbered.recordable hg.recordable).1
    have hcounter : f.counter = g.counter := by
      rw [← onCommitExecutionName_inj, ← hf', ← hg', hname]
    rw [hf']
    exact adopted_of_recordable hinserted hrun hij hf.recordable hg.recordable hcounter
  · intro later e earlier hlog r r' last hr hr' hlast hne
    exact record_changed hinserted hrun hlog hr hr' hlast hne

end

/-! ## A run -/

/-- A push comes in.  An evaluation finds it due, and before it goes on another one starts the
execution and records it; five seconds later the first one finds the execution there. -/
def doubledStart : List (Choice Caller) :=
  List.replicate 5 (.serve .push) ++ [.tick (secondsIn 11)] ++
    List.replicate 2 (.serve .evaluation) ++ List.replicate 7 (.serve .laterEvaluation) ++
    [.tick (secondsIn 16)] ++ List.replicate 6 (.serve .evaluation)

/-- The state in which both evaluations have ended. -/
def doubled : System Caller fun i => (appCalls {} i).Result := (appStart {}).play doubledStart

/-- The first evaluation found the execution that it reports. -/
theorem doubled_start_adopted :
    Reported doubled .evaluation (onCommitExecutionName "app" 1) ∧
      Reported doubled .laterEvaluation (onCommitExecutionName "app" 1) ∧
      (Adopted (pushPlace appKey 1) (doubled.acts .evaluation) ∨
        Adopted (pushPlace appKey 1) (doubled.acts .laterEvaluation)) := by
  obtain ⟨hpermits, hfirst, hsecond⟩ :
      Permits (othersLeave appKey "uid-1") (appStart {}) doubledStart ∧
      Reported doubled .evaluation (onCommitExecutionName "app" 1) ∧
      Reported doubled .laterEvaluation (onCommitExecutionName "app" 1) := by
    decide +kernel
  obtain ⟨-, hadopted, -⟩ := starts_reported appStore_inserted (reaches_play doubledStart hpermits)
  exact ⟨hfirst, hsecond, hadopted _ _ _ (by decide) hfirst hsecond⟩

/-- Two evaluations report that they started one execution, and the second one overwrites the time
that the first one recorded. -/
theorem start_reported_twice :
    Inserted appStore appKey "uid-1" ∧
    ∃ s, Reaches (othersLeave appKey "uid-1")
        (startCalls (appCalls {}) appKey appStore (secondsIn 1)) s ∧
      Reported s .evaluation (onCommitExecutionName "app" 1) ∧
      Reported s .laterEvaluation (onCommitExecutionName "app" 1) ∧
      ∃ e ∈ s.log, ∃ r ∈ e.before.requests.get? appKey, ∃ r' ∈ e.after.requests.get? appKey,
        ∃ last ∈ r.statusOrDefault.lastTriggered?, ∃ last' ∈ r'.statusOrDefault.lastTriggered?,
          last'.name = last.name ∧ last'.triggeredAt ≠ last.triggeredAt := by
  obtain ⟨hpermits, htwice⟩ :
      Permits (othersLeave appKey "uid-1") (appStart {}) doubledStart ∧
      Reported doubled .evaluation (onCommitExecutionName "app" 1) ∧
      Reported doubled .laterEvaluation (onCommitExecutionName "app" 1) ∧
      ∃ e ∈ doubled.log, ∃ r ∈ e.before.requests.get? appKey, ∃ r' ∈ e.after.requests.get? appKey,
        ∃ last ∈ r.statusOrDefault.lastTriggered?, ∃ last' ∈ r'.statusOrDefault.lastTriggered?,
          last'.name = last.name ∧ last'.triggeredAt ≠ last.triggeredAt := by
    decide +kernel
  exact ⟨appStore_inserted, _, reaches_play doubledStart hpermits, htwice⟩

end PushBuild
