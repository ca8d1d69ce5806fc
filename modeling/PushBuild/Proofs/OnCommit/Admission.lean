import PushBuild.Proofs.OnCommit.History

/-!
# When the next execution may be created

A start is decided on a request that may have changed since, and several store calls lie between the
decision and the creation.  While a request stays one that pushes build, and the clock does not go
back and shows no leap second, the executions that pushes start are nevertheless created one after
another.

1. **The invariant** (`Steady`).  Every request that was ever stored, and so every one that an
   evaluator may have read, names the execution that goes with its counter, and the time recorded
   for it is not before its creation.
2. **Spacing.**  Who creates the next execution read a time that is far enough from the recorded
   one, and so it is far enough from the creation of the execution before (`starts_admitted`, first
   part).
3. **One at a time.**  Who creates the next execution saw that the one before had ended (the same).
   If what ended stays so, then at most one execution has not ended (second part).
4. **Leap seconds.**  In one of them two executions may be created closer than the policy says
   (`starts_too_close_in_leap_second`).
-/

namespace PushBuild

open PushBuild.System

/-! ## The setting -/

/-- The deed leaves the request under `key` one that pushes build. -/
def Deed.KeepsMode (key : ObjectKey) : Deed → Prop
  | updateSpec k spec => k = key → spec.rebuildMode = .onCommit
  | _ => True

instance Deed.KeepsMode.decidable (key : ObjectKey) : (deed : Deed) → Decidable (deed.KeepsMode key)
  | updateSpec k spec => inferInstanceAs (Decidable (k = key → spec.rebuildMode = .onCommit))
  | insertRequest _ | setLabel .. | putTemplate _ | putExecution _ | report .. | setPolicy _
  | insertStrategy _ | insertSecret .. | injectConflicts _ | setUnavailable _ => .isTrue trivial

/-- Others leave the request in its place and its executions alone, and pushes go on building it;
the clock does not go back, and shows only certain instants. -/
def onCommitOnly (shown : Instant → Prop) (key : ObjectKey) (uid : String) : Surroundings where
  allows s deed := (othersLeave key uid).allows s deed ∧ deed.KeepsMode key
  ticks t t' := t ≤ t' ∧ shown t'

instance (shown : Instant → Prop) (key : ObjectKey) (uid : String) (s : MemoryStore) (deed : Deed) :
    Decidable ((onCommitOnly shown key uid).allows s deed) :=
  inferInstanceAs (Decidable ((othersLeave key uid).allows s deed ∧ deed.KeepsMode key))

instance (shown : Instant → Prop) [DecidablePred shown] (key : ObjectKey) (uid : String)
    (t t' : Instant) : Decidable ((onCommitOnly shown key uid).ticks t t') :=
  inferInstanceAs (Decidable (t ≤ t' ∧ shown t'))

section

variable {shown : Instant → Prop} {key : ObjectKey} {uid : String}

/-- What holds where others leave the request and its executions alone holds here too, -/
theorem onCommitOnly_leaves (t : MemoryStore) (deed : Deed)
    (h : (onCommitOnly shown key uid).allows t deed) : (othersLeave key uid).allows t deed := h.1

/-- and so does what holds while the clock does not go back. -/
theorem onCommitOnly_le (a b : Instant) (h : (onCommitOnly shown key uid).ticks a b) : a ≤ b := h.1

end

/-! ## The invariant -/

/-- The request is one that pushes build; if its counter is not zero it names the execution started
last; and the time recorded for that one is not before its creation, which is in the log. -/
structure Steady {ι : Type} (key : ObjectKey) (log : List (Event ι)) (r : BuildRequest) : Prop where
  mode : r.isOnCommit = true
  present : 1 ≤ r.statusOrDefault.triggerCounter → ∃ last,
    r.statusOrDefault.lastTriggered? = some last
  stamped : ∀ {last}, r.statusOrDefault.lastTriggered? = some last → last.triggeredAt.IsPlain ∧
    ∃ e ∈ log, e.creates (pushPlace key r.statusOrDefault.triggerCounter) = true ∧
      e.now ≤ last.triggeredAt

namespace Steady

variable {ι : Type} {key : ObjectKey} {log log' : List (Event ι)} {r r' : BuildRequest}

/-- Only what is known about pushes counts, and the log may grow. -/
theorem of_state (h : Steady key log r) (hlog : log ⊆ log') (hmode : r'.isOnCommit = true)
    (hcounter : r'.statusOrDefault.triggerCounter = r.statusOrDefault.triggerCounter)
    (hlast : r'.statusOrDefault.lastTriggered? = r.statusOrDefault.lastTriggered?) :
    Steady key log' r' := by
  refine ⟨hmode, fun hpos => ?_, fun {last} h' => ?_⟩
  · rw [hlast]
    exact h.present (hcounter ▸ hpos)
  · obtain ⟨hplain, e, he, hcreates, hle⟩ := h.stamped (hlast ▸ h')
    exact ⟨hplain, e, hlog he, hcounter ▸ hcreates, hle⟩

/-- A request stays steady while the run goes on. -/
theorem mono (h : Steady key log r) (hlog : log ⊆ log') : Steady key log' r :=
  h.of_state hlog h.mode rfl rfl

end Steady

section

variable {ι : Type} [DecidableEq ι] {call : ι → ControllerCall} {key : ObjectKey} {uid : String}
  {store : MemoryStore} {now : Instant} {s : System ι fun i => (call i).Result}

/-- What a status write makes of a steady request is steady.  A push that is accepted or discarded
leaves counter and last start as they are; the state is dropped only after the request stopped
building pushes, which this one has not; so a start is the only case with something to show. -/
theorem Steady.change (hinserted : Inserted store key uid) (hnow : now.IsPlain)
    (hrun : Reaches (onCommitOnly Instant.IsPlain key uid) (startCalls call key store now) s)
    {r : BuildRequest} (hr : s.store.requests.get? key = some r) (h : Steady key s.log r) {i : ι}
    {status : BuildRequestStatus} (hchange : TriggerChange (call i).policy key (s.acts i) r status)
    (n : Nat) : Steady key s.log ((r.restated status).withVersion n) := by
  obtain ⟨r₀, m, hnumbered⟩ := numbered_within hinserted onCommitOnly_leaves hrun
  obtain rfl : r = r₀ := Option.some.inj (hr.symm.trans hnumbered.current)
  rcases hchange.last (hnumbered.counter_nonneg (stored_of_get? hr)) with ⟨hcounter, hlast⟩ |
    ⟨hmode, -, -⟩ | ⟨f, time, hf, hfirst, hcounter, hlast⟩
  · exact h.of_state (fun _ he => he) h.mode hcounter hlast
  · exact absurd (hmode.symm.trans h.mode) (by decide)
  · -- a start is recorded, with a time that was read after its execution was created
    have hcounter : status.triggerCounter = f.counter :=
      hcounter.trans (hnumbered.fire_counter hf hfirst)
    obtain ⟨e, he, hcreates, hle⟩ :=
      exists_creation hinserted onCommitOnly_leaves onCommitOnly_le hrun hf
    have hclocked := hrun.clocked rfl hnow fun _ _ h => h
    obtain ⟨_, _, _, _, _, _, htime⟩ := hf
    refine ⟨h.mode, fun _ => ⟨_, hlast⟩, fun {last} hlast' => ?_⟩
    obtain rfl := Option.some.inj (hlast.symm.trans hlast')
    refine ⟨(hclocked.reading (htime.mem List.mem_cons_self)).2, e, he, ?_, hle⟩
    show e.creates (pushPlace key status.triggerCounter) = true
    rw [hcounter]
    exact hcreates

/-- **The run lemma**: every request that was ever stored is steady.  The induction is on the run,
by what can happen to the stored request: others edit it, or a program writes its status. -/
theorem steady_of_reaches (hinserted : Inserted store key uid)
    (hmode : ∀ r, store.requests.get? key = some r → r.isOnCommit = true) (hnow : now.IsPlain)
    (hrun : Reaches (onCommitOnly Instant.IsPlain key uid) (startCalls call key store now) s) :
    ∀ {r}, s.Stored key r → Steady key s.log r := by
  refine stored_induction (P := fun s r => Steady key s.log r) hinserted onCommitOnly_leaves hrun ?_
    (fun _ _ _ hlog _ h => h.mono hlog) ?_ ?_ ?_
  · -- nothing has been started yet, so there is nothing to name
    intro r hr hdefault
    refine ⟨hmode r hr, fun hpos => ?_, fun hlast => ?_⟩
    · rw [hdefault] at hpos
      exact absurd hpos (by decide)
    · rw [hdefault] at hlast
      cases hlast
  · -- a label does not count
    exact fun s r _ _ _ h => h.of_state (fun _ he => he) h.mode rfl rfl
  · -- the specification is edited, and pushes go on building the request
    intro s r spec n hallows h
    refine h.of_state (fun _ he => he) ?_ rfl rfl
    show (spec.rebuildMode == .onCommit) = true
    rw [hallows.2 rfl]
    rfl
  · -- its status is written
    exact fun s i r status n hrun hr h hchange => h.change hinserted hnow hrun hr hchange n

/-! ## What the creator of the next execution saw -/

/-- An evaluator that is admitted to the start after number `n` has just seen execution `n`
ended. -/
theorem admitted_saw_end (hinserted : Inserted store key uid)
    (hmode : ∀ r, store.requests.get? key = some r → r.isOnCommit = true) (hnow : now.IsPlain)
    (hrun : Reaches (onCommitOnly Instant.IsPlain key uid) (startCalls call key store now) s)
    {i : ι} {f : Firing} (hadmitted : f.Admitted (call i).policy key (s.acts i)) {n : Int}
    (hn : 1 ≤ n) (hcounter : f.counter = n + 1) :
    ∃ last time x before, f.request.statusOrDefault.lastTriggered? = some last ∧
      evaluate f.request.statusOrDefault.onCommit (call i).policy time = .fire f.push ∧
      s.acts i = .getExecution (pushPlace key n) (.ok (some x)) :: .now time ::
        .getRequest key (.ok (some f.request)) :: before ∧
      x.BelongsTo uid ∧ x.outcome.isTerminal = true := by
  obtain ⟨r, m, hnumbered⟩ := numbered_within hinserted onCommitOnly_leaves hrun
  obtain ⟨-, hread, -⟩ := hnumbered.firing hadmitted List.suffix_rfl
  have hnext : f.counter = f.request.statusOrDefault.triggerCounter + 1 := rfl
  -- a steady request names the execution that goes with its counter
  obtain ⟨last, hlast⟩ := (steady_of_reaches hinserted hmode hnow hrun hread).present (by omega)
  rcases admitted_saw hinserted onCommitOnly_leaves hrun hadmitted hn hcounter with hnone | hsaw
  · cases hnone.symm.trans hlast
  · exact hsaw

/-- The event, after `earlier`, is the creation of execution `n + 1` by an evaluator that had read
the request, then the time, and then seen execution `n` ended; and execution `n` was created at
least the minimum interval before. -/
def CreatesAfter (call : ι → ControllerCall) (key : ObjectKey) (uid : String) (n : Int)
    (e : Event ι) (earlier : List (Event ι)) : Prop :=
  ∃ i x created, e.cause = .act i (.createExecution x (.ok created)) ∧
    (∃ e₀ ∈ earlier, e₀.creates (pushPlace key n) = true ∧
      (call i).policy.minInterval.millis * 1000000 ≤ e.now.since e₀.now) ∧
    ∃ x' time r before, actsOf i earlier = .getExecution (pushPlace key n) (.ok (some x')) ::
      .now time :: .getRequest key (.ok (some r)) :: before ∧
      x'.BelongsTo uid ∧ x'.outcome.isTerminal = true

/-- Every creation of a next execution is of this kind.  Its creator decided on a request that was
stored, so a steady one: what it compared its clock with is the time recorded for execution `n`, and
that one had been created by then. -/
theorem creates_after (hinserted : Inserted store key uid)
    (hmode : ∀ r, store.requests.get? key = some r → r.isOnCommit = true) (hnow : now.IsPlain)
    (hrun : Reaches (onCommitOnly Instant.IsPlain key uid) (startCalls call key store now) s)
    (hdeadline : ∀ i r last, s.Stored key r → r.statusOrDefault.lastTriggered? = some last →
      (last.triggeredAt.plus? (call i).policy.minInterval).isSome)
    {later earlier : List (Event ι)} {e : Event ι} (hlog : s.log = later ++ e :: earlier) {n : Int}
    (hn : 1 ≤ n) (hcreates : e.creates (pushPlace key (n + 1)) = true) :
    CreatesAfter call key uid n e earlier := by
  obtain ⟨i, x, created, f, s₁, hcause, h₁, hadmitted, hcounter⟩ :=
    exists_firing hinserted onCommitOnly_leaves hrun hlog hcreates
  obtain ⟨last, time, x', before, hlast, hdue, hacts, howned, hended⟩ :=
    admitted_saw_end hinserted hmode hnow h₁.reaches hadmitted hn hcounter
  obtain ⟨r, m, hnumbered⟩ := numbered_within hinserted onCommitOnly_leaves h₁.reaches
  obtain ⟨-, hread, -⟩ := hnumbered.firing hadmitted List.suffix_rfl
  have htaken : f.request.statusOrDefault.triggerCounter = n := by
    have hnext : f.counter = f.request.statusOrDefault.triggerCounter + 1 := rfl
    omega
  obtain ⟨hplain, e₀, he₀, hcreates₀, hle₀⟩ :=
    (steady_of_reaches hinserted hmode hnow h₁.reaches hread).stamped hlast
  rw [htaken] at hcreates₀
  have hclocked := h₁.reaches.clocked rfl hnow fun _ _ h => h
  have htime : .now time ∈ s₁.acts i := by
    rw [hacts]
    exact List.mem_cons_of_mem _ List.mem_cons_self
  obtain ⟨hlate, htimeplain⟩ := hclocked.reading htime
  -- both instants were shown by the clock, so none of them is in a leap second
  obtain ⟨-, hplain₀⟩ := hclocked.event he₀
  -- creation of `n`, the time recorded for it, the time read, creation of `n + 1`: in this order
  have hspaced : (call i).policy.minInterval.millis * 1000000 ≤
      time.total - last.triggeredAt.total :=
    TriggerPolicy.spaced hplain htimeplain (hdeadline i _ _ (h₁.stored hlog hread) hlast)
      (remaining?_of_fire hdue hlast)
  have hrecorded : e₀.now.total ≤ last.triggeredAt.total := Instant.total_le hplain₀ hle₀
  have hcreated : time.total ≤ s₁.now.total := Instant.total_le htimeplain hlate
  have hsince : e.now.since e₀.now = s₁.now.total - e₀.now.total := by
    rw [← h₁.now_eq, Instant.since_eq hplain₀ hclocked.now]
  refine ⟨i, x, created, hcause, ⟨e₀, h₁.log_eq ▸ he₀, hcreates₀, ?_⟩, x', time, f.request, before,
    ?_, howned, hended⟩
  · rw [hsince]
    omega
  · rw [← hacts, System.acts, h₁.log_eq]

/-! ## One at a time -/

/-- What ended of the executions of the request did not start again. -/
def EndsForGood (uid : String) (log : List (Event ι)) : Prop :=
  ∀ e ∈ log, ∀ q x x', e.before.executions.get? q = some x → x.BelongsTo uid →
    x.outcome.isTerminal = true → e.after.executions.get? q = some x' → x'.outcome.isTerminal = true

/-- What had ended before an event has ended now. -/
theorem ended_of_log (hrun : Reaches (onCommitOnly Instant.IsPlain key uid)
      (startCalls call key store now) s) (hgood : EndsForGood uid s.log) {e : Event ι}
    (he : e ∈ s.log) {q : ObjectKey} {x : BuildExecution}
    (hx : e.before.executions.get? q = some x) (howned : x.BelongsTo uid)
    (hended : x.outcome.isTerminal = true) :
    ∃ x', s.store.executions.get? q = some x' ∧ x'.BelongsTo uid ∧
      x'.outcome.isTerminal = true := by
  -- by induction on the run: no call touches an execution that is there, and others do not revive
  -- one
  let Ended (t : MemoryStore) : Prop :=
    ∃ x, t.executions.get? q = some x ∧ x.BelongsTo uid ∧ x.outcome.isTerminal = true
  suffices h : EndsForGood uid s.log → ∀ e ∈ s.log, Ended e.before → Ended s.store from
    h hgood e he ⟨x, hx, howned, hended⟩
  refine hrun.induction (J := fun s => EndsForGood uid s.log → ∀ e ∈ s.log, Ended e.before →
    Ended s.store) (obeys_startCalls call key store now) (fun _ _ he => absurd he List.not_mem_nil)
    ?_ ?_ fun _ _ _ h _ => h
  · -- a program acts
    intro s i act rest t _ h hanswer _ hgood e he hbefore
    have hnow : Ended s.store := by
      rcases List.mem_cons.mp he with rfl | he
      · exact hbefore
      · exact h (fun e he => hgood e (List.mem_cons_of_mem _ he)) e he hbefore
    obtain ⟨x, hx, hxis⟩ := hnow
    exact ⟨x, hanswer.executionEffect.kept hx, hxis⟩
  · -- others do something
    intro s deed _ h hallows hgood e he hbefore
    have hnow : Ended s.store := by
      rcases List.mem_cons.mp he with rfl | he
      · exact hbefore
      · exact h (fun e he => hgood e (List.mem_cons_of_mem _ he)) e he hbefore
    obtain ⟨x, hx, howned, hended⟩ := hnow
    obtain ⟨x', hx', halike⟩ := Deed.executions_kept hallows.1.2 hx howned
    exact ⟨x', hx', halike.belongsTo.mpr howned,
      hgood _ List.mem_cons_self q x x' hx howned hended hx'⟩

/-- **Starts are admitted one after another.**  While a request that was inserted without status
stays one that pushes build, and the clock does not go back and shows no leap second, whatever the
order of calls, whichever of them fail or are answered with requests that were stored earlier, and
so long as no deadline lies beyond the last instant: execution `n + 1` is created no sooner than the
minimum interval after execution `n`, by an evaluator that saw execution `n` ended after it had read
the request.  So if what ended has ended for good, at most one of these executions has not ended. -/
theorem starts_admitted (hinserted : Inserted store key uid)
    (hmode : ∀ r, store.requests.get? key = some r → r.isOnCommit = true) (hnow : now.IsPlain)
    (hrun : Reaches (onCommitOnly Instant.IsPlain key uid) (startCalls call key store now) s)
    (hdeadline : ∀ i r last, s.Stored key r → r.statusOrDefault.lastTriggered? = some last →
      (last.triggeredAt.plus? (call i).policy.minInterval).isSome) :
    (∀ later e earlier n, s.log = later ++ e :: earlier → 1 ≤ n →
      e.creates (pushPlace key (n + 1)) = true → CreatesAfter call key uid n e earlier) ∧
    (EndsForGood uid s.log → ∀ q q' x x', s.store.executions.get? q = some x →
      s.store.executions.get? q' = some x' → x.BelongsTo uid → x'.BelongsTo uid → x.IsForPush →
      x'.IsForPush → x.outcome.isTerminal = false → x'.outcome.isTerminal = false → q = q') := by
  have hcreates : ∀ later e earlier n, s.log = later ++ e :: earlier → 1 ≤ n →
      e.creates (pushPlace key (n + 1)) = true → CreatesAfter call key uid n e earlier :=
    fun _ _ _ _ hlog hn h => creates_after hinserted hmode hnow hrun hdeadline hlog hn h
  refine ⟨hcreates, fun hgood => ?_⟩
  obtain ⟨r, m, hnumbered⟩ := numbered_within hinserted onCommitOnly_leaves hrun
  -- an execution that is not the last one has ended: the creator of the next one saw it
  have hlast : ∀ n x, 1 ≤ n → n < m → s.store.executions.get? (pushPlace key n) = some x →
      x.outcome.isTerminal = true := by
    intro n x hn hnm hx
    obtain ⟨y, hy, howned, -⟩ := hnumbered.numbered (n := n + 1) (by omega) (by omega)
    obtain ⟨e, he, hcreates'⟩ := hnumbered.kept.created hy howned
    obtain ⟨later, earlier, hlog⟩ := List.append_of_mem he
    obtain ⟨i, _, _, -, -, x', time, r', before, hacts, hxowned, hended⟩ :=
      hcreates later e earlier n hlog hn hcreates'
    -- the event at which its creator saw the end
    have hsuffix : _ :: _ <:+ actsOf i earlier := ⟨[], hacts.symm⟩
    obtain ⟨later', e', earlier', rfl, hcause, -⟩ := exists_event hsuffix
    have hlog' : s.log = (later ++ e :: later') ++ e' :: earlier' := by
      rw [hlog, List.append_assoc]
      rfl
    obtain ⟨s₁, h₁⟩ := hrun.moment (obeys_startCalls call key store now) rfl hlog'
    have hseen : some x' = s₁.store.executions.get? (pushPlace key n) :=
      (h₁.act i (.getExecution _ (.ok (some x'))) hcause).1.executionEffect.1
    rw [h₁.store_eq] at hseen
    have he' : e' ∈ s.log := by
      rw [hlog']
      exact List.mem_append_right _ List.mem_cons_self
    obtain ⟨x'', hx'', -, hended''⟩ := ended_of_log hrun hgood he' hseen.symm hxowned hended
    obtain rfl := Option.some.inj (hx.symm.trans hx'')
    exact hended''
  -- so one that has not ended is the last one
  have hnumber : ∀ q x, s.store.executions.get? q = some x → x.BelongsTo uid → x.IsForPush →
      x.outcome.isTerminal = false → q = pushPlace key m := by
    intro q x hx howned hpush hrunning
    rcases hnumbered.only hx howned with ⟨-, n, hn, hnm, rfl⟩ | ⟨hplain, -⟩
    · by_cases hlt : n < m
      · exact absurd ((hlast n x hn hlt hx).symm.trans hrunning) (by decide)
      · have heq : n = m := by omega
        rw [heq]
    · exact absurd hpush hplain
  intro q q' x x' hx hx' howned howned' hpush hpush' hrunning hrunning'
  rw [hnumber q x hx howned hpush hrunning, hnumber q' x' hx' howned' hpush' hrunning']

end

/-! ## Runs -/

/-- The report that a build succeeded. -/
def succeededReport : BuildExecutionStatus where
  conditions := [{ type := Condition.succeeded, status := .true }]

/-- A push comes in and an evaluation starts an execution, which succeeds; at the second instant
another push comes in, and another evaluation starts the next execution. -/
def twoStarts (second : Instant) : List (Choice Caller) :=
  List.replicate 5 (.serve .push) ++ List.replicate 7 (.serve .evaluation) ++
    [.deed (.report (pushPlace appKey 1) succeededReport), .tick second] ++
    List.replicate 5 (.serve .laterPush) ++ List.replicate 8 (.serve .laterEvaluation)

/-- No debounce window, and starts at least one second apart. -/
def oneSecond : TriggerPolicy := ⟨⟨0⟩, ⟨1000⟩⟩

/-- The state after two starts, the first one at the first instant. -/
def startedTwice (first second : Instant) : System Caller fun i => (appCalls oneSecond i).Result :=
  (startCalls (appCalls oneSecond) appKey appStore first).play (twoStarts second)

/-- Whatever call goes by the last start, its deadline is an instant. -/
def DeadlinesExist (s : System Caller fun i => (appCalls oneSecond i).Result) : Prop :=
  ∀ t ∈ s.past, ∀ r ∈ t.requests.get? appKey, ∀ last ∈ r.statusOrDefault.lastTriggered?,
    (last.triggeredAt.plus? ⟨0⟩).isSome ∧ (last.triggeredAt.plus? oneSecond.minInterval).isSome

instance (s : System Caller fun i => (appCalls oneSecond i).Result) :
    Decidable (DeadlinesExist s) :=
  inferInstanceAs (Decidable (∀ t ∈ s.past, ∀ r ∈ t.requests.get? appKey,
    ∀ last ∈ r.statusOrDefault.lastTriggered?,
      (last.triggeredAt.plus? ⟨0⟩).isSome ∧ (last.triggeredAt.plus? oneSecond.minInterval).isSome))

/-- What was decided about the states of the run holds of whatever was stored in one of them. -/
theorem DeadlinesExist.of_stored {s : System Caller fun i => (appCalls oneSecond i).Result}
    (h : DeadlinesExist s) : ∀ i r last, s.Stored appKey r →
      r.statusOrDefault.lastTriggered? = some last →
      (last.triggeredAt.plus? (appCalls oneSecond i).policy.minInterval).isSome := by
  rintro i r last ⟨t, ht, hr⟩ hlast
  obtain ⟨hdelivery, hevaluation⟩ := h t ht r hr last hlast
  cases i with
  | push | laterPush => exact hdelivery
  | evaluation | laterEvaluation => exact hevaluation

/-- Two starts, four seconds apart: the second execution was created after the first had ended. -/
theorem starts_admitted_twice :
    (∃ e ∈ (startedTwice (secondsIn 1) (secondsIn 5)).log, e.creates (pushPlace appKey 2) = true) ∧
    ∀ later e earlier, (startedTwice (secondsIn 1) (secondsIn 5)).log = later ++ e :: earlier →
      e.creates (pushPlace appKey 2) = true →
      CreatesAfter (appCalls oneSecond) appKey "uid-1" 1 e earlier := by
  have hmode : ∀ r ∈ appStore.requests.get? appKey, r.isOnCommit = true := by decide +kernel
  -- the run is computed once, for all that has to be decided about it
  obtain ⟨hpermits, hdeadlines, hcreated⟩ :
      Permits (onCommitOnly Instant.IsPlain appKey "uid-1")
        (startCalls (appCalls oneSecond) appKey appStore (secondsIn 1)) (twoStarts (secondsIn 5)) ∧
      DeadlinesExist (startedTwice (secondsIn 1) (secondsIn 5)) ∧
      ∃ e ∈ (startedTwice (secondsIn 1) (secondsIn 5)).log,
        e.creates (pushPlace appKey 2) = true := by
    decide +kernel
  have h := starts_admitted appStore_inserted hmode (by decide) (reaches_play _ hpermits)
    hdeadlines.of_stored
  exact ⟨hcreated, fun later e earlier hlog hcreates =>
    h.1 later e earlier 1 hlog (by decide) hcreates⟩

/-- A tenth of the leap second at the end of 2016.  Its instants have the same second of the epoch
as the one before, and nanoseconds past the end of a second. -/
def leapTenth (n : Nat) : Instant :=
  (Instant.ofParts? 1483228799 (1000000000 + n * 100000000)).getD Instant.epoch

/-- In a leap second the clock can be at the end of the minimum interval before that has passed: two
executions are created a tenth of a second apart, though they should be at least a second apart. -/
theorem starts_too_close_in_leap_second :
    Inserted appStore appKey "uid-1" ∧
    (∀ r ∈ appStore.requests.get? appKey, r.isOnCommit = true) ∧
    ∃ s, Reaches (onCommitOnly (fun _ => True) appKey "uid-1")
        (startCalls (appCalls oneSecond) appKey appStore (leapTenth 2)) s ∧
      (∀ i r last, s.Stored appKey r → r.statusOrDefault.lastTriggered? = some last →
        (last.triggeredAt.plus? (appCalls oneSecond i).policy.minInterval).isSome) ∧
      ∃ e₀ ∈ s.log, ∃ e ∈ s.log, e₀.creates (pushPlace appKey 1) = true ∧
        e.creates (pushPlace appKey 2) = true ∧
        e.now.since e₀.now < oneSecond.minInterval.millis * 1000000 := by
  obtain ⟨hpermits, hdeadlines, hcreated⟩ :
      Permits (onCommitOnly (fun _ => True) appKey "uid-1")
        (startCalls (appCalls oneSecond) appKey appStore (leapTenth 2)) (twoStarts (leapTenth 3)) ∧
      DeadlinesExist (startedTwice (leapTenth 2) (leapTenth 3)) ∧
      ∃ e₀ ∈ (startedTwice (leapTenth 2) (leapTenth 3)).log,
        ∃ e ∈ (startedTwice (leapTenth 2) (leapTenth 3)).log,
          e₀.creates (pushPlace appKey 1) = true ∧ e.creates (pushPlace appKey 2) = true ∧
          e.now.since e₀.now < oneSecond.minInterval.millis * 1000000 := by
    decide +kernel
  exact ⟨appStore_inserted, by decide +kernel, _, reaches_play _ hpermits,
    hdeadlines.of_stored, hcreated⟩

end PushBuild
