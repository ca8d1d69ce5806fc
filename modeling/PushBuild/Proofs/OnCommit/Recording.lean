import PushBuild.Proofs.OnCommit.History

/-!
# Which execution a push is done with

A push that waits is done with once an execution was started for it.  The execution is created in
one step and the push is taken away in another, and the execution is known by its number only.

1. **The invariant.**  A push that waits in a request, now or earlier, was received no later than
   now (`received_of_reaches`).
2. **Own creations.**  So an evaluator that creates an execution for a push that it read as waiting
   does so after the push was received.
3. **The result** (`cleared_push_execution`).  The execution that is recorded when a push is taken
   away was created no earlier than the push was received, unless the evaluator did not create it,
   but found it there, created for another push.
4. **The other case.**  It happens: an execution that was created for one push and not recorded is
   then recorded for a later push, which no execution is started for (`later_push_cleared`).
-/

namespace PushBuild

open PushBuild.System

/-- Others leave the request in its place and its executions alone; the clock does not go back. -/
def forwardOnly (key : ObjectKey) (uid : String) : Surroundings where
  allows := (othersLeave key uid).allows
  ticks t t' := t ≤ t'

instance (key : ObjectKey) (uid : String) (s : MemoryStore) (deed : Deed) :
    Decidable ((forwardOnly key uid).allows s deed) :=
  inferInstanceAs (Decidable ((othersLeave key uid).allows s deed))

instance (key : ObjectKey) (uid : String) (t t' : Instant) :
    Decidable ((forwardOnly key uid).ticks t t') := inferInstanceAs (Decidable (t ≤ t'))

section

variable {ι : Type} [DecidableEq ι] {call : ι → ControllerCall} {key : ObjectKey} {uid : String}
  {store : MemoryStore} {now : Instant} {s : System ι fun i => (call i).Result}

/-- Others may do less here than where they leave the request and its executions alone, -/
theorem forwardOnly_leaves (t : MemoryStore) (deed : Deed)
    (h : (forwardOnly key uid).allows t deed) : (othersLeave key uid).allows t deed := h

/-- and the clock goes forward. -/
theorem forwardOnly_le (a b : Instant) (h : (forwardOnly key uid).ticks a b) : a ≤ b := h

/-- **The run lemma**: a push that waits was received.  A delivery records its push with the time
that it read, which is past; and whoever hands a push on has it from a request that was stored. -/
theorem received_of_reaches (hinserted : Inserted store key uid)
    (hrun : Reaches (forwardOnly key uid) (startCalls call key store now) s) :
    ∀ {r push}, s.Stored key r → r.statusOrDefault.pending? = some push →
      push.receivedAt ≤ s.now := by
  let Received (s : System ι fun i => (call i).Result) (r : BuildRequest) : Prop :=
    ∀ push, r.statusOrDefault.pending? = some push → push.receivedAt ≤ s.now
  suffices h : ∀ {r}, s.Stored key r → Received s r from fun {r push} hr hpush => h hr push hpush
  refine stored_induction hinserted forwardOnly_leaves hrun ?_ ?_ (fun _ _ _ _ _ h => h)
    (fun _ _ _ _ _ h => h) ?_
  · -- no push waits at first
    intro r _ hdefault push hpush
    rw [hdefault] at hpush
    cases hpush
  · -- the clock goes on
    intro s s' r _ hnow h push hpush
    rcases hnow with hnow | hle
    · rw [hnow]
      exact h push hpush
    · exact Instant.le_trans (h push hpush) hle
  · -- a status is written: the push waited before, or its time was read
    intro s i r status n hrun _ h hchange push hpush
    rcases hchange.pending hpush with hpush | htime
    · exact h push hpush
    · have hclocked : s.Clocked fun _ => True :=
        hrun.clocked rfl trivial fun _ _ hle => ⟨hle, trivial⟩
      exact (hclocked.reading htime).1

/-- The push of an admitted start was received. -/
theorem Firing.Admitted.received (hinserted : Inserted store key uid)
    (hrun : Reaches (forwardOnly key uid) (startCalls call key store now) s) {i : ι} {f : Firing}
    (hf : f.Admitted (call i).policy key (s.acts i)) : f.push.receivedAt ≤ s.now := by
  obtain ⟨r, m, hnumbered⟩ := numbered_within hinserted forwardOnly_leaves hrun
  obtain ⟨-, hread, -⟩ := hnumbered.firing hf List.suffix_rfl
  obtain ⟨time, before, hdue, -⟩ := hf.due
  exact received_of_reaches hinserted hrun hread (pending_of_fire hdue)

/-- The acts of an evaluator that did not create the execution under this key, but found it
there. -/
def Adopted (q : ObjectKey) (acts : List Act) : Prop :=
  ∃ x y kind name before, x.key = q ∧ .getExecution q (.ok (some y)) ::
    .createExecution x (.error (.alreadyExists kind name)) :: before <:+ acts

/-- The event is the creation of an execution for a push other than this one. -/
def CreatesForOther (call : ι → ControllerCall) (key : ObjectKey) (push : PushRecord)
    (log : List (Event ι)) (c : Event ι) : Prop :=
  ∃ later earlier j f, log = later ++ c :: earlier ∧
    (∃ x created, c.cause = .act j (.createExecution x (.ok created))) ∧
    Firing.Admitted (call j).policy key f (actsOf j earlier) ∧ f.push ≠ push ∧
    f.push.receivedAt ≤ c.now

/-- Of the elements of a list at most one of which has a property, two that have it are one. -/
theorem eq_of_countP_le_one {α : Type} {p : α → Bool} {l : List α} (h : l.countP p ≤ 1) {a b : α}
    (ha : a ∈ l) (hb : b ∈ l) (hpa : p a = true) (hpb : p b = true) : a = b := by
  rw [List.countP_eq_length_filter] at h
  have ha' := List.mem_filter.mpr ⟨ha, hpa⟩
  have hb' := List.mem_filter.mpr ⟨hb, hpb⟩
  match hfilter : l.filter p with
  | [] => rw [hfilter] at ha'; exact absurd ha' List.not_mem_nil
  | [c] =>
    rw [hfilter, List.mem_singleton] at ha' hb'
    rw [ha', hb']
  | c :: d :: rest =>
    rw [hfilter, List.length_cons, List.length_cons] at h
    omega

/-- The execution of a start that may be recorded was created no earlier than the push was received,
or the evaluator found it, created for another push.  If it found one that was created for the same
push, that creation was no earlier either; and no place has two creations. -/
theorem creation_of_recordable (hinserted : Inserted store key uid)
    (hrun : Reaches (forwardOnly key uid) (startCalls call key store now) s) {i : ι} {f : Firing}
    {time : Instant} (hf : f.Recordable (call i).policy key time (s.acts i)) :
    ∃ c ∈ s.log, c.creates (pushPlace key f.counter) = true ∧
      (f.push.receivedAt ≤ c.now ∨ Adopted (pushPlace key f.counter) (s.acts i) ∧
        CreatesForOther call key f.push s.log c) := by
  have ⟨x, admitted, started, hadmitted, hx, hstarted, htime⟩ := hf
  obtain ⟨r, m, hnumbered⟩ := numbered_within hinserted forwardOnly_leaves hrun
  have hacts : started <:+ s.acts i := (List.suffix_cons _ _).trans htime
  obtain ⟨-, -, hdesired⟩ := hnumbered.firing hadmitted (hstarted.suffix.trans hacts)
  have hkey : x.key = pushPlace key f.counter := (hdesired hx).1
  cases hstarted with
  | @created w =>
    -- the evaluator created it, and the push it had read was received by then
    obtain ⟨later, c, earlier, s₁, hlog, hcause, h₁, hacts₁⟩ :=
      hrun.moment_act (obeys_startCalls call key store now) rfl hacts
    rw [← hacts₁] at hadmitted
    refine ⟨c, ?_, Event.creates_iff.mpr ⟨i, x, w, hcause, hkey⟩, Or.inl ?_⟩
    · rw [hlog]
      exact List.mem_append_right _ List.mem_cons_self
    · rw [← h₁.now_eq]
      exact hadmitted.received hinserted h₁.reaches
  | @adopted y uid' name kind huid howned =>
    obtain ⟨c, hmem, hcreates, -⟩ :=
      exists_creation hinserted forwardOnly_leaves forwardOnly_le hrun hf
    refine ⟨c, hmem, hcreates, ?_⟩
    obtain ⟨later, earlier, hlog⟩ := List.append_of_mem hmem
    obtain ⟨j, x', created, f', s₁, hcause, h₁, hadmitted', -⟩ :=
      exists_firing hinserted forwardOnly_leaves hrun hlog hcreates
    have hreceived : f'.push.receivedAt ≤ c.now := by
      rw [← h₁.now_eq]
      exact hadmitted'.received hinserted h₁.reaches
    -- created for the same push, by whoever, it was created after that push was received
    by_cases hsame : f'.push = f.push
    · exact Or.inl (hsame ▸ hreceived)
    · rw [hkey] at hacts
      rw [System.acts, h₁.log_eq] at hadmitted'
      exact Or.inr ⟨⟨x, y, kind, name, admitted, hkey, hacts⟩, later, earlier, j, f', hlog,
        ⟨x', created, hcause⟩, hadmitted', hsame, hreceived⟩

/-- **The execution that is recorded when a push is taken away.**  Whatever the order of calls, and
whichever of them fail or are answered with requests that were stored earlier, so long as the clock
does not go back: when a status write takes away the push that waits on a request that pushes build,
it records an execution that exactly one event created, and either that was no earlier than the push
was received, or the evaluator did not create the execution but found it, and it had been created
for another push. -/
theorem cleared_push_execution (hinserted : Inserted store key uid)
    (hrun : Reaches (forwardOnly key uid) (startCalls call key store now) s)
    {later earlier : List (Event ι)} {e : Event ι} (hlog : s.log = later ++ e :: earlier) {i : ι}
    {act : Act} (hcause : e.cause = .act i act) {r r' : BuildRequest} {push : PushRecord}
    (hr : e.before.requests.get? key = some r) (hr' : e.after.requests.get? key = some r')
    (hmode : r.isOnCommit = true) (hbefore : r.statusOrDefault.pending? = some push)
    (hafter : r'.statusOrDefault.pending? = none) :
    ∃ last, r'.statusOrDefault.lastTriggered? = some last ∧ ∃ c ∈ earlier,
      c.creates ⟨key.namespace, last.name⟩ = true ∧
      (∀ c' ∈ s.log, c'.creates ⟨key.namespace, last.name⟩ = true → c' = c) ∧
      (push.receivedAt ≤ c.now ∨ Adopted ⟨key.namespace, last.name⟩ (actsOf i earlier) ∧
        CreatesForOther call key push earlier c) := by
  obtain ⟨s₁, h₁⟩ := hrun.moment (obeys_startCalls call key store now) rfl hlog
  obtain ⟨hanswer, hduty⟩ := h₁.act i act hcause
  obtain ⟨r₀, m, hnumbered⟩ := numbered_within hinserted forwardOnly_leaves h₁.reaches
  rw [← h₁.store_eq] at hr
  -- the write recorded a start for the push
  obtain ⟨f, time, hf, rfl, hlast⟩ : ∃ f : Firing, ∃ time,
      f.Recordable (call i).policy key time (s₁.acts i) ∧ f.push = push ∧
      r'.statusOrDefault.lastTriggered? = some ⟨f.execution, time⟩ := by
    obtain ⟨r'', hr'', hbecomes⟩ :=
      becomes_of_duty hnumbered.versioned hnumbered.informed hr hanswer hduty
    obtain rfl := Option.some.inj (hr''.symm.trans hr')
    cases hbecomes with
    | same => cases hbefore.symm.trans hafter
    | label label value n => cases hbefore.symm.trans hafter
    | status hchange n =>
      rcases hchange.cleared hbefore hafter with hinitial | hfire
      · cases hmode.symm.trans hinitial
      · exact hfire
  have hplace : (⟨key.namespace, f.execution⟩ : ObjectKey) = pushPlace key f.counter := by
    rw [(hnumbered.recordable hf).1]
    rfl
  obtain ⟨c, hmem, hcreates, hpush⟩ := creation_of_recordable hinserted h₁.reaches hf
  rw [System.acts, h₁.log_eq] at hpush
  rw [h₁.log_eq] at hmem
  refine ⟨_, hlast, c, hmem, by rw [hplace]; exact hcreates, fun c' hc' hcreates' => ?_,
    by rw [hplace]; exact hpush⟩
  rw [hplace] at hcreates'
  obtain ⟨r₁, m₁, hnumbered₁⟩ := numbered_within hinserted forwardOnly_leaves hrun
  have hmem' : c ∈ s.log := by
    rw [hlog]
    exact List.mem_append_right _ (List.mem_cons_of_mem _ hmem)
  exact eq_of_countP_le_one (hnumbered₁.kept.once _) hc' hmem' hcreates' hcreates

end

/-! ## Runs -/

/-- A push comes in, and ten seconds later an evaluation starts an execution and records it. -/
def recordedStart : List (Choice Caller) :=
  List.replicate 5 (.serve .push) ++ [.tick (secondsIn 11)] ++
    List.replicate 6 (.serve .evaluation)

/-- The state in which that start has just been recorded. -/
def recorded : System Caller fun i => (appCalls {} i).Result := (appStart {}).play recordedStart

/-- The push was received, and then the execution was created. -/
theorem cleared_push_execution_recorded :
    ∃ e earlier last, recorded.log = e :: earlier ∧ ∃ c ∈ earlier,
      c.creates ⟨"default", last⟩ = true ∧ (secondsIn 1 ≤ c.now ∨
        Adopted ⟨"default", last⟩ (actsOf .evaluation earlier) ∧
          CreatesForOther (appCalls {}) appKey ⟨"refs/heads/main", "", secondsIn 1⟩ earlier c) := by
  -- the last event of the run is the write that takes the push away
  obtain ⟨hpermits, e, he, hactor, r, hr, r', hr', hmode, hbefore, hafter⟩ :
      Permits (forwardOnly appKey "uid-1") (appStart {}) recordedStart ∧
      ∃ e ∈ recorded.log.head?, e.actor? = some .evaluation ∧
        ∃ r ∈ e.before.requests.get? appKey, ∃ r' ∈ e.after.requests.get? appKey,
          r.isOnCommit = true ∧
          r.statusOrDefault.pending? = some ⟨"refs/heads/main", "", secondsIn 1⟩ ∧
          r'.statusOrDefault.pending? = none := by
    decide +kernel
  obtain ⟨earlier, hlog⟩ := List.head?_eq_some_iff.mp he
  obtain ⟨act, hcause⟩ := Event.actor?_eq_some.mp hactor
  have hlast : recorded.log = [] ++ e :: earlier := hlog
  obtain ⟨last, -, c, hc, hcreates, -, hpush⟩ :=
    cleared_push_execution appStore_inserted (reaches_play recordedStart hpermits) hlast
      hcause hr hr'
      hmode hbefore hafter
  exact ⟨e, earlier, last.name, hlog, c, hc, hcreates, hpush⟩

/-- The start is not recorded; another push comes in, and is recorded as started with that
execution. -/
def lateRecord : List (Choice Caller) :=
  unrecordedStart ++ [.tick (secondsIn 16)] ++ List.replicate 5 (.serve .laterPush) ++
    [.tick (secondsIn 26)] ++ List.replicate 7 (.serve .laterEvaluation)

/-- A push is taken away although the execution that is recorded was created before it was
received. -/
theorem later_push_cleared :
    Inserted appStore appKey "uid-1" ∧
    ∃ s, Reaches (forwardOnly appKey "uid-1")
        (startCalls (appCalls {}) appKey appStore (secondsIn 1)) s ∧
      ∃ e ∈ s.log, ∃ r ∈ e.before.requests.get? appKey, ∃ r' ∈ e.after.requests.get? appKey,
        ∃ push ∈ r.statusOrDefault.pending?, r'.statusOrDefault.pending? = none ∧
        ∃ last ∈ r'.statusOrDefault.lastTriggered?, ∃ c ∈ s.log,
          c.creates ⟨"default", last.name⟩ = true ∧ ¬ push.receivedAt ≤ c.now := by
  obtain ⟨hpermits, hcleared⟩ :
      Permits (forwardOnly appKey "uid-1") (appStart {}) lateRecord ∧
      ∃ e ∈ ((appStart {}).play lateRecord).log, ∃ r ∈ e.before.requests.get? appKey,
        ∃ r' ∈ e.after.requests.get? appKey, ∃ push ∈ r.statusOrDefault.pending?,
        r'.statusOrDefault.pending? = none ∧ ∃ last ∈ r'.statusOrDefault.lastTriggered?,
        ∃ c ∈ ((appStart {}).play lateRecord).log,
          c.creates ⟨"default", last.name⟩ = true ∧ ¬ push.receivedAt ≤ c.now := by
    decide +kernel
  exact ⟨appStore_inserted, _, reaches_play lateRecord hpermits, hcleared⟩

end PushBuild
