import PushBuild.Proofs.OnCommit.History
import PushBuild.Proofs.Specification.Built
import PushBuild.Proofs.Store.Generation

/-!
# The latest build

A request names its latest execution, and says what the latest one was built from that a change of
the specification started.  Any number of passes and evaluations write this, each for the request as
it had read it, which may be long ago.

1. **The order of creations.**  Of the executions of one kind none is created before those with
   smaller numbers (`builds_inOrder`, `starts_inOrder`), so numbers tell which of two is the older
   one (`InOrder.lt`).
2. **What is recorded** (`Tracked`).  An execution that is named was created, and has a number of
   its kind that is counted.
3. **Counters and generations.**  Of two requests that were stored, the one that counts more builds
   has no smaller generation (`generation_le_of_builds_lt`).
4. **The result** (`latest_build_moves`).  The name moves on to an execution that was created later,
   except in three cases: back to a build whose number had been counted, and either way between the
   two kinds, which no number compares.  And what is recorded as built is older than what was
   recorded before only if the number of the build had been counted.
5. **The exception.**  It happens: a start for a push is not recorded once its number is counted,
   but a build is, and takes the place of a later one (`latest_build_moved_back`).
-/

namespace PushBuild

open PushBuild.System

/-! ## The order of creations -/

section

variable {ι : Type} {p q : ObjectKey} {log : List (Event ι)}

/-- Of the events in a log, latest first, one created the execution under `p` before one created
that under `q`. -/
def CreatedBefore (p q : ObjectKey) : List (Event ι) → Prop
  | [] => False
  | e :: earlier =>
    (e.creates q = true ∧ ∃ c ∈ earlier, c.creates p = true) ∨ CreatedBefore p q earlier

instance CreatedBefore.decidable (p q : ObjectKey) :
    (log : List (Event ι)) → Decidable (CreatedBefore p q log)
  | [] => .isFalse id
  | _ :: earlier =>
    have := CreatedBefore.decidable p q earlier
    inferInstanceAs (Decidable (_ ∨ _))

/-- Of the order of creations, as a property of the log. -/
theorem createdBefore_iff : CreatedBefore p q log ↔ ∃ later e earlier, log = later ++ e :: earlier ∧
    e.creates q = true ∧ ∃ c ∈ earlier, c.creates p = true := by
  induction log with
  | nil =>
    refine ⟨False.elim, ?_⟩
    rintro ⟨later, e, earlier, hlog, -⟩
    cases later <;> cases hlog
  | cons a rest ih =>
    constructor
    · -- the later creation is the last event, or earlier
      rintro (⟨hq, hp⟩ | hrest)
      · exact ⟨[], a, rest, rfl, hq, hp⟩
      · obtain ⟨later, e, earlier, rfl, hcreates⟩ := ih.mp hrest
        exact ⟨a :: later, e, earlier, rfl, hcreates⟩
    · rintro ⟨later, e, earlier, hlog, hcreates⟩
      cases later with
      | nil =>
        obtain ⟨rfl, rfl⟩ := List.cons.inj hlog
        exact Or.inl hcreates
      | cons b later =>
        obtain ⟨-, hrest⟩ := List.cons.inj hlog
        exact Or.inr (ih.mpr ⟨later, e, earlier, hrest, hcreates⟩)

/-- Of two executions that were created one was created first: of two events of a log one is the
earlier one. -/
theorem createdBefore_total (hp : ∃ c ∈ log, c.creates p = true)
    (hq : ∃ c ∈ log, c.creates q = true) :
    p = q ∨ CreatedBefore p q log ∨ CreatedBefore q p log := by
  induction log with
  | nil =>
    obtain ⟨c, hc, -⟩ := hp
    cases hc
  | cons e earlier ih =>
    obtain ⟨c, hc, hcreates⟩ := hp
    obtain ⟨c', hc', hcreates'⟩ := hq
    rcases List.mem_cons.mp hc with heq | hlater <;> rcases List.mem_cons.mp hc' with heq' | hlater'
    · -- one event creates one execution
      obtain ⟨i, x, w, hcause, rfl⟩ := Event.creates_iff.mp hcreates
      obtain ⟨j, y, v, hcause', rfl⟩ := Event.creates_iff.mp hcreates'
      rw [heq'.trans heq.symm, hcause] at hcause'
      cases hcause'
      exact Or.inl rfl
    · exact Or.inr (Or.inr (Or.inl ⟨heq ▸ hcreates, c', hlater', hcreates'⟩))
    · exact Or.inr (Or.inl (Or.inl ⟨heq' ▸ hcreates', c, hlater, hcreates⟩))
    · rcases ih ⟨c, hlater, hcreates⟩ ⟨c', hlater', hcreates'⟩ with heq | hbefore | hbefore
      · exact Or.inl heq
      · exact Or.inr (Or.inl (Or.inr hbefore))
      · exact Or.inr (Or.inr (Or.inr hbefore))

/-- What was created in the end was not created before, if nothing was created twice. -/
theorem not_creates_before (honce : log.countP (·.creates q) ≤ 1) {later earlier : List (Event ι)}
    {e c : Event ι} (hlog : log = later ++ e :: earlier) (he : e.creates q = true)
    (hc : c ∈ earlier) :
    c.creates q ≠ true := by
  intro hcreates
  have hpos : 0 < earlier.countP (Event.creates q) := List.countP_pos_iff.mpr ⟨c, hc, hcreates⟩
  rw [hlog, List.countP_append, List.countP_cons_of_pos he] at honce
  omega

/-- What was created before another execution is not that execution. -/
theorem CreatedBefore.ne (h : CreatedBefore p q log) (honce : log.countP (·.creates q) ≤ 1) :
    p ≠ q := by
  rintro rfl
  obtain ⟨later, e, earlier, hlog, he, c, hc, hcreates⟩ := createdBefore_iff.mp h
  exact not_creates_before honce hlog he hc hcreates

/-- The executions in these places have numbers from one on, and none was created before all those
with smaller numbers were. -/
def InOrder (place : Int → ObjectKey) (log : List (Event ι)) : Prop :=
  ∀ later e earlier n, log = later ++ e :: earlier → e.creates (place n) = true →
    1 ≤ n ∧ ∀ m, 1 ≤ m → m < n → ∃ c ∈ earlier, c.creates (place m) = true

/-- **The older one has the smaller number.**  If its number were greater, the other one would have
been created before it. -/
theorem InOrder.lt {place : Int → ObjectKey} (h : InOrder place log)
    (honce : ∀ q, log.countP (·.creates q) ≤ 1) {m n : Int}
    (hbefore : CreatedBefore (place m) (place n) log) : m < n := by
  have hne : m ≠ n := fun heq => hbefore.ne (honce _) (heq ▸ rfl)
  obtain ⟨later, e, earlier, hlog, he, c, hc, hcreates⟩ := createdBefore_iff.mp hbefore
  obtain ⟨between, old, rfl⟩ := List.append_of_mem hc
  by_contra hge
  -- the one with the greater number came after this one, which was then created twice
  have hsplit : log = (later ++ e :: between) ++ c :: old := by
    rw [hlog, List.append_assoc, List.cons_append]
  obtain ⟨hpos, -⟩ := h _ _ _ _ hlog he
  obtain ⟨c', hc', hcreates'⟩ := (h _ _ _ _ hsplit hcreates).2 n hpos (by omega)
  refine not_creates_before (honce _) hlog he ?_ hcreates'
  exact List.mem_append_right _ (List.mem_cons_of_mem _ hc')

end

/-! ## What is recorded -/

variable {ι : Type} [DecidableEq ι] {call : ι → ControllerCall} {key : ObjectKey} {uid : String}
  {store : MemoryStore} {now : Instant} {s : System ι fun i => (call i).Result}

/-- No counter of builds was ever negative. -/
theorem builds_nonneg (hinserted : Inserted store key uid)
    (hrun : Reaches (othersLeave key uid) (startCalls call key store now) s) :
    ∀ {r}, s.Stored key r → 0 ≤ r.statusOrDefault.buildRunCounter := by
  refine stored_induction (P := fun _ r => 0 ≤ r.statusOrDefault.buildRunCounter) hinserted
    (fun _ _ h => h) hrun ?_ (fun _ _ _ _ _ h => h) (fun _ _ _ _ _ h => h) (fun _ _ _ _ _ h => h) ?_
  · exact fun r _ hdefault =>
      Int.le_of_eq (congrArg BuildRequestStatus.buildRunCounter hdefault).symm
  · exact fun s i r status n _ _ h hchange => Int.le_trans h hchange.builds_le

/-- The builds that the request counts were created, and the execution that it names has a number
that is counted. -/
structure Tracked (key : ObjectKey) (log : List (Event ι)) (r : BuildRequest) : Prop where
  built : ∀ n, 1 ≤ n → n ≤ r.statusOrDefault.buildRunCounter →
    ∃ e ∈ log, e.creates (buildPlace key n) = true
  named : ∀ name, r.statusOrDefault.lastBuildRunRef = some name →
    (∃ n, 1 ≤ n ∧ n ≤ r.statusOrDefault.buildRunCounter ∧ name = plainExecutionName key.name n) ∨
    ∃ n, 1 ≤ n ∧ n ≤ r.statusOrDefault.triggerCounter ∧ name = onCommitExecutionName key.name n

omit [DecidableEq ι] in
/-- What is known of builds stays so as more happens. -/
theorem Tracked.mono {log log' : List (Event ι)} {r : BuildRequest} (h : Tracked key log r)
    (hlog : log ⊆ log') : Tracked key log' r := by
  refine ⟨fun n hn hle => ?_, h.named⟩
  obtain ⟨e, he, hcreates⟩ := h.built n hn hle
  exact ⟨e, hlog he, hcreates⟩

/-- What a pass that may record a build had read was stored, and some event created the execution,
whose name is made from the number after the counter that was read. -/
theorem SpecBuild.Recordable.created {r : BuildRequest} {m : Int}
    (hnumbered : Numbered key uid s r m) {i : ι} {b : SpecBuild}
    (hb : b.Recordable key (s.acts i)) :
    s.Stored key b.request ∧ b.execution = plainExecutionName key.name b.counter ∧
      ∃ e ∈ s.log, e.creates (buildPlace key b.counter) = true := by
  obtain ⟨x, admitted, started, hadmitted, hx, hstarted, hacts⟩ := hb
  have hread := hnumbered.specRead hadmitted (hstarted.suffix.trans hacts)
  have hname : b.request.name = key.name :=
    congrArg ObjectKey.name (hnumbered.versioned.key_eq hread)
  have hexecution : b.execution = plainExecutionName key.name b.counter := by
    rw [SpecBuild.execution, hname]
  obtain ⟨y, hy, howned⟩ := hnumbered.there hread hx hstarted hacts
  rw [hexecution] at hy
  exact ⟨hread, hexecution, hnumbered.kept.created hy howned⟩

/-- The execution of a start that may be recorded was created by some event. -/
theorem Firing.Recordable.created {r : BuildRequest} {m : Int} (hnumbered : Numbered key uid s r m)
    {i : ι} {policy : TriggerPolicy} {f : Firing} {time : Instant}
    (hf : f.Recordable policy key time (s.acts i)) :
    ∃ e ∈ s.log, e.creates (pushPlace key f.counter) = true := by
  obtain ⟨-, hpos, hle⟩ := hnumbered.recordable hf
  obtain ⟨x, hx, howned, -⟩ := hnumbered.numbered hpos hle
  exact hnumbered.kept.created hx howned

/-- The step lemma: a status write. -/
theorem Tracked.change (hinserted : Inserted store key uid)
    (hrun : Reaches (othersLeave key uid) (startCalls call key store now) s) {i : ι}
    {r : BuildRequest} {status : BuildRequestStatus} (hr : s.store.requests.get? key = some r)
    (h : Tracked key s.log r) (hrewrites : Rewrites (call i).policy key (s.acts i) r status)
    (n : Nat) :
    Tracked key s.log ((r.restated status).withVersion n) := by
  obtain ⟨r₀, m, hnumbered⟩ := numbered_of_reaches hinserted hrun
  obtain rfl := Option.some.inj (hnumbered.current.symm.trans hr)
  have hle : r₀.statusOrDefault.triggerCounter ≤ status.triggerCounter :=
    (hnumbered.succeeds_of_change hrewrites.triggerChange n).counter_le
  cases hrewrites.buildChange with
  | unrelated href _ hbuilds =>
    refine ⟨fun n hn hcount => h.built n hn (Int.le_trans hcount (Int.le_of_eq hbuilds)),
      fun name hname => ?_⟩
    -- what was named before is still counted
    rcases h.named name (href ▸ hname) with ⟨n, hn, hcount, hplain⟩ | ⟨n, hn, hcount, hpush⟩
    · exact Or.inl ⟨n, hn, Int.le_trans hcount (Int.le_of_eq hbuilds.symm), hplain⟩
    · exact Or.inr ⟨n, hn, Int.le_trans hcount hle, hpush⟩
  | fire f hf _ hcounter href _ hbuilds =>
    obtain ⟨hexecution, hpos, -⟩ := hnumbered.recordable hf
    refine ⟨fun n hn hcount => h.built n hn (Int.le_trans hcount (Int.le_of_eq hbuilds)),
      fun name hname => Or.inr ⟨f.counter, hpos, ?_, ?_⟩⟩
    · show f.counter ≤ status.triggerCounter
      omega
    · rw [← hexecution]
      exact Option.some.inj (hname.symm.trans href)
  | build b hb hstatus =>
    obtain rfl := Option.some.inj hstatus
    obtain ⟨hread, hexecution, hcreated⟩ := hb.created hnumbered
    have hnonneg := builds_nonneg hinserted hrun hread
    have hcounted := (hnumbered.counter_le hread).2
    have hnext : b.counter = b.request.statusOrDefault.buildRunCounter + 1 := rfl
    refine ⟨fun n hn hcount => ?_, fun name hname => Or.inl ⟨b.counter, by omega,
      Int.le_max_right _ _, (Option.some.inj hname).symm.trans hexecution⟩⟩
    -- the only number that may be new is that of the build
    have hcount : n ≤ max r₀.statusOrDefault.buildRunCounter b.counter := hcount
    by_cases hold : n ≤ r₀.statusOrDefault.buildRunCounter
    · exact h.built n hn hold
    · have hnew : n = b.counter := by omega
      exact hnew ▸ hcreated

/-- **The run lemma**: every request that was ever stored is tracked. -/
theorem tracked_of_reaches (hinserted : Inserted store key uid)
    (hrun : Reaches (othersLeave key uid) (startCalls call key store now) s) :
    ∀ {r}, s.Stored key r → Tracked key s.log r := by
  refine stored_of_rewrites (P := fun s r => Tracked key s.log r) hinserted (fun _ _ h => h) hrun ?_
    (fun _ _ _ hlog _ h => h.mono hlog) (fun _ _ _ _ _ h => ⟨h.built, h.named⟩)
    (fun _ _ _ _ _ h => ⟨h.built, h.named⟩) ?_
  · -- nothing is counted or named at first
    intro r _ hdefault
    refine ⟨fun n hn hcount => ?_, fun name hname => ?_⟩
    · rw [hdefault] at hcount
      have hcount : n ≤ 0 := hcount
      omega
    · rw [hdefault] at hname
      cases hname
  · exact fun s i r status n hrun hr h hrewrites => h.change hinserted hrun hr hrewrites n

/-- Builds are created in the order of their numbers. -/
theorem builds_inOrder (hinserted : Inserted store key uid)
    (hrun : Reaches (othersLeave key uid) (startCalls call key store now) s) :
    InOrder (buildPlace key) s.log := by
  intro later e earlier n hlog hcreates
  obtain ⟨i, x, w, hcause, hkey⟩ := Event.creates_iff.mp hcreates
  obtain ⟨s₁, h₁⟩ := hrun.moment (obeys_startCalls call key store now) rfl hlog
  obtain ⟨r, m, hnumbered⟩ := numbered_of_reaches hinserted h₁.reaches
  obtain ⟨-, ⟨f, hadmitted, hx⟩ | ⟨b, hadmitted, hx⟩⟩ := h₁.act i _ hcause
  · obtain ⟨-, -, hdesired⟩ := hnumbered.firing hadmitted List.suffix_rfl
    have hname := congrArg ObjectKey.name (hkey.symm.trans (hdesired hx).1)
    exact absurd hname (plainExecutionName_ne_onCommit _ _ _)
  · -- all numbers up to the counter that the pass had read were created
    obtain ⟨hplace, -⟩ := hnumbered.specBuild hadmitted List.suffix_rfl hx
    have hn : n = b.counter :=
      plainExecutionName_inj.mp (congrArg ObjectKey.name (hkey.symm.trans hplace))
    have hread := hnumbered.specRead hadmitted List.suffix_rfl
    have hnonneg := builds_nonneg hinserted h₁.reaches hread
    have hnext : b.counter = b.request.statusOrDefault.buildRunCounter + 1 := rfl
    refine ⟨by omega, fun k hk hlt => ?_⟩
    rw [← h₁.log_eq]
    exact (tracked_of_reaches hinserted h₁.reaches hread).built k hk (by omega)

/-- The executions that pushes start are created in the order of their numbers.  The number of a
start follows a counter that was stored, and all numbers up to that one have their executions. -/
theorem starts_inOrder (hinserted : Inserted store key uid)
    (hrun : Reaches (othersLeave key uid) (startCalls call key store now) s) :
    InOrder (pushPlace key) s.log := by
  intro later e earlier n hlog hcreates
  obtain ⟨i, x, created, f, s₁, -, h₁, hadmitted, hcounter⟩ :=
    exists_firing hinserted (fun _ _ h => h) hrun hlog hcreates
  obtain ⟨r, m, hnumbered⟩ := numbered_of_reaches hinserted h₁.reaches
  obtain ⟨-, hread, -⟩ := hnumbered.firing hadmitted List.suffix_rfl
  have hnonneg := hnumbered.counter_nonneg hread
  have hle := (hnumbered.counter_le hread).1
  have hlast := hnumbered.last.1
  have hnext : f.counter = f.request.statusOrDefault.triggerCounter + 1 := rfl
  refine ⟨by omega, fun k hk hlt => ?_⟩
  obtain ⟨y, hy, howned, -⟩ := hnumbered.numbered hk (by omega)
  rw [← h₁.log_eq]
  exact hnumbered.kept.created hy howned

/-! ## Counters and generations -/

/-- **Of two requests that were stored, the one that counts more builds has no smaller generation.**
The request that was stored last has the greatest counter and the greatest generation; so, by
induction on the run, it is never the one that counts less. -/
theorem generation_le_of_builds_lt (hinserted : Inserted store key uid)
    (hrun : Reaches (othersLeave key uid) (startCalls call key store now) s) {r r' : BuildRequest}
    (hr : s.Stored key r) (hr' : s.Stored key r')
    (hlt : r.statusOrDefault.buildRunCounter < r'.statusOrDefault.buildRunCounter) :
    r.generation ≤ r'.generation := by
  obtain ⟨first, hfirst, -⟩ := hinserted.request
  -- the request that was stored last has the greatest counter and the greatest generation
  have hlatest : ∀ {s s' : System ι fun i => (call i).Result},
      Reaches (othersLeave key uid) (startCalls call key store now) s' →
      s'.past = s'.store :: s.past →
      (s.Stored key r → s.Stored key r' → r.generation ≤ r'.generation) →
      s'.Stored key r → s'.Stored key r' → r.generation ≤ r'.generation := by
    intro s s' hrun hpast ih hr hr'
    obtain ⟨r₁, m, hnumbered⟩ := numbered_of_reaches hinserted hrun
    obtain ⟨r₂, hgenerations⟩ := hrun.generations hfirst fun _ _ h => h.1
    rcases (stored_cons hpast).mp hr' with hnow | hbefore'
    · obtain rfl := Option.some.inj (hgenerations.current.symm.trans hnow)
      exact hgenerations.le hr
    · rcases (stored_cons hpast).mp hr with hnow | hbefore
      · obtain rfl := Option.some.inj (hnumbered.current.symm.trans hnow)
        have hle := (hnumbered.counter_le hr').2
        omega
      · exact ih hbefore hbefore'
  induction hrun with
  | refl =>
    obtain ⟨t, ht, hr⟩ := hr
    obtain ⟨t', ht', hr'⟩ := hr'
    rw [List.mem_singleton.mp ht] at hr
    rw [List.mem_singleton.mp ht'] at hr'
    exact Int.le_of_eq (congrArg BuildRequest.generation (Option.some.inj (hr.symm.trans hr')))
  | step hrun hstep ih =>
    have hreached := hrun.step hstep
    cases hstep with
    | act answer t hpool hanswer => exact hlatest hreached rfl ih hr hr'
    | deed d hd => exact hlatest hreached rfl ih hr hr'
    | tick n hn => exact ih hr hr'

/-! ## The result -/

/-- The event records a build: the program that acts might do so, and the status after the event is
the one before it with the execution and what it builds. -/
def Event.RecordsBuild (key : ObjectKey) (b : SpecBuild) (earlier : List (Event ι)) (e : Event ι) :
    Prop :=
  ∃ i r r', e.actor? = some i ∧ b.Recordable key (actsOf i earlier) ∧
    e.before.requests.get? key = some r ∧ e.after.requests.get? key = some r' ∧
    recordBuild b.execution b.counter b.request.spec.snapshot r r.statusOrDefault =
      some r'.statusOrDefault

/-- The number of a build that was recorded is counted. -/
theorem Event.RecordsBuild.counted (hinserted : Inserted store key uid)
    (hrun : Reaches (othersLeave key uid) (startCalls call key store now) s)
    {later earlier : List (Event ι)} {e : Event ι} (hlog : s.log = later ++ e :: earlier)
    {b : SpecBuild} (hb : e.RecordsBuild key b earlier) {r : BuildRequest}
    (hr : s.store.requests.get? key = some r) :
    s.Stored key b.request ∧ b.counter ≤ r.statusOrDefault.buildRunCounter := by
  obtain ⟨i, r₀, r₁, -, hrecordable, -, hafter, hstatus⟩ := hb
  obtain ⟨r₂, m, hnumbered⟩ := numbered_of_reaches hinserted hrun
  obtain rfl := Option.some.inj (hnumbered.current.symm.trans hr)
  have hacts : actsOf i earlier <:+ s.acts i := by
    rw [System.acts, hlog]
    exact List.IsSuffix.filterMap _ ((List.suffix_cons _ _).trans (List.suffix_append _ _))
  have hmem : e ∈ s.log := by
    rw [hlog]
    exact List.mem_append_right _ List.mem_cons_self
  -- the request after the event counts the build, and what is stored now counts no less
  have hstored : s.Stored key r₁ := ⟨e.after, hrun.after_mem_past rfl hmem, hafter⟩
  have hcounted := (hnumbered.counter_le hstored).2
  have hmax : b.counter ≤ r₁.statusOrDefault.buildRunCounter := by
    rw [← Option.some.inj hstatus]
    exact Int.le_max_right _ _
  exact ⟨((hrecordable.mono hacts).created hnumbered).1, Int.le_trans hmax hcounted⟩

/-- Who changes what is recorded of builds. -/
theorem exists_buildChange (hinserted : Inserted store key uid) {e : Event ι}
    {earlier : List (Event ι)} {s₁ : System ι fun i => (call i).Result}
    (h₁ : CallMoment (othersLeave key uid) call key store now e earlier s₁) {r r' : BuildRequest}
    (hr : e.before.requests.get? key = some r) (hr' : e.after.requests.get? key = some r')
    (hchanged : r'.statusOrDefault ≠ r.statusOrDefault) :
    ∃ i, e.actor? = some i ∧
      BuildChange (call i).policy key (s₁.acts i) r r'.statusOrDefault := by
  obtain ⟨r₁, m, hnumbered⟩ := numbered_of_reaches hinserted h₁.reaches
  obtain ⟨i, act, hcause, hduty, hrewrites⟩ :=
    h₁.status_changed hnumbered.versioned hnumbered.informed
    (fun _ h => h.1) hr hr' hchanged
  exact ⟨i, Event.actor?_eq_some.mpr ⟨act, hcause⟩, (hrewrites _ hduty).buildChange⟩

/-- An execution that a request names was created. -/
theorem exists_named (hinserted : Inserted store key uid)
    (hrun : Reaches (othersLeave key uid) (startCalls call key store now) s) {r : BuildRequest}
    (hr : s.Stored key r) {name : String} (hname : r.statusOrDefault.lastBuildRunRef = some name) :
    ∃ c ∈ s.log, c.creates ⟨key.namespace, name⟩ = true := by
  have htracked := tracked_of_reaches hinserted hrun hr
  rcases htracked.named name hname with ⟨n, hn, hcount, rfl⟩ | ⟨n, hn, hcount, rfl⟩
  · exact htracked.built n hn hcount
  · obtain ⟨r₁, m, hnumbered⟩ := numbered_of_reaches hinserted hrun
    have hle := (hnumbered.counter_le hr).1
    have hlast := hnumbered.last.1
    obtain ⟨x, hx, howned, -⟩ := hnumbered.numbered hn (by omega)
    exact hnumbered.kept.created hx howned

/-- An execution that is named then was created before. -/
theorem BuildChange.created {r : BuildRequest} {m : Int} (hnumbered : Numbered key uid s r m)
    {i : ι} {policy : TriggerPolicy} {status : BuildRequestStatus}
    (h : BuildChange policy key (s.acts i) r status) {name : String}
    (hname : status.lastBuildRunRef = some name) :
    r.statusOrDefault.lastBuildRunRef = some name ∨
      ∃ c ∈ s.log, c.creates ⟨key.namespace, name⟩ = true := by
  cases h with
  | unrelated href _ _ => exact Or.inl (href ▸ hname)
  -- an execution that was started for a push
  | fire f hf _ _ href _ _ =>
    obtain ⟨hexecution, -, -⟩ := hnumbered.recordable hf
    rw [Option.some.inj (hname.symm.trans href), hexecution]
    exact Or.inr (hf.created hnumbered)
  -- an execution for a change of the specification
  | build b hb hstatus =>
    obtain rfl := Option.some.inj hstatus
    obtain ⟨-, hexecution, hcreated⟩ := hb.created hnumbered
    rw [← Option.some.inj hname, hexecution]
    exact Or.inr hcreated

/-- **The cases in which an older execution is named.**  It is never one that was started for a
push, if the one before it was too: such a start is not recorded once its number is counted. -/
theorem BuildChange.back (hinserted : Inserted store key uid)
    (hrun : Reaches (othersLeave key uid) (startCalls call key store now) s) {i : ι}
    {r : BuildRequest} {status : BuildRequestStatus} (hr : s.store.requests.get? key = some r)
    (h : BuildChange (call i).policy key (s.acts i) r status) {a b : String}
    (ha : r.statusOrDefault.lastBuildRunRef = some a) (hb : status.lastBuildRunRef = some b)
    (hback : CreatedBefore ⟨key.namespace, b⟩ ⟨key.namespace, a⟩ s.log) :
    (∃ n m, a = plainExecutionName key.name n ∧ b = plainExecutionName key.name m ∧ m < n ∧
      n ≤ r.statusOrDefault.buildRunCounter) ∨
    (∃ n m, a = onCommitExecutionName key.name n ∧ b = plainExecutionName key.name m) ∨
    ∃ n m, a = plainExecutionName key.name n ∧ b = onCommitExecutionName key.name m ∧
      r.statusOrDefault.triggerCounter ≤ m := by
  obtain ⟨r₁, last, hnumbered⟩ := numbered_of_reaches hinserted hrun
  obtain rfl := Option.some.inj (hnumbered.current.symm.trans hr)
  have hnamed := (tracked_of_reaches hinserted hrun (stored_of_get? hr)).named a ha
  cases h with
  | unrelated href _ _ =>
    have hsame : a = b := Option.some.inj (ha.symm.trans (href.symm.trans hb))
    exact absurd (by rw [hsame]) (hback.ne (hnumbered.kept.once _))
  | fire f hf hfirst _ href _ _ =>
    have hle : r₁.statusOrDefault.triggerCounter ≤ f.counter := by
      have hmax := hnumbered.fire_counter hf hfirst
      omega
    have hb : b = onCommitExecutionName key.name f.counter :=
      (Option.some.inj (hb.symm.trans href)).trans (hnumbered.recordable hf).1
    rcases hnamed with ⟨n, -, -, ha⟩ | ⟨n, -, hcount, ha⟩
    · exact Or.inr (Or.inr ⟨n, f.counter, ha, hb, hle⟩)
    · -- the start has a number that is not counted, or it is the last one
      rw [ha, hb] at hback
      have hlt : f.counter < n := (starts_inOrder hinserted hrun).lt hnumbered.kept.once hback
      omega
  | build build hbuild hstatus =>
    obtain rfl := Option.some.inj hstatus
    have hb : b = plainExecutionName key.name build.counter :=
      (Option.some.inj hb).symm.trans (hbuild.created hnumbered).2.1
    rcases hnamed with ⟨n, -, hcount, ha⟩ | ⟨n, -, -, ha⟩
    · rw [ha, hb] at hback
      have hlt : build.counter < n := (builds_inOrder hinserted hrun).lt hnumbered.kept.once hback
      exact Or.inl ⟨n, build.counter, ha, hb, hlt, hcount⟩
    · exact Or.inr (Or.inl ⟨n, build.counter, ha, hb⟩)

/-- **How the record of the latest build moves.**  Whatever the order of passes, evaluations and
deliveries for a request that was inserted without status, whatever others do meanwhile, and
whichever calls fail or are answered with what was stored earlier.  The execution that is named is
replaced only by one that was created after it, or by a build for a change of the specification,
over one with a greater number, which the request had counted; or one of the two is a build and the
other was started for a push, and if that one is named then, no later start was recorded.  And what
was built is recorded only with a build of a request that was stored, whose generation is no less
than that of any build recorded before, unless the request had counted the number of the build. -/
theorem latest_build_moves (hinserted : Inserted store key uid)
    (hrun : Reaches (othersLeave key uid) (startCalls call key store now) s)
    {later earlier : List (Event ι)} {e : Event ι} (hlog : s.log = later ++ e :: earlier)
    {r r' : BuildRequest} (hr : e.before.requests.get? key = some r)
    (hr' : e.after.requests.get? key = some r') :
    (∀ a b, r.statusOrDefault.lastBuildRunRef = some a →
      r'.statusOrDefault.lastBuildRunRef = some b →
      a = b ∨ CreatedBefore ⟨key.namespace, a⟩ ⟨key.namespace, b⟩ earlier ∨
      CreatedBefore ⟨key.namespace, b⟩ ⟨key.namespace, a⟩ earlier ∧
        ((∃ n m, a = plainExecutionName key.name n ∧ b = plainExecutionName key.name m ∧ m < n ∧
            n ≤ r.statusOrDefault.buildRunCounter) ∨
          (∃ n m, a = onCommitExecutionName key.name n ∧ b = plainExecutionName key.name m) ∨
          ∃ n m, a = plainExecutionName key.name n ∧ b = onCommitExecutionName key.name m ∧
            r.statusOrDefault.triggerCounter ≤ m)) ∧
    (r'.statusOrDefault.lastBuildSpec ≠ r.statusOrDefault.lastBuildSpec →
      ∃ b, e.RecordsBuild key b earlier ∧ s.Stored key b.request ∧
        r'.statusOrDefault.lastBuildSpec = some b.request.spec.snapshot ∧
        ∀ since e' old b', earlier = since ++ e' :: old → e'.RecordsBuild key b' old →
          r.statusOrDefault.buildRunCounter < b.counter →
          b'.request.generation ≤ b.request.generation) := by
  obtain ⟨s₁, h₁⟩ := hrun.moment (obeys_startCalls call key store now) rfl hlog
  obtain ⟨r₁, m, hnumbered⟩ := numbered_of_reaches hinserted h₁.reaches
  have hcurrent : s₁.store.requests.get? key = some r := h₁.store_eq ▸ hr
  obtain rfl := Option.some.inj (hnumbered.current.symm.trans hcurrent)
  have hstored : s₁.Stored key r₁ := stored_of_get? hcurrent
  refine ⟨fun a b ha hb => ?_, fun hnew => ?_⟩
  · by_cases hsame : a = b
    · exact Or.inl hsame
    · refine Or.inr ?_
      obtain ⟨i, -, hchange⟩ := exists_buildChange hinserted h₁ hr hr' fun heq =>
        hsame (Option.some.inj (ha.symm.trans (heq ▸ hb)))
      -- both were created before, so one was created first
      have hcreated := exists_named hinserted h₁.reaches hstored ha
      have hcreated' := (hchange.created hnumbered hb).resolve_left fun hb =>
        hsame (Option.some.inj (ha.symm.trans hb))
      rw [← h₁.log_eq]
      rcases createdBefore_total hcreated hcreated' with heq | hforth | hback
      · exact absurd (congrArg ObjectKey.name heq) hsame
      · exact Or.inl hforth
      · exact Or.inr ⟨hback, hchange.back hinserted h₁.reaches hcurrent ha hb hback⟩
  · obtain ⟨i, hactor, hchange⟩ := exists_buildChange hinserted h₁ hr hr' fun heq =>
      hnew (heq ▸ rfl)
    cases hchange with
    | unrelated _ hspec _ => exact absurd hspec hnew
    | fire _ _ _ _ _ hspec _ => exact absurd hspec hnew
    | build b hb hstatus =>
      obtain ⟨hread, -, -⟩ := hb.created hnumbered
      have hacts : b.Recordable key (actsOf i earlier) := by
        rw [System.acts, h₁.log_eq] at hb
        exact hb
      refine ⟨b, ⟨i, r₁, r', hactor, hacts, hr, hr', hstatus⟩, h₁.stored hlog hread, ?_, ?_⟩
      · rw [← Option.some.inj hstatus]
      · intro since e' old b' hsplit hrecorded huncounted
        obtain ⟨hread', hcounted⟩ :=
          hrecorded.counted hinserted h₁.reaches (h₁.log_eq.trans hsplit) hcurrent
        -- the build recorded before was started from a request that counted fewer
        refine generation_le_of_builds_lt hinserted h₁.reaches hread' hread ?_
        have hnext : b.counter = b.request.statusOrDefault.buildRunCounter + 1 := rfl
        have hnext' : b'.counter = b'.request.statusOrDefault.buildRunCounter + 1 := rfl
        omega

/-! ## A run -/

/-- Three passes over one request before their first calls. -/
def threePasses : System (Fin 3) fun _ => Except BuildError ReconcileOutcome :=
  startCalls (fun _ => .reconcile {}) appKey plainStore (secondsIn 1)

/-- The first pass has read the request when the second one builds it, the specification changes,
and the third pass builds it again; then the first one finds the execution of the second and records
it. -/
def overtakenPass : List (Choice (Fin 3)) :=
  List.replicate 5 (.serve 0) ++ List.replicate 13 (.serve 1) ++
    [.deed (.updateSpec appKey releaseSpec)] ++ List.replicate 14 (.serve 2) ++
    List.replicate 4 (.serve 0)

/-- The first build is older than the second, whose number is counted when the first one takes its
place; and what is recorded as built is recorded with a build of a request that was stored. -/
theorem latest_build_moves_overtaken :
    ∃ e earlier, (threePasses.play overtakenPass).log = e :: earlier ∧
      (∃ r ∈ e.before.requests.get? appKey, 2 ≤ r.statusOrDefault.buildRunCounter) ∧
      CreatedBefore (buildPlace appKey 1) (buildPlace appKey 2) earlier ∧
      ∃ b, e.RecordsBuild appKey b earlier ∧
        (threePasses.play overtakenPass).Stored appKey b.request ∧
        b.request.spec.snapshot = ⟨"u", "main", "i"⟩ := by
  -- the last event of the run is the write by which the first build takes the place of the second
  obtain ⟨hpermits, hnever, e, he, r, hr, r', hr', ha, hb, hspec, hspec'⟩ :
      Permits (othersLeave appKey "uid-1") threePasses overtakenPass ∧
      ¬ CreatedBefore (buildPlace appKey 2) (buildPlace appKey 1)
        (threePasses.play overtakenPass).log ∧
      ∃ e ∈ (threePasses.play overtakenPass).log.head?, ∃ r ∈ e.before.requests.get? appKey,
        ∃ r' ∈ e.after.requests.get? appKey,
        r.statusOrDefault.lastBuildRunRef = some (plainExecutionName appKey.name 2) ∧
        r'.statusOrDefault.lastBuildRunRef = some (plainExecutionName appKey.name 1) ∧
        r'.statusOrDefault.lastBuildSpec ≠ r.statusOrDefault.lastBuildSpec ∧
        r'.statusOrDefault.lastBuildSpec = some ⟨"u", "main", "i"⟩ := by
    decide +kernel
  obtain ⟨earlier, hlog⟩ := List.head?_eq_some_iff.mp he
  have hlast : (threePasses.play overtakenPass).log = [] ++ e :: earlier := hlog
  obtain ⟨hnames, hbuilds⟩ :=
    latest_build_moves plainStore_inserted (reaches_play overtakenPass hpermits) hlast hr hr'
  obtain ⟨b, hrecords, hstored, hsnapshot, -⟩ := hbuilds hspec
  -- of the cases in which an older execution is named only that of two builds has these names
  obtain ⟨hback, hcounted⟩ : CreatedBefore (buildPlace appKey 1) (buildPlace appKey 2) earlier ∧
      2 ≤ r.statusOrDefault.buildRunCounter := by
    rcases hnames _ _ ha hb with hsame | hforth | ⟨hback, ⟨n, m, hn, -, -, hcount⟩ | ⟨n, m, hn, -⟩ |
      ⟨n, m, -, hm, -⟩⟩
    · exact absurd (plainExecutionName_inj.mp hsame) (by decide)
    · exact absurd (hlog ▸ Or.inr hforth) hnever
    · exact ⟨hback, plainExecutionName_inj.mp hn ▸ hcount⟩
    · exact absurd hn (plainExecutionName_ne_onCommit _ _ _)
    · exact absurd hm (plainExecutionName_ne_onCommit _ _ _)
  exact ⟨e, earlier, hlog, ⟨r, hr, hcounted⟩, hback, b, hrecords, hstored,
    Option.some.inj (hsnapshot.symm.trans hspec')⟩

/-- The name of the latest execution goes from the second build back to the first, which was created
before it; and what is recorded as built goes from the specification of the second generation back
to that of the first. -/
theorem latest_build_moved_back :
    Inserted plainStore appKey "uid-1" ∧
    ∃ s, Reaches (othersLeave appKey "uid-1") (startCalls (fun _ : Fin 3 => .reconcile {})
        appKey plainStore (secondsIn 1)) s ∧
      ∃ e ∈ s.log, ∃ r ∈ e.before.requests.get? appKey, ∃ r' ∈ e.after.requests.get? appKey,
        (∃ a ∈ r.statusOrDefault.lastBuildRunRef, ∃ b ∈ r'.statusOrDefault.lastBuildRunRef,
          CreatedBefore ⟨"default", b⟩ ⟨"default", a⟩ s.log) ∧
        ∃ first ∈ plainStore.requests.get? appKey, first.generation < r.generation ∧
          first.spec.snapshot ≠ r.spec.snapshot ∧
          r.statusOrDefault.lastBuildSpec = some r.spec.snapshot ∧
          r'.statusOrDefault.lastBuildSpec = some first.spec.snapshot := by
  obtain ⟨hpermits, hback⟩ :
      Permits (othersLeave appKey "uid-1") threePasses overtakenPass ∧
      ∃ e ∈ (threePasses.play overtakenPass).log, ∃ r ∈ e.before.requests.get? appKey,
        ∃ r' ∈ e.after.requests.get? appKey,
        (∃ a ∈ r.statusOrDefault.lastBuildRunRef, ∃ b ∈ r'.statusOrDefault.lastBuildRunRef,
          CreatedBefore ⟨"default", b⟩ ⟨"default", a⟩ (threePasses.play overtakenPass).log) ∧
        ∃ first ∈ plainStore.requests.get? appKey, first.generation < r.generation ∧
          first.spec.snapshot ≠ r.spec.snapshot ∧
          r.statusOrDefault.lastBuildSpec = some r.spec.snapshot ∧
          r'.statusOrDefault.lastBuildSpec = some first.spec.snapshot := by
    decide +kernel
  exact ⟨plainStore_inserted, _, reaches_play overtakenPass hpermits, hback⟩

end PushBuild
