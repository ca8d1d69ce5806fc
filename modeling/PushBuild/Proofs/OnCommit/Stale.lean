import PushBuild.Proofs.Interleaving.Course
import PushBuild.Proofs.OnCommit.Flight
import PushBuild.Proofs.OnCommit.Pending
import PushBuild.Proofs.Recovery.Resume

/-!
# Pushes from before a change of mode

A request that pushes build may be changed to one that they do not build, and back.  A pass that
finds it in the other mode drops the push that waits, so that it is not built when the mode is
changed back.

1. **Waiting.**  A push that waits after an occurrence waited before it, or the occurrence is a
   delivery that recorded it (`World.Serves.waiting_after`).
2. **Dropping.**  After a pass that went through in the other mode, no push waits
   (`World.Serves.dropped`).
3. **The result** (`stale_push_not_fired`).  So a push that is fired later was recorded after the
   pass.
4. **Passes that are blocked.**  A pass may succeed without going through: it records what blocks
   it, and stops before it drops anything.  Then a push from before is fired (`stale_push_fired`).
-/

namespace PushBuild

/-! ## Waiting -/

/-- Others neither hamper the store nor put another request in the place of the one under `key`. -/
def Calm (key : ObjectKey) (_ : World) (o : Occurrence) : Prop :=
  ∀ deed, o = .deed deed → ¬ deed.Hampers ∧ ¬ deed.Inserts key

section

variable {key : ObjectKey} {w : World} {p : PushRecord}

/-- What a call that is no delivery writes leaves the push that waits, or none. -/
theorem PushWrite.leaves_or_drops {c : ControllerCall}
    (hc : ∀ d retry providers, c ≠ .accept d retry providers) {before : List Act}
    {r : BuildRequest} {status : BuildRequestStatus} (h : PushWrite c key before key r status) :
    status.pending? = r.statusOrDefault.pending? ∨ status.pending? = none := by
  rw [BuildRequestStatus.pending?_eq, BuildRequestStatus.pending?_eq]
  cases h with
  | unrelated hstate =>
    rw [BuildRequestStatus.trigger, hstate]
    exact Or.inl rfl
  | push hcall _ _ _ _ => exact absurd hcall (hc _ _ _)
  | fire f _ _ hstate =>
    rw [BuildRequestStatus.trigger_of_some hstate, OnCommitStatus.applyFire]
    -- a start takes its own push away, or none
    split
    · exact Or.inr rfl
    · exact Or.inl rfl
  | retire _ hstate =>
    rw [BuildRequestStatus.trigger, hstate, OnCommitStatus.retired]
    split <;> exact Or.inr rfl

/-- An evaluation and a pass leave the push that waits, or none.  This is an invariant of the
request while the program is alone: each of its writes leaves what the one before left, or
nothing. -/
theorem World.Serves.waiting_call (h : w.Serves key) {c : ControllerCall}
    (hc : ∀ d retry providers, c ≠ .accept d retry providers)
    (hp : (w.after key (.call c)).store.waiting? key = some p) : w.store.waiting? key = some p := by
  obtain ⟨r, hr⟩ := h.present
  have hends : (c.program key).Ends w.now False (fun _ t => ∃ r', t.requests.get? key = some r' ∧
      (r'.statusOrDefault.pending? = r.statusOrDefault.pending? ∨
        r'.statusOrDefault.pending? = none)) w.store := by
    refine (c.obeys_pushDuty key).ends_request
      (W := fun before r status => PushWrite c key before key r status)
      h.made.wellFormed hr (Or.inl rfl) ?_ (fun _ _ _ _ h => h) ?_
    · rintro acts request answer ⟨k, r, status, before, hacts, hrequest, hwrite⟩
      exact ⟨k, r, status, before, hacts, hrequest, fun hk => hk ▸ hwrite⟩
    · intro before r' status n _ hwrite hR
      rcases hwrite.leaves_or_drops hc with hleft | hdropped
      · exact hR.imp hleft.trans hleft.trans
      · exact Or.inr hdropped
  obtain ⟨r', hr', hpending⟩ := hends.perform
  rw [show (w.after key (.call c)).store.waiting? key = r'.statusOrDefault.pending? from
    MemoryStore.waiting?_of_get? hr'] at hp
  rw [MemoryStore.waiting?_of_get? hr]
  rcases hpending with hsame | hnone
  · exact hsame.symm.trans hp
  · cases hnone.symm.trans hp

/-- **The step lemma** of pushes that wait.  A delivery may record one; evaluations, passes and
others add none. -/
theorem World.Serves.waiting_after (h : w.Serves key) {o : Occurrence} (ho : Calm key w o)
    (hp : (w.after key o).store.waiting? key = some p) :
    w.store.waiting? key = some p ∨ w.recorded? key o = some p := by
  cases o with
  | call c =>
    cases c with
    | accept d retry providers =>
      by_cases hsame : (w.after key (.call (.accept d retry providers))).store.requests.get? key =
          w.store.requests.get? key
      · refine Or.inl ?_
        rw [MemoryStore.waiting?, ← hsame]
        exact hp
      · refine Or.inr ?_
        rw [World.recorded?, if_neg hsame]
        exact hp
    | coordinate policy retry => exact Or.inl (h.waiting_call (fun _ _ _ hc => by cases hc) hp)
    | reconcile settings => exact Or.inl (h.waiting_call (fun _ _ _ hc => by cases hc) hp)
  | deed deed =>
    -- others leave the status alone
    obtain ⟨r, hr⟩ := h.present
    obtain ⟨r', hr', hcases⟩ := Deed.request hr (ho deed rfl).2
    have hpending : r'.statusOrDefault.pending? = r.statusOrDefault.pending? := by
      rcases hcases with rfl | ⟨_, _, _, rfl⟩ | ⟨_, _, -, rfl⟩ <;> rfl
    refine Or.inl ?_
    rw [MemoryStore.waiting?_of_get? hr, ← hpending]
    exact (MemoryStore.waiting?_of_get? hr').symm.trans hp
  | tick now => exact Or.inl hp

/-- The store goes on to serve. -/
theorem World.Serves.course (h : w.Serves key) {os : List Occurrence}
    (hos : w.Permits (Calm key) key os) : (w.course key os).Serves key := by
  induction os with
  | nil => exact h
  | cons o earlier ih => exact (ih hos.2).after hos.1

/-- **The run lemma**: where no push waits, one that waits later was recorded since. -/
theorem World.Serves.waiting_since (h : w.Serves key) (hnone : w.store.waiting? key = none)
    {os : List Occurrence} (hos : w.Permits (Calm key) key os)
    (hp : (w.course key os).store.waiting? key = some p) :
    ∃ later o earlier, os = later ++ o :: earlier ∧
      (w.course key earlier).recorded? key o = some p := by
  induction os with
  | nil => cases hnone.symm.trans hp
  | cons o earlier ih =>
    rcases (h.course hos.2).waiting_after hos.1 hp with hp | hp
    · obtain ⟨later, o', earlier', rfl, hrecorded⟩ := ih hos.2 hp
      exact ⟨o :: later, o', earlier', rfl, hrecorded⟩
    · exact ⟨[], o, earlier, rfl, hp⟩

end

/-! ## Dropping -/

/-- The request says that a pass was blocked. -/
def BuildRequest.IsBlocked (r : BuildRequest) : Prop :=
  ∃ c ∈ Condition.find? r.statusOrDefault.conditions Condition.ready, c.status = .false

instance (r : BuildRequest) : Decidable r.IsBlocked :=
  inferInstanceAs (Decidable (∃ c ∈ Condition.find? _ _, c.status = .false))

/-- A condition that was set is found. -/
theorem Condition.find?_set (c : Condition) (now : Instant) (conditions : List Condition) :
    ∃ d, find? (set c now conditions) c.type = some d ∧ d.status = c.status := by
  induction conditions with
  | nil => exact ⟨{ c with lastTransitionTime := some now }, by simp [find?, set_nil], rfl⟩
  | cons old rest ih =>
    rw [set_cons]
    split
    · exact ⟨succeeding old c now, by simp [find?, succeeding], rfl⟩
    · -- the condition at the head is of another type, so what is looked for is in the rest
      next hother =>
      obtain ⟨d, hd, hstatus⟩ := ih
      refine ⟨d, ?_, hstatus⟩
      have hskip : (old.type == c.type) = false := beq_eq_false_iff_ne.mpr hother
      rw [find?, List.find?_cons, hskip]
      exact hd

section

variable {key : ObjectKey} {v : MemoryStore} {settings : ControllerSettings} {now : Instant}
  {outcome : ReconcileOutcome}

/-- Where it is recorded what blocks a pass, the request says so.  A pass records it only if it is
not on the request yet; so either it was written, or it was there. -/
theorem blocked_of_failureStep {e : BuildError}
    (h : failureStep key settings now e v = .ok outcome) :
    (v.requestAt key).IsBlocked := by
  unfold failureStep at h
  split at h
  · obtain ⟨_, hrestate, -⟩ := Decision.bind_ok.mp h
    have hnone := restateStep_ok.mp hrestate
    unfold StatusChange.ofFunction at hnone
    dsimp only at hnone
    split at hnone
    · next hfixed =>
      obtain ⟨c, hc, hstatus⟩ := Condition.find?_set
        { type := Condition.ready, status := .false, reason := e.reason, message := e.message
          observedGeneration := (v.requestAt key).metadata.generation } now
        (v.requestAt key).statusOrDefault.conditions
      refine ⟨c, ?_, hstatus⟩
      rw [← hfixed]
      exact hc
    · cases hnone
  · cases h

/-- Where a pass has gone through in the mode in which pushes do not build the request, no push
waits. It would have stopped at the state that is to be retired. -/
theorem dropped_of_passStep (hmode : (v.requestAt key).isOnCommit = false)
    (hblocked : ¬ (v.requestAt key).IsBlocked) (h : passStep key settings now v = .ok outcome) :
    (v.requestAt key).statusOrDefault.pending? = none := by
  obtain ⟨_, -, hguarded⟩ := Decision.bind_ok.mp h
  unfold guardedStep at hguarded
  split at hguarded
  · exact absurd (blocked_of_failureStep hguarded) hblocked
  · -- the parts of the pass, up to the one about pushes
    obtain ⟨strategy, -, hinstall⟩ := Decision.bind_ok.mp hguarded
    obtain ⟨reference, -, hadvance⟩ := Decision.bind_ok.mp hinstall
    obtain ⟨_, -, hsettle⟩ := Decision.bind_ok.mp hadvance
    obtain ⟨requeueAfter, hpush, -⟩ := Decision.bind_ok.mp hsettle
    rw [pushStep_retires hmode] at hpush
    obtain ⟨_, hretire, -⟩ := Decision.bind_ok.mp hpush
    rcases retirePushes_eq_none.mp (restateStep_ok.mp hretire) with hpushes | hretired
    · cases hmode.symm.trans hpushes
    · unfold BuildRequestStatus.pending?
      cases hstate : (v.requestAt key).statusOrDefault.onCommit with
      | none => rfl
      | some state =>
        -- what is left has no push
        have hleft := hretired state hstate
        unfold OnCommitStatus.retired at hleft
        split at hleft
        · rw [← Option.some.inj hleft]
          rfl
        · cases hleft

end

section

variable {key : ObjectKey} {w : World}

/-- No call changes the specification of a request. -/
theorem World.Serves.spec_performed (h : w.Serves key) {α : Type} (p : Program α) :
    ((w.perform p).2.store.requestAt key).spec = (w.store.requestAt key).spec := by
  obtain ⟨r, hr⟩ := h.present
  have hends :
      p.Ends w.now False (fun _ s => ∃ r', s.requests.get? key = some r' ∧ r'.spec = r.spec)
      w.store := by
    refine p.ends_of_kept ?_ ⟨r, hr, rfl⟩
    rintro act s t ⟨r', hr', hspec⟩ hserved
    obtain ⟨r'', hr'', hcases⟩ := (hserved.effects []).2.1.request hr'
    refine ⟨r'', hr'', ?_⟩
    rcases hcases with rfl | ⟨_, _, _, _, -, rfl⟩ | ⟨_, _, -, -, -, rfl⟩ <;> exact hspec
  obtain ⟨r', hr', hspec⟩ := hends.perform
  rw [MemoryStore.requestAt_of_get? hr', MemoryStore.requestAt_of_get? hr, hspec]

/-- **After a pass that went through** in the mode in which pushes do not build the request, no push
waits. -/
theorem World.Serves.dropped (h : w.Serves key) {settings : ControllerSettings}
    {outcome : ReconcileOutcome} (hmode : (w.store.requestAt key).isOnCommit = false)
    (hok : (w.perform (reconcile settings key).run).1 = .ok outcome)
    (hblocked : ¬ ((w.after key (.call (.reconcile settings))).store.requestAt key).IsBlocked) :
    (w.after key (.call (.reconcile settings))).store.waiting? key = none := by
  have hinitial : ∀ {r : BuildRequest}, r.spec = (w.store.requestAt key).spec →
      r.isOnCommit = false := by
    intro r hspec
    rw [BuildRequest.isOnCommit, hspec]
    exact hmode
  obtain ⟨r, hr⟩ := h.present
  have hsound : Sound key w.store.contents := by
    refine h.made.sound (fun hpushes => ?_) hr
    cases hmode.symm.trans hpushes
  have hend :=
    Program.Ends.perform (follows_reconcile settings w.now w.store h.serving hsound trivial)
  rw [hok] at hend
  obtain ⟨-, b, hdecided, -⟩ := hend
  -- what was decided in the end is decided of the contents, which have no versions
  obtain ⟨r', hr'⟩ := (h.performed (reconcile settings key).run).present
  have hcontents := (w.perform (reconcile settings key).run).2.store.requestAt_contents key
  rw [MemoryStore.requestAt_of_get? hr'] at hcontents
  have hspec := h.spec_performed (reconcile settings key).run
  rw [MemoryStore.requestAt_of_get? hr'] at hspec
  have hpending := dropped_of_passStep (hinitial (by rw [hcontents]; exact hspec))
    (by
      rw [hcontents]
      rw [show (w.after key (.call (.reconcile settings))).store.requestAt key = r' from
        MemoryStore.requestAt_of_get? hr'] at hblocked
      exact hblocked) hdecided
  rw [hcontents] at hpending
  exact (MemoryStore.waiting?_of_get? hr').trans hpending

/-! ## Firing -/

/-- The occurrence starts an execution for the push that waits: the start is counted. -/
def World.Fires (key : ObjectKey) (w : World) (o : Occurrence) (p : PushRecord) : Prop :=
  w.store.waiting? key = some p ∧
    (w.store.requestAt key).statusOrDefault.triggerCounter <
      ((w.after key o).store.requestAt key).statusOrDefault.triggerCounter

instance (w : World) (o : Occurrence) (p : PushRecord) : Decidable (w.Fires key o p) :=
  inferInstanceAs (Decidable (_ ∧ _))

/-- **No push from before is fired.**  Passes, evaluations, deliveries, changes of the
specification, of the mode, of the policy and of what there is besides come one after another, and
no call fails.  If a pass finds the request in the mode in which pushes do not build it, succeeds,
and does not say that it was blocked, then every push that is fired after it was recorded after it,
by a delivery. -/
theorem stale_push_not_fired (hserves : w.Serves key) {between earlier : List Occurrence}
    {settings : ControllerSettings} {outcome : ReconcileOutcome}
    (hcalm : w.Permits (Calm key) key (between ++ .call (.reconcile settings) :: earlier))
    (hmode : ((w.course key earlier).store.requestAt key).isOnCommit = false)
    (hok : ((w.course key earlier).perform (reconcile settings key).run).1 = .ok outcome)
    (hblocked : ¬ ((w.course key (.call (.reconcile settings) :: earlier)).store.requestAt
      key).IsBlocked) {o : Occurrence} {p : PushRecord}
    (hfires : (w.course key (between ++ .call (.reconcile settings) :: earlier)).Fires key o p) :
    ∃ later d since, between = later ++ d :: since ∧
      (w.course key (since ++ .call (.reconcile settings) :: earlier)).recorded? key d =
        some p := by
  obtain ⟨hsince, hbefore⟩ := World.permits_append.mp hcalm
  -- no push waits after the pass
  have hnone := (hserves.course hbefore.2).dropped hmode hok hblocked
  have hwaits := hfires.1
  rw [World.course_append] at hwaits
  obtain ⟨later, d, since, rfl, hrecorded⟩ :=
    (hserves.course hbefore).waiting_since hnone hsince hwaits
  rw [← World.course_append] at hrecorded
  exact ⟨later, d, since, rfl, hrecorded⟩

end

/-! ## Runs -/

instance (key : ObjectKey) (w : World) (o : Occurrence) : Decidable (Calm key w o) :=
  match o with
  | .call _ | .tick _ => .isTrue fun _ h => by cases h
  | .deed deed => decidable_of_iff (¬ deed.Hampers ∧ ¬ deed.Inserts key)
      ⟨fun h _ hdeed => by cases hdeed; exact h, fun h => h deed rfl⟩

/-- A world with a request that pushes build. -/
def switchWorld : World := { now := secondsIn 1, store := switchStore }

/-- The request is there, and every call is answered. -/
theorem switchWorld_serves : switchWorld.Serves appKey where
  made := switchStore_inserted.made
  serving := ⟨by decide +kernel, Or.inr (by decide +kernel)⟩
  present := ⟨_, switchStore_inserted.request.choose_spec.1⟩

/-- A push is delivered, and then the mode is changed. -/
def leaving : List Occurrence :=
  [.deed (.updateSpec appKey (switchSpec .initial)), .call (.accept appDelivery {} Provider.all)]

/-- The mode is changed back, a pass labels the request, another push is delivered, and its time
comes. -/
def returning : List Occurrence :=
  [.tick (secondsIn 41), .call (.accept appDelivery {} Provider.all), .tick (secondsIn 31),
    .call (.reconcile {}), .deed (.updateSpec appKey (switchSpec .onCommit))]

/-- What the run comes to: the pass goes through, and the later push is fired. -/
theorem returning_fires :
    switchWorld.Permits (Calm appKey) appKey (returning ++ .call (.reconcile {}) :: leaving) ∧
      ((switchWorld.course appKey leaving).store.requestAt appKey).isOnCommit = false ∧
      ((switchWorld.course appKey leaving).perform (reconcile {} appKey).run).1 = .ok {} ∧
      ¬ ((switchWorld.course appKey (.call (.reconcile {}) :: leaving)).store.requestAt
        appKey).IsBlocked ∧
      (switchWorld.course appKey (returning ++ .call (.reconcile {}) :: leaving)).Fires appKey
        (.call (.reconcile {})) ⟨"refs/heads/main", "", secondsIn 31⟩ := by
  decide +kernel

/-- The push from before the change of mode is not fired, the one from after it is. -/
theorem stale_push_not_fired_switched :
    ∃ p, (switchWorld.course appKey (returning ++ .call (.reconcile {}) :: leaving)).Fires appKey
        (.call (.reconcile {})) p ∧
      ∃ later d since, returning = later ++ d :: since ∧
        (switchWorld.course appKey (since ++ .call (.reconcile {}) :: leaving)).recorded? appKey d =
          some p := by
  obtain ⟨hcalm, hmode, hok, hblocked, hfires⟩ := returning_fires
  exact ⟨_, hfires, stale_push_not_fired switchWorld_serves hcalm hmode hok hblocked hfires⟩

/-- The policy comes back with the mode, and the time of the push that waits comes. -/
def restoring : List Occurrence :=
  [.tick (secondsIn 12), .deed (.setPolicy (some { buildfile := some "buildkit" })),
    .deed (.updateSpec appKey (switchSpec .onCommit))]

/-- A pass that lacks the policy is blocked, and drops nothing: the push that waited before it is
fired, though none was recorded since. -/
theorem stale_push_fired :
    ∃ w : World, w.Serves appKey ∧ ∃ between earlier outcome o p,
      (w.Permits (Calm appKey) appKey (between ++ .call (.reconcile {}) :: earlier) ∧
        (w.course appKey earlier).store.waiting? appKey = some p ∧
        ((w.course appKey earlier).store.requestAt appKey).isOnCommit = false ∧
        ((w.course appKey earlier).perform (reconcile {} appKey).run).1 = .ok outcome ∧
        (w.course appKey (between ++ .call (.reconcile {}) :: earlier)).Fires appKey o p) ∧
      ¬ ∃ later d since, between = later ++ d :: since ∧
        (w.course appKey (since ++ .call (.reconcile {}) :: earlier)).recorded? appKey d =
          some p := by
  refine ⟨switchWorld, switchWorld_serves, restoring, .deed (.setPolicy none) :: leaving,
    ⟨some ({} : ControllerSettings).errorRequeue⟩, .call (.reconcile {}),
    ⟨"refs/heads/main", "", secondsIn 1⟩, by decide +kernel, ?_⟩
  rintro ⟨later, d, since, hbetween, hrecorded⟩
  have hd := List.mem_append_right later (List.mem_cons_self (a := d) (l := since))
  rw [← hbetween] at hd
  -- none of what happened in between was a delivery
  simp only [restoring, List.mem_cons, List.not_mem_nil, or_false] at hd
  rcases hd with rfl | rfl | rfl <;> cases hrecorded

end PushBuild
