import PushBuild.Proofs.Recovery.Pass
import PushBuild.Proofs.Store.Template

/-!
# A pass that was cut short is made up for by the next

A pass follows its decisions, and these depend on the contents of the store alone.  So the writes of
a pass that was cut short are the first writes of any pass from the same contents; and a pass
without failures makes all of them.

1. **Passes.**  `passOver` is one pass, with faults, over a store that nobody else writes meanwhile.
2. **Steady passes** (`steady_pass`).  Where calls do not fail, a pass ends where nothing is left to
   write, and returns what was decided there.
3. **Determinism** (`eq_of_settled`).  There is one such place.
4. **Recovery** (`pass_resumed`).  A second pass ends where one pass alone would have ended.
-/

namespace PushBuild

open Relation

/-! ## Passes -/

/-- One pass at the time `now` over a store that nobody else writes: what it returns, and the store
then. -/
def passOver (settings : ControllerSettings) (key : ObjectKey) (now : Instant) (store : MemoryStore)
    (faults : List Fault) : Except BuildError ReconcileOutcome × MemoryStore :=
  let (result, sim) :=
    Simulation.run (reconcile settings key).run { world := { store, now }, faults }
  (result, sim.world.store)

/-- One pass in which no call fails and no write is refused. -/
def steadyPass (settings : ControllerSettings) (key : ObjectKey) (now : Instant)
    (store : MemoryStore) : Except BuildError ReconcileOutcome × MemoryStore :=
  passOver settings key now store.undisturbed []

section

variable {settings : ControllerSettings} {key : ObjectKey} {now : Instant} {fails : Prop}
  {s t : MemoryStore}

/-- Where a pass may end. -/
theorem Finishes.passOver {faults : List Fault} (hfaults : Simulation.OnlyFails fails faults)
    {ok : ReconcileOutcome → MemoryStore → Prop} {error : BuildError → MemoryStore → Prop}
    (h : Finishes now fails (reconcile settings key) ok error s) :
    match passOver settings key now s faults with
    | (.ok outcome, t) => ok outcome t
    | (.error e, t) => error e t := by
  have hrun := Program.Ends.run { world := { store := s, now }, faults } hfaults h
  unfold PushBuild.passOver
  generalize Simulation.run (reconcile settings key).run _ = run at hrun ⊢
  obtain ⟨result, sim⟩ := run
  cases result <;> exact hrun

/-! ## Passes that have nothing to go by -/

/-- A pass over a request that is not there, or with a store that does not answer, changes
nothing. -/
theorem finishes_absent (settings : ControllerSettings) (now : Instant)
    (h : s.unavailable = true ∨ s.requests.get? key = none) :
    Finishes now fails (reconcile settings key) (fun _ t => t = s) (fun _ t => t = s) s := by
  have hcall : (∃ e, s.call (.getRequest key) = (.error e, s)) ∨
      s.call (.getRequest key) = (.ok none, s) := by
    unfold MemoryStore.call
    by_cases hunavailable : s.unavailable = true
    · exact Or.inl ⟨_, if_pos hunavailable⟩
    · refine Or.inr ((if_neg hunavailable).trans ?_)
      rw [← h.resolve_left hunavailable]
      rfl
  unfold reconcile
  refine (finishes_bind _ _).mpr (finishes_callPass _ ?_ fun _ _ => rfl)
  rcases hcall with ⟨e, hcall⟩ | hcall
  · rw [hcall]
  · rw [hcall]
    exact rfl

/-- So a pass over nothing leaves the store as it was, with faults or without. -/
theorem passOver_absent (h : s.unavailable = true ∨ s.requests.get? key = none)
    {faults : List Fault} (hfaults : Simulation.OnlyFails fails faults) :
    (passOver settings key now s faults).2 = s := by
  have hend := (finishes_absent settings now h).passOver hfaults
  generalize passOver settings key now s faults = ended at hend ⊢
  obtain ⟨result, t⟩ := ended
  cases result <;> exact hend

/-! ## Steady passes -/

/-- The store as it is when nobody interferes. -/
theorem MemoryStore.Serving.undisturbed (h : s.Serving fails) : s.undisturbed.Serving False :=
  ⟨h.available, Or.inr rfl⟩

/-- **A steady pass** ends where nothing is left to write, and returns what was decided there.  This
is what it means to follow the decisions where no call fails. -/
theorem steady_pass (settings : ControllerSettings) (now : Instant) (hs : s.Serving fails)
    (hsound : Sound key s.contents) :
    ReflTransGen (Writes key (passStep key settings now)) s.contents
        (steadyPass settings key now s).2.contents ∧
      passStep key settings now (steadyPass settings key now s).2.contents =
        Decision.of (steadyPass settings key now s).1 ∧
      ((passStep key settings now s.contents).Settled →
        (steadyPass settings key now s).2 = s.undisturbed) := by
  have hend := (follows_reconcile settings now s.undisturbed hs.undisturbed hsound
    trivial).passOver (Simulation.onlyFails_nil False)
  unfold steadyPass
  generalize passOver settings key now s.undisturbed [] = ended at hend ⊢
  obtain ⟨result, t⟩ := ended
  cases result with
  | ok outcome =>
    obtain ⟨hadvanced, b, hb, rfl⟩ := hend
    exact ⟨hadvanced.writes, hb, hadvanced.quiet⟩
  | error e =>
    obtain ⟨hadvanced, he | ⟨hfalse, -⟩⟩ := hend
    · exact ⟨hadvanced.writes, he, hadvanced.quiet⟩
    · -- no call fails
      exact hfalse.elim

/-- A pass in which calls may fail makes some of the writes that are decided, and all of them if it
succeeds. -/
theorem faulty_pass (settings : ControllerSettings) (now : Instant) (hs : s.Serving True)
    (hsound : Sound key s.contents) {faults : List Fault}
    (hfaults : Simulation.OnlyFails True faults) :
    Advanced key True (passStep key settings now) s (passOver settings key now s faults).2 ∧
      ∀ outcome, (passOver settings key now s faults).1 = .ok outcome →
        passStep key settings now (passOver settings key now s faults).2.contents =
          .ok outcome := by
  have hend := (follows_reconcile settings now s hs hsound trivial).passOver hfaults
  generalize passOver settings key now s faults = ended at hend ⊢
  obtain ⟨result, t⟩ := ended
  cases result with
  | ok outcome =>
    obtain ⟨hadvanced, b, hb, rfl⟩ := hend
    refine ⟨hadvanced, fun outcome' h => ?_⟩
    cases h
    exact hb
  | error e =>
    refine ⟨hend.1, fun outcome h => ?_⟩
    cases h

/-! ## Determinism -/

/-- What is decided is decided by the contents, so from one place only one leads on. -/
theorem writes_rightUnique {α : Type} {d : MemoryStore → Decision α} :
    Relator.RightUnique (Writes key d) := by
  rintro v v₁ v₂ ⟨w₁, hw₁, rfl⟩ ⟨w₂, hw₂, rfl⟩
  cases hw₁.symm.trans hw₂
  rfl

/-- Where nothing is left to write, nothing leads on. -/
theorem eq_of_settled {α : Type} {d : MemoryStore → Decision α} {v v₁ v₂ : MemoryStore}
    (h₁ : ReflTransGen (Writes key d) v v₁) (h₂ : ReflTransGen (Writes key d) v v₂)
    (hsettled₁ : (d v₁).Settled) (hsettled₂ : (d v₂).Settled) : v₁ = v₂ := by
  have hend : ∀ {u u'}, (d u).Settled → ReflTransGen (Writes key d) u u' → u = u' := by
    intro u u' hu h
    rcases ReflTransGen.cases_head h with rfl | ⟨_, ⟨w, hw, -⟩, -⟩
    · rfl
    · exact absurd hw (hu w)
  rcases ReflTransGen.total_of_right_unique writes_rightUnique h₁ h₂ with h | h
  · exact hend hsettled₁ h
  · exact (hend hsettled₂ h).symm

/-- Different results are different decisions. -/
theorem Decision.of_inj {α : Type} {r r' : Except BuildError α}
    (h : Decision.of r = Decision.of r') :
    r = r' := by
  cases r with
  | ok a =>
    cases r' with
    | ok b => rw [Except.ok.inj h]
    | error e => cases h
  | error e =>
    cases r' with
    | ok b => cases h
    | error e' => rw [Halt.failed.inj (Except.error.inj h)]

/-! ## Recovery -/

/-- A store that the operations make is sound, if it has the request and no execution is named as
started that is to be started yet. -/
theorem MemoryStore.Made.sound (h : s.Made) (hnext : NextIsThere key s) {r : BuildRequest}
    (hr : s.requests.get? key = some r) : Sound key s.contents := by
  have hkey : r.key = key := h.wellFormed.key_eq hr
  refine ⟨⟨r.unversioned, ?_, hkey⟩, ?_, ?_⟩
  · simp [contents, hr]
  · intro k t ht
    rw [MemoryStore.get?_templates_contents, Option.map_eq_some_iff] at ht
    obtain ⟨t, ht, rfl⟩ := ht
    exact h.wellKeyed k t ht
  · intro hmode last hlast hname
    rw [MemoryStore.requestAt_contents] at hmode hlast hname
    have hthere := hnext hmode last hlast hname
    rw [MemoryStore.get?_executions_contents, Option.isSome_map]
    exact hthere

/-- **Recovery.**  Let a pass go over a store in which no execution is named as started that is to
be started yet, and let any of its calls fail.  Then a second pass, in which none fails, returns
what one such pass alone would have returned, and leaves the same contents.  If the first pass
succeeded, the second one changes nothing, not even a version. -/
theorem pass_resumed (settings : ControllerSettings) (key : ObjectKey) (now : Instant)
    {store : MemoryStore} (hmade : store.Made) (hnext : NextIsThere key store) {faults : List Fault}
    (hfaults : ∀ f ∈ faults, ∃ e, f.effect = .fail e) :
    let first := passOver settings key now store faults
    let second := steadyPass settings key now first.2
    let alone := steadyPass settings key now store
    second.1 = alone.1 ∧ second.2.contents = alone.2.contents ∧
      ∀ outcome, first.1 = .ok outcome → second.2 = first.2.undisturbed := by
  intro first second alone
  have hfaults : Simulation.OnlyFails True faults := fun f hf => ⟨trivial, hfaults f hf⟩
  by_cases habsent : store.unavailable = true ∨ store.requests.get? key = none
  · -- neither pass changes anything
    have hfirst : first.2 = store := passOver_absent habsent hfaults
    have halone : second = alone := by
      show steadyPass settings key now first.2 = _
      rw [hfirst]
    refine ⟨by rw [halone], by rw [halone], fun _ _ => ?_⟩
    rw [halone, hfirst]
    exact passOver_absent (s := store.undisturbed) habsent (Simulation.onlyFails_nil False)
  · rw [not_or] at habsent
    obtain ⟨r, hr⟩ := Option.ne_none_iff_exists'.mp habsent.2
    have hserving : store.Serving True := ⟨Bool.eq_false_iff.mpr habsent.1, Or.inl trivial⟩
    have hsound := hmade.sound hnext hr
    obtain ⟨hwrites, hresult, -⟩ := steady_pass settings now hserving hsound
    -- the first pass makes the first of the writes that one pass alone makes
    obtain ⟨hadvanced, hsucceeded⟩ := faulty_pass settings now hserving hsound hfaults
    have hsoundFirst : Sound key first.2.contents :=
      hadvanced.sound (sound_pass settings now) hsound
    -- and the second pass makes the rest of them
    obtain ⟨hrest, hresultSecond, hunchanged⟩ :=
      steady_pass settings now hadvanced.serving hsoundFirst
    have hcontents : second.2.contents = alone.2.contents := by
      refine eq_of_settled (hadvanced.writes.trans hrest) hwrites ?_ ?_
      · rw [hresultSecond]
        exact Decision.settled_of _
      · rw [hresult]
        exact Decision.settled_of _
    refine ⟨Decision.of_inj ?_, hcontents, fun outcome hok => hunchanged fun w hw => ?_⟩
    · exact hresultSecond.symm.trans ((congrArg _ hcontents).trans hresult)
    · cases (hsucceeded outcome hok).symm.trans hw

end

/-! ## A start that is not recorded -/

/-- The key of the request of the passes below. -/
def pushedKey : ObjectKey := ⟨"default", "app"⟩

/-- A store with a request that pushes build, of which this is known. -/
def pushedStore (state : OnCommitStatus) : MemoryStore :=
  Deed.apply (.insertRequest {
      metadata := { name := some "app" }
      spec := {
        source := { git := { url := "u", revision := "main" } }
        rebuild := some .onCommit
        onCommit := some ⟨"hook", "token"⟩ }
      status := some { onCommit := some state } })
    (Deed.apply (.insertStrategy "buildkit")
      (Deed.apply (.setPolicy (some { noBuildfile := some "buildkit" })) {}))

/-- The store was made by users. -/
theorem pushedStore_made (state : OnCommitStatus) : (pushedStore state).Made :=
  .deed _ (.deed _ (.deed _ .empty))

/-- A push waits. -/
def waitingPush : OnCommitStatus := { pending := some ⟨"refs/heads/main", "c1", Instant.epoch⟩ }

/-- By then it has waited long enough. -/
def pushedLater : Instant := Instant.epoch.deadline ⟨60000⟩

/-- The second write of a status fails: the plain build is recorded, and the start for the push is
not. -/
def unrecordedFault : Fault where
  method := .updateRequestStatus
  skip := 1
  times := 1
  effect := .fail (.backend "gone")

/-- The fault only lets a call fail. -/
theorem unrecordedFault_fails : ∀ f ∈ [unrecordedFault], ∃ e, f.effect = .fail e := by
  intro f hf
  obtain rfl := List.mem_singleton.mp hf
  exact ⟨_, rfl⟩

/-- The second pass finds the execution that the first one started, and records it. -/
theorem pass_resumed_unrecorded :
    let first := passOver {} pushedKey pushedLater (pushedStore waitingPush) [unrecordedFault]
    let second := steadyPass {} pushedKey pushedLater first.2
    let alone := steadyPass {} pushedKey pushedLater (pushedStore waitingPush)
    first.1.toOption = none ∧ second.1.toOption = some {} ∧ second.1 = alone.1 ∧
      second.2.contents = alone.2.contents := by
  have hlast : ((pushedStore waitingPush).requestAt pushedKey).statusOrDefault.lastTriggered? =
      none := by
    decide +kernel
  obtain ⟨hresult, hcontents, -⟩ := pass_resumed {} pushedKey pushedLater
    (pushedStore_made waitingPush) (fun _ last h => nomatch hlast.symm.trans h)
    unrecordedFault_fails
  obtain ⟨hfirst, hsecond⟩ :
      (passOver {} pushedKey pushedLater (pushedStore waitingPush) [unrecordedFault]).1.toOption =
          none ∧
        (steadyPass {} pushedKey pushedLater (passOver {} pushedKey pushedLater
          (pushedStore waitingPush) [unrecordedFault]).2).1.toOption = some {} := by
    decide +kernel
  exact ⟨hfirst, hsecond, hresult, hcontents⟩

/-- A push waits, and the execution that it is to start is named as the one that was started
last. -/
def misnamedStart : OnCommitStatus :=
  { waitingPush with
    lastTriggeredExecution := some ⟨onCommitExecutionName "app" 1, Instant.epoch⟩ }

/-- Where an execution is named as started that is to be started yet, the second pass takes the
execution of the first one for that of an earlier push, and leaves the push waiting. -/
theorem misnamed_pass_not_resumed :
    (pushedStore misnamedStart).Made ∧ (∀ f ∈ [unrecordedFault], ∃ e, f.effect = .fail e) ∧
    let first := passOver {} pushedKey pushedLater (pushedStore misnamedStart) [unrecordedFault]
    let second := steadyPass {} pushedKey pushedLater first.2
    let alone := steadyPass {} pushedKey pushedLater (pushedStore misnamedStart)
    ¬ (second.1 = alone.1 ∧ second.2.contents = alone.2.contents) := by
  refine ⟨pushedStore_made _, unrecordedFault_fails, ?_⟩
  intro first second alone hresumed
  -- one pass alone counts the start, and the second pass does not
  have hcounted : (second.2.contents.requestAt pushedKey).statusOrDefault.triggerCounter ≠
      (alone.2.contents.requestAt pushedKey).statusOrDefault.triggerCounter := by
    decide +kernel
  exact hcounted (by rw [hresumed.2])

end PushBuild
