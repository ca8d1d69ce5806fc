import Mathlib.Data.Int.ConditionallyCompleteOrder
import Mathlib.Order.Interval.Set.Nat
import PushBuild.Proofs.Specification.Standing

/-!
# Builds follow the specification

Passes over a request are made one after the other, and nothing fails.  Between them the request is
edited, pushes come in, executions end and the clock is moved.  Then the builds for changes of the
specification are numbered from one up to the counter, and a pass that gets past the template starts
one exactly if what is to be built is not what was built last.

1. **The parts of a pass** (`reconcile_eq`).  A pass first makes the label and the template what
   they should be (`convergence`); then it goes on with the request that it has, or it says what
   blocked it.
2. **A start** (`finishes_startBuild`).  The place of the next build is free, so the build is
   created there, and it is recorded at once.  Everything else in a pass spares builds
   (`Stands.converged`, `Stands.advanced`).
3. **Steps** (`Exact`).  The numbers that are taken are those up to the counter.  A pass keeps this,
   whether it starts a build or not (`Exact.pass`), and everything else keeps both sides as they are
   (`Exact.rests`).
4. **The result** (`builds_follow_specification`).  So what is not part of a build is edited without
   starting one.
-/

namespace PushBuild

/-! ## The parts of a pass -/

namespace World

variable {α β : Type} (w : World)

/-- To perform a program is to answer its first effect and to perform the rest. -/
theorem perform_step {effect : Effect β} {next : β → Program α} :
    w.perform (.step effect next) =
      (Simulation.answer effect { world := w }).2.world.perform
        (next (Simulation.answer effect { world := w }).1) := by
  cases effect <;> rfl

/-- A sequence is performed part by part. -/
theorem perform_bind (p : Program β) (f : β → Program α) :
    w.perform (p.bind f) = (w.perform p).2.perform (f (w.perform p).1) := by
  induction p generalizing w with
  | done b => rfl
  | step effect next ih => rw [Program.bind, perform_step, perform_step, ih]

end World

section

variable {α β γ : Type}

/-- A pass goes on with the result of its first part, or with what made that fail. -/
theorem Pass.run_bind (p : Pass α) (f : α → Pass β) (g : Except BuildError β → Program γ) :
    (p >>= f).run.bind g = p.run.bind fun
      | .ok a => (f a).run.bind g
      | .error e => g (.error e) := by
  refine (p.run.bind_assoc _ g).trans (congrArg _ (funext fun result => ?_))
  cases result <;> rfl

/-- What is done about a failure is done about the failure of any part. -/
theorem Pass.run_tryCatch_bind (p : Pass α) (f : α → Pass β) (h : BuildError → Pass β) :
    (tryCatch (p >>= f) h).run = p.run.bind fun
      | .ok a => (tryCatch (f a) h).run
      | .error e => (h e).run := by
  refine (p.run.bind_assoc _ _).trans (congrArg _ (funext fun result => ?_))
  cases result <;> rfl

/-- A call fails because the store does. -/
theorem StoreCall.run_bind_congr (call : StoreCall α) {f g : Except BuildError α → Program γ}
    (hok : ∀ a, f (.ok a) = g (.ok a))
    (herror : ∀ e, f (.error (.store e)) = g (.error (.store e))) :
    call.pass.run.bind f = call.pass.run.bind g := by
  refine congrArg (Program.step (.store call)) (funext fun answer => ?_)
  cases answer with
  | ok a => exact hok a
  | error e => exact herror e

end

/-- The first part of a pass: the label, the strategy and the template.  Returns the request as it
was read then, and its template; none if there is no request. -/
def convergence (settings : ControllerSettings) (key : ObjectKey) :
    Pass (Option (BuildRequest × BuildTemplate)) := do
  let some request ← StoreCall.pass (.getRequest key) | return none
  let request ← syncSelectionLabel request
  let strategy ← resolveStrategy request.spec
  let template ← BuildTemplate.reconcile request strategy settings.retry
  return some (request, template)

/-- The last part of a pass: pushes, and how things stand. -/
def settlePart (settings : ControllerSettings) (r : BuildRequest) (reference : String) :
    Pass ReconcileOutcome := do
  let requeueAfter ← pushPart settings r
  projectStatus settings.retry r.key reference
  return { requeueAfter }

/-- What a pass does after its first part. -/
def afterConvergence (settings : ControllerSettings) (key : ObjectKey) :
    Except BuildError (Option (BuildRequest × BuildTemplate)) →
      Program (Except BuildError ReconcileOutcome)
  | .ok (some (r, template)) =>
    (tryCatch (buildIfDue settings.retry r >>= fun _ => settlePart settings r template.reference)
      (failurePart settings key)).run
  | .ok none => .done (.ok {})
  | .error e => (failurePart settings key e).run

section

variable {settings : ControllerSettings} {key : ObjectKey}

/-- Setting the label fails because the store does, and that is not recorded. -/
theorem syncSelectionLabel_bind {r : BuildRequest} {γ : Type}
    {f g : Except BuildError BuildRequest → Program γ} (hok : ∀ r, f (.ok r) = g (.ok r))
    (herror : ∀ e, f (.error (.store e)) = g (.error (.store e))) :
    (syncSelectionLabel r).run.bind f = (syncSelectionLabel r).run.bind g := by
  unfold syncSelectionLabel
  extract_lets desired
  split
  · exact hok r
  · refine (Pass.run_bind _ _ _).trans (Eq.trans ?_ (Pass.run_bind _ _ _).symm)
    refine StoreCall.run_bind_congr _ (fun _ => ?_) herror
    refine (Pass.run_bind _ _ _).trans (Eq.trans ?_ (Pass.run_bind _ _ _).symm)
    exact StoreCall.run_bind_congr _ (fun _ => hok _) herror

/-- **A pass is its first part and what comes after it.** -/
theorem reconcile_eq : (reconcile settings key).run =
    (convergence settings key).run.bind (afterConvergence settings key) := by
  unfold reconcile convergence
  refine Eq.trans ?_ (Pass.run_bind _ _ _).symm
  refine StoreCall.run_bind_congr _ (fun found => ?_) fun e => rfl
  cases found with
  | none => rfl
  | some r =>
    refine Eq.trans ?_ (Pass.run_bind _ _ _).symm
    refine syncSelectionLabel_bind (fun r => ?_) fun e => rfl
    -- from here on what blocks the pass is recorded
    show (tryCatch (reconcileRequest settings r) (failurePart settings key)).run = _
    rw [reconcileRequest_eq]
    refine (Pass.run_tryCatch_bind _ _ _).trans (Eq.trans ?_ (Pass.run_bind _ _ _).symm)
    congr 1
    funext strategy
    cases strategy with
    | error e => rfl
    | ok strategy =>
      refine (Pass.run_tryCatch_bind _ _ _).trans (Eq.trans ?_ (Pass.run_bind _ _ _).symm)
      rfl

end

/-! ## A start -/

/-- A request that can own a template can own an execution. -/
theorem BuildExecution.exists_desired {r : BuildRequest} {strategy : String}
    {desired : BuildTemplate} (h : BuildTemplate.desired r strategy = .ok desired)
    (name trigger : String) :
    ∃ x, BuildExecution.desired r name trigger = .ok x := by
  unfold BuildTemplate.desired at h
  unfold BuildExecution.desired
  cases howner : r.ownerReference with
  | ok owner => exact ⟨_, rfl⟩
  | error e =>
    rw [howner] at h
    cases h

/-- The numbers of builds are those up to the counter. -/
structure Exact (key : ObjectKey) (a : Standing) (s : MemoryStore) : Prop extends
    Stands key a (Set.Icc 1 a.counter) s where
  nonneg : 0 ≤ a.counter

/-- How builds stand after a pass that got past the template. -/
def Standing.passed (a : Standing) : Standing := if a.due then a.next else a

section

variable {key : ObjectKey} {a : Standing} {s t : MemoryStore} {now : Instant} {r : BuildRequest}
  {numbers : Set Int} {retry : RetryPolicy} {change : StatusChange} {status : BuildRequestStatus}

/-- A change of the status is written at once, while nobody else writes and nothing fails. -/
theorem finishes_change (hs : s.Serving False) (hr : s.requests.get? key = some r)
    (hkey : r.key = key) (hchange : change r r.statusOrDefault = some status) :
    Finishes now False (BuildRequest.modifyStatus retry key change)
      (fun _ t => ∃ w, (Act.updateRequestStatus (r.restated status) (.ok w)).Served s now t)
      (fun _ _ => False) s := by
  unfold BuildRequest.modifyStatus
  -- the first attempt goes through, so there is nothing to try again
  refine finishes_retryOnConflict (fun t => t = s) ?_ rfl
  rintro _ rfl
  unfold BuildRequest.tryModifyStatus
  refine (finishes_bind _ _).mpr (finishes_call _ ?_ fun h => h.elim)
  rw [hs.getRequest key, hr]
  dsimp only
  rw [hchange]
  refine (finishes_map _ _).mpr (finishes_call _ ?_ fun h => h.elim)
  rcases hs.updateRequestStatus hr hkey status with ⟨w, t, hcall, -⟩ | ⟨_, _, _, _, hfails, -⟩
  · rw [hcall]
    exact ⟨w, hcall⟩
  · exact hfails.elim

/-- An execution is created at once in a place that is free. -/
theorem finishes_createFree {name trigger : String} {x : BuildExecution} (hs : s.Serving False)
    (hx : BuildExecution.desired r name trigger = .ok x) (hfree : s.executions.get? x.key = none) :
    Finishes now False (BuildExecution.create r name trigger)
      (fun _ t => ∃ w, (Act.createExecution x (.ok w)).Served s now t) (fun _ _ => False) s := by
  unfold BuildExecution.create
  refine finishes_monadLift_bind (fun x' hx' => ?_) fun e he => nomatch he.symm.trans hx
  obtain rfl := Except.ok.inj (hx.symm.trans hx')
  obtain ⟨w, t, hcall, -⟩ := hs.createExecution hfree
  refine (finishes_tryCatch _ _).mpr (finishes_callPass _ ?_ fun h => h.elim)
  rw [hcall]
  exact ⟨w, hcall⟩

/-- The number of the next build is free. -/
theorem Exact.free (h : Exact key a s) :
    s.executions.get? (buildPlace key (a.counter + 1)) = none := by
  by_contra hthere
  obtain ⟨x, hx⟩ := Option.ne_none_iff_exists'.mp hthere
  have hmem : a.counter + 1 ∈ s.buildNumbers key := ⟨x, hx⟩
  rw [h.numbers_eq] at hmem
  have := hmem.2
  omega

/-- The next build is created.  The request is not touched, so it does not count the build yet. -/
theorem Exact.created (h : Exact key a s) {x w : BuildExecution}
    (hplace : x.key = buildPlace key (a.counter + 1))
    (hserved : (Act.createExecution x (.ok w)).Served s now t) :
    Stands key a (Set.Icc 1 a.next.counter) t := by
  obtain ⟨-, hrequests, ⟨hfree, ht, -⟩, -⟩ := hserved.effects []
  have hsame : t.requests = s.requests := hrequests
  refine h.toStands.served hserved (hsame ▸ h.request) (Set.ext fun n => ?_)
  -- the execution is found in its place and in no other
  have hplaces : t.executions.get? (buildPlace key n) =
      if n = a.counter + 1 then some w else s.executions.get? (buildPlace key n) := by
    rw [ht, hplace, SortedMap.get?_insert]
    simp only [buildPlace_inj]
  have hbefore : (∃ x, s.executions.get? (buildPlace key n) = some x) ↔ 1 ≤ n ∧ n ≤ a.counter := by
    show n ∈ s.buildNumbers key ↔ _
    rw [h.numbers_eq]
    rfl
  show (∃ x, t.executions.get? (buildPlace key n) = some x) ↔ 1 ≤ n ∧ n ≤ a.counter + 1
  have hnonneg := h.nonneg
  rw [hplaces]
  split
  · next hn => exact ⟨fun _ => by omega, fun _ => ⟨w, rfl⟩⟩
  · next hn =>
    rw [hbefore]
    omega

/-- The build that was created is recorded, on the request as it is stored. -/
theorem finishes_recordBuild (hs : Stands key r.standing numbers s) (execution : String) :
    Finishes now False
      (BuildRequest.modifyStatus retry key
        (recordBuild execution (r.standing.counter + 1) r.spec.snapshot))
      (fun _ t => Stands key r.standing.next numbers t) (fun _ _ => False) s := by
  obtain ⟨stored, hstored, hstanding⟩ := hs.request
  refine (finishes_change hs.serving hstored (hs.wellFormed.key_eq hstored) rfl).mono ?_
    fun _ _ h => h
  rintro _ t ⟨w, hwritten⟩
  obtain ⟨-, heffect, hexecutions, -⟩ := hwritten.effects []
  refine hs.served hwritten ?_ ?_
  · obtain ⟨stored', hstored', -, rfl, ht, -⟩ := heffect
    have hplace : stored.key = key := hs.wellFormed.key_eq hstored
    rw [ht, SortedMap.get?_insert]
    refine ⟨_, if_pos hplace.symm, ?_⟩
    obtain rfl := Option.some.inj (hstored'.symm.trans (hplace ▸ hstored))
    -- the counter that is stored is the one that was read
    have hspec : stored'.spec = r.spec := congrArg Standing.spec hstanding
    have hcounter : stored'.statusOrDefault.buildRunCounter = r.standing.counter :=
      congrArg Standing.counter hstanding
    have hmax : max stored'.statusOrDefault.buildRunCounter (r.standing.counter + 1) =
        r.standing.counter + 1 := by omega
    show Standing.mk stored'.spec (max _ _) (some r.spec.snapshot) = Standing.mk r.spec _ _
    rw [hspec, hmax]
    rfl
  · have hsame : t.executions = s.executions := hexecutions
    rw [MemoryStore.buildNumbers, hsame]
    exact hs.numbers_eq

/-- **A start**: the next build is created, and recorded. -/
theorem finishes_startBuild (h : Exact key r.standing s) (hkey : r.key = key)
    (howns : ∀ name trigger, ∃ x, BuildExecution.desired r name trigger = .ok x) :
    Finishes now False (startBuild retry r) (fun _ t => Exact key r.standing.next t)
      (fun _ _ => False) s := by
  subst hkey
  obtain ⟨x, hx⟩ := howns r.nextBuild BuildTrigger.initial.label
  have hplace : x.key = buildPlace r.key (r.standing.counter + 1) := (desired_eq hx).1
  unfold startBuild
  refine (finishes_bind _ _).mpr ((finishes_createFree h.serving hx ?_).mono ?_ fun _ _ h => h)
  · rw [hplace]
    exact h.free
  · rintro _ t ⟨w, hcreated⟩
    refine (finishes_bind _ _).mpr ((finishes_adapt _ _).mpr
      ((finishes_recordBuild (h.created hplace hcreated) _).mono (fun _ u hu => ?_) fun _ _ h => h))
    exact ⟨hu, Int.le_add_one h.nonneg⟩

/-- What is to be built is built. -/
theorem finishes_buildIfDue (h : Exact key r.standing s) (hkey : r.key = key)
    (howns : ∀ name trigger, ∃ x, BuildExecution.desired r name trigger = .ok x) :
    Finishes now False (buildIfDue retry r) (fun _ t => Exact key r.standing.passed t)
      (fun _ _ => False) s := by
  have hdue : r.spec.needsBuild (r.status.bind (·.lastBuildSpec)) = r.standing.due := by
    rw [r.status_bind (·.lastBuildSpec) rfl]
    rfl
  unfold buildIfDue Standing.passed
  rw [hdue]
  split
  · exact finishes_startBuild h hkey howns
  · exact h

end

/-! ## A pass -/

section

variable {key : ObjectKey} {a : Standing} {numbers : Set Int} {acts : List Act}
  {settings : ControllerSettings}

/-- A pass that got past the template has a request that it had read, and that can own what it
makes. -/
def Past (key : ObjectKey) (r : BuildRequest) (acts : List Act) : Prop :=
  (∃ k, Known key acts k ∧ .getRequest k (.ok (some r)) ∈ acts) ∧
    ∃ strategy desired, BuildTemplate.desired r strategy = .ok desired

/-- The first part of a pass does its duty, and ends past the template or not. -/
theorem meets_convergence :
    Meets (idleDuty key) (convergence settings key)
      (fun found later => ∀ r template, found = some (r, template) → Past key r later)
      (fun _ _ => True) acts := by
  have hminor : AllowsMinor (idleDuty key) := allowsMinor_idleDuty
  unfold convergence
  refine meets_callPass_bind (fun _ => hminor _ _ trivial) ?_
  rintro (_ | r)
  · exact fun _ _ h => nomatch h
  · refine (meets_bind _ _).mpr
      ((meets_syncSelectionLabel hminor .given List.mem_cons_self rfl).mono ?_ fun _ _ h => h)
    rintro r labelled ⟨⟨k, hk, hread⟩, -⟩
    refine (meets_bind _ _).mpr ((meets_resolveStrategy hminor).suffix.mono ?_ fun _ _ _ => trivial)
    rintro strategy resolved ⟨hresolved, -⟩
    refine (meets_bind _ _).mpr ((meets_reconcileTemplate fun desired uid _ _ => ?_).suffix.mono ?_
      fun _ _ _ => trivial)
    · exact ⟨fun _ _ _ => trivial, fun _ _ _ => trivial, fun _ _ _ => trivial, fun _ _ => trivial⟩
    · rintro template later ⟨hlater, desired, uid, hdesired, -⟩ r' template' hfound
      obtain ⟨rfl, -⟩ := Prod.mk.inj (Option.some.inj hfound)
      -- what was read before the template was made is still among the acts
      have hacts := hresolved.trans hlater
      exact ⟨⟨k, hk.mono hacts, hacts.mem hread⟩, strategy, desired, hdesired⟩

/-- The request with which a pass gets past the template, as it was read, if the pass does. -/
def World.converged? (settings : ControllerSettings) (key : ObjectKey) (w : World) :
    Option BuildRequest :=
  match (w.perform (convergence settings key).run).1 with
  | .ok (some (r, _)) => some r
  | _ => none

variable {w : World}

/-- The first part of a pass leaves builds as they stand, and the request that it goes on with
stands so. -/
theorem Stands.converged (h : Stands key a numbers w.store) (settings : ControllerSettings) :
    Stands key a numbers (w.perform (convergence settings key).run).2.store ∧
      ∀ r template, (w.perform (convergence settings key).run).1 = .ok (some (r, template)) →
        r.key = key ∧ r.standing = a ∧
          ∀ name trigger, ∃ x, BuildExecution.desired r name trigger = .ok x := by
  obtain ⟨hstands, acts, hpost, htold⟩ := (h.undisturbed meets_convergence).perform
  refine ⟨hstands, fun r template hresult => ?_⟩
  rw [hresult] at hpost
  obtain ⟨⟨k, hk, hread⟩, strategy, desired, hdesired⟩ := hpost r template rfl
  obtain ⟨hkey, hstanding⟩ := htold hread
  have hplace := htold.known hk
  exact ⟨hkey.trans hplace, hstanding hplace, BuildExecution.exists_desired hdesired⟩

/-- The second part of a pass builds what is to be built, whatever becomes of the rest.  Only the
build changes how builds stand; the other parts do the duty of leaving them. -/
theorem Exact.advanced {r : BuildRequest} (h : Exact key r.standing w.store) (hkey : r.key = key)
    (howns : ∀ name trigger, ∃ x, BuildExecution.desired r name trigger = .ok x)
    (template : BuildTemplate) :
    Exact key r.standing.passed
      (w.perform (afterConvergence settings key (.ok (some (r, template))))).2.store := by
  have hnonneg : 0 ≤ r.standing.passed.counter := by
    unfold Standing.passed
    split
    · exact Int.le_add_one h.nonneg
    · exact h.nonneg
  -- whatever comes after the build leaves builds as they stand
  have hrest : ∀ {v : World}, Exact key r.standing.passed v.store →
      ∀ p : Pass ReconcileOutcome, Keeps (idleDuty key) p [] →
        Exact key r.standing.passed (v.perform p.run).2.store :=
    fun hv p hp => ⟨(hv.toStands.undisturbed hp).perform.1, hnonneg⟩
  have hparts := Pass.run_tryCatch_bind (buildIfDue settings.retry r)
    (fun _ => settlePart settings r template.reference) (failurePart settings key)
  rw [show afterConvergence settings key (.ok (some (r, template))) = _ from hparts,
    World.perform_bind]
  have hends : Finishes w.now False (buildIfDue settings.retry r)
      (fun _ t => Exact key r.standing.passed t) (fun _ _ => False) w.store :=
    finishes_buildIfDue h hkey howns
  have hbuilt := hends.perform
  generalize hresult : w.perform (buildIfDue settings.retry r).run = built at hbuilt ⊢
  obtain ⟨result, v⟩ := built
  cases result with
  -- no call fails, and an execution can be made, so the build goes through
  | error e => exact hbuilt.elim
  | ok _ =>
    refine hrest hbuilt _ (Keeps.tryCatch ?_ fun _ _ _ => keeps_failurePart)
    unfold settlePart
    exact (keeps_pushPart hkey).bind fun _ _ _ => keeps_projectPart.bind fun _ _ _ => trivial

/-- **A pass** starts a build if it gets past the template and what is to be built is not what was
built last; else it leaves builds as they stand. -/
theorem Exact.pass (h : Exact key a w.store) (settings : ControllerSettings) :
    (∀ r, w.converged? settings key = some r →
      r.standing = a ∧ Exact key a.passed (w.perform (reconcile settings key).run).2.store) ∧
    (w.converged? settings key = none →
      Exact key a (w.perform (reconcile settings key).run).2.store) := by
  obtain ⟨hstands, hresult⟩ := h.toStands.converged settings
  rw [reconcile_eq, World.perform_bind]
  unfold World.converged?
  generalize w.perform (convergence settings key).run = first at hstands hresult ⊢
  obtain ⟨result, v⟩ := first
  have hfirst : Exact key a v.store := ⟨hstands, h.nonneg⟩
  rcases result with e | _ | ⟨r, template⟩
  · -- the first part was blocked, and that is recorded
    have hkeeps : Keeps (idleDuty key) (failurePart settings key e) [] := keeps_failurePart
    exact ⟨fun _ h => (nomatch h), fun _ => ⟨(hstands.undisturbed hkeeps).perform.1, h.nonneg⟩⟩
  · exact ⟨fun _ h => (nomatch h), fun _ => hfirst⟩
  · obtain ⟨hkey, rfl, howns⟩ := hresult r template rfl
    refine ⟨fun r' hr' => ?_, nofun⟩
    obtain rfl := Option.some.inj hr'
    exact ⟨rfl, hfirst.advanced hkey howns template⟩

end

/-! ## Steps -/

namespace Occurrence

/-- Builds are left to the passes: others do not hamper the store, put no other request in the place
of this one, and no execution in the place of one of its builds. -/
def LeavesBuilds (key : ObjectKey) : Occurrence → Prop
  | deed d =>
    ¬ d.Hampers ∧ ¬ d.Inserts key ∧ ∀ x, d = .putExecution x → ∀ n, x.key ≠ buildPlace key n
  | call _ | tick _ => True

/-- A pass over the request is made. -/
def IsPass : Occurrence → Prop
  | call (.reconcile _) => True
  | _ => False

end Occurrence

/-- An execution that is there after a deed was there before, or others put it. -/
theorem Deed.executions_before {deed : Deed} {s : MemoryStore} {q : ObjectKey} {x : BuildExecution}
    (hx : (deed.apply s).executions.get? q = some x) :
    (∃ x, s.executions.get? q = some x) ∨ ∃ y, deed = .putExecution y ∧ y.key = q := by
  have heffect := deed.executionEffect s
  cases deed with
  | putExecution y =>
    obtain ⟨written, ht, -⟩ := heffect
    rw [ht, SortedMap.get?_insert] at hx
    split at hx
    · -- it is the one that others put
      next hkey => exact Or.inr ⟨y, rfl, hkey.symm⟩
    · exact Or.inl ⟨x, hx⟩
  | report k status =>
    rcases heffect with ⟨-, ht⟩ | ⟨y, hy, ht⟩
    · exact Or.inl ⟨x, ht ▸ hx⟩
    · rw [ht, SortedMap.get?_insert] at hx
      split at hx
      · -- a report keeps the execution in its place
        next hkey => exact Or.inl ⟨y, hkey ▸ hy⟩
      · exact Or.inl ⟨x, hx⟩
  | _ => exact Or.inl ⟨x, heffect ▸ hx⟩

section

variable {key : ObjectKey} {a : Standing} {numbers : Set Int} {s : MemoryStore} {w : World}
  {o : Occurrence}

/-- What others do leaves builds as they stand, but for what the request says. -/
theorem Stands.did (h : Stands key a numbers s) {deed : Deed}
    (hdeed : (Occurrence.deed deed).LeavesBuilds key) :
    ∃ spec, Stands key { a with spec } numbers (deed.apply s) := by
  obtain ⟨hhampers, hinserts, hput⟩ := hdeed
  obtain ⟨r, hr, rfl⟩ := h.request
  have hnumbers : (deed.apply s).buildNumbers key = numbers := by
    rw [← h.numbers_eq]
    refine Set.ext fun n => ⟨?_, fun ⟨x, hx⟩ => deed.executions_mono hx⟩
    rintro ⟨x, hx⟩
    rcases Deed.executions_before hx with hbefore | ⟨y, hdeed, hkey⟩
    · exact hbefore
    · exact absurd hkey (hput y hdeed n)
  have hwellFormed := (deed.advances h.wellFormed).wellFormed h.wellFormed
  -- the request stays as it is, gets a label, or says something else
  obtain ⟨r', hr', rfl | ⟨_, _, n, rfl⟩ | ⟨spec, n, -, rfl⟩⟩ := Deed.request hr hinserts
  · exact ⟨r'.spec, hwellFormed, h.serving.deed hhampers, ⟨r', hr', rfl⟩, hnumbers⟩
  · exact ⟨r.spec, hwellFormed, h.serving.deed hhampers, ⟨_, hr', rfl⟩, hnumbers⟩
  · exact ⟨spec, hwellFormed, h.serving.deed hhampers, ⟨_, hr', rfl⟩, hnumbers⟩

/-- Whatever is not a pass leaves builds as they stand, but for what the request says. -/
theorem Exact.rests (h : Exact key a w.store) (ho : o.LeavesBuilds key) (hpass : ¬ o.IsPass) :
    ∃ spec, Exact key { a with spec } (w.after key o).store := by
  -- evaluations and deliveries do the duty of leaving builds
  have hcall : ∀ {α : Type} {p : Program α}, p.Obeys (idleDuty key) (fun _ _ => True) [] →
      Exact key a (w.perform p).2.store :=
    fun hp => ⟨(h.toStands.undisturbed hp).perform.1, h.nonneg⟩
  cases o with
  | call c =>
    cases c with
    | coordinate policy retry =>
      refine ⟨a.spec,
        hcall (Program.Obeys.mono (fun _ _ _ => trivial) (keeps_coordinate ?_ .given))⟩
      exact (allowsEvaluation_idleDuty : AllowsEvaluation (idleDuty key) policy key)
    | reconcile settings => exact absurd trivial hpass
    | accept d retry providers =>
      exact ⟨a.spec,
        hcall (Program.Obeys.mono (fun _ _ _ => trivial) (keeps_accept allowsDelivery_idleDuty))⟩
  | deed d =>
    obtain ⟨spec, hdid⟩ := h.toStands.did ho
    exact ⟨spec, hdid, h.nonneg⟩
  | tick now => exact ⟨a.spec, h⟩

/-- A pass that starts no build leaves builds as they stand. -/
theorem Standing.passed_of_last (h : a.last = some a.spec.snapshot) : a.passed = a := by
  have hdue : a.due = false := by
    rw [due, BuildRequestSpec.needsBuild, h, bne_self_eq_false]
  rw [passed, hdue, if_neg Bool.false_ne_true]

/-- **The step lemma**: the numbers of builds are those up to the counter.  If what the request says
was built last, nothing is built. -/
theorem Exact.after (h : Exact key a w.store) (ho : o.LeavesBuilds key) :
    ∃ b, Exact key b (w.after key o).store ∧
      (a.last = some a.spec.snapshot → b.counter = a.counter ∧ b.last = a.last) := by
  by_cases hpass : o.IsPass
  · -- a pass is made
    obtain ⟨settings, rfl⟩ : ∃ settings, o = .call (.reconcile settings) := by
      cases o with
      | call c => cases c <;> first | exact ⟨_, rfl⟩ | exact hpass.elim
      | deed _ | tick _ => exact hpass.elim
    obtain ⟨hpast, hblocked⟩ := h.pass settings
    cases hconverged : w.converged? settings key with
    | none => exact ⟨a, hblocked hconverged, fun _ => ⟨rfl, rfl⟩⟩
    | some r =>
      refine ⟨a.passed, (hpast r hconverged).2, fun hlast => ?_⟩
      rw [Standing.passed_of_last hlast]
      exact ⟨rfl, rfl⟩
  · obtain ⟨spec, hrests⟩ := h.rests ho hpass
    exact ⟨_, hrests, fun _ => ⟨rfl, rfl⟩⟩

variable {os : List Occurrence}

/-- **The run lemma**: after any occurrences that leave builds to the passes, the numbers of builds
are those up to the counter. -/
theorem Exact.course (h : Exact key a w.store)
    (hos : w.Permits (fun _ => Occurrence.LeavesBuilds key) key os) :
    ∃ b, Exact key b (w.course key os).store := by
  induction os with
  | nil => exact ⟨a, h⟩
  | cons o earlier ih =>
    obtain ⟨b, hb⟩ := ih hos.2
    obtain ⟨c, hc, -⟩ := hb.after hos.1
    exact ⟨c, hc⟩

/-- The request stands as it is said to. -/
theorem Stands.requestAt (h : Stands key a numbers s) : (s.requestAt key).standing = a := by
  obtain ⟨r, hr, hstanding⟩ := h.request
  rw [MemoryStore.requestAt_of_get? hr]
  exact hstanding

/-- While the request goes on to say what was built last, nothing is built.  The induction is on the
occurrences: each of them finds the counter and what was built last as they were. -/
theorem Exact.idle (h : Exact key a w.store)
    (hos : w.Permits (fun _ => Occurrence.LeavesBuilds key) key os) {snapshot : BuildSnapshot}
    (hlast : a.last = some snapshot)
    (htold : ∀ later before, os = later ++ before →
      ((w.course key before).store.requestAt key).spec.snapshot = snapshot) :
    ∃ b, Exact key b (w.course key os).store ∧ b.counter = a.counter ∧ b.last = some snapshot := by
  induction os with
  | nil => exact ⟨a, h, rfl, hlast⟩
  | cons o earlier ih =>
    obtain ⟨b, hb, hcounter, hbuilt⟩ := ih hos.2 fun later before heq =>
      htold (o :: later) before (congrArg (o :: ·) heq)
    obtain ⟨c, hc, hrests⟩ := hb.after hos.1
    have hsnapshot : b.spec.snapshot = snapshot := by
      rw [← hb.requestAt]
      exact htold [o] earlier rfl
    obtain ⟨hsame, hsameLast⟩ := hrests (by rw [hbuilt, hsnapshot])
    exact ⟨c, hc, hsame.trans hcounter, hsameLast.trans hbuilt⟩

end

/-! ## The result -/

/-- What a pass does about builds, in a world in which the request under `key` is `r`. -/
structure World.PassBuilds (settings : ControllerSettings) (key : ObjectKey) (v : World)
    (r : BuildRequest) : Prop where
  /-- at most one is created, the next one -/
  one : (v.after key (.call (.reconcile settings))).store.buildNumbers key =
    v.store.buildNumbers key ∨
    (v.after key (.call (.reconcile settings))).store.buildNumbers key =
      insert (r.statusOrDefault.buildRunCounter + 1) (v.store.buildNumbers key)
  /-- none is, if the pass does not get past the template -/
  blocked : v.converged? settings key = none →
    (v.after key (.call (.reconcile settings))).store.buildNumbers key = v.store.buildNumbers key
  /-- one is, if it does and what the request says is not what was built last; and then that is -/
  past : ∀ read, v.converged? settings key = some read → read.spec = r.spec ∧
    ((v.after key (.call (.reconcile settings))).store.buildNumbers key ≠ v.store.buildNumbers key ↔
      r.statusOrDefault.lastBuildSpec ≠ some read.spec.snapshot) ∧
    ∃ r', (v.after key (.call (.reconcile settings))).store.requests.get? key = some r' ∧
      r'.statusOrDefault.lastBuildSpec = some read.spec.snapshot

section

variable {key : ObjectKey} {w : World} {r : BuildRequest}

/-- The numbers after one more build. -/
theorem insert_Icc {n : Int} (h : 0 ≤ n) : Set.Icc 1 (n + 1) = insert (n + 1) (Set.Icc 1 n) := by
  refine Set.ext fun m => ?_
  rw [Set.mem_insert_iff, Set.mem_Icc, Set.mem_Icc]
  omega

/-- What a pass does, told of the numbers and of what is recorded. -/
theorem Exact.passBuilds (h : Exact key r.standing w.store) (settings : ControllerSettings) :
    w.PassBuilds settings key r := by
  obtain ⟨hpast, hblocked⟩ := h.pass settings
  have hnone : w.converged? settings key = none →
      (w.after key (.call (.reconcile settings))).store.buildNumbers key =
        w.store.buildNumbers key :=
    fun hconverged => (hblocked hconverged).numbers_eq.trans h.numbers_eq.symm
  -- the number of the next build is not taken, so a build shows
  have hnext : r.standing.counter + 1 ∉ w.store.buildNumbers key := by
    rw [h.numbers_eq, Set.mem_Icc]
    omega
  refine ⟨?_, hnone, fun read hconverged => ?_⟩
  · cases hconverged : w.converged? settings key with
    | none => exact Or.inl (hnone hconverged)
    | some read =>
      have hafter := (hpast read hconverged).2.numbers_eq
      unfold Standing.passed at hafter
      split at hafter
      · refine Or.inr (hafter.trans ?_)
        rw [h.numbers_eq]
        exact insert_Icc h.nonneg
      · exact Or.inl (hafter.trans h.numbers_eq.symm)
  · obtain ⟨hstanding, hafter⟩ := hpast read hconverged
    have hspec : read.spec = r.spec := congrArg Standing.spec hstanding
    obtain ⟨r', hr', hstanding'⟩ := hafter.request
    have hnumbers : (w.after key (.call (.reconcile settings))).store.buildNumbers key =
        Set.Icc 1 r.standing.passed.counter := hafter.numbers_eq
    have hlast : r'.statusOrDefault.lastBuildSpec = r.standing.passed.last :=
      congrArg Standing.last hstanding'
    have hdue : r.standing.due = true ↔
        r.statusOrDefault.lastBuildSpec ≠ some read.spec.snapshot := by
      rw [hspec]
      exact bne_iff_ne
    refine ⟨hspec, ?_, r', hr', ?_⟩
    · rw [hnumbers, ← hdue, Standing.passed]
      split
      · next hdue =>
        refine ⟨fun _ => hdue, fun _ heq => hnext ?_⟩
        rw [← heq, show r.standing.next.counter = r.standing.counter + 1 from rfl,
          insert_Icc h.nonneg]
        exact Set.mem_insert _ _
      · next hdue => exact ⟨fun hne => absurd h.numbers_eq.symm hne, fun h => absurd h hdue⟩
    · rw [hlast, Standing.passed]
      split
      · rw [hspec]
        rfl
      · next hrests => exact not_not.mp (mt hdue.mpr hrests)

/-- **Builds follow the specification.**  Passes over a request that was inserted without status,
deliveries and evaluations run to their ends one after another and no call fails, while others do
what they like, but put no other request in its place and no execution in the place of one of its
builds.  Then the builds for changes of the specification are numbered from one up to the counter.
A pass creates at most one, and none if it does not get past the template; if it does, it creates
one exactly if what is recorded as built is not what the request says, and then that is recorded.
Nothing else creates one; so none is created while the request goes on to say what was built last,
whatever else of it is edited. -/
theorem builds_follow_specification (hmade : w.store.Made) (hserving : w.store.Serving False)
    (hr : w.store.requests.get? key = some r) (hstatus : r.status = none)
    (hfree : w.store.buildNumbers key = ∅) {os : List Occurrence}
    (hos : w.Permits (fun _ => Occurrence.LeavesBuilds key) key os) :
    ∃ r, (w.course key os).store.requests.get? key = some r ∧
      (w.course key os).store.buildNumbers key = Set.Icc 1 r.statusOrDefault.buildRunCounter ∧
      (∀ settings, (w.course key os).PassBuilds settings key r) ∧
      (∀ o : Occurrence, o.LeavesBuilds key → ¬ o.IsPass →
        ((w.course key os).after key o).store.buildNumbers key =
          (w.course key os).store.buildNumbers key) ∧
      ∀ later earlier snapshot, os = later ++ earlier →
        ((w.course key earlier).store.requestAt key).statusOrDefault.lastBuildSpec = some snapshot →
        (∀ between before, later = between ++ before →
          ((w.course key (before ++ earlier)).store.requestAt key).spec.snapshot = snapshot) →
        (w.course key os).store.buildNumbers key =
          (w.course key earlier).store.buildNumbers key := by
  have hnothing : r.statusOrDefault = {} := by rw [BuildRequest.statusOrDefault, hstatus]; rfl
  -- at first there are no builds, and none is counted
  have hstart : Exact key r.standing w.store := by
    have hcounter : r.standing.counter = 0 := congrArg BuildRequestStatus.buildRunCounter hnothing
    refine ⟨⟨hmade.wellFormed, hserving, ⟨r, hr, rfl⟩, ?_⟩, by rw [hcounter]⟩
    rw [hfree, hcounter]
    exact (Set.Icc_eq_empty (by decide)).symm
  obtain ⟨a, hexact⟩ := hstart.course hos
  obtain ⟨r, hr, rfl⟩ := hexact.request
  refine ⟨r, hr, hexact.numbers_eq, hexact.passBuilds, fun o ho hpass => ?_, ?_⟩
  · obtain ⟨spec, hrests⟩ := hexact.rests ho hpass
    exact hrests.numbers_eq.trans hexact.numbers_eq.symm
  · rintro later earlier snapshot rfl hlast htold
    obtain ⟨hlater, hearlier⟩ := World.permits_append.mp hos
    obtain ⟨b, hb⟩ := hstart.course hearlier
    rw [World.course_append]
    have hbuilt : b.last = some snapshot := by
      rw [← hlast, ← hb.requestAt]
      rfl
    obtain ⟨c, hc, hcounter, -⟩ := hb.idle hlater hbuilt fun between before heq => by
      rw [← World.course_append]
      exact htold between before heq
    rw [hc.numbers_eq, hb.numbers_eq, hcounter]

end

/-! ## A run -/

/-- A world with a request that is built when its specification changes. -/
def plainWorld : World := { now := secondsIn 1, store := plainStore }

/-- The specification of that request, when pushes build it too. -/
def pushedSpec : BuildRequestSpec :=
  { (plainStore.requestAt appKey).spec with rebuild := some .onCommit }

/-- A pass is made, pushes are made to build the request, a pass is made, the revision changes, and
one more pass is made. -/
def modeThenRevision : List Occurrence :=
  [.call (.reconcile {}), .deed (.updateSpec appKey releaseSpec), .call (.reconcile {}),
    .deed (.updateSpec appKey pushedSpec), .call (.reconcile {})]

/-- There are no executions yet. -/
theorem plainStore_free : plainStore.buildNumbers appKey = ∅ :=
  Set.eq_empty_iff_forall_notMem.mpr fun n ⟨x, hx⟩ => by cases hx

/-- The first pass starts a build, and so does the one after the revision changed; the one after the
mode changed starts none. -/
theorem builds_follow_revision :
    (plainWorld.course appKey modeThenRevision).store.buildNumbers appKey = Set.Icc 1 2 ∧
    (plainWorld.course appKey (modeThenRevision.drop 2)).store.buildNumbers appKey =
      Set.Icc 1 1 := by
  have hedit : ∀ spec, (Occurrence.deed (.updateSpec appKey spec)).LeavesBuilds appKey :=
    fun spec => ⟨id, id, fun _ h => by cases h⟩
  have hpermits : plainWorld.Permits (fun _ => Occurrence.LeavesBuilds appKey) appKey
      modeThenRevision :=
    ⟨trivial, hedit _, trivial, hedit _, trivial, trivial⟩
  have hserving : plainStore.Serving False := ⟨by decide +kernel, Or.inr (by decide +kernel)⟩
  obtain ⟨r₀, hr₀, hstatus⟩ : ∃ r ∈ plainStore.requests.get? appKey, r.status = none := by
    decide +kernel
  obtain ⟨hafter, hbetween⟩ :
      (∀ r ∈ (plainWorld.course appKey modeThenRevision).store.requests.get? appKey,
        r.statusOrDefault.buildRunCounter = 2) ∧
      ∀ r ∈ (plainWorld.course appKey (modeThenRevision.drop 2)).store.requests.get? appKey,
        r.statusOrDefault.buildRunCounter = 1 := by
    decide +kernel
  have hfollow : ∀ {os}, plainWorld.Permits (fun _ => Occurrence.LeavesBuilds appKey) appKey os →
      _ :=
    fun hos => builds_follow_specification (w := plainWorld) plainStore_made hserving hr₀ hstatus
      plainStore_free hos
  obtain ⟨r, hr, hnumbers, -⟩ := hfollow hpermits
  obtain ⟨r₁, hr₁, hnumbers₁, -⟩ := @hfollow (modeThenRevision.drop 2) hpermits.2.2
  exact ⟨by rw [hnumbers, hafter r hr], by rw [hnumbers₁, hbetween r₁ hr₁]⟩

end PushBuild
