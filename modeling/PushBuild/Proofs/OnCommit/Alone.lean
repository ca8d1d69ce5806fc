import PushBuild.Proofs.Interleaving.Course
import PushBuild.Proofs.OnCommit.Numbering
import PushBuild.Proofs.Recovery.Start
import PushBuild.Proofs.Webhook.Effect

/-!
# Deliveries and evaluations that run alone

A delivery and an evaluation that run to their ends, while nobody else writes and no call fails, do
one thing or nothing.

1. **Runs alone** (`World.performed_runs`).  What is performed is a run in which nobody else wrote,
   all of it at the time of the world.
2. **Deliveries** (`World.delivered`).  A delivery records its push on the request, at that time, or
   leaves the request as it is; and it leaves everything but requests alone.
3. **Evaluations** (`finishes_coordinate`).  An evaluation leaves the store as it is, or it reports
   that it started an execution: then it created it and recorded it, for the push that waited.
-/

namespace PushBuild

/-! ## Runs alone -/

/-- What is left of a program that is alone goes on alone, at the same time.  The induction is on
the program: with each effect one exchange is added to those made before, and it finds the store
that the one before left. -/
theorem Program.ends_runs {α : Type} {now : Instant} {s₀ : MemoryStore} (p : Program α) :
    ∀ {s before}, Alone s₀ before s → (∀ x ∈ before, x.Holds ∧ x.now = now) →
      p.Ends now False (fun a t => ∃ after, p.Runs before after a ∧ Alone s₀ after t ∧
        ∀ x ∈ after, x.Holds ∧ x.now = now) s := by
  induction p with
  | done a => exact fun halone hbefore => ⟨_, .done a _, halone, hbefore⟩
  | step effect next ih =>
    intro s before halone hbefore answer t hanswer
    let x : Exchange := ⟨now, s, effect.act answer, t⟩
    have hholds : x.Holds := Or.inl hanswer.served
    have hnext : Alone s₀ (x :: before) t := ⟨rfl, halone⟩
    refine (ih answer hnext (List.forall_mem_cons.mpr ⟨⟨hholds, rfl⟩, hbefore⟩)).mono ?_
    rintro a u ⟨after, hruns, hend⟩
    exact ⟨after, .step x answer rfl hholds hruns, hend⟩

/-- **What is performed is a run alone.** -/
theorem World.performed_runs {α : Type} (w : World) (p : Program α) :
    ∃ xs, p.Runs [] xs (w.perform p).1 ∧ Alone w.store xs (w.perform p).2.store ∧
      ∀ x ∈ xs, x.Holds ∧ x.now = w.now :=
  have hstart : Alone w.store [] w.store := rfl
  Program.Ends.perform (p.ends_runs hstart fun _ h => absurd h List.not_mem_nil)

/-- The time that was read is the one of the exchange. -/
theorem time_of_exchanges {xs : List Exchange} {now time : Instant}
    (hxs : ∀ x ∈ xs, x.Holds ∧ x.now = now) (htime : .now time ∈ actsIn xs) : time = now := by
  obtain ⟨x, hx, hact⟩ := List.mem_map.mp htime
  obtain ⟨hholds, hnow⟩ := hxs x hx
  unfold Exchange.Holds at hholds
  rw [hact, hnow] at hholds
  rcases hholds with hserved | ⟨-, hfailed⟩
  · exact hserved.1
  · exact hfailed.elim

/-! ## Deliveries -/

section

variable {d : Delivery} {retry : RetryPolicy} {providers : List Provider} {xs : List Exchange}
  {store t : MemoryStore} {result : Except WebhookError Acceptance}

/-- A delivery that did anything brought a push. -/
theorem Handled.brings (h : Handled d retry providers xs result) :
    xs = [] ∨ ∃ provider event, d.Brings providers provider event := by
  cases h with
  | unreadable _ => exact Or.inl rfl
  | unlisted hbrings _ _ | unmatched hbrings _ _ _ | unasked hbrings _ _ _ _
  | unauthorized hbrings _ _ _ _ | recording hbrings _ _ _ _ _ => exact Or.inr ⟨_, _, hbrings⟩

/-- Whatever a delivery does, it records its push on some requests that accept it: on none if it
could not read them or nobody accepts it, on the first of them if it stopped at one, and else on
all. -/
theorem Delivery.Effect.records {provider : Provider} {event : PushEvent}
    (h : d.Effect provider event xs store t result) :
    ∃ rs, (∀ r ∈ rs, r ∈ store.accepting d provider event) ∧ RecordsOn event xs store t rs := by
  have hnothing : t = store → ∃ rs, (∀ r ∈ rs, r ∈ store.accepting d provider event) ∧
      RecordsOn event xs store t rs := by
    rintro rfl
    exact ⟨[], fun _ hr => absurd hr List.not_mem_nil, (MemoryStore.Recounts.refl t).recordsOn⟩
  by_cases hread : ∀ x ∈ xs, ∀ e, ¬ x.act.Unread e
  · by_cases hawaiting : store.awaiting event = []
    · exact hnothing (h.unmatched hread hawaiting).2
    · by_cases haccepting : store.accepting d provider event = []
      · exact hnothing (h.unauthorized hread hawaiting haccepting).2
      · rcases h.recorded hread haccepting with ⟨-, hrecords⟩ |
          ⟨done, r, rest, e, hsplit, -, -, hrecords⟩
        · exact ⟨_, fun _ hr => hr, hrecords⟩
        · refine ⟨done, fun r' hr' => ?_, hrecords⟩
          rw [hsplit]
          exact List.mem_append_left _ hr'
  · obtain ⟨x, hx, e, hunread⟩ : ∃ x ∈ xs, ∃ e, x.act.Unread e := by
      simpa only [not_forall, not_not, exists_prop] using hread
    exact hnothing (h.unread x hx e hunread).2

/-- **A delivery that runs alone** records its push on the request, at the time of the world, or
leaves the request as it is; and it changes requests only. -/
theorem World.delivered {w : World} (hmade : w.store.Made) (key : ObjectKey) (d : Delivery)
    (retry : RetryPolicy) (providers : List Provider) :
    w.store.KeepsOthers (w.perform (d.accept retry providers).run).2.store ∧
      ((w.perform (d.accept retry providers).run).2.store.requests.get? key =
        w.store.requests.get? key ∨
        ∃ r event version, w.store.requests.get? key = some r ∧ r.isOnCommit = true ∧
          (w.perform (d.accept retry providers).run).2.store.requests.get? key =
            some ((r.withPush event w.now).withVersion version)) := by
  obtain ⟨xs, hruns, halone, hxs⟩ := w.performed_runs (d.accept retry providers).run
  generalize (w.perform (d.accept retry providers).run).2.store = t at halone ⊢
  have hhandled := handled_of_runs hruns
  rcases hhandled.brings with rfl | ⟨provider, event, hbrings⟩
  · -- nothing was read, so nothing was done
    obtain rfl : t = w.store := halone
    exact ⟨rfl, Or.inl rfl⟩
  · have heffect := effect_of_handled hmade hhandled (fun x hx => (hxs x hx).1) halone hbrings
    obtain ⟨rs, haccepting, hrecords⟩ := heffect.records
    refine ⟨hrecords.keeps, ?_⟩
    by_cases hkey : ∃ r ∈ rs, r.key = key
    · -- the request is one of those that the push was recorded on
      obtain ⟨r, hr, rfl⟩ := hkey
      obtain ⟨hstored, hmode⟩ := accepting_stored hmade (haccepting r hr)
      obtain ⟨time, version, htime, hwritten⟩ := hrecords.written r hr
      -- the time recorded is that of the world, for the clock was read in it
      obtain rfl := time_of_exchanges hxs htime
      exact Or.inr ⟨r, event, version, hstored, hmode, hwritten⟩
    · exact Or.inl (hrecords.others key fun r hr hrkey => hkey ⟨r, hr, hrkey⟩)

end

/-! ## Evaluations -/

/-- How an evaluation that runs alone ends, from the store `s`.  Either nothing is started and
nothing changes, or everything about the start is said: its number, the push, the execution made,
and the status written. -/
inductive Evaluated (policy : TriggerPolicy) (key : ObjectKey) (now : Instant) (s : MemoryStore) :
    TriggerOutcome → MemoryStore → Prop
  | rests {outcome : TriggerOutcome} (h : ∀ execution after, outcome ≠ .fired execution after) :
      Evaluated policy key now s outcome s
  | fires {push : PushRecord} {x : BuildExecution} {status : BuildRequestStatus}
      {after : Option Duration} {t : MemoryStore} {n : Int}
      (hn : n = (s.contents.requestAt key).statusOrDefault.triggerCounter + 1)
      (hdue : evaluate (s.contents.requestAt key).statusOrDefault.onCommit policy now = .fire push)
      (hx : BuildExecution.desired (s.contents.requestAt key) (onCommitExecutionName key.name n)
        BuildTrigger.onCommit.label = .ok x)
      (hstatus : recordFire push (onCommitExecutionName key.name n) n now (s.contents.requestAt key)
        (s.contents.requestAt key).statusOrDefault = some status)
      (ht : t.contents = (s.contents.withNewExecution x).withRequest key
        ((s.contents.requestAt key).restated status)) :
      Evaluated policy key now s (.fired (onCommitExecutionName key.name n) after) t

section

variable {key : ObjectKey} {now : Instant} {s : MemoryStore} {policy : TriggerPolicy}
  {retry : RetryPolicy} {push : PushRecord} {r : BuildRequest}

/-- The start of the next execution is recorded, and reported.  Nobody wrote meanwhile, so the fresh
state has the counter that was read, and the record that the report goes by is the one just made. -/
theorem finishes_recordStart (hs : s.Serving False) (hsound : Sound key s.contents)
    (hr : HoldsAll key r s.contents) :
    Finishes now False (recordStart policy retry key push r.nextCounter)
      (fun outcome t => ∃ status after,
        recordFire push (onCommitExecutionName key.name r.nextCounter) r.nextCounter now
          (s.contents.requestAt key) (s.contents.requestAt key).statusOrDefault = some status ∧
        outcome = .fired (onCommitExecutionName key.name r.nextCounter) after ∧
        t.contents = s.contents.withRequest key ((s.contents.requestAt key).restated status))
      (fun _ _ => False) s := by
  have hrequest : s.contents.requestAt key = r.unversioned := hr
  refine finishes_now_bind ((finishes_bind _ _).mpr ((finishes_adapt _ _).mpr
    (Finishes.mono (finishes_modifyStatus (fun _ _ => rfl) hs hsound) ?_ fun _ _ h => h.1)))
  rintro _ t ⟨-, ⟨updated, rfl, hupdated⟩, hok | ⟨w, hw, hcontents⟩⟩
  · -- the start does not come too late
    obtain ⟨w, hw⟩ := restateStep_recordFire key s.contents push
      (onCommitExecutionName key.name r.nextCounter) now
    rw [hrequest] at hw
    cases hw.symm.trans hok
  · obtain ⟨status, hstatus, rfl⟩ := restateStep_writes hw
    -- the request that comes back bears the status just written
    have hnew : updated.unversioned = (s.contents.requestAt key).restated status := by
      rw [← show t.contents.requestAt key = updated.unversioned from hupdated, hcontents,
        Write.apply, MemoryStore.requestAt_withRequest]
    have hlast : (updated.statusOrDefault.onCommit.bind (·.lastTriggeredExecution)).map (·.name) =
        some (onCommitExecutionName key.name r.nextCounter) := by
      rw [show updated.statusOrDefault = status from congrArg BuildRequest.statusOrDefault hnew]
      exact congrArg (Option.map (·.name)) (recordFire_last hstatus)
    have hstate := updated.status_bind (·.onCommit) rfl
    show Finishes now False (afterFire policy updated _) _ _ t
    unfold afterFire
    simp only [hstate]
    rw [if_pos hlast]
    exact finishes_now_bind ⟨status, _, hstatus, rfl, hcontents⟩

/-- The place of the next execution is free, or taken by one that is not the request's. -/
def NextIsFree (key : ObjectKey) (r : BuildRequest) (s : MemoryStore) : Prop :=
  ∀ uid x, r.metadata.uid = some uid → s.executions.get? (pushPlace key r.nextCounter) = some x →
    ¬ x.BelongsTo uid

/-- An execution is created where none of the request's is. -/
theorem finishes_create (hs : s.Serving False) (hkey : r.key = key) (hfree : NextIsFree key r s) :
    Finishes now False (BuildExecution.create r (onCommitExecutionName key.name r.nextCounter)
        BuildTrigger.onCommit.label)
      (fun _ t => t.Serving False ∧ ∃ x,
        BuildExecution.desired r (onCommitExecutionName key.name r.nextCounter)
          BuildTrigger.onCommit.label = .ok x ∧ t.contents = s.contents.withNewExecution x)
      (fun _ t => t = s) s := by
  have hplace : (⟨r.namespace, onCommitExecutionName key.name r.nextCounter⟩ : ObjectKey) =
      pushPlace key r.nextCounter := by
    rw [← hkey]
    rfl
  unfold BuildExecution.create
  rw [hplace]
  refine finishes_monadLift_bind (fun x hx => ?_) fun _ _ => rfl
  have hxkey : x.key = pushPlace key r.nextCounter := (desired_eq hx).1.trans hplace
  refine (finishes_tryCatch _ _).mpr (finishes_callPass _ ?_ fun h => h.elim)
  cases hexisting : s.executions.get? x.key with
  | none =>
    -- the place is free
    obtain ⟨w, t, hcall, ht, hcontents⟩ := hs.createExecution hexisting
    rw [hcall]
    exact ⟨ht, x, hx, hcontents⟩
  | some y =>
    -- the execution that is there is not the request's, so it is not adopted
    obtain ⟨kind, name, hcall⟩ := hs.createExecution_exists hexisting
    rw [hxkey] at hexisting
    rw [hcall]
    refine (finishes_bind _ _).mpr (finishes_callPass _ ?_ fun h => h.elim)
    rw [hs.getExecution, hexisting]
    refine finishes_monadLift_bind (fun uid huid => ?_) fun _ _ => rfl
    refine finishes_monadLift_bind (fun _ howned => ?_) fun _ _ => rfl
    -- adoption is refused
    exact absurd (Ownership.of_ensure howned)
      (hfree uid y (BuildRequest.uid_eq_ok.mp huid) hexisting)

/-- A push that is due starts an execution, unless one of the request is still active. -/
theorem finishes_fire (hs : s.Serving False) (hsound : Sound key s.contents)
    (hr : HoldsAll key r s.contents) (hkey : r.key = key) (hfree : NextIsFree key r s)
    (hdue : evaluate r.statusOrDefault.onCommit policy now = .fire push) :
    Finishes now False (fire policy retry key r push) (Evaluated policy key now s)
      (fun _ t => t = s)
      s := by
  have hrequest : s.contents.requestAt key = r.unversioned := hr
  unfold fire
  refine (finishes_bind _ _).mpr (Finishes.mono (followsAt_active hs hr) ?_
    fun _ _ he => he.1.quiet activeStep_settled)
  rintro found t ⟨hadvanced, -⟩
  obtain rfl := hadvanced.quiet activeStep_settled
  cases found with
  -- an execution is still active, and the push waits on
  | some active => exact .rests fun _ _ h => by cases h
  | none =>
    refine (finishes_bind _ _).mpr (Finishes.mono (finishes_create hs hkey hfree) ?_ fun _ _ h => h)
    rintro _ u ⟨hu, x, hx, hcontents⟩
    have hsame : u.contents.requestAt key = t.contents.requestAt key := by
      rw [hcontents]
      rfl
    have hsoundu : Sound key u.contents := hcontents ▸ hsound.withNewExecution x
    refine Finishes.mono (finishes_recordStart hu hsoundu (hsame.trans hr)) ?_ fun _ _ h => h.elim
    rintro outcome v ⟨status, after, hstatus, rfl, hwritten⟩
    rw [hsame] at hstatus hwritten
    rw [hcontents] at hwritten
    refine .fires ?_ ?_ ?_ hstatus hwritten
    · rw [hrequest]
      rfl
    · rw [hrequest]
      exact hdue
    · rw [hrequest]
      exact hx

/-- **An evaluation that runs alone** leaves the store as it is, or it creates an execution, records
it and reports it. -/
theorem finishes_coordinate (hs : s.Serving False) (hsound : Sound key s.contents)
    (hfree : ∀ r, s.requests.get? key = some r → NextIsFree key r s) :
    Finishes now False (coordinate policy retry key) (Evaluated policy key now s) (fun _ t => t = s)
      s := by
  obtain ⟨r, hr, hkey, hrequest⟩ := hsound.stored
  have hrests : ∀ {outcome : TriggerOutcome},
      (∀ execution after, outcome ≠ .fired execution after) →
      Finishes now False (pure outcome : Pass TriggerOutcome) (Evaluated policy key now s)
        (fun _ t => t = s) s := fun h => Evaluated.rests h
  unfold coordinate
  refine (finishes_bind _ _).mpr (finishes_callPass _ ?_ fun h => h.elim)
  rw [hs.getRequest, hr]
  show Finishes now False (if r.isOnCommit then _ else _ : Pass _) _ _ s
  split
  · refine finishes_now_bind ?_
    cases hdue : evaluate r.statusOrDefault.onCommit policy now with
    | fire push => exact finishes_fire hs hsound hrequest hkey (hfree r hr) hdue
    | idle => exact hrests fun _ _ h => by cases h
    | debouncing wait => exact hrests fun _ _ h => by cases h
    | rateLimited wait => exact hrests fun _ _ h => by cases h
  · exact hrests fun _ _ h => by cases h

end

end PushBuild
