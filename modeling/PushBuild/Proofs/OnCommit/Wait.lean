import Mathlib.Data.Option.Basic
import PushBuild.Config.Basic
import PushBuild.Proofs.Time.Instant

/-!
# How long a push waits

A push waits for its debounce window to close, and then for the minimum interval since the last
start to be over.  Both ends are sums that may be beyond what an instant can be, and what is decided
is computed from differences.

1. **Decisions.**  At a plain instant what is decided follows from the two ends, as numbers of
   nanoseconds (`Decides`, `evaluate_decides`), so that a decision says on which side of the ends
   the instant lies.
2. **Stages.**  The two ends are passed one after the other (`TriggerDecision.stage`), and whoever
   waits as long as was said has passed one more of them (`Decides.stage_lt`).
3. **Runs of waits** (`Waits`): each wait takes a stage away, and so there are at most two
   (`Waits.le_stage`).
4. **The result** (`trigger_waits_exactly`), for the windows of any configuration.
-/

namespace PushBuild

/-! ## Decisions -/

/-- When the push may start a build as far as other pushes go, in nanoseconds. -/
def Config.quietFrom (c : Config) (push : PushRecord) : Int :=
  push.receivedAt.closing c.debounceSeconds.toNat

/-- When the next build may start after this one, in nanoseconds. -/
def Config.spacedFrom (c : Config) (last : TriggeredExecution) : Int :=
  last.triggeredAt.closing c.minIntervalSeconds.toNat

/-- The waiting push and the last start are not dated to leap seconds. -/
structure PlainlyDated (state : Option OnCommitStatus) : Prop where
  pending : ∀ push ∈ state.bind (·.pending), push.receivedAt.IsPlain
  last : ∀ last ∈ state.bind (·.lastTriggeredExecution), last.triggeredAt.IsPlain

/-- What a push that waits until `quiet`, and until `spaced` if there was a start before, should do
at `now`. -/
inductive Decides (push : PushRecord) (quiet : Int) (spaced : Option Int) (now : Int) :
    TriggerDecision → Prop
  | debouncing {wait : Duration} (hquiet : now < quiet)
      (hwait : (wait.nanoseconds : Int) = quiet - now) :
      Decides push quiet spaced now (.debouncing wait)
  | rateLimited {wait : Duration} {theEnd : Int} (hquiet : quiet ≤ now) (hend : theEnd ∈ spaced)
      (hspaced : now < theEnd) (hwait : (wait.nanoseconds : Int) = theEnd - now) :
      Decides push quiet spaced now (.rateLimited wait)
  | fire (hquiet : quiet ≤ now) (hspaced : ∀ theEnd ∈ spaced, theEnd ≤ now) :
      Decides push quiet spaced now (.fire push)

section

variable (c : Config) {state : Option OnCommitStatus} {push : PushRecord} {now t : Instant}

/-- **What is decided** follows from the two ends. -/
theorem evaluate_decides (hdated : PlainlyDated state) (hpush : push ∈ state.bind (·.pending))
    (hnow : now.IsPlain) :
    Decides push (c.quietFrom push) ((state.bind (·.lastTriggeredExecution)).map c.spacedFrom)
      now.total
      (evaluate state c.controllerSettings.trigger now) := by
  obtain ⟨hquiet, hquietFrom⟩ :=
    Instant.deadline_ofSeconds (hdated.pending push hpush) c.debounceSeconds.toNat
  unfold evaluate
  rw [hpush]
  dsimp only
  split
  · -- the window is open
    next wait hwait =>
    obtain ⟨hlt, hwait⟩ := (Instant.remaining?_eq_some hnow hquiet).mp hwait
    rw [hquietFrom] at hlt hwait
    exact .debouncing hlt hwait
  · -- the window has closed
    next hpassed =>
    have hpassed := (Instant.remaining?_eq_none hnow hquiet).mp hpassed
    rw [hquietFrom] at hpassed
    cases hlast : state.bind (·.lastTriggeredExecution) with
    | none => exact .fire hpassed fun theEnd hend => nomatch hend
    | some last =>
      obtain ⟨hspaced, hspacedFrom⟩ :=
        Instant.deadline_ofSeconds (hdated.last last hlast) c.minIntervalSeconds.toNat
      rw [Option.bind_some]
      split
      · -- the interval is not over
        next wait hwait =>
        obtain ⟨hlt, hwait⟩ := (Instant.remaining?_eq_some hnow hspaced).mp hwait
        rw [hspacedFrom] at hlt hwait
        exact .rateLimited hpassed rfl hlt hwait
      · next hover =>
        have hover := (Instant.remaining?_eq_none hnow hspaced).mp hover
        rw [hspacedFrom] at hover
        refine .fire hpassed fun theEnd hend => ?_
        obtain rfl := Option.some.inj hend
        exact hover

end

section

variable {push : PushRecord} {quiet : Int} {spaced : Option Int} {now : Int} {d : TriggerDecision}

/-- Which decision it is, is a matter of the ends: the push has to be quiet for longer -/
theorem Decides.debouncing_iff (h : Decides push quiet spaced now d) (wait : Duration) :
    d = .debouncing wait ↔ now < quiet ∧ (wait.nanoseconds : Int) = quiet - now := by
  obtain ⟨n⟩ := wait
  cases h with
  | @debouncing w hquiet htime =>
    obtain ⟨m⟩ := w
    simp only [TriggerDecision.debouncing.injEq, Duration.mk.injEq] at *
    omega
  | rateLimited hquiet =>
    simp only [reduceCtorEq, false_iff]
    omega
  | fire hquiet =>
    simp only [reduceCtorEq, false_iff]
    omega

/-- or to wait for the interval, -/
theorem Decides.rateLimited_iff (h : Decides push quiet spaced now d) (wait : Duration) :
    d = .rateLimited wait ↔
      quiet ≤ now ∧ ∃ theEnd ∈ spaced, now < theEnd ∧ (wait.nanoseconds : Int) = theEnd - now := by
  constructor
  · rintro rfl
    cases h with
    | rateLimited hquiet hend hspaced htime => exact ⟨hquiet, _, hend, hspaced, htime⟩
  · rintro ⟨hquiet, theEnd, hend, hspaced, htime⟩
    cases h with
    | debouncing hquiet' => omega
    | @rateLimited w theEnd' _ hend' _ htime' =>
      obtain rfl := Option.mem_unique hend hend'
      obtain ⟨n⟩ := wait
      obtain ⟨m⟩ := w
      rw [TriggerDecision.rateLimited.injEq, Duration.mk.injEq]
      dsimp only at htime htime'
      omega
    | fire _ hspaced' =>
      have hover := hspaced' _ hend
      omega

/-- or it starts the build. -/
theorem Decides.fire_iff (h : Decides push quiet spaced now d) (fired : PushRecord) :
    d = .fire fired ↔ fired = push ∧ quiet ≤ now ∧ ∀ theEnd ∈ spaced, theEnd ≤ now := by
  constructor
  · rintro rfl
    cases h with
    | fire hquiet hspaced => exact ⟨rfl, hquiet, hspaced⟩
  · rintro ⟨rfl, hquiet, hspaced⟩
    cases h with
    | debouncing hquiet' => omega
    | rateLimited _ hend' hspaced' =>
      have hover := hspaced _ hend'
      omega
    | fire => rfl

end

/-! ## Stages -/

/-- How many ends are still to be passed. -/
def TriggerDecision.stage : TriggerDecision → Nat
  | .debouncing _ => 2
  | .rateLimited _ => 1
  | .idle | .fire _ => 0

/-- There are two ends. -/
theorem TriggerDecision.stage_le (d : TriggerDecision) : d.stage ≤ 2 := by
  cases d with
  | debouncing => exact Nat.le_refl 2
  | rateLimited => exact Nat.le_succ 1
  | idle => exact Nat.zero_le 2
  | fire => exact Nat.zero_le 2

section

variable {push : PushRecord} {quiet : Int} {spaced : Option Int} {now t : Int}
  {d d' : TriggerDecision}

/-- A decision to wait says until when. -/
theorem Decides.wait_eq (h : Decides push quiet spaced now d) {wait : Duration}
    (hwait : d.requeueAfter = some wait) :
    0 < wait.nanoseconds ∧ (now + wait.nanoseconds = quiet ∨ now + wait.nanoseconds ∈ spaced) := by
  cases h with
  | debouncing hquiet htime =>
    obtain rfl := Option.some.inj hwait
    exact ⟨by omega, .inl (by omega)⟩
  | @rateLimited w theEnd hquiet hend hspaced htime =>
    obtain rfl := Option.some.inj hwait
    obtain rfl : theEnd = now + w.nanoseconds := by omega
    exact ⟨by omega, .inr hend⟩
  | fire => cases hwait

/-- Before the time that was said no build is started. -/
theorem Decides.not_fire (h : Decides push quiet spaced now d) {wait : Duration}
    (hwait : d.requeueAfter = some wait) (hbefore : t < now + wait.nanoseconds)
    (h' : Decides push quiet spaced t d') (fired : PushRecord) : d' ≠ .fire fired := by
  rintro rfl
  cases h' with
  | fire hquiet' hspaced' =>
    obtain ⟨-, hend | hend⟩ := h.wait_eq hwait
    · omega
    · have hover := hspaced' _ hend
      omega

/-- **Whoever waited as long as was said** has passed one more of the ends.  After a wait for the
window that end is passed, though the interval may still be open; after a wait for the interval both
are. -/
theorem Decides.stage_lt (h : Decides push quiet spaced now d) {wait : Duration}
    (hwait : d.requeueAfter = some wait) (hafter : now + wait.nanoseconds ≤ t)
    (h' : Decides push quiet spaced t d') : d'.stage < d.stage := by
  cases h with
  | debouncing hquiet htime =>
    obtain rfl := Option.some.inj hwait
    cases h' with
    | debouncing hquiet' => omega
    | rateLimited => exact Nat.lt_succ_self 1
    | fire => exact Nat.zero_lt_succ 1
  | rateLimited hquiet hend hspaced htime =>
    obtain rfl := Option.some.inj hwait
    cases h' with
    | debouncing hquiet' => omega
    | rateLimited hquiet' hend' hspaced' =>
      obtain rfl := Option.mem_unique hend hend'
      omega
    | fire => exact Nat.zero_lt_succ 0
  | fire => cases hwait

/-- A decision that is not to wait is to start the build. -/
theorem Decides.eq_fire (h : Decides push quiet spaced now d) (hwait : d.requeueAfter = none) :
    d = .fire push := by
  cases h with
  | debouncing => cases hwait
  | rateLimited => cases hwait
  | fire => rfl

end

/-! ## Runs of waits -/

/-- From the one instant so many waits, one after the other, lead to the other; each is as long as
was said, or longer. -/
inductive Waits (state : Option OnCommitStatus) (policy : TriggerPolicy) :
    Instant → Nat → Instant → Prop
  | nil (now : Instant) : Waits state policy now 0 now
  | cons {now next last : Instant} {n : Nat} {wait : Duration}
      (hwait : (evaluate state policy now).requeueAfter = some wait) (hplain : next.IsPlain)
      (hafter : now.total + wait.nanoseconds ≤ next.total)
        (hrest : Waits state policy next n last) :
      Waits state policy now (n + 1) last

section

variable {c : Config} {state : Option OnCommitStatus} {push : PushRecord} {now last : Instant}
  {n : Nat}

/-- **Each wait passes an end.** -/
theorem Waits.le_stage (hdated : PlainlyDated state) (hpush : push ∈ state.bind (·.pending))
    (hnow : now.IsPlain) (h : Waits state c.controllerSettings.trigger now n last) :
    last.IsPlain ∧ n + (evaluate state c.controllerSettings.trigger last).stage ≤
      (evaluate state c.controllerSettings.trigger now).stage := by
  induction h with
  | nil => exact ⟨hnow, Nat.le_of_eq (Nat.zero_add _)⟩
  | cons hwait hplain hafter hrest ih =>
    obtain ⟨hlast, hstage⟩ := ih hplain
    have hlt := (evaluate_decides c hdated hpush hnow).stage_lt hwait hafter
      (evaluate_decides c hdated hpush hplain)
    exact ⟨hlast, by omega⟩

/-- The end of a wait is an instant. -/
theorem exists_end (hdated : PlainlyDated state) (hpush : push ∈ state.bind (·.pending))
    (hnow : now.IsPlain) {wait : Duration}
    (hwait : (evaluate state c.controllerSettings.trigger now).requeueAfter = some wait) :
    ∃ next : Instant, next.IsPlain ∧ next.total = now.total + wait.nanoseconds := by
  obtain ⟨-, hend | hend⟩ := (evaluate_decides c hdated hpush hnow).wait_eq hwait
  · obtain ⟨hplain, htotal⟩ := Instant.deadline_ofSeconds (hdated.pending push hpush)
      c.debounceSeconds.toNat
    exact ⟨_, hplain, htotal.trans hend.symm⟩
  · obtain ⟨before, hbefore, hend⟩ := Option.mem_map.mp hend
    obtain ⟨hplain, htotal⟩ := Instant.deadline_ofSeconds (hdated.last before hbefore)
      c.minIntervalSeconds.toNat
    exact ⟨_, hplain, htotal.trans hend⟩

/-- Waiting as long as is said, again and again, ends with the start of the build. -/
theorem exists_waits (hdated : PlainlyDated state) (hpush : push ∈ state.bind (·.pending))
    (hnow : now.IsPlain) :
    ∃ n last, Waits state c.controllerSettings.trigger now n last ∧
      evaluate state c.controllerSettings.trigger last = .fire push := by
  induction hstage : (evaluate state c.controllerSettings.trigger now).stage using Nat.strongRecOn
    generalizing now with
  | _ stage ih =>
    have hdecides := evaluate_decides c hdated hpush hnow
    cases hwait : (evaluate state c.controllerSettings.trigger now).requeueAfter with
    | none => exact ⟨0, now, .nil now, hdecides.eq_fire hwait⟩
    | some wait =>
      -- each wait takes a stage away, and there are finitely many
      obtain ⟨next, hplain, htotal⟩ := exists_end hdated hpush hnow hwait
      have hlt := hdecides.stage_lt hwait (Int.le_of_eq htotal.symm)
        (evaluate_decides c hdated hpush hplain)
      obtain ⟨n, last, hrest, hfire⟩ := ih _ (hstage ▸ hlt) hplain rfl
      exact ⟨n + 1, last, .cons hwait hplain (Int.le_of_eq htotal.symm) hrest, hfire⟩

end

/-! ## The result -/

/-- No computation with the window leaves the range of its numbers: neither the window in
milliseconds, nor the seconds of the instant at which it closes, whether or not there is such an
instant, nor how long it is until then. -/
structure Window.InRange (w : Window) (start now : Instant) : Prop where
  millis : 0 ≤ w.millis ∧ w.millis ≤ longest.millis
  seconds : -9223372036854775808 ≤ start.seconds ∧
    start.seconds + w.millis / 1000 + 1 ≤ 9223372036854775807
  difference : -(longest.millis * 1000000) ≤ (start.deadline w).since now ∧
    (start.deadline w).since now ≤ longest.millis * 1000000

/-- A window of whole seconds is in range from any plain instant on.  Its end is no later than the
last instant, and the time until then is less than the number of milliseconds that a window may
have. -/
theorem Window.inRange_ofSeconds {start now : Instant} (hstart : start.IsPlain)
    (hnow : now.IsPlain) (n : Nat) :
    (Window.ofSeconds n).InRange start now := by
  obtain ⟨hplain, -⟩ := Instant.deadline_ofSeconds hstart n
  have hend := (start.deadline (.ofSeconds n)).earliest_le_total
  have hend' := Instant.total_le_latest hplain
  have hearliest := now.earliest_le_total
  have hlatest := Instant.total_le_latest hnow
  have htotal : Instant.latest.total = 8210266876799999999999 := rfl
  have hmillis := Window.millis_ofSeconds n
  have hlongest : Window.longest.millis = 9223372036854775807 := rfl
  have hfirst := start.earliest_le
  have hlast := start.le_latest
  refine ⟨by omega, by omega, ?_⟩
  rw [Instant.since_eq hnow hplain]
  omega

/-- What is promised of a wait: it is positive and can be told, it ends at an instant, before its
end no build is started, and at its end or later one more of the ends is passed, so that what is
waited for then is something else. -/
structure WaitsExactly (state : Option OnCommitStatus) (policy : TriggerPolicy) (now : Instant)
    (wait : Duration) :
    Prop where
  positive : 0 < wait.nanoseconds
  fits : wait.Fits
  ends : ∃ next : Instant, next.IsPlain ∧ next.total = now.total + wait.nanoseconds
  before : ∀ t : Instant, t.IsPlain → t.total < now.total + wait.nanoseconds →
    ∀ fired, evaluate state policy t ≠ .fire fired
  after : ∀ t : Instant, t.IsPlain → now.total + wait.nanoseconds ≤ t.total →
    (evaluate state policy t).stage < (evaluate state policy now).stage

/-- Every wait that is decided on keeps these promises. -/
theorem waitsExactly {c : Config} {state : Option OnCommitStatus} {push : PushRecord}
    {now : Instant} {wait : Duration} (hdated : PlainlyDated state)
    (hpush : push ∈ state.bind (·.pending)) (hnow : now.IsPlain)
    (hwait : (evaluate state c.controllerSettings.trigger now).requeueAfter = some wait) :
    WaitsExactly state c.controllerSettings.trigger now wait := by
  have hdecides := evaluate_decides c hdated hpush hnow
  obtain ⟨next, hplain, htotal⟩ := exists_end hdated hpush hnow hwait
  refine ⟨(hdecides.wait_eq hwait).1, ?_, ⟨next, hplain, htotal⟩, fun t ht hbefore => ?_,
    fun t ht hafter => ?_⟩
  · -- a wait is no longer than all time
    have hlatest := Instant.total_le_latest hplain
    have hearliest := now.earliest_le_total
    have htotal' : Instant.latest.total = 8210266876799999999999 := rfl
    unfold Duration.Fits Duration.seconds
    omega
  · exact hdecides.not_fire hwait hbefore (evaluate_decides c hdated hpush ht)
  · exact hdecides.stage_lt hwait hafter (evaluate_decides c hdated hpush ht)

/-- **When a push that waits starts a build.**  With the windows of any configuration, and dates
that are not in leap seconds: without a push that waits nothing is done.  With one, let the end of
its debounce window and that of the minimum interval be the sums, but no later than all instants
are.  Before the first end the push waits exactly until then; from then on and before the second it
waits exactly until that; and otherwise the push starts its build.  No computation leaves the range
of its numbers.  Every wait ends when something else is decided and not before, and so whoever waits
as long as is said, or longer, waits no more than twice until the build is started. -/
theorem trigger_waits_exactly (c : Config) (state : Option OnCommitStatus)
    (hdated : PlainlyDated state) (now : Instant) (hnow : now.IsPlain) :
    (state.bind (·.pending) = none → evaluate state c.controllerSettings.trigger now = .idle) ∧
    ∀ push ∈ state.bind (·.pending),
      (∀ wait, evaluate state c.controllerSettings.trigger now = .debouncing wait ↔
        now.total < c.quietFrom push ∧ (wait.nanoseconds : Int) = c.quietFrom push - now.total) ∧
      (∀ wait, evaluate state c.controllerSettings.trigger now = .rateLimited wait ↔
        c.quietFrom push ≤ now.total ∧
          ∃ last ∈ state.bind (·.lastTriggeredExecution), now.total < c.spacedFrom last ∧
            (wait.nanoseconds : Int) = c.spacedFrom last - now.total) ∧
      (∀ fired, evaluate state c.controllerSettings.trigger now = .fire fired ↔
        fired = push ∧ c.quietFrom push ≤ now.total ∧
          ∀ last ∈ state.bind (·.lastTriggeredExecution), c.spacedFrom last ≤ now.total) ∧
      c.controllerSettings.trigger.debounce.InRange push.receivedAt now ∧
      (∀ last ∈ state.bind (·.lastTriggeredExecution),
        c.controllerSettings.trigger.minInterval.InRange last.triggeredAt now) ∧
      (∀ wait, (evaluate state c.controllerSettings.trigger now).requeueAfter = some wait →
        WaitsExactly state c.controllerSettings.trigger now wait) ∧
      (∀ n last, Waits state c.controllerSettings.trigger now n last → n ≤ 2 ∧
        ((evaluate state c.controllerSettings.trigger last).requeueAfter = none →
          evaluate state c.controllerSettings.trigger last = .fire push)) ∧
      ∃ n last, Waits state c.controllerSettings.trigger now n last ∧
        evaluate state c.controllerSettings.trigger last = .fire push := by
  refine ⟨fun hidle => ?_, fun push hpush => ?_⟩
  · unfold evaluate
    rw [hidle]
  have hdecides := evaluate_decides c hdated hpush hnow
  refine ⟨hdecides.debouncing_iff, fun wait => ?_, fun fired => ?_,
    Window.inRange_ofSeconds (hdated.pending push hpush) hnow _,
    fun last hlast => Window.inRange_ofSeconds (hdated.last last hlast) hnow _,
    fun wait hwait => waitsExactly hdated hpush hnow hwait, fun n last hwaits => ?_,
    exists_waits hdated hpush hnow⟩
  · simp only [hdecides.rateLimited_iff, Option.mem_map, exists_exists_and_eq_and]
  · simp only [hdecides.fire_iff, Option.mem_map, forall_exists_index, and_imp,
      forall_apply_eq_imp_iff₂]
  · obtain ⟨hlast, hstage⟩ := hwaits.le_stage hdated hpush hnow
    have hstage' := (evaluate state c.controllerSettings.trigger now).stage_le
    exact ⟨by omega, (evaluate_decides c hdated hpush hlast).eq_fire⟩

/-- A configuration by which no push is ever old enough. -/
def patientConfig : Config := { debounceSeconds := 18446744073709551615 }

/-- A push waits that came at the start of 1970. -/
def patientState : OnCommitStatus := { pending := some ⟨"refs/heads/main", "c0ffee", .epoch⟩ }

/-- The start of 1970 is not in a leap second. -/
theorem patientState_dated : PlainlyDated (some patientState) where
  pending push hpush := by
    obtain rfl := Option.some.inj hpush
    decide
  last last hlast := nomatch hlast

/-- Its window is longer than all time, and so it waits until the last of all instants. -/
theorem patient_push_waits : PlainlyDated (some patientState) ∧ Instant.epoch.IsPlain ∧
    evaluate (some patientState) patientConfig.controllerSettings.trigger .epoch =
      .debouncing ⟨8210266876799999999999⟩ := by
  obtain ⟨-, hwaits⟩ := trigger_waits_exactly patientConfig (some patientState) patientState_dated
    .epoch (by decide)
  obtain ⟨hdebouncing, -⟩ := hwaits _ rfl
  exact ⟨patientState_dated, by decide, (hdebouncing _).mpr ⟨by decide, by decide⟩⟩

end PushBuild
