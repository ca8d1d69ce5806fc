import PushBuild.Proofs.Specification.Shown
import PushBuild.Proofs.Status.Linear
import PushBuild.Proofs.Store.Generation

/-!
# Which generation is observed

At its end a pass says which generation of a request it observed, and in which the request is ready.
It takes the generation from the request to which it writes the status; the template it made from
the request that it had read before.  So the two agree as long as nobody changes the specification
in between.

1. **Writes.**  Of the ways to change a status only the projection announces a generation, and it
   announces that of the request it is written to (`Rewrites.announces`).
2. **The result** (`generation_observed`).  The template was made from an earlier generation, or
   from the one that is announced, and then from its specification.  How far the announcement is
   ahead is the number of edits since the pass read the request.
3. **The other case.**  It happens: a generation is announced of which no template was made
   (`generation_observed_early`).
-/

namespace PushBuild

open PushBuild.System

/-! ## Writes -/

/-- The status `new`, written over `old`, says for the first time that generation `g` was observed,
or has a new entry which says that the request is ready in it. -/
def BuildRequestStatus.Announces (old new : BuildRequestStatus) (g : Int) : Prop :=
  (new.observedGeneration = some g ∧ old.observedGeneration ≠ some g) ∨
    ∃ c ∈ new.conditions, c ∉ old.conditions ∧ c.type = Condition.ready ∧ c.status = .true ∧
      c.observedGeneration = some g

instance (old new : BuildRequestStatus) (g : Int) : Decidable (old.Announces new g) :=
  inferInstanceAs (Decidable (_ ∨ _))

/-- What says the same of generations announces nothing. -/
theorem not_announces {old new : BuildRequestStatus} {g : Int}
    (hobserved : new.observedGeneration = old.observedGeneration)
    (hconditions : new.conditions = old.conditions) : ¬ old.Announces new g := by
  rintro (⟨hnew, hold⟩ | ⟨c, hc, hfresh, -⟩)
  · exact hold (hobserved ▸ hnew)
  · exact hfresh (hconditions ▸ hc)

/-- An entry that is there after one was set was there before, or is the one that was set. -/
theorem Condition.mem_set {c new : Condition} {now : Instant} {conditions : List Condition}
    (h : c ∈ Condition.set new now conditions) :
    c ∈ conditions ∨ c.status = new.status ∧ c.observedGeneration = new.observedGeneration := by
  induction conditions with
  | nil =>
    rw [Condition.set_nil, List.mem_singleton] at h
    rw [h]
    exact Or.inr ⟨rfl, rfl⟩
  | cons old rest ih =>
    rw [Condition.set_cons] at h
    -- the entry that was set is at the head, or in the rest
    split at h
    · rcases List.mem_cons.mp h with rfl | h
      · exact Or.inr ⟨rfl, rfl⟩
      · exact Or.inl (List.mem_cons_of_mem _ h)
    · rcases List.mem_cons.mp h with rfl | h
      · exact Or.inl List.mem_cons_self
      · exact (ih h).imp (List.mem_cons_of_mem _) id

/-- An entry of a projected status was there before, or has the generation of the request. -/
theorem mem_projectedStatus {reference : String} {projection : Option Projection} {now : Instant}
    {r : BuildRequest} {status : BuildRequestStatus} {c : Condition}
    (h : c ∈ (projectedStatus reference projection now r status).conditions) :
    c ∈ status.conditions ∨ c.observedGeneration = r.metadata.generation := by
  unfold projectedStatus at h
  rcases Condition.mem_set h with h | ⟨-, hgeneration⟩
  · cases projection with
    | none => exact Or.inl h
    -- the entry about the execution is set first, then the one about the request
    | some p =>
      simp only [Option.map_some, Option.getD_some, Projection.apply] at h
      split at h
      · exact (Condition.mem_set h).imp id And.right
      · exact Or.inl h
  · exact Or.inr hgeneration

/-- **A write that announces a generation** announces that of the request, after a template was
made. -/
theorem Rewrites.announces {policy : TriggerPolicy} {key : ObjectKey} {acts : List Act}
    {r : BuildRequest} {status : BuildRequestStatus} (h : Rewrites policy key acts r status)
    {g : Int} (hannounces : r.statusOrDefault.Announces status g) :
    r.metadata.generation = some g ∧
      ∃ k r₀ templated, Templated key k r₀ templated ∧ templated <:+ acts := by
  cases h with
  | push _ _ _ => exact absurd hannounces (not_announces rfl rfl)
  | fire _ _ _ => exact absurd hannounces (not_announces rfl rfl)
  | build _ _ _ _ _ => exact absurd hannounces (not_announces rfl rfl)
  | retire _ _ => exact absurd hannounces (not_announces rfl rfl)
  | @project reference projection time k r₀ templated htemplated hacts =>
    refine ⟨?_, k, r₀, templated, htemplated, hacts⟩
    rcases hannounces with ⟨hobserved, -⟩ | ⟨c, hc, hfresh, -, -, hgeneration⟩
    · rw [← hobserved, projectedStatus_frame]
    · rw [← hgeneration, (mem_projectedStatus hc).resolve_left hfresh]
  | failure error _ =>
    rcases hannounces with ⟨hobserved, hfresh⟩ | ⟨c, hc, hfresh, -, htrue, -⟩
    · exact absurd hobserved hfresh
    · -- a failure says that the request is not ready
      obtain ⟨hfalse, -⟩ := (Condition.mem_set hc).resolve_left hfresh
      cases htrue.symm.trans hfalse

/-! ## Runs -/

section

variable {ι : Type} [DecidableEq ι] {call : ι → ControllerCall} {key : ObjectKey}
  {store : MemoryStore} {first : BuildRequest} {now : Instant}
  {s : System ι fun i => (call i).Result}

/-- **The generation that is announced.**  Whatever the order of calls, whatever others do but put
another request in the place of this one, and whichever calls fail or are answered with requests
that were stored earlier: an event after which the status of the request announces a generation is a
write of a program to the request in that generation, and that program made the template from a
request that it had read.  The generation of that request is no later than the one that is
announced, and if it is the same the specification is; and if the request was read as it was stored,
the announcement is ahead by the number of edits since. -/
theorem generation_observed (hmade : store.Made) (hfirst : store.requests.get? key = some first)
    (hrun : Reaches (othersKeep key) (startCalls call key store now) s)
    {later earlier : List (Event ι)} {e : Event ι} (hlog : s.log = later ++ e :: earlier)
    {r r' : BuildRequest} (hr : e.before.requests.get? key = some r)
    (hr' : e.after.requests.get? key = some r') {g : Int}
    (hannounces : r.statusOrDefault.Announces r'.statusOrDefault g) :
    r.metadata.generation = some g ∧ ∃ i r₀, e.actor? = some i ∧
      (∃ acts, acts <:+ actsOf i earlier ∧ Derives key r₀ acts) ∧
      r₀.generation ≤ g ∧ (r₀.generation = g → r₀.spec = r.spec) ∧
      ∃ since c old, earlier = since ++ c :: old ∧
        c.cause = .act i (.getRequest key (.ok (some r₀))) ∧
        (c.before.requests.get? key = some r₀ →
          g = r₀.generation + since.countP (·.edits key)) := by
  obtain ⟨s₁, h₁⟩ := hrun.moment (obeys_startCalls call key store now) rfl hlog
  obtain ⟨hversioned, hinformed⟩ := h₁.reaches.versioned hmade
  obtain ⟨r₁, hgenerations⟩ := h₁.reaches.generations hfirst fun _ _ h => h
  have hcurrent : s₁.store.requests.get? key = some r := h₁.store_eq ▸ hr
  obtain rfl := Option.some.inj (hgenerations.current.symm.trans hcurrent)
  -- the event is a write, and it announces what it was made from
  obtain ⟨i, act, hcause, hduty, hrewrites⟩ := h₁.status_changed hversioned hinformed (fun _ h => h)
    hr hr' fun hsame => not_announces rfl rfl (hsame ▸ hannounces)
  obtain ⟨hg, k, r₀, templated, htemplated, hacts⟩ := (hrewrites _ hduty).announces hannounces
  have hgeneration : r₁.generation = g := by rw [BuildRequest.generation, hg, Option.getD_some]
  have hderives := htemplated.derives hversioned hinformed (h₁.reaches.templatesKeyed hmade) hacts
  -- the read is an event of its own
  have ⟨shown, before, strategy, heq, hread, _⟩ := hderives
  obtain ⟨between, past, rfl⟩ := List.append_of_mem hread
  have hpast : .getRequest key (.ok (some r₀)) :: past <:+ s₁.acts i := by
    refine List.IsSuffix.trans ?_ (heq ▸ hacts)
    exact (List.suffix_append between _).trans (List.suffix_cons _ _)
  obtain ⟨since, c, old, s₂, hlog₁, hc, h₂, -⟩ :=
    h₁.reaches.moment_act (obeys_startCalls call key store now) rfl hpast
  have hstored : s₁.Stored key r₀ := hinformed i key r₀ (hpast.mem List.mem_cons_self)
  refine ⟨hg, i, r₀, Event.actor?_eq_some.mpr ⟨act, hcause⟩, ⟨templated, ?_, hderives⟩,
    hgeneration ▸ hgenerations.le hstored, fun hsame => ?_, since, c, old,
    h₁.log_eq.symm.trans hlog₁, hc, fun hread => ?_⟩
  · rw [← h₁.log_eq]
    exact hacts
  · exact hgenerations.spec_eq hstored (stored_of_get? hcurrent) (hsame.trans hgeneration.symm)
  · obtain ⟨r₂, hgenerations₂⟩ := h₂.reaches.generations hfirst fun _ _ h => h
    rw [← h₂.store_eq] at hread
    obtain rfl := Option.some.inj (hgenerations₂.current.symm.trans hread)
    rw [← hgeneration]
    exact hgenerations₂.ahead hgenerations (h₂.log_eq ▸ hlog₁) (Event.edits_act hc)

end

/-! ## A run -/

/-- A pass over the request before its first call. -/
def plainPass : System Unit fun _ => Except BuildError ReconcileOutcome :=
  startCalls (fun _ => .reconcile {}) appKey plainStore (secondsIn 1)

/-- The pass is made, and nobody does anything meanwhile. -/
def undisturbed : List (Choice Unit) := List.replicate 13 (.serve ())

/-- The first generation is announced, and the template was made from it. -/
theorem generation_observed_undisturbed :
    ∃ e earlier r r₀, (plainPass.play undisturbed).log = e :: earlier ∧
      e.before.requests.get? appKey = some r ∧ r.metadata.generation = some 1 ∧
      (∃ acts, acts <:+ actsOf () earlier ∧ Derives appKey r₀ acts) ∧ r₀.generation ≤ 1 := by
  -- the last event of the run is the write that announces the generation
  obtain ⟨hpermits, hstored, e, he, r, hr, r', hr', hannounces⟩ :
      Permits (othersKeep appKey) plainPass undisturbed ∧
      (plainStore.requests.get? appKey).isSome ∧
      ∃ e ∈ (plainPass.play undisturbed).log.head?, ∃ r ∈ e.before.requests.get? appKey,
        ∃ r' ∈ e.after.requests.get? appKey, r.statusOrDefault.Announces r'.statusOrDefault 1 := by
    decide +kernel
  obtain ⟨first, hfirst⟩ := Option.isSome_iff_exists.mp hstored
  obtain ⟨earlier, hlog⟩ := List.head?_eq_some_iff.mp he
  have hlast : (plainPass.play undisturbed).log = [] ++ e :: earlier := hlog
  obtain ⟨hgeneration, i, r₀, -, hderives, hle, -⟩ :=
    generation_observed plainStore_made hfirst (reaches_play undisturbed hpermits) hlast hr
      hr' hannounces
  exact ⟨e, earlier, r, r₀, hlog, hr, hgeneration, hderives, hle⟩

/-- The specification changes while the pass goes on. -/
def editInPass : List (Choice Unit) :=
  List.replicate 9 (.serve ()) ++ [.deed (.updateSpec appKey releaseSpec)] ++
    List.replicate 4 (.serve ())

/-- A pass announces the second generation, and no template that it showed says what the
specification of that generation says. -/
theorem generation_observed_early :
    plainStore.Made ∧
    ∃ s, Reaches (othersKeep appKey) (startCalls (fun _ : Unit => .reconcile {}) appKey plainStore
        (secondsIn 1)) s ∧
      ∃ e ∈ s.log, ∃ r ∈ e.before.requests.get? appKey, ∃ r' ∈ e.after.requests.get? appKey,
        r.metadata.generation = some 2 ∧ r.statusOrDefault.Announces r'.statusOrDefault 2 ∧
        (∃ act ∈ s.acts (), act.shown?.isSome) ∧
        ∀ act ∈ s.acts (), ∀ shown ∈ act.shown?, shown.2.snapshot ≠ r.spec.snapshot := by
  obtain ⟨hpermits, hannounced⟩ :
      Permits (othersKeep appKey) plainPass editInPass ∧
      ∃ e ∈ (plainPass.play editInPass).log, ∃ r ∈ e.before.requests.get? appKey,
        ∃ r' ∈ e.after.requests.get? appKey,
        r.metadata.generation = some 2 ∧ r.statusOrDefault.Announces r'.statusOrDefault 2 ∧
        (∃ act ∈ (plainPass.play editInPass).acts (), act.shown?.isSome) ∧
        ∀ act ∈ (plainPass.play editInPass).acts (), ∀ shown ∈ act.shown?,
          shown.2.snapshot ≠ r.spec.snapshot := by
    decide +kernel
  exact ⟨plainStore_made, _, reaches_play editInPass hpermits, hannounced⟩

end PushBuild
