import PushBuild.Proofs.Controller.Duty
import PushBuild.Proofs.Recovery.Contents
import PushBuild.Proofs.Recovery.Ends
import PushBuild.Proofs.Store.Version

/-!
# One thing after another

Calls need not be interleaved: each may run to its end before anything else happens.  Then a call is
one step of the world, and what came of a list of calls, deeds and movements of the clock is
computed.

1. **Runs without faults** (`World.perform`).  A program that is run without faults ends where it
   may end undisturbed (`Program.Ends.perform`), and the clock stands still meanwhile.
2. **What an undisturbed program knows** (`Undisturbed`).  The time it read is the time, and the
   request it has just read is the one that is stored.  So what it writes to a request that it read
   is written to the request as it is (`Program.Obeys.ends_request`).
3. **The course of things** (`World.course`).  Occurrences are listed latest first, so what came
   before an occurrence is the rest of the list.
4. **Pushes.**  Which push waits, and which one an occurrence recorded, is seen on the request.
5. **Service** (`World.Serves`).  Unless others hamper the store or put another request in the place
   of the one in question, the store goes on to serve.
-/

namespace PushBuild

/-! ## Runs without faults -/

namespace Simulation

/-- A simulation without faults leaves the clock and has no faults after it. -/
theorem now_run {α : Type} {fails : Prop} {p : Program α} :
    ∀ sim : Simulation, OnlyFails fails sim.faults → (run p sim).2.world.now = sim.world.now := by
  induction p with
  | done a => exact fun _ _ => rfl
  | step effect next ih =>
    intro sim hfaults
    obtain ⟨-, hnow, hrest⟩ := answer_answered hfaults effect
    exact (ih _ _ hrest).trans hnow

end Simulation

namespace World

/-- A program is run to its end, without faults. -/
def perform {α : Type} (w : World) (p : Program α) : α × World :=
  let (a, sim) := Simulation.run p { world := w }
  (a, sim.world)

variable {α : Type} {w : World} {p : Program α}

/-- The clock stands still while a program is run. -/
@[simp] theorem now_perform : (w.perform p).2.now = w.now :=
  Simulation.now_run { world := w } (Simulation.onlyFails_nil False)

end World

/-- **What is performed** is where the program may end. -/
theorem Program.Ends.perform {α : Type} {w : World} {p : Program α} {post : α → MemoryStore → Prop}
    (h : p.Ends w.now False post w.store) : post (w.perform p).1 (w.perform p).2.store :=
  Program.Ends.run { world := w } (Simulation.onlyFails_nil False) h

/-! ## Undisturbed programs -/

/-- An effect that is answered by the store and the clock, as an act. -/
theorem Effect.Answered.served {β : Type} {effect : Effect β} {now : Instant} {s t : MemoryStore}
    {answer : β} (h : effect.Answered now False s answer t) :
    (effect.act answer).Served s now t := by
  cases effect with
  | store call =>
    rcases h with h | ⟨hfalse, -⟩
    · cases call <;> exact h
    · exact hfalse.elim
  | now => exact h
  | sleep time => exact h

/-- What a program knows that is not disturbed: what it read of the time, and the request it has
just read. -/
structure Undisturbed (now : Instant) (acts : List Act) (s : MemoryStore) : Prop where
  time : ∀ {t}, .now t ∈ acts → t = now
  read : ∀ {k found before}, acts = .getRequest k (.ok found) :: before → found = s.requests.get? k

/-- Who has done nothing yet knows nothing. -/
theorem Undisturbed.start (now : Instant) (s : MemoryStore) : Undisturbed now [] s :=
  ⟨fun h => absurd h List.not_mem_nil, fun h => absurd h (List.cons_ne_nil _ _).symm⟩

/-- **The step.**  An act that is answered by the store tells what is so: the time, and the request
that is stored now. -/
theorem Undisturbed.acted {now : Instant} {acts : List Act} {s t : MemoryStore} {act : Act}
    (h : Undisturbed now acts s) (hserved : act.Served s now t) :
    Undisturbed now (act :: acts) t := by
  obtain ⟨-, hrequests, -, hanswer⟩ := hserved.effects []
  refine ⟨fun {time} htime => ?_, fun {k found before} hacts => ?_⟩
  · rcases List.mem_cons.mp htime with rfl | htime
    · exact hserved.1
    · exact h.time htime
  · obtain ⟨rfl, -⟩ := List.cons.inj hacts
    obtain ⟨old, hold, hfound⟩ := hanswer
    rw [List.mem_singleton.mp hold] at hfound
    have hsame : t.requests = s.requests := hrequests
    rw [hfound, hsame]

namespace Program

variable {α : Type} {duty : Duty} {now : Instant} {s : MemoryStore}

/-- **The rule of undisturbed programs.**  What is kept by acts that do their duty holds in the end,
and so does what the duty leads to. -/
theorem Obeys.ends_acts {J : List Act → MemoryStore → Prop} {post : α → List Act → Prop}
    (hkeeps : ∀ acts act s t, Undisturbed now acts s → J acts s → act.Served s now t →
      duty acts act → J (act :: acts) t) :
    ∀ {p : Program α} {acts s}, p.Obeys duty post acts → Undisturbed now acts s → J acts s →
      p.Ends now False (fun a t => ∃ later, post a later ∧ J later t) s := by
  intro p
  induction p with
  | done a => exact fun hpost _ hs => ⟨_, hpost, hs⟩
  | step effect next ih =>
    -- the answer is that of the store, so the act is served and kept
    intro acts s hobeys hundisturbed hs answer t hanswer
    have hserved := hanswer.served
    obtain ⟨hduty, hnext⟩ := hobeys answer
    exact ih answer hnext (hundisturbed.acted hserved)
      (hkeeps _ _ _ _ hundisturbed hs hserved hduty)

/-- Where what is kept says nothing of the acts. -/
theorem Obeys.ends {J : MemoryStore → Prop} {post : α → List Act → Prop}
    (hkeeps : ∀ acts act s t, Undisturbed now acts s → J s → act.Served s now t →
      duty acts act → J t) {p : Program α} {acts : List Act} (hobeys : p.Obeys duty post acts)
    (hundisturbed : Undisturbed now acts s) (hs : J s) : p.Ends now False (fun _ t => J t) s :=
  (hobeys.ends_acts (J := fun _ => J) hkeeps hundisturbed hs).mono fun _ _ ⟨_, _, h⟩ => h

/-- What every act keeps, whatever its duty. -/
theorem ends_of_kept {J : MemoryStore → Prop} (p : Program α)
    (hkeeps : ∀ {act : Act} {s t}, J s → act.Served s now t → J t) (hs : J s) :
    p.Ends now False (fun _ t => J t) s := by
  induction p generalizing s with
  | done a => exact hs
  | step effect next ih => exact fun answer t hanswer => ih answer (hkeeps hs hanswer.served)

/-- **What becomes of the request.**  A program writes statuses to requests that it has just read
only, and on grounds `W`.  Then what holds of the request under `key`, and goes on to hold when it
gets a label or a status on such grounds, holds in the end. -/
theorem Obeys.ends_request {key : ObjectKey}
    {W : List Act → BuildRequest → BuildRequestStatus → Prop} {R : BuildRequest → Prop}
    {p : Program α} {post : α → List Act → Prop} (hobeys : p.Obeys duty post [])
    (hs : s.WellFormed) {r : BuildRequest} (hr : s.requests.get? key = some r) (hR : R r)
    (hwrites : ∀ acts request answer, duty acts (.updateRequestStatus request answer) →
      ∃ k r status before, acts = .getRequest k (.ok (some r)) :: before ∧
      request = r.restated status ∧ (k = key → W before r status))
    (label : ∀ r label value n, R r → R ((r.withLabel label value).withVersion n))
    (status : ∀ before r status n, (∀ {t}, .now t ∈ before → t = now) → W before r status → R r →
      R ((r.restated status).withVersion n)) :
    p.Ends now False (fun _ t => ∃ r', t.requests.get? key = some r' ∧ R r') s := by
  refine Ends.mono (fun _ t h => h.2) (hobeys.ends
    (J := fun t => t.WellFormed ∧ ∃ r', t.requests.get? key = some r' ∧ R r') ?_ (.start now s)
    ⟨hs, r, hr, hR⟩)
  rintro acts act s t hundisturbed ⟨hs, r, hr, hR⟩ hserved hduty
  obtain ⟨hle, heffect, -, -⟩ := hserved.effects []
  refine ⟨(heffect.advances hle hs).wellFormed hs, ?_⟩
  obtain ⟨r', hr', rfl | ⟨name, value, _, n, -, rfl⟩ | ⟨request, n, rfl, hkey, -, rfl⟩⟩ :=
    heffect.request hr
  · exact ⟨_, hr', hR⟩
  · exact ⟨_, hr', label r name value n hR⟩
  · -- the request that was just read is the one that is stored
    obtain ⟨k, r₀, new, before, rfl, rfl, hW⟩ := hwrites _ _ _ hduty
    have hread := hundisturbed.read rfl
    have hplace : k = key := (hs.key_eq hread.symm).symm.trans hkey
    subst hplace
    obtain rfl := Option.some.inj (hread.trans hr)
    exact ⟨_, hr',
      status before r₀ new n (fun h => hundisturbed.time (List.mem_cons_of_mem _ h)) (hW rfl) hR⟩

end Program

/-! ## The course of things -/

/-- What happens next: a call that runs to its end, a deed of others, or the clock is moved. -/
inductive Occurrence where
  | call (call : ControllerCall)
  | deed (deed : Deed)
  | tick (now : Instant)

namespace World

/-- The world after an occurrence.  Calls are for the request under `key`. -/
def after (key : ObjectKey) (w : World) : Occurrence → World
  | .call c => (w.perform (c.program key)).2
  | .deed deed => { w with store := deed.apply w.store }
  | .tick now => { w with now }

/-- The world after occurrences, the latest of which comes first. -/
def course (key : ObjectKey) (w : World) : List Occurrence → World
  | [] => w
  | o :: earlier => (w.course key earlier).after key o

/-- Each occurrence is allowed in the world that it finds. -/
def Permits (allows : World → Occurrence → Prop) (key : ObjectKey) (w : World) :
    List Occurrence → Prop
  | [] => True
  | o :: earlier => allows (w.course key earlier) o ∧ w.Permits allows key earlier

variable {key : ObjectKey} {w : World} {allows : World → Occurrence → Prop}

instance Permits.decidable [hallows : ∀ w o, Decidable (allows w o)] :
    (os : List Occurrence) → Decidable (w.Permits allows key os)
  | [] => .isTrue trivial
  | o :: earlier => @instDecidableAnd _ _ (hallows _ o) (Permits.decidable earlier)

/-- What happened first may be taken apart from what came later, -/
theorem course_append (later earlier : List Occurrence) :
    w.course key (later ++ earlier) = (w.course key earlier).course key later := by
  induction later with
  | nil => rfl
  | cons o later ih => exact congrArg (fun w : World => w.after key o) ih

/-- and so may what was allowed. -/
theorem permits_append {later earlier : List Occurrence} :
    w.Permits allows key (later ++ earlier) ↔
      (w.course key earlier).Permits allows key later ∧ w.Permits allows key earlier := by
  induction later with
  | nil => exact ⟨fun h => ⟨trivial, h⟩, fun h => h.2⟩
  | cons o later ih =>
    show allows (w.course key (later ++ earlier)) o ∧ w.Permits allows key (later ++ earlier) ↔ _
    rw [ih, course_append]
    exact (and_assoc).symm

end World

/-! ## Pushes -/

/-- The push that waits on the request under `key`. -/
def MemoryStore.waiting? (s : MemoryStore) (key : ObjectKey) : Option PushRecord :=
  (s.requests.get? key).bind (·.statusOrDefault.pending?)

/-- The push that a delivery recorded on the request: the one that waits then, if the delivery wrote
to the request. -/
def World.recorded? (key : ObjectKey) (w : World) (o : Occurrence) : Option PushRecord :=
  match o with
  | .call (.accept ..) =>
    if (w.after key o).store.requests.get? key = w.store.requests.get? key then none
    else (w.after key o).store.waiting? key
  | _ => none

/-- The push that waits is told by the request. -/
theorem MemoryStore.waiting?_of_get? {s : MemoryStore} {key : ObjectKey} {r : BuildRequest}
    (h : s.requests.get? key = some r) : s.waiting? key = r.statusOrDefault.pending? := by
  rw [waiting?, h]
  rfl

/-! ## Service -/

/-- The deed has the store refuse calls. -/
def Deed.Hampers : Deed → Prop
  | injectConflicts _ | setUnavailable _ => True
  | _ => False

instance Deed.Hampers.decidable : (deed : Deed) → Decidable deed.Hampers
  | .injectConflicts _ | .setUnavailable _ => .isTrue trivial
  | .insertRequest _ | .updateSpec .. | .setLabel .. | .putTemplate _ | .putExecution _ | .report ..
  | .setPolicy _ | .insertStrategy _ | .insertSecret .. => .isFalse id

namespace MemoryStore

variable {s t : MemoryStore}

/-- A call does not make the store refuse calls. -/
theorem call_keeps_service {α : Type} (s : MemoryStore) (call : StoreCall α) :
    (s.call call).2.unavailable = s.unavailable ∧ (s.call call).2.conflicts ≤ s.conflicts := by
  unfold MemoryStore.call
  split
  · exact ⟨rfl, Nat.le_refl _⟩
  · cases call with
    | updateRequestStatus request =>
      simp only [answer, updateRequestStatus, takeVersion, refuse]
      split
      · exact ⟨rfl, Nat.sub_le _ _⟩
      · split
        · exact ⟨rfl, Nat.le_refl _⟩
        · split <;> exact ⟨rfl, Nat.le_refl _⟩
    | setRequestLabel key label value =>
      simp only [answer, setRequestLabel, takeVersion, refuse]
      split <;> exact ⟨rfl, Nat.le_refl _⟩
    | createTemplate template =>
      simp only [answer, createTemplate, created, takeUid, takeVersion, refuse]
      split <;> exact ⟨rfl, Nat.le_refl _⟩
    | replaceTemplate template =>
      simp only [answer, replaceTemplate, takeVersion, refuse]
      split
      · exact ⟨rfl, Nat.le_refl _⟩
      · split <;> exact ⟨rfl, Nat.le_refl _⟩
    | createExecution execution =>
      simp only [answer, createExecution, created, takeUid, takeVersion, refuse]
      split <;> exact ⟨rfl, Nat.le_refl _⟩
    -- the other calls only read
    | _ => exact ⟨rfl, Nat.le_refl _⟩

/-- So a store that serves goes on to serve after a call. -/
theorem Serving.served (h : s.Serving False) {α : Type} (call : StoreCall α) :
    (s.call call).2.Serving False := by
  obtain ⟨havailable, hconflicts⟩ := s.call_keeps_service call
  have hsteady : s.conflicts = 0 := h.steady.resolve_left id
  exact ⟨havailable.trans h.available, Or.inr (by omega)⟩

/-- Only a deed that hampers the store keeps it from serving.  All other deeds change resources, and
whether the store answers does not hang on these. -/
theorem Serving.deed (h : s.Serving False) {deed : Deed} (hdeed : ¬ deed.Hampers) :
    (deed.apply s).Serving False := by
  suffices hkept : (deed.apply s).unavailable = s.unavailable ∧
      (deed.apply s).conflicts = s.conflicts from
    ⟨hkept.1.trans h.available, Or.inr (hkept.2.trans (h.steady.resolve_left id))⟩
  cases deed with
  | injectConflicts count => exact absurd trivial hdeed
  | setUnavailable unavailable => exact absurd trivial hdeed
  | updateSpec key spec =>
    simp only [Deed.apply, updateSpec, takeVersion]
    split <;> exact ⟨rfl, rfl⟩
  | setLabel key label value =>
    simp only [Deed.apply, MemoryStore.setRequestLabel, takeVersion, refuse]
    split <;> exact ⟨rfl, rfl⟩
  | putTemplate template =>
    simp only [Deed.apply, putTemplate, placed, takeVersion, takeUid]
    split <;> exact ⟨rfl, rfl⟩
  | putExecution execution =>
    simp only [Deed.apply, putExecution, placed, takeVersion, takeUid]
    split <;> exact ⟨rfl, rfl⟩
  | report key status =>
    simp only [Deed.apply, setExecutionStatus, takeVersion]
    split <;> exact ⟨rfl, rfl⟩
  | _ => exact ⟨rfl, rfl⟩

end MemoryStore

/-- The answer of the store, to whatever act it was. -/
theorem Act.Served.exists_call {act : Act} {s t : MemoryStore} {now : Instant}
    (h : act.Served s now t) : t = s ∨ ∃ α, ∃ call : StoreCall α, t = (s.call call).2 := by
  cases act with
  | now time => exact Or.inl h.2
  | sleep time => exact Or.inl h
  | _ => exact Or.inr ⟨_, _, (congrArg Prod.snd h).symm⟩

namespace World

/-- The store has the request under `key`, was made by operations, and refuses no call. -/
structure Serves (key : ObjectKey) (w : World) : Prop where
  made : w.store.Made
  serving : w.store.Serving False
  present : ∃ r, w.store.requests.get? key = some r

variable {key : ObjectKey} {w : World}

/-- Whatever program is run, the store goes on to serve. -/
theorem Serves.performed {α : Type} (h : w.Serves key) (p : Program α) :
    (w.perform p).2.Serves key := by
  have hends : p.Ends w.now False
      (fun _ s => s.Made ∧ s.Serving False ∧ ∃ r, s.requests.get? key = some r) w.store := by
    refine p.ends_of_kept ?_ ⟨h.made, h.serving, h.present⟩
    rintro act s t ⟨hmade, hserving, r, hr⟩ hserved
    obtain ⟨r', hr', -⟩ := (hserved.effects []).2.1.request hr
    rcases hserved.exists_call with rfl | ⟨α, call, rfl⟩
    · exact ⟨hmade, hserving, r', hr'⟩
    · exact ⟨.call call hmade, hserving.served call, r', hr'⟩
  obtain ⟨hmade, hserving, hpresent⟩ := hends.perform
  exact ⟨hmade, hserving, hpresent⟩

/-- **The step lemma** of service. -/
theorem Serves.after (h : w.Serves key) {o : Occurrence}
    (ho : ∀ deed, o = .deed deed → ¬ deed.Hampers ∧ ¬ deed.Inserts key) :
    (w.after key o).Serves key := by
  cases o with
  | call c => exact h.performed (c.program key)
  | deed deed =>
    obtain ⟨hhampers, hinserts⟩ := ho deed rfl
    obtain ⟨r, hr⟩ := h.present
    obtain ⟨r', hr', -⟩ := Deed.request hr hinserts
    exact ⟨.deed deed h.made, h.serving.deed hhampers, r', hr'⟩
  | tick now => exact ⟨h.made, h.serving, h.present⟩

end World

end PushBuild
