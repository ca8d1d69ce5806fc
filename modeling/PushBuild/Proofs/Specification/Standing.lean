import PushBuild.Proofs.Interleaving.Course
import PushBuild.Proofs.OnCommit.Change
import PushBuild.Proofs.Recovery.Pass
import PushBuild.Proofs.Specification.Built

/-!
# What leaves builds as they stand

Much is done to a request and its executions that has nothing to do with builds for a change of the
specification: pushes are recorded and started, labels are set, and it is said how things stand.
This file says so once, for everything a program does while nobody else writes but the start of such
a build itself.

1. **Standing.**  What a request says, how many builds it counts and what was built last is its
   `Standing`; `Stands` says of a store that the request stands so, and which numbers of builds are
   taken.
2. **Acts** (`Stands.spared`).  An act leaves all this as it is, unless it creates one of these
   executions or writes another count or another specification that was built.
3. **The duty** (`idleDuty`).  A program spares builds if what it creates is for pushes, and what it
   writes says of builds what it has just read.  While nobody else writes, that is what is stored
   (`Stands.undisturbed`).
4. **Programs.**  Deliveries and evaluations do this duty, and so do the parts of a pass that are
   not the start of a build.
-/

namespace PushBuild

/-! ## Standing -/

/-- How the builds of a request stand: what it says, how many builds it counts, and what was built
last. -/
structure Standing where
  spec : BuildRequestSpec
  counter : Int
  last : Option BuildSnapshot

namespace Standing

/-- What is to be built is not what was built last. -/
def due (a : Standing) : Bool := a.spec.needsBuild a.last

/-- After one more build. -/
def next (a : Standing) : Standing :=
  { a with counter := a.counter + 1, last := some a.spec.snapshot }

end Standing

/-- How the builds of the request stand. -/
def BuildRequest.standing (r : BuildRequest) : Standing :=
  ⟨r.spec, r.statusOrDefault.buildRunCounter, r.statusOrDefault.lastBuildSpec⟩

/-- The numbers of the executions that are there in the places of builds for a change of the
specification. -/
def MemoryStore.buildNumbers (s : MemoryStore) (key : ObjectKey) : Set Int :=
  {n | ∃ x, s.executions.get? (buildPlace key n) = some x}

/-- Different numbers have different places. -/
theorem buildPlace_inj {key : ObjectKey} {m n : Int} :
    buildPlace key m = buildPlace key n ↔ m = n := by
  refine ⟨fun h => ?_, fun h => by rw [h]⟩
  exact plainExecutionName_inj.mp (congrArg ObjectKey.name h)

/-- The store serves, the builds of the request under `key` stand so, and these numbers are
taken. -/
structure Stands (key : ObjectKey) (a : Standing) (numbers : Set Int) (s : MemoryStore) : Prop where
  wellFormed : s.WellFormed
  serving : s.Serving False
  request : ∃ r, s.requests.get? key = some r ∧ r.standing = a
  numbers_eq : s.buildNumbers key = numbers

/-! ## Acts -/

namespace Act

variable {act : Act} {key : ObjectKey} {s t : MemoryStore} {now : Instant}

/-- The act creates no build for a change of the specification, and writes of the request's builds
what is stored. -/
def SparesBuilds (key : ObjectKey) (s : MemoryStore) : Act → Prop
  | createExecution e _ => ∀ n, e.key ≠ buildPlace key n
  | updateRequestStatus request _ => request.key = key → ∀ r, s.requests.get? key = some r →
      ({ r with status := request.status } : BuildRequest).standing = r.standing
  | _ => True

/-- An act that creates no execution in one of these places leaves their numbers as they are. -/
theorem ExecutionEffect.buildNumbers (h : act.ExecutionEffect s t)
    (hspares : act.SparesBuilds key s) :
    t.buildNumbers key = s.buildNumbers key := by
  refine Set.ext fun n => ⟨?_, fun ⟨x, hx⟩ => ⟨x, h.kept hx⟩⟩
  rintro ⟨x, hx⟩
  rcases h.added hx with hx | ⟨e, rfl, hkey, -⟩
  · exact ⟨x, hx⟩
  · exact absurd hkey (hspares n)

/-- A store that serves goes on to serve, whatever it is asked. -/
theorem Served.serving {act : Act} (h : act.Served s now t) (hs : s.Serving False) :
    t.Serving False := by
  rcases h.exists_call with rfl | ⟨α, call, rfl⟩
  · exact hs
  · exact hs.served call

end Act

namespace Stands

variable {key : ObjectKey} {a a' : Standing} {numbers numbers' : Set Int} {s t : MemoryStore}
  {now : Instant} {act : Act}

/-- What an act makes of a standing. -/
theorem served (h : Stands key a numbers s) (hserved : act.Served s now t)
    (hrequest : ∃ r, t.requests.get? key = some r ∧ r.standing = a')
    (hnumbers : t.buildNumbers key = numbers') : Stands key a' numbers' t := by
  obtain ⟨hle, heffect, -⟩ := hserved.effects []
  exact ⟨(heffect.advances hle h.wellFormed).wellFormed h.wellFormed,
    hserved.serving h.serving, hrequest, hnumbers⟩

/-- **An act that spares builds** leaves them as they stand. -/
theorem spared (h : Stands key a numbers s) (hserved : act.Served s now t)
    (hspares : act.SparesBuilds key s) : Stands key a numbers t := by
  obtain ⟨r, hr, rfl⟩ := h.request
  obtain ⟨-, heffect, hexecutions, -⟩ := hserved.effects []
  refine h.served hserved ?_ ((hexecutions.buildNumbers hspares).trans h.numbers_eq)
  obtain ⟨r', hr', rfl | ⟨label, value, _, n, -, rfl⟩ | ⟨request, n, rfl, hkey, -, rfl⟩⟩ :=
    heffect.request hr
  · exact ⟨_, hr', rfl⟩
  · exact ⟨_, hr', rfl⟩
  · exact ⟨_, hr', hspares hkey r hr⟩

end Stands

/-! ## The duty -/

/-- **The duty**: what is created is for pushes, and what is written to a request says of builds
what was just read. -/
def idleDuty (key : ObjectKey) : Duty := fun acts act =>
  match act with
  | .createExecution e _ => ∃ f : Firing, Known key acts f.key ∧ f.desired = .ok e
  | .updateRequestStatus request _ =>
    ∃ k r status before, acts = .getRequest k (.ok (some r)) :: before ∧
      request = r.restated status ∧ (r.restated status).standing = r.standing
  | _ => True

/-- Requests were told of under their own keys, and the one under `key` as it stands. -/
def Told (key : ObjectKey) (a : Standing) (acts : List Act) : Prop :=
  ∀ {k r}, .getRequest k (.ok (some r)) ∈ acts → r.key = k ∧ (k = key → r.standing = a)

section

variable {key k : ObjectKey} {a : Standing} {numbers : Set Int} {acts : List Act} {act : Act}
  {s t : MemoryStore} {now : Instant}

/-- A program for `key` speaks of no other key, if requests were told of under their own keys. -/
theorem Told.known (h : Told key a acts) (hk : Known key acts k) : k = key := by
  induction hk with
  | given => rfl
  | read _ hread ih => exact (h hread).1.trans ih

/-- What is told of the request is how it stands, while builds stand so in the store that is
asked. -/
theorem Told.served (h : Told key a acts) (hs : Stands key a numbers s)
    (hserved : act.Served s now t) :
    Told key a (act :: acts) := by
  intro k r hread
  rcases List.mem_cons.mp hread with rfl | hread
  · obtain ⟨-, -, -, old, hold, hfound⟩ := hserved.effects []
    rw [List.mem_singleton.mp hold] at hfound
    refine ⟨hs.wellFormed.key_eq hfound.symm, ?_⟩
    rintro rfl
    obtain ⟨r', hr', hstanding⟩ := hs.request
    rw [Option.some.inj (hfound.trans hr')]
    exact hstanding
  · exact h hread

/-- Who does this duty spares builds, if what was read is what is stored. -/
theorem idleDuty.spares (hduty : idleDuty key acts act) (hundisturbed : Undisturbed now acts s)
    (htold : Told key a acts) (hs : s.WellFormed) : act.SparesBuilds key s := by
  cases act with
  | createExecution e answer =>
    obtain ⟨f, hknown, he⟩ := hduty
    intro n hplace
    -- what is created for a push has another name
    have hname : onCommitExecutionName f.key.name f.counter = plainExecutionName key.name n :=
      congrArg ObjectKey.name ((desired_eq he).1.symm.trans hplace)
    rw [htold.known hknown] at hname
    exact plainExecutionName_ne_onCommit _ _ _ hname.symm
  | updateRequestStatus request answer =>
    obtain ⟨k, r, status, before, rfl, rfl, hstanding⟩ := hduty
    intro hkey stored hstored
    have hread := hundisturbed.read rfl
    have hplace : k = key := (hs.key_eq hread.symm).symm.trans hkey
    subst hplace
    obtain rfl := Option.some.inj (hread.trans hstored)
    exact hstanding
  | _ => trivial

/-- **A program that does this duty undisturbed** leaves builds as they stand, and the request it
was told of stands as the one that is stored. -/
theorem Stands.undisturbed {α : Type} {p : Program α} {post : α → List Act → Prop}
    (h : Stands key a numbers s) (hobeys : p.Obeys (idleDuty key) post []) :
    p.Ends now False (fun x t => Stands key a numbers t ∧ ∃ acts, post x acts ∧ Told key a acts)
      s := by
  refine (hobeys.ends_acts (J := fun acts t => Stands key a numbers t ∧ Told key a acts) ?_
    (.start now s) ⟨h, fun hread => absurd hread List.not_mem_nil⟩).mono ?_
  · rintro acts act s t hundisturbed ⟨hs, htold⟩ hserved hduty
    exact ⟨hs.spared hserved (hduty.spares hundisturbed htold hs.wellFormed),
      htold.served hs hserved⟩
  · rintro x t ⟨acts, hpost, hs, htold⟩
    exact ⟨hs, acts, hpost, htold⟩

end

/-! ## Programs -/

section

variable {key k : ObjectKey} {acts : List Act} {policy : TriggerPolicy} {retry : RetryPolicy}

/-- What is minor has nothing to do with builds. -/
theorem allowsMinor_idleDuty : AllowsMinor (idleDuty key) := by
  intro acts act h
  cases act <;> first
    | exact h.elim
    | trivial

/-- The duty allows a change that says nothing about builds. -/
theorem allowsChange_idleDuty {change : StatusChange}
    (h : ∀ r status, change r r.statusOrDefault = some status →
      (r.restated status).standing = r.standing) :
    AllowsChange (idleDuty key) k acts change :=
  fun r status _ hchange => ⟨k, r, status, acts, rfl, rfl, h r status hchange⟩

/-- An evaluation does the duty. -/
theorem allowsEvaluation_idleDuty : AllowsEvaluation (idleDuty key) policy key where
  looks := allowsMinor_idleDuty.looks
  createForPush _ hf he := ⟨_, hf.known, he⟩
  fire _ := allowsChange_idleDuty fun r status h => by
    obtain ⟨-, rfl⟩ := recordFire_eq_some h
    rfl

/-- A delivery does the duty. -/
theorem allowsDelivery_idleDuty {d : Delivery} {providers : List Provider} :
    AllowsDelivery (idleDuty key) d providers where
  minor := allowsMinor_idleDuty
  push _ _ := allowsChange_idleDuty fun r status h => by
    obtain ⟨-, rfl⟩ := changeOnCommit_eq_some h
    rfl

/-- So does the part of a pass about pushes. -/
theorem keeps_pushPart {settings : ControllerSettings} {r : BuildRequest} (hkey : r.key = key) :
    Keeps (idleDuty key) (pushPart settings r) acts := by
  unfold pushPart
  split
  · rw [hkey]
    exact (keeps_coordinate allowsEvaluation_idleDuty .given).bind fun _ _ _ => trivial
  · refine (keeps_retireOnCommitState allowsMinor_idleDuty.looks ?_).bind fun _ _ _ => trivial
    refine allowsChange_idleDuty fun r status h => ?_
    obtain ⟨_, -, -, rfl⟩ := retirePushes_eq_some h
    rfl

/-- So does saying how things stand, -/
theorem keeps_projectPart {reference : String} :
    Keeps (idleDuty key) (projectStatus retry k reference) acts := by
  refine keeps_projectStatus allowsMinor_idleDuty.looks fun _ _ _ => ?_
  refine allowsChange_idleDuty fun r status h => ?_
  rw [eq_of_ofFunction h, projectedStatus_frame]
  rfl

/-- and saying what blocked a pass. -/
theorem keeps_failurePart {settings : ControllerSettings} {error : BuildError} :
    Keeps (idleDuty key) (failurePart settings k error) acts := by
  unfold failurePart
  split
  · refine (keeps_recordFailure allowsMinor_idleDuty.looks fun _ => ?_).bind fun _ _ _ => trivial
    refine allowsChange_idleDuty fun r status h => ?_
    rw [eq_of_ofFunction h]
    rfl
  · trivial

end

end PushBuild
