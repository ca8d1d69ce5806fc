import PushBuild.Proofs.Interleaving.Schedule
import PushBuild.Proofs.Status.Modify
import PushBuild.Proofs.Store.Version

/-!
# No lost and no doubled status update

Any number of calls change the status of one request, each with a change of its own, while others
give the request labels and specifications.

1. **The sequential reading.**  `replay` goes through a log and does nothing but apply, at each
   status write that succeeded, the change of the call that wrote.
2. **The invariant** (`Linear`).  What is stored is what `replay` says, and a call has done nothing
   after an act that ends it: a successful write, or a read after which there is nothing to change.
3. **The result** (`status_updates_linear`).  It holds for every interleaving, with calls that fail
   and reads that are out of date, because a write that succeeds was made to the request as it was
   stored (`Versioned.status_write`).
-/

namespace PushBuild

open PushBuild.System

/-- Whether the act is a status write that succeeded. -/
def Act.writes : Act → Bool
  | .updateRequestStatus _ (.ok _) => true
  | _ => false

/-- After the act there is nothing left to do for a call with this change. -/
def Act.Ends (change : StatusChange) : Act → Prop
  | .getRequest _ (.ok none) => True
  | .getRequest _ (.ok (some r)) => change r r.statusOrDefault = none
  | .updateRequestStatus _ (.ok _) => True
  | _ => False

/-- A write that succeeded ends a call. -/
theorem Act.ends_of_writes {act : Act} (h : act.writes = true) (change : StatusChange) :
    act.Ends change := by
  unfold Act.writes at h
  split at h
  · trivial
  · cases h

/-- Where nothing ended, nothing was written. -/
theorem countP_writes_eq_zero {change : StatusChange} {acts : List Act}
    (h : ∀ a ∈ acts, ¬ a.Ends change) : acts.countP Act.writes = 0 :=
  List.countP_eq_zero.mpr fun a ha hwrites => h a ha (Act.ends_of_writes hwrites change)

/-- The status after the events of a log: each status write that succeeded applied the change of its
call, once, to the request as it was stored. -/
def replay {ι : Type} (change : ι → StatusChange) (key : ObjectKey)
    (initial : Option BuildRequestStatus) : List (Event ι) → Option BuildRequestStatus
  | [] => initial
  | e :: earlier =>
    let status := replay change key initial earlier
    match e.cause with
    | .act i (.updateRequestStatus _ (.ok _)) =>
      match e.before.requests.get? key with
      | some r => change i r (status.getD {})
      | none => status
    | _ => status

/-- Others may do anything but put another request under `key`, and the clock may be set. -/
def othersKeep (key : ObjectKey) : Surroundings where
  allows _ deed := ¬ deed.Inserts key
  ticks _ _ := True

instance (key : ObjectKey) (s : MemoryStore) (deed : Deed) :
    Decidable ((othersKeep key).allows s deed) := inferInstanceAs (Decidable (¬ deed.Inserts key))

instance (key : ObjectKey) (t t' : Instant) : Decidable ((othersKeep key).ticks t t') :=
  .isTrue trivial

section

variable {key : ObjectKey} {change : StatusChange}

/-- What a call does that changes the status of the request under `key`. -/
def modifyDuty (key : ObjectKey) (change : StatusChange) : Duty := fun acts act =>
  (∀ a ∈ acts, ¬ a.Ends change) ∧
    match act with
    | .getRequest k _ => k = key
    | .updateRequestStatus request _ => ∃ r status,
      .getRequest key (.ok (some r)) ∈ acts ∧ change r r.statusOrDefault = some status ∧
      request = r.restated status
    | .sleep _ => True
    | _ => False

/-- A read after which there is something to change. -/
theorem not_ends_read {r : BuildRequest} {status : BuildRequestStatus}
    (hchange : change r r.statusOrDefault = some status) :
    ¬ (Act.getRequest key (.ok (some r))).Ends change := by
  intro hnone
  cases hnone.symm.trans hchange

/-- Attempts that failed leave something to do: each of them read something to change and could not
write it, or could not even read. -/
theorem Retried.not_ends {acts : List Act} (h : Retried key change [] acts) :
    ∀ a ∈ acts, ¬ a.Ends change := by
  induction h with
  | start => exact List.forall_mem_nil _
  | unread _ ih => exact List.forall_mem_cons.mpr ⟨id, List.forall_mem_cons.mpr ⟨id, ih⟩⟩
  | refused _ hchange ih =>
    refine List.forall_mem_cons.mpr ⟨id, List.forall_mem_cons.mpr ⟨id, ?_⟩⟩
    exact List.forall_mem_cons.mpr ⟨not_ends_read hchange, ih⟩

/-- So does a call that failed. -/
theorem Unmodified.not_ends {acts : List Act} {e : StoreError}
    (h : Unmodified key change [] e acts) : ∀ a ∈ acts, ¬ a.Ends change :=
  fun a ha => (h.retried ⟨0⟩).not_ends a (List.mem_cons_of_mem _ ha)

/-- A call does its duty, and if it fails it has written nothing. -/
theorem modifyStatus_obeys (retry : RetryPolicy) :
    Meets (modifyDuty key change) (BuildRequest.modifyStatus retry key change)
      (fun _ _ => True) (fun _ acts => acts.countP Act.writes = 0) [] := by
  have hduty : AllowsModify (modifyDuty key change) key change [] := by
    refine ⟨fun _ h => ⟨h.not_ends, rfl⟩, fun _ _ h => ⟨h.not_ends, trivial⟩, ?_⟩
    intro acts r status _ h hchange
    refine ⟨?_, r, status, List.mem_cons_self, hchange, rfl⟩
    exact List.forall_mem_cons.mpr ⟨not_ends_read hchange, h.not_ends⟩
  refine (meets_modifyStatus hduty).mono (fun _ _ _ => trivial) fun e acts h => ?_
  exact countP_writes_eq_zero h.not_ends

end

variable {ι : Type} [DecidableEq ι]

/-- The states of calls that change one status. -/
abbrev Updates (ι : Type) : Type 1 := System ι fun _ => Except StoreError (Option BuildRequest)

/-- What holds while calls change the status of the request under `key`. -/
structure Linear (change : ι → StatusChange) (key : ObjectKey) (initial : Option BuildRequestStatus)
    (s : Updates ι) : Prop where
  versioned : s.Versioned
  informed : s.Informed
  /-- the status is what the writes so far made of it -/
  status : ∃ r, s.store.requests.get? key = some r ∧ r.status = replay change key initial s.log
  /-- an act that ends a call is its last one -/
  ended : ∀ i, ∀ a ∈ (s.acts i).tail, ¬ a.Ends (change i)
  /-- what the calls write is a status -/
  frame : ∀ e ∈ s.log, ∀ i a, e.cause = .act i a → ∀ q r, e.before.requests.get? q = some r →
    ∃ status version, e.after.requests.get? q =
      some { r with status, metadata := { r.metadata with resourceVersion := version } }

namespace Linear

variable {change : ι → StatusChange} {key : ObjectKey} {initial : Option BuildRequestStatus}
  {s : Updates ι}

/-- The step lemma: an act that does its duty. -/
theorem acted (h : Linear change key initial s) {i : ι} {act : Act} {t : MemoryStore}
    (hanswer : s.Answers act t) (hduty : modifyDuty key (change i) (s.acts i) act)
    (rest : Program (Except StoreError (Option BuildRequest))) :
    Linear change key initial (s.acted i act rest t) := by
  obtain ⟨hunended, hshape⟩ := hduty
  have heffect := hanswer.requestEffect
  refine ⟨h.versioned.acted hanswer rest, h.informed.acted hanswer rest, ?_, fun j => ?_, ?_⟩
  · -- only a status write changes the status, and `replay` with it
    obtain ⟨r, hr, hstatus⟩ := h.status
    have hsame : t.requests = s.store.requests →
        ∃ r, t.requests.get? key = some r ∧ r.status = replay change key initial s.log :=
      fun heq => ⟨r, by rw [heq]; exact hr, hstatus⟩
    cases act with
    | getRequest k answer => exact hsame heffect
    | sleep time => exact hsame heffect
    | updateRequestStatus request answer =>
      cases answer with
      | error e => exact hsame heffect
      | ok written =>
        obtain ⟨r₀, status, hread, hchange, rfl⟩ := hshape
        obtain ⟨hr₀, rfl, ht⟩ :=
          h.versioned.status_write (h.informed i key r₀ hread) heffect
        obtain rfl : r = r₀ := Option.some.inj (hr.symm.trans hr₀)
        refine ⟨_, by rw [store_acted, ht, SortedMap.get?_insert, if_pos rfl], ?_⟩
        -- the call read what is stored, and `replay` applies its change to that
        simp only [log_acted, replay, hr]
        rw [← hstatus]
        exact hchange.symm
    | _ => exact hshape.elim
  · -- the act comes after acts that do not end the call
    by_cases hij : i = j
    · subst hij
      rw [acts_acted_self]
      exact hunended
    · rw [acts_acted_ne hij]
      exact h.ended j
  · rw [log_acted]
    refine List.forall_mem_cons.mpr ⟨?_, h.frame⟩
    rintro j a hcause q r hr
    obtain ⟨rfl, rfl⟩ := Cause.act.inj hcause
    obtain ⟨r', hr', rfl | ⟨_, _, _, _, rfl, -⟩ | ⟨request, n, -, -, -, rfl⟩⟩ := heffect.request hr
    · exact ⟨_, _, hr'⟩
    · exact hshape.elim
    · exact ⟨_, _, hr'⟩

/-- The step lemma: what others do. -/
theorem did (h : Linear change key initial s) {deed : Deed} (hdeed : ¬ deed.Inserts key) :
    Linear change key initial (s.did deed) := by
  refine ⟨h.versioned.did deed, h.informed.did deed, ?_, h.ended, ?_⟩
  · obtain ⟨r, hr, hstatus⟩ := h.status
    obtain ⟨r', hr', rfl | ⟨_, _, _, rfl⟩ | ⟨_, _, -, rfl⟩⟩ := Deed.request hr hdeed
    · exact ⟨_, hr', hstatus⟩
    · exact ⟨_, hr', hstatus⟩
    · exact ⟨_, hr', hstatus⟩
  · rw [log_did]
    refine List.forall_mem_cons.mpr ⟨fun i a hcause => ?_, h.frame⟩
    cases hcause

end Linear

/-- At the start nothing was written. -/
theorem linear_start {change : ι → StatusChange} {key : ObjectKey} {store : MemoryStore}
    {r : BuildRequest} (hmade : store.Made) (hr : store.requests.get? key = some r) (now : Instant)
    (pool : ι → Program (Except StoreError (Option BuildRequest))) :
    Linear change key r.status (System.start store now pool) :=
  ⟨versioned_start hmade.wellFormed now pool, fun _ _ _ h => absurd h List.not_mem_nil,
    ⟨r, hr, rfl⟩, fun _ _ h => absurd h List.not_mem_nil, List.forall_mem_nil _⟩

/-- **No lost and no doubled update.**  Calls that change the status of one request, each with a
change of its own, are interleaved with each other and with what others do, in any order, with reads
that may be out of date and calls that may fail.  The status is what the successful writes made of
it, each applying its call's change once to the request as it was then; no call writes twice; a call
that failed, or had nothing to change, wrote nothing; and what a call writes leaves all else of a
request alone. -/
theorem status_updates_linear {retry : ι → RetryPolicy} {change : ι → StatusChange}
    {key : ObjectKey} {store : MemoryStore} {initial : BuildRequest} {now : Instant}
    {s : Updates ι} (hmade : store.Made) (hinitial : store.requests.get? key = some initial)
    (hrun : Reaches (othersKeep key)
      (System.start store now fun i => (BuildRequest.modifyStatus (retry i) key (change i)).run)
      s) :
    (∃ r, s.store.requests.get? key = some r ∧
      r.status = replay change key initial.status s.log) ∧
    (∀ i, (s.acts i).countP Act.writes ≤ 1) ∧
    (∀ i e, s.pool i = .done (.error e) → (s.acts i).countP Act.writes = 0) ∧
    (∀ i r, .getRequest key (.ok (some r)) ∈ s.acts i → change i r r.statusOrDefault = none →
      (s.acts i).countP Act.writes = 0) ∧
    ∀ e ∈ s.log, ∀ i a, e.cause = .act i a → ∀ q r, e.before.requests.get? q = some r →
      ∃ status version, e.after.requests.get? q =
        some { r with status, metadata := { r.metadata with resourceVersion := version } } := by
  have hstart : (System.start store now fun i =>
      (BuildRequest.modifyStatus (retry i) key (change i)).run).Obeys
      (fun i => modifyDuty key (change i)) _ := fun i => modifyStatus_obeys (retry i)
  have hobeys := hrun.obeys hstart
  have h := hrun.induction (J := Linear change key initial.status) hstart
    (linear_start hmade hinitial now _)
    (fun _ _ _ _ _ _ h hanswer hduty => h.acted hanswer hduty _)
    (fun _ _ _ h hdeed => h.did hdeed)
    (fun _ _ _ h _ => ⟨h.versioned.ticked _, h.informed, h.status, h.ended, h.frame⟩)
  refine ⟨h.status, fun i => ?_, fun i e hdone => ?_, fun i r hread hnone => ?_, h.frame⟩
  · -- a write ends a call, so it can only be the last act
    cases hacts : s.acts i with
    | nil => exact Nat.zero_le 1
    | cons a earlier =>
      have hzero : earlier.countP Act.writes = 0 :=
        countP_writes_eq_zero fun b hb => h.ended i b (by rw [hacts]; exact hb)
      rw [List.countP_cons, hzero]
      split <;> omega
  · have hpost := hobeys i
    rw [hdone] at hpost
    exact hpost
  · -- the read ended the call, so it is its last act, and no write
    cases hacts : s.acts i with
    | nil => rfl
    | cons a earlier =>
      have hunended : ∀ b ∈ earlier, ¬ b.Ends (change i) :=
        fun b hb => h.ended i b (by rw [hacts]; exact hb)
      rw [hacts] at hread
      rcases List.mem_cons.mp hread with rfl | hread
      · rw [List.countP_cons, countP_writes_eq_zero hunended]
        rfl
      · exact absurd hnone (hunended _ hread)

/-- A change that counts builds. -/
def countRuns (n : Int) : StatusChange := fun _ status =>
  some { status with buildRunCounter := status.buildRunCounter + n }

/-- Two calls that count builds on a request about which nothing is known. -/
def twoCounts : Updates Bool :=
  System.start (Deed.apply (.insertRequest { metadata := { name := some "app" } }) {}) .epoch
    fun i => (BuildRequest.modifyStatus {} ⟨"default", "app"⟩ (countRuns (if i then 1 else 10))).run

/-- Both calls read; the first is refused for nothing, pauses, reads again and writes; then the
second is too late, and by the time it reads again the specification has changed. -/
def lateCount : List (Choice Bool) :=
  [.serve true, .serve false, .deed (.injectConflicts 1), .serve true, .serve true, .serve true,
    .serve true, .serve false, .deed (.updateSpec ⟨"default", "app"⟩ { rebuild := some .onCommit }),
    .serve false, .serve false, .serve false]

/-- In this race no count is lost, and none is doubled. -/
theorem status_updates_linear_race :
    (∃ r, (twoCounts.play lateCount).store.requests.get? ⟨"default", "app"⟩ = some r ∧
      r.status = some { buildRunCounter := 11 }) ∧
    ∀ i, ((twoCounts.play lateCount).acts i).countP Act.writes ≤ 1 := by
  have hinitial : twoCounts.store.requests.get? ⟨"default", "app"⟩ = some { metadata := {
      name := some "app", «namespace» := some "default", generation := some 1,
      uid := some "uid-1", resourceVersion := some "1" } } := by decide +kernel
  have hpermits : Permits (othersKeep ⟨"default", "app"⟩) twoCounts lateCount := by decide +kernel
  have h := status_updates_linear (.deed _ .empty) hinitial (reaches_play lateCount hpermits)
  refine ⟨?_, h.2.1⟩
  obtain ⟨r, hr, hstatus⟩ := h.1
  exact ⟨r, hr, hstatus.trans (by decide +kernel)⟩

end PushBuild
