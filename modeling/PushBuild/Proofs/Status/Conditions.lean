import Mathlib.Data.List.Dedup
import PushBuild.Proofs.Specification.Observed

/-!
# Conditions over a history of calls

The conditions of a status come about by calls that set one, of one type after another.  What is
there after any number of them is read off the calls.

1. **One call** (`types_set`, `find?_set_self`, `find?_set_of_ne`).  A call puts an entry in the
   place of the one with its type, or at the end, and leaves the entries of other types as they are
   (`filter_put`); it says whether it changed anything (`put_fst`).
2. **The calls for one type** (`standing`).  The entry says what the last of them said, since the
   first of those that go on with its status.  This is what one more call makes of the entry before
   (`standing_cons`): the time is carried along, so nobody has to look back.
3. **All calls** (`types_after`, `find?_after`).  Calls for other types are of no consequence, so
   the entry of a type depends on its own calls only.
4. **Runs.**  Whatever writes a status sets conditions or leaves them (`Rewrites.conditions`), so
   the conditions of a request that came without a status are those after some calls.
-/

namespace PushBuild

open PushBuild.System

/-- A condition that is set, and when. -/
structure SetCall where
  condition : Condition
  time : Instant
deriving Repr, DecidableEq

namespace Condition

/-! ## One call -/

section

variable (new : Condition) (now : Instant)

/-- A call says whether it changed anything. -/
theorem put_fst (conditions : List Condition) :
    (put new now conditions).1 = true ↔ (put new now conditions).2 ≠ conditions := by
  induction conditions with
  | nil => simp [put]
  | cons old rest ih =>
    rw [put]
    split
    · dsimp only
      split
      · simp
      · next hdiffers => simpa using Ne.symm hdiffers
    · simpa using ih

/-- A call leaves the entries of other types as they are. -/
theorem filter_put (conditions : List Condition) :
    (put new now conditions).2.filter (·.type ≠ new.type) =
      conditions.filter (·.type ≠ new.type) := by
  change (set new now conditions).filter _ = _
  induction conditions with
  | nil => simp [set_nil]
  | cons old rest ih =>
    rw [set_cons]
    split
    · next htype => simp [htype]
    · rw [List.filter_cons, List.filter_cons, ih]

/-- A call adds its type at the end, if it is not there. -/
theorem types_set (conditions : List Condition) :
    (set new now conditions).map (·.type) =
      if new.type ∈ conditions.map (·.type) then conditions.map (·.type)
      else conditions.map (·.type) ++ [new.type] := by
  induction conditions with
  | nil => rfl
  | cons old rest ih =>
    rw [set_cons]
    split
    · next htype => simp [htype]
    · next htype =>
      simp only [List.map_cons, ih, List.mem_cons, Ne.symm htype, false_or]
      split <;> rfl

/-- The entry of the type that is set succeeds the one before. -/
theorem find?_set_self (conditions : List Condition) :
    find? (set new now conditions) new.type = some (match find? conditions new.type with
      | some old => succeeding old new now
      | none => { new with lastTransitionTime := some now }) := by
  induction conditions with
  | nil => simp [set_nil, find?]
  | cons old rest ih =>
    rw [set_cons]
    split
    · next htype => simp [find?, htype]
    · next htype =>
      have hskip : (old.type == new.type) = false := beq_eq_false_iff_ne.mpr htype
      simpa [find?, hskip] using ih

/-- The entry of another type stays as it is. -/
theorem find?_set_of_ne {type : String} (hne : type ≠ new.type) (conditions : List Condition) :
    find? (set new now conditions) type = find? conditions type := by
  induction conditions with
  | nil =>
    rw [set_nil]
    simp [find?, Ne.symm hne]
  | cons old rest ih =>
    rw [set_cons]
    split
    · next htype => simp [find?, htype, Ne.symm hne]
    · rw [find?, find?, List.find?_cons, List.find?_cons]
      rw [find?, find?] at ih
      rw [ih]

end

/-- An entry whose type is there once is the one that is found. -/
theorem find?_of_mem {conditions : List Condition} (honce : (conditions.map (·.type)).Nodup)
    {c : Condition} (hc : c ∈ conditions) : find? conditions c.type = some c := by
  induction conditions with
  | nil => cases hc
  | cons old rest ih =>
    rw [List.map_cons, List.nodup_cons] at honce
    rw [find?, List.find?_cons]
    rcases List.mem_cons.mp hc with rfl | hc
    · rw [beq_self_eq_true]
    · have hne : old.type ≠ c.type := fun heq => honce.1 (heq ▸ List.mem_map_of_mem hc)
      rw [beq_eq_false_iff_ne.mpr hne]
      exact ih honce.2 hc

/-! ## The calls for one type -/

/-- The entry for a type after its calls, the latest of which comes first: what the last one said,
and since when its status goes on. -/
def standing : List SetCall → Option Condition
  | [] => none
  | last :: earlier =>
    let goesOn := earlier.takeWhile (·.condition.status = last.condition.status)
    some { last.condition with lastTransitionTime := some (goesOn.getLastD last).time }

/-- What one more call makes of the entry. -/
theorem standing_cons (call : SetCall) (earlier : List SetCall) :
    standing (call :: earlier) = some (match standing earlier with
      | some old => succeeding old call.condition call.time
      | none => { call.condition with lastTransitionTime := some call.time }) := by
  cases earlier with
  | nil => rfl
  | cons last earlier =>
    by_cases hstatus : last.condition.status = call.condition.status
    · -- the status goes on since the same call as before
      simp only [standing, succeeding, List.takeWhile_cons, hstatus, decide_true, if_true,
        List.getLastD_cons, Option.getD_some]
    · simp [standing, succeeding, hstatus]

/-! ## All calls -/

/-- The conditions after calls that began with none, the latest of which comes first. -/
def after : List SetCall → List Condition
  | [] => []
  | call :: earlier => set call.condition call.time (after earlier)

/-- There is an entry for each type, in the order of the first calls. -/
theorem types_after (calls : List SetCall) :
    (after calls).map (·.type) = (calls.map (·.condition.type)).dedup.reverse := by
  induction calls with
  | nil => rfl
  | cons call earlier ih =>
    have hmem : call.condition.type ∈ (after earlier).map (·.type) ↔
        call.condition.type ∈ earlier.map (·.condition.type) := by
      rw [ih, List.mem_reverse, List.mem_dedup]
    rw [after, types_set, List.map_cons]
    by_cases h : call.condition.type ∈ earlier.map (·.condition.type)
    · rw [if_pos (hmem.mpr h), ih, List.dedup_cons_of_mem h]
    · rw [if_neg (hmem.not.mpr h), ih, List.dedup_cons_of_notMem h, List.reverse_cons]

/-- So no type has two entries. -/
theorem nodup_after (calls : List SetCall) : ((after calls).map (·.type)).Nodup := by
  rw [types_after]
  exact List.nodup_reverse.mpr (List.nodup_dedup _)

/-- The entry of a type depends on the calls for it.  A call for another type leaves it, by
`find?_set_of_ne`, and drops out of the list on the other side. -/
theorem find?_after (calls : List SetCall) (type : String) :
    find? (after calls) type = standing (calls.filter (·.condition.type = type)) := by
  induction calls with
  | nil => rfl
  | cons call earlier ih =>
    rw [after]
    by_cases htype : call.condition.type = type
    · subst htype
      rw [find?_set_self, ih, List.filter_cons_of_pos (by simp), standing_cons]
    · rw [find?_set_of_ne _ _ (Ne.symm htype), ih, List.filter_cons_of_neg (by simpa using htype)]

end Condition

/-! ## Runs -/

/-- A status write sets conditions, or leaves them as they are. -/
theorem Rewrites.conditions {policy : TriggerPolicy} {key : ObjectKey} {acts : List Act}
    {r : BuildRequest} {status : BuildRequestStatus} (h : Rewrites policy key acts r status)
    {calls : List SetCall} (hcalls : r.statusOrDefault.conditions = Condition.after calls) :
    ∃ calls, status.conditions = Condition.after calls := by
  cases h with
  | project reference projection time _ _ =>
    unfold projectedStatus
    cases projection with
    -- nothing is known of an execution, so one condition is set
    | none => exact ⟨⟨_, time⟩ :: calls, by rw [Condition.after, ← hcalls]; rfl⟩
    | some p =>
      simp only [Option.map_some, Option.getD_some, Projection.apply]
      -- of an execution that is still the last one two conditions are set
      split
      · exact ⟨⟨_, time⟩ :: ⟨_, time⟩ :: calls, by
          rw [Condition.after, Condition.after, ← hcalls]⟩
      · exact ⟨⟨_, time⟩ :: calls, by rw [Condition.after, ← hcalls]⟩
  | failure error time => exact ⟨⟨_, time⟩ :: calls, by rw [Condition.after, ← hcalls]; rfl⟩
  | _ => exact ⟨calls, hcalls⟩

/-- A request that is put under `key`, if the deed does that, has no status. -/
def Deed.Bare (key : ObjectKey) (deed : Deed) : Prop :=
  match deed with
  | .insertRequest request => deed.Inserts key → request.status = none
  | _ => True

instance Deed.Bare.decidable (key : ObjectKey) : (deed : Deed) → Decidable (deed.Bare key)
  | .insertRequest _ => inferInstanceAs (Decidable (_ → _))
  | .updateSpec .. | .setLabel .. | .putTemplate _ | .putExecution _ | .report .. | .setPolicy _
  | .insertStrategy _ | .insertSecret .. | .injectConflicts _ | .setUnavailable _ => .isTrue trivial

/-- Others may do anything, but what they put under `key` has no status; and the clock may be
set. -/
def othersInsertBare (key : ObjectKey) : Surroundings where
  allows _ deed := deed.Bare key
  ticks _ _ := True

instance (key : ObjectKey) (s : MemoryStore) (deed : Deed) :
    Decidable ((othersInsertBare key).allows s deed) := inferInstanceAs (Decidable (deed.Bare key))

instance (key : ObjectKey) (t t' : Instant) : Decidable ((othersInsertBare key).ticks t t') :=
  .isTrue trivial

section

variable {ι : Type} [DecidableEq ι] {call : ι → ControllerCall} {keys : ι → ObjectKey}
  {key : ObjectKey} {store : MemoryStore} {now : Instant} {s : System ι fun i => (call i).Result}

/-- The conditions of the request `r` are those after some calls. -/
def BuildRequest.Summarizes (r : BuildRequest) : Prop :=
  ∃ calls, r.statusOrDefault.conditions = Condition.after calls

/-- A request without a status has the conditions after no calls. -/
theorem BuildRequest.summarizes_of_bare {r : BuildRequest} (h : r.status = none) : r.Summarizes :=
  ⟨[], by rw [statusOrDefault, h]; rfl⟩

/-- What others leave of a request still has the conditions after some calls. -/
theorem Deed.summarizes {deed : Deed} {t : MemoryStore} (hbare : deed.Bare key)
    (h : ∀ r, t.requests.get? key = some r → r.Summarizes) {r : BuildRequest}
    (hr : (deed.apply t).requests.get? key = some r) : r.Summarizes := by
  by_cases hinserts : deed.Inserts key
  · obtain ⟨request, written, rfl, hwritten, hstatus, -⟩ := Deed.inserted (s := t) hinserts
    obtain rfl := Option.some.inj (hwritten.symm.trans hr)
    exact BuildRequest.summarizes_of_bare (hstatus.trans (hbare hinserts))
  · obtain ⟨r₀, hr₀⟩ := Option.isSome_iff_exists.mp (Deed.isSome hinserts (Option.isSome_of_mem hr))
    obtain ⟨r', hr', hcases⟩ := Deed.request hr₀ hinserts
    obtain rfl := Option.some.inj (hr'.symm.trans hr)
    have hbefore := h r₀ hr₀
    rcases hcases with rfl | ⟨_, _, _, rfl⟩ | ⟨_, _, -, rfl⟩ <;> exact hbefore

/-- **Runs.**  The conditions of every request that was ever stored are those after some calls. -/
theorem summarizes_of_stored (hmade : store.Made)
    (hbare : ∀ r, store.requests.get? key = some r → r.status = none)
    (hrun : Reaches (othersInsertBare key) (startEach call keys store now) s) :
    ∀ r, s.Stored key r → r.Summarizes := by
  have hobeys : (startEach call keys store now).Obeys
      (fun i => controllerDuty (call i).policy (keys i)) fun _ _ _ => True :=
    fun i => (call i).obeys (keys i)
  refine hrun.induction (J := fun s => ∀ r, s.Stored key r → r.Summarizes) hobeys ?_ ?_ ?_
    fun _ _ _ h _ => h
  · rintro r ⟨t, ht, hr⟩
    rw [List.mem_singleton.mp ht] at hr
    exact BuildRequest.summarizes_of_bare (hbare r hr)
  · -- an act: a status that is written was made from the request as it was stored
    intro s i act rest t hrun h hanswer hduty r hr
    rcases (stored_cons rfl).mp hr with hr | hr
    · obtain ⟨r₀, hr₀⟩ := Option.isSome_iff_exists.mp
        (hanswer.requestEffect.isSome (Option.isSome_of_mem hr))
      have hbefore := h r₀ (stored_of_get? hr₀)
      obtain ⟨hversioned, hinformed⟩ := hrun.versioned hmade
      obtain ⟨r', hr', hcases⟩ := request_of_duty hversioned hinformed hr₀ hanswer hduty
      obtain rfl := Option.some.inj (hr'.symm.trans hr)
      rcases hcases with rfl | ⟨_, _, _, rfl⟩ | ⟨status, _, rfl, hrewrites⟩
      · exact hbefore
      · exact hbefore
      · obtain ⟨calls, hcalls⟩ := hbefore
        exact hrewrites.conditions hcalls
    · exact h r hr
  · intro s deed hrun h hdeed r hr
    rcases (stored_cons rfl).mp hr with hr | hr
    · exact Deed.summarizes hdeed (fun r hr => h r (stored_of_get? hr)) hr
    · exact h r hr

/-- **Conditions over a history.**  After any number of calls to set conditions, where there were
none at first: there is one entry for each type, in the order of the first calls, and it is what the
last call for its type said, since the first of those calls for it that go on with the status of the
last (the latest call comes first here, so `dedup` keeps the first call of a type).  A call leaves
the entries of other types as they are, and says whether it changed anything, whatever the
conditions were.

Whatever the order of evaluations, passes and deliveries, each evaluation and each pass for a
request of its own, whatever others do meanwhile but put a request with a status in the place of
this one, and whichever calls fail or are answered with what was stored earlier: the conditions of a
request that came without a status are those after some calls, and so their types are unique. -/
theorem conditions_sum_up_calls :
    (∀ calls : List SetCall,
      (Condition.after calls).map (·.type) = (calls.map (·.condition.type)).dedup.reverse ∧
      ∀ c ∈ Condition.after calls,
        Condition.standing (calls.filter (·.condition.type = c.type)) = some c) ∧
    (∀ (new : Condition) (now : Instant) (conditions : List Condition),
      (Condition.put new now conditions).2.filter (·.type ≠ new.type) =
        conditions.filter (·.type ≠ new.type) ∧
      ((Condition.put new now conditions).1 = true ↔
        (Condition.put new now conditions).2 ≠ conditions)) ∧
    (store.Made → (∀ r, store.requests.get? key = some r → r.status = none) →
      Reaches (othersInsertBare key) (startEach call keys store now) s →
      ∀ r, s.Stored key r → (∃ calls, r.statusOrDefault.conditions = Condition.after calls) ∧
        (r.statusOrDefault.conditions.map (·.type)).Nodup) := by
  refine ⟨fun calls => ⟨Condition.types_after calls, fun c hc => ?_⟩, fun new now conditions =>
    ⟨Condition.filter_put new now conditions, Condition.put_fst new now conditions⟩, ?_⟩
  · -- an entry is found under its type, which no other entry has
    rw [← Condition.find?_after, Condition.find?_of_mem (Condition.nodup_after calls) hc]
  · intro hmade hbare hrun r hr
    obtain ⟨calls, hcalls⟩ := summarizes_of_stored hmade hbare hrun r hr
    exact ⟨⟨calls, hcalls⟩, hcalls ▸ Condition.nodup_after calls⟩

end

/-- Two passes over the request before their first calls. -/
def passesInTurn : System Bool fun _ => Except BuildError ReconcileOutcome :=
  startEach (fun _ => .reconcile {}) (fun _ => appKey) plainStore (secondsIn 1)

/-- There is no policy when the first pass is made, and there is one again when the second is
made. -/
def policyMissing : List (Choice Bool) :=
  [.deed (.setPolicy none)] ++ List.replicate 13 (.serve false) ++
    [.tick (secondsIn 2), .deed (.setPolicy (some { buildfile := some "buildkit" }))] ++
    List.replicate 13 (.serve true)

/-- The request was blocked, and then it was ready and built: its first entry is still the one that
says whether it is ready, since the second pass. -/
theorem conditions_sum_up_passes :
    ∃ r ready built, (passesInTurn.play policyMissing).store.requests.get? appKey = some r ∧
      r.statusOrDefault.conditions = [ready, built] ∧
      ready.type = Condition.ready ∧ ready.status = .true ∧
      ready.lastTransitionTime = some (secondsIn 2) ∧ built.type = Condition.buildSucceeded ∧
      (r.statusOrDefault.conditions.map (·.type)).Nodup := by
  obtain ⟨hpermits, hbare, r, hr, ready, -, built, -, hconditions⟩ :
      Permits (othersInsertBare appKey) passesInTurn policyMissing ∧
      (∀ r ∈ plainStore.requests.get? appKey, r.status = none) ∧
      ∃ r ∈ (passesInTurn.play policyMissing).store.requests.get? appKey,
        ∃ ready ∈ r.statusOrDefault.conditions.head?,
        ∃ built ∈ r.statusOrDefault.conditions.getLast?,
          r.statusOrDefault.conditions = [ready, built] ∧ ready.type = Condition.ready ∧
          ready.status = .true ∧ ready.lastTransitionTime = some (secondsIn 2) ∧
          built.type = Condition.buildSucceeded := by
    decide +kernel
  obtain ⟨hlist, hready, hstatus, htime, hbuilt⟩ := hconditions
  -- that no type is there twice is not computed
  have hstored := conditions_sum_up_calls.2.2 plainStore_made hbare
    (reaches_play policyMissing hpermits)
  exact ⟨r, ready, built, hr, hlist, hready, hstatus, htime, hbuilt,
    (hstored r (stored_of_get? hr)).2⟩

end PushBuild
