import Mathlib.Data.Set.Card
import PushBuild.Proofs.OnCommit.Alone
import PushBuild.Proofs.OnCommit.Pending
import PushBuild.Proofs.Recovery.Resume

/-!
# Bursts of pushes

Pushes come in, the trigger is evaluated and executions end, one thing after another, and the clock
does not go back.  Of the pushes that come in before one is built, only the last one is.

1. **Accounts** (`Accounted`).  At any time the executions of the request are those up to its
   counter, and it is known which push waits.
2. **Steps.**  A start is made for the push that waits, and then none waits (`Accounted.fired`); a
   delivery makes its push wait; and a report leaves all this alone.
3. **Notes** (`World.notes`).  What came of each occurrence is noted: a push was recorded, or a
   start was reported, or nothing.  Which push should wait is seen from the notes (`unfired`).
4. **Conservation** (`Coalesced`).  A start spends the record that came last, so there are no more
   starts than records.
5. **The result** (`bursts_coalesce`), and the case in which a push is not waited for as long as the
   policy says (`burst_fires_in_leap_second`).
-/

namespace PushBuild

/-! ## Accounts -/

/-- The executions of the request under `key` are those that it counts, which are `m`, each started
for a push; and it is known which push waits. -/
structure Accounted (key : ObjectKey) (uid : String) (m : Nat) (waiting : Option PushRecord)
    (v : MemoryStore) : Prop where
  onCommit : (v.requestAt key).isOnCommit = true
  uid_eq : (v.requestAt key).metadata.uid = some uid
  counter : (v.requestAt key).statusOrDefault.triggerCounter = m
  last : ∀ {last}, (v.requestAt key).statusOrDefault.lastTriggered? = some last →
    last.name = onCommitExecutionName key.name m
  pending : (v.requestAt key).statusOrDefault.pending? = waiting
  only : ∀ {q x}, v.executions.get? q = some x → x.BelongsTo uid →
    ∃ n : Nat, 1 ≤ n ∧ n ≤ m ∧ q = pushPlace key n
  started : ∀ {n : Nat}, 1 ≤ n → n ≤ m → ∃ x, v.executions.get? (pushPlace key n) = some x ∧
    x.BelongsTo uid ∧ x.IsForPush

namespace Accounted

variable {key : ObjectKey} {uid : String} {m : Nat} {waiting : Option PushRecord}
  {s t v : MemoryStore}

/-- Nothing is accounted for in the beginning. -/
theorem start (h : Inserted s key uid) (hmode : (s.requestAt key).isOnCommit = true) :
    Accounted key uid 0 none s := by
  obtain ⟨r, hr, hstatus, huid⟩ := h.request
  have hrequest := MemoryStore.requestAt_of_get? hr
  have hnothing : (s.requestAt key).statusOrDefault = {} := by
    rw [hrequest, BuildRequest.statusOrDefault, hstatus]
    rfl
  refine ⟨hmode, by rw [hrequest]; exact huid, by rw [hnothing]; rfl, fun {last} hlast => ?_,
    by rw [hnothing]; rfl, fun hx howned => absurd howned (h.free _ _ hx), fun h₁ h₀ => by omega⟩
  rw [hnothing] at hlast
  cases hlast

/-- Versions do not matter.  Accounts speak of the contents of a store only, so they pass from a
store to its contents and back; this is needed because an evaluation is described up to versions. -/
theorem contents_iff : Accounted key uid m waiting s.contents ↔ Accounted key uid m waiting s := by
  have hrequest := s.requestAt_contents key
  have halike : ∀ x : BuildExecution, x.unversioned.Alike x := fun x => ⟨rfl, rfl⟩
  constructor
  · intro h
    obtain ⟨honCommit, huid, hcounter, hlast, hpending, honly, hstarted⟩ := h
    rw [hrequest] at honCommit huid hcounter hlast hpending
    refine ⟨honCommit, huid, hcounter, hlast, hpending, fun {q x} hx howned => ?_, fun h₁ hm => ?_⟩
    · refine honly (x := x.unversioned) ?_ ((halike x).belongsTo.mpr howned)
      rw [MemoryStore.get?_executions_contents, hx]
      rfl
    · obtain ⟨x, hx, howned, hpush⟩ := hstarted h₁ hm
      rw [MemoryStore.get?_executions_contents, Option.map_eq_some_iff] at hx
      obtain ⟨y, hy, rfl⟩ := hx
      exact ⟨y, hy, (halike y).belongsTo.mp howned, (halike y).isForPush.mp hpush⟩
  · intro h
    obtain ⟨honCommit, huid, hcounter, hlast, hpending, honly, hstarted⟩ := h
    refine ⟨hrequest ▸ honCommit, hrequest ▸ huid, hrequest ▸ hcounter, hrequest ▸ hlast,
      hrequest ▸ hpending, fun {q x} hx howned => ?_, fun h₁ hm => ?_⟩
    · rw [MemoryStore.get?_executions_contents, Option.map_eq_some_iff] at hx
      obtain ⟨y, hy, rfl⟩ := hx
      exact honly hy ((halike y).belongsTo.mp howned)
    · obtain ⟨x, hx, howned, hpush⟩ := hstarted h₁ hm
      refine ⟨x.unversioned, ?_, (halike x).belongsTo.mpr howned, (halike x).isForPush.mpr hpush⟩
      rw [MemoryStore.get?_executions_contents, hx]
      rfl

/-- The execution that is to be started next is not there yet. -/
theorem nextIsFree (h : Accounted key uid m waiting s) {r : BuildRequest}
    (hr : s.requests.get? key = some r) : NextIsFree key r s := by
  intro uid' x huid hx howned
  have hrequest := MemoryStore.requestAt_of_get? hr
  have huid' := h.uid_eq
  have hcounter := h.counter
  rw [hrequest] at huid' hcounter
  obtain rfl := Option.some.inj (huid.symm.trans huid')
  obtain ⟨n, -, hn, hplace⟩ := h.only hx howned
  have hnumber := pushPlace_inj.mp hplace
  rw [BuildRequest.nextCounter, hcounter] at hnumber
  omega

/-- The execution recorded last has the number of the counter, so it is not the next one. -/
theorem nextIsThere (h : Accounted key uid m waiting s) : NextIsThere key s := by
  intro _ last hlast hname
  rw [h.last hlast, h.counter] at hname
  have hnumber := onCommitExecutionName_inj.mp hname
  omega

/-! ## Steps -/

/-- **A start** is made for the push that waits, and then none waits. -/
theorem fired (h : Accounted key uid m waiting v) {policy : TriggerPolicy} {now : Instant}
    {push : PushRecord} {x : BuildExecution} {status : BuildRequestStatus} {n : Int}
    (hn : n = (v.requestAt key).statusOrDefault.triggerCounter + 1)
    (hdue : evaluate (v.requestAt key).statusOrDefault.onCommit policy now = .fire push)
    (hkey : (v.requestAt key).key = key)
    (hx : BuildExecution.desired (v.requestAt key) (onCommitExecutionName key.name n)
      BuildTrigger.onCommit.label = .ok x)
    (hstatus : recordFire push (onCommitExecutionName key.name n) n now (v.requestAt key)
      (v.requestAt key).statusOrDefault = some status) :
    waiting = some push ∧ Accounted key uid (m + 1) none
      ((v.withNewExecution x).withRequest key ((v.requestAt key).restated status)) := by
  have hpending := pending_of_fire hdue
  have hwaiting : (v.requestAt key).statusOrDefault.trigger.pending = some push := by
    rw [← BuildRequestStatus.pending?_eq]
    exact hpending
  have hnumber : n = ((m + 1 : Nat) : Int) := by
    rw [hn, h.counter]
    rfl
  have hlast := recordFire_last hstatus
  obtain ⟨-, rfl⟩ := recordFire_eq_some hstatus
  obtain ⟨hplace, hlabel, uid', huid', howned⟩ := desired_eq hx
  obtain rfl : uid = uid' := Option.some.inj (h.uid_eq.symm.trans huid')
  have hxkey : x.key = pushPlace key ((m + 1 : Nat) : Int) := by
    have hnamespace : (v.requestAt key).namespace = key.namespace :=
      congrArg ObjectKey.namespace hkey
    rw [hplace, hnumber, hnamespace]
    rfl
  refine ⟨h.pending.symm.trans hpending, ?_⟩
  constructor
  · rw [MemoryStore.requestAt_withRequest]
    exact h.onCommit
  · rw [MemoryStore.requestAt_withRequest]
    exact h.uid_eq
  · -- the counter is the number of the execution, for it was one less
    rw [MemoryStore.requestAt_withRequest]
    have hcounter := h.counter
    rw [BuildRequestStatus.triggerCounter_eq] at hcounter
    show max (v.requestAt key).statusOrDefault.trigger.triggerCounter n = _
    omega
  · -- and the last start is the one that goes with it
    intro last hlast'
    rw [MemoryStore.requestAt_withRequest] at hlast'
    obtain rfl := Option.some.inj (hlast.symm.trans hlast')
    rw [hnumber]
  · rw [MemoryStore.requestAt_withRequest]
    -- the push that was recorded is the one that is taken away
    show (if _ = some push then none else _) = _
    rw [if_pos hwaiting]
  · -- an execution of the request is the new one or was there before
    intro q y hy hyowned
    have hy : (v.executions.insert x.key (x.identified v.nextUid)).get? q = some y := hy
    rw [SortedMap.get?_insert] at hy
    split at hy
    · next heq => exact ⟨m + 1, by omega, Nat.le_refl _, heq.trans hxkey⟩
    · obtain ⟨k, hk, hkm, hq⟩ := h.only hy hyowned
      exact ⟨k, hk, by omega, hq⟩
  · -- the new one is there, and so are those from before
    intro k hk hkm
    show ∃ y, (v.executions.insert x.key (x.identified v.nextUid)).get? (pushPlace key k) = some y ∧
        _
    rw [SortedMap.get?_insert, hxkey]
    by_cases hlatest : k = m + 1
    · subst hlatest
      have halike : (x.identified v.nextUid).Alike x := ⟨rfl, rfl⟩
      exact ⟨_, if_pos rfl, halike.belongsTo.mpr howned, halike.isForPush.mpr hlabel⟩
    · rw [if_neg fun heq => hlatest (by have := pushPlace_inj.mp heq; omega)]
      exact h.started hk (by omega)

/-- What changes requests only, and of this one no more than which push waits. -/
theorem of_requests (h : Accounted key uid m waiting s) (hexecutions : t.executions = s.executions)
    {waiting' : Option PushRecord} (honCommit : (t.requestAt key).isOnCommit = true)
    (huid : (t.requestAt key).metadata.uid = (s.requestAt key).metadata.uid)
    (hcounter : (t.requestAt key).statusOrDefault.triggerCounter =
      (s.requestAt key).statusOrDefault.triggerCounter)
    (hlast : (t.requestAt key).statusOrDefault.lastTriggered? =
      (s.requestAt key).statusOrDefault.lastTriggered?)
    (hpending : (t.requestAt key).statusOrDefault.pending? = waiting') :
    Accounted key uid m waiting' t := by
  refine ⟨honCommit, huid.trans h.uid_eq, hcounter.trans h.counter, ?_, hpending, ?_, ?_⟩
  · rw [hlast]
    exact h.last
  · rw [hexecutions]
    exact h.only
  · rw [hexecutions]
    exact h.started

end Accounted

/-! ## Notes -/

/-- What came of an occurrence: a push was recorded, or a start was reported, and the push that
waited until then waits no longer, or nothing of the kind. -/
inductive Note where
  | recorded (time : Instant) (push : PushRecord)
  | fired (time : Instant) (execution : String) (cleared : Option PushRecord)
  | nothing
deriving DecidableEq

namespace Note

def IsRecorded : Note → Bool
  | recorded .. => true
  | fired .. | nothing => false

def IsFired : Note → Bool
  | fired .. => true
  | recorded .. | nothing => false

end Note

namespace World

/-- The push that waits before the occurrence, if none waits after it. -/
def cleared? (key : ObjectKey) (w : World) (o : Occurrence) : Option PushRecord :=
  if (w.after key o).store.waiting? key = none then w.store.waiting? key else none

/-- The note of an occurrence. -/
def note (key : ObjectKey) (w : World) : Occurrence → Note
  | .call (.coordinate policy retry) =>
    match (w.perform (coordinate policy retry key).run).1 with
    | .ok (.fired execution _) =>
      .fired w.now execution (w.cleared? key (.call (.coordinate policy retry)))
    | _ => .nothing
  | o =>
    match w.recorded? key o with
    | some push => .recorded w.now push
    | none => .nothing

/-- The notes of occurrences, of the latest first. -/
def notes (key : ObjectKey) (w : World) : List Occurrence → List Note
  | [] => []
  | o :: earlier => (w.course key earlier).note key o :: w.notes key earlier

end World

/-- A delivery, an evaluation by this policy, a report of how an execution stands, or the clock goes
on. -/
def Burst (policy : TriggerPolicy) (w : World) : Occurrence → Prop
  | .call (.accept ..) | .deed (.report ..) => True
  | .call (.coordinate policy' _) => policy' = policy
  | .tick now => w.now ≤ now
  | .call (.reconcile _) | .deed _ => False

/-- What an occurrence leaves in the store, according to its note. -/
inductive Noted (policy : TriggerPolicy) (key : ObjectKey) (uid : String) (w : World) (m : Nat)
    (waiting : Option PushRecord) (t : MemoryStore) : Note → Prop
  | recorded {push : PushRecord} (htime : push.receivedAt = w.now)
      (h : Accounted key uid m (some push) t) :
        Noted policy key uid w m waiting t (.recorded w.now push)
  | fired {push : PushRecord} {execution : String} (hwaiting : waiting = some push)
      (hquiet : w.now.IsPlain → ∀ quiet, push.receivedAt.plus? policy.debounce = some quiet →
        quiet ≤ w.now)
      (h : Accounted key uid (m + 1) none t) :
      Noted policy key uid w m waiting t (.fired w.now execution (some push))
  | nothing (h : Accounted key uid m waiting t) : Noted policy key uid w m waiting t .nothing

section

variable {policy : TriggerPolicy} {key : ObjectKey} {uid : String} {w : World} {m : Nat}
  {waiting : Option PushRecord}

/-- A push waits where one waits on the request. -/
theorem MemoryStore.waiting?_eq (s : MemoryStore) (key : ObjectKey) :
    s.waiting? key = (s.requestAt key).statusOrDefault.pending? := by
  unfold waiting? requestAt
  cases s.requests.get? key <;> rfl

/-- **A delivery** makes its push wait, or leaves everything as it was.  Which of the two is seen
from the request: one that was written has a new version. -/
theorem Accounted.delivered (hmade : w.store.Made) (h : Accounted key uid m waiting w.store)
    (d : Delivery) (retry : RetryPolicy) (providers : List Provider) :
    Noted policy key uid w m waiting (w.after key (.call (.accept d retry providers))).store
      (w.note key (.call (.accept d retry providers))) := by
  obtain ⟨hkeeps, hcases⟩ := World.delivered hmade key d retry providers
  have hnote : w.note key (.call (.accept d retry providers)) =
      match w.recorded? key (.call (.accept d retry providers)) with
      | some push => .recorded w.now push
      | none => .nothing := rfl
  rw [hnote]
  unfold World.recorded?
  change w.store.KeepsOthers (w.after key (.call (.accept d retry providers))).store at hkeeps
  change (w.after key (.call (.accept d retry providers))).store.requests.get? key = _ ∨
      ∃ r event version,
    _ ∧ _ ∧ (w.after key (.call (.accept d retry providers))).store.requests.get? key = _ at hcases
  generalize (w.after key (.call (.accept d retry providers))).store = t at hkeeps hcases ⊢
  have hexecutions := hkeeps.executions_eq
  by_cases hsame : t.requests.get? key = w.store.requests.get? key
  · -- nothing was recorded
    have hrequest : t.requestAt key = w.store.requestAt key := congrArg (·.getD {}) hsame
    rw [if_pos hsame]
    refine .nothing (h.of_requests hexecutions ?_ ?_ ?_ ?_ ?_)
    · rw [hrequest]
      exact h.onCommit
    · rw [hrequest]
    · rw [hrequest]
    · rw [hrequest]
    · rw [hrequest]
      exact h.pending
  · obtain ⟨r, event, version, hr, hmode, hwritten⟩ := hcases.resolve_left hsame
    -- the push was recorded on the request
    have hbefore := MemoryStore.requestAt_of_get? hr
    have hafter := MemoryStore.requestAt_of_get? hwritten
    have hwaits : t.waiting? key = some ⟨event.ref, event.commit, w.now⟩ := by
      rw [MemoryStore.waiting?_of_get? hwritten]
      rfl
    rw [if_neg hsame, hwaits]
    refine .recorded rfl (h.of_requests hexecutions ?_ ?_ ?_ ?_ ?_)
    · rw [hafter]
      exact hmode
    · rw [hafter, hbefore]
      rfl
    · rw [hafter, hbefore, BuildRequestStatus.triggerCounter_eq,
        BuildRequestStatus.triggerCounter_eq]
      rfl
    · rw [hafter, hbefore, BuildRequestStatus.lastTriggered?_eq,
        BuildRequestStatus.lastTriggered?_eq]
      rfl
    · rw [hafter]
      rfl

/-- **An evaluation** makes a start for the push that waits, or leaves everything as it was.  It
runs alone, so it ends in one of the ways that `Evaluated` lists. -/
theorem Accounted.evaluated (hserves : w.Serves key) (h : Accounted key uid m waiting w.store)
    (policy : TriggerPolicy) (retry : RetryPolicy) :
    Noted policy key uid w m waiting (w.after key (.call (.coordinate policy retry))).store
      (w.note key (.call (.coordinate policy retry))) := by
  obtain ⟨r₀, hr₀⟩ := hserves.present
  have hsound := hserves.made.sound h.nextIsThere hr₀
  have hfinishes : Finishes w.now False (coordinate policy retry key)
      (Evaluated policy key w.now w.store) (fun _ t => t = w.store) w.store :=
    finishes_coordinate hserves.serving hsound fun r hr => h.nextIsFree hr
  have hend := Program.Ends.perform hfinishes
  have hnote : w.note key (.call (.coordinate policy retry)) =
      match (w.perform (coordinate policy retry key).run).1 with
      | .ok (.fired execution _) => .fired w.now execution
        (if (w.perform (coordinate policy retry key).run).2.store.waiting? key = none then
          w.store.waiting? key else none)
      | _ => .nothing := rfl
  rw [hnote]
  change Noted policy key uid w m waiting (w.perform (coordinate policy retry key).run).2.store _
  generalize (w.perform (coordinate policy retry key).run).1 = result at hend ⊢
  generalize (w.perform (coordinate policy retry key).run).2.store = t at hend ⊢
  cases result with
  | error e =>
    obtain rfl : t = w.store := hend
    exact .nothing h
  | ok outcome =>
    have hend : Evaluated policy key w.now w.store outcome t := hend
    cases hend with
    | rests hrests =>
      cases outcome with
      | fired execution after => exact absurd rfl (hrests execution after)
      | _ => exact .nothing h
    | fires hn hdue hx hstatus ht =>
      obtain ⟨hwaits, haccounted⟩ :=
        (Accounted.contents_iff.mpr h).fired hn hdue hsound.key_eq hx hstatus
      rw [← ht, Accounted.contents_iff] at haccounted
      -- none waits after a start, so what waited before was taken away
      have hcleared : t.waiting? key = none := by
        rw [MemoryStore.waiting?_eq]
        exact haccounted.pending
      rw [if_pos hcleared, MemoryStore.waiting?_eq, h.pending, hwaits]
      exact .fired rfl (fun hplain quiet hquiet => quiet_of_fire hdue hplain hquiet) haccounted

/-- **The step lemma**: what an occurrence leaves is what its note says. -/
theorem Accounted.noted (hserves : w.Serves key) (h : Accounted key uid m waiting w.store)
    {o : Occurrence} (ho : Burst policy w o) :
    Noted policy key uid w m waiting (w.after key o).store (w.note key o) := by
  cases o with
  | call c =>
    cases c with
    | accept d retry providers => exact h.delivered hserves.made d retry providers
    | coordinate policy' retry =>
      obtain rfl : policy' = policy := ho
      exact h.evaluated hserves policy' retry
    | reconcile settings => exact ho.elim
  | tick now => exact .nothing h
  | deed deed =>
    cases deed with
    | report k status =>
      -- a report concerns the status of an execution only
      have hrequests : (Deed.apply (.report k status) w.store).requests = w.store.requests :=
        Deed.requestEffect (.report k status) w.store
      have hrequest : (Deed.apply (.report k status) w.store).requestAt key =
          w.store.requestAt key := by
        rw [MemoryStore.requestAt, hrequests]
        rfl
      have hleaves : (Deed.report k status).Leaves uid w.store := trivial
      refine .nothing ⟨?_, ?_, ?_, ?_, ?_, fun hx howned => ?_, fun h₁ hm => ?_⟩
      · exact hrequest ▸ h.onCommit
      · exact hrequest ▸ h.uid_eq
      · exact hrequest ▸ h.counter
      · exact hrequest ▸ h.last
      · exact hrequest ▸ h.pending
      · obtain ⟨x, hx', halike⟩ := Deed.executions_added hleaves hx howned
        exact h.only hx' (halike.belongsTo.mp howned)
      · obtain ⟨x, hx, howned, hpush⟩ := h.started h₁ hm
        obtain ⟨x', hx', halike⟩ := Deed.executions_kept hleaves hx howned
        exact ⟨x', hx', halike.belongsTo.mpr howned, halike.isForPush.mpr hpush⟩
    | _ => exact ho.elim

end

/-! ## Conservation -/

/-- The push that should wait after these notes, of which the latest comes first: the one recorded
last, unless a start was made since. -/
def unfired : List Note → Option PushRecord
  | [] => none
  | .recorded _ push :: _ => some push
  | .fired .. :: _ => none
  | .nothing :: earlier => unfired earlier

/-- Pushes were recorded when they were received, one no earlier than the one before; and each start
was made for the push that waited, after it had been quiet for as long as the policy says. -/
def Coalesced (policy : TriggerPolicy) : List Note → Prop
  | [] => True
  | .recorded time push :: earlier => (push.receivedAt = time ∧
      ∀ time' push', .recorded time' push' ∈ earlier → time' ≤ time) ∧ Coalesced policy earlier
  | .fired time _ cleared :: earlier => (∃ push, unfired earlier = some push ∧ cleared = some push ∧
      (time.IsPlain → ∀ quiet, push.receivedAt.plus? policy.debounce = some quiet → quiet ≤ time)) ∧
      Coalesced policy earlier
  | .nothing :: earlier => Coalesced policy earlier

/-- How many records may still be spent: one, if a push waits. -/
def reserve (notes : List Note) : Nat := if (unfired notes).isSome then 1 else 0

/-- A push that should wait was recorded, and nothing was noted since. -/
theorem exists_of_unfired {notes : List Note} {push : PushRecord} (h : unfired notes = some push) :
    ∃ time between before, notes = between ++ .recorded time push :: before ∧
      ∀ n ∈ between, n = .nothing := by
  induction notes with
  | nil => cases h
  | cons n earlier ih =>
    cases n with
    | recorded time p =>
      obtain rfl := Option.some.inj h
      exact ⟨time, [], earlier, rfl, fun _ h => absurd h List.not_mem_nil⟩
    | fired => cases h
    | nothing =>
      obtain ⟨time, between, before, rfl, hbetween⟩ := ih h
      exact ⟨time, .nothing :: between, before, rfl, List.forall_mem_cons.mpr ⟨rfl, hbetween⟩⟩

namespace Coalesced

variable {policy : TriggerPolicy} {notes earlier before : List Note}

/-- What came before any note, or before any notes, -/
theorem of_cons {n : Note} (h : Coalesced policy (n :: earlier)) : Coalesced policy earlier := by
  cases n with
  | recorded => exact h.2
  | fired => exact h.2
  | nothing => exact h

/-- was already as it should be. -/
theorem of_append {later : List Note} (h : Coalesced policy (later ++ earlier)) :
    Coalesced policy earlier := by
  induction later with
  | nil => exact h
  | cons n later ih => exact ih h.of_cons

/-- **A start spends a record.**  Count the starts and the push that waits against the records: a
record adds one to each side, or takes the place of a push that waits; a start turns the push that
waits into a start; and other notes change nothing. -/
theorem conserves {since : List Note} (h : Coalesced policy (since ++ before)) :
    since.countP Note.IsFired + reserve (since ++ before) ≤
      since.countP Note.IsRecorded + reserve before := by
  induction since with
  | nil => exact Nat.le_refl _
  | cons n since ih =>
    have hrest := ih h.of_cons
    rw [List.countP_cons, List.countP_cons]
    cases n with
    | recorded time push =>
      have hone : reserve (.recorded time push :: since ++ before) = 1 := rfl
      simp only [Note.IsFired, Note.IsRecorded, hone]
      simp only [Bool.false_eq_true, if_false, if_true]
      omega
    | fired time execution cleared =>
      -- a push waited, and none does now
      obtain ⟨⟨push, hwaits, -⟩, -⟩ := h
      have hone : reserve (since ++ before) = 1 :=
        if_pos (Option.isSome_of_eq_some hwaits)
      have hnone : reserve (.fired time execution cleared :: since ++ before) = 0 := rfl
      simp only [Note.IsFired, Note.IsRecorded, hnone]
      simp only [Bool.false_eq_true, if_false, if_true]
      omega
    | nothing =>
      have hsame : reserve (.nothing :: since ++ before) = reserve (since ++ before) := rfl
      simp only [Note.IsFired, Note.IsRecorded, hsame]
      simp only [Bool.false_eq_true, if_false]
      omega

/-- The push that waits was recorded last. -/
theorem latest (h : Coalesced policy notes) {push : PushRecord} (hpush : unfired notes = some push)
    {time : Instant} {p : PushRecord} (hp : .recorded time p ∈ notes) : time ≤ push.receivedAt := by
  induction notes with
  | nil => cases hp
  | cons n earlier ih =>
    cases n with
    | recorded received push' =>
      obtain rfl := Option.some.inj hpush
      obtain ⟨⟨htime, hordered⟩, -⟩ := h
      rw [htime]
      rcases List.mem_cons.mp hp with heq | hp
      · obtain ⟨rfl, -⟩ := Note.recorded.inj heq
        exact Instant.le_refl _
      · exact hordered _ _ hp
    | fired => cases hpush
    | nothing =>
      rcases List.mem_cons.mp hp with heq | hp
      · cases heq
      · exact ih h hpush hp

/-- **The window.**  Off leap seconds, no push was recorded within the debounce window before a
start. The push that waited had been quiet for that long, and the others were recorded before it. -/
theorem window {time : Instant} {execution : String} {cleared : Option PushRecord}
    (h : Coalesced policy (.fired time execution cleared :: earlier)) (htime : time.IsPlain)
    (hplain : ∀ received push, .recorded received push ∈ earlier →
      received.IsPlain ∧ (received.plus? policy.debounce).isSome)
    {received : Instant} {p : PushRecord} (hp : .recorded received p ∈ earlier) :
    received.total + policy.debounce.millis * 1000000 ≤ time.total := by
  obtain ⟨⟨push, hwaits, -, hquiet⟩, hearlier⟩ := h
  have hordered := hearlier.latest hwaits hp
  obtain ⟨last, between, before, rfl, -⟩ := exists_of_unfired hwaits
  obtain ⟨⟨hlast, -⟩, -⟩ := hearlier.of_append
  obtain ⟨hplainLast, hsome⟩ := hplain last push (List.mem_append_right _ List.mem_cons_self)
  obtain ⟨quiet, hdeadline⟩ := Option.isSome_iff_exists.mp hsome
  obtain ⟨hplainQuiet, htotal⟩ := Instant.plus?_eq hplainLast hdeadline
  rw [hlast] at hordered hquiet
  -- the last push has been quiet for long enough, and every other one came before it
  have hover := Instant.total_le hplainQuiet (hquiet htime quiet hdeadline)
  have hbefore := Instant.total_le (hplain received p hp).1 hordered
  omega

end Coalesced

section

variable {policy : TriggerPolicy} {key : ObjectKey} {uid : String} {w : World}

/-- The clock does not go back. -/
theorem Burst.now_le {o : Occurrence} (ho : Burst policy w o) : w.now ≤ (w.after key o).now := by
  cases o with
  | call c =>
    rw [show (w.after key (.call c)).now = w.now from World.now_perform]
    exact Instant.le_refl _
  | deed deed => exact Instant.le_refl _
  | tick now => exact ho

/-- None of these occurrences hampers the store. -/
theorem World.Serves.burst (h : w.Serves key) {o : Occurrence} (ho : Burst policy w o) :
    (w.after key o).Serves key := by
  refine h.after fun deed hdeed => ?_
  subst hdeed
  cases deed with
  | report k status => exact ⟨id, id⟩
  | _ => exact ho.elim

/-- **The run lemma.**  The accounts and the notes agree.  The induction is on the occurrences, the
latest first; each step is the step lemma, together with the time of the clock for the notes to come
in order. -/
theorem World.tallied (hinserted : Inserted w.store key uid) (hserving : w.store.Serving False)
    (hmode : (w.store.requestAt key).isOnCommit = true) {os : List Occurrence}
    (hos : w.Permits (Burst policy) key os) :
    (w.course key os).Serves key ∧
      Accounted key uid ((w.notes key os).countP Note.IsFired) (unfired (w.notes key os))
        (w.course key os).store ∧
      Coalesced policy (w.notes key os) ∧
      ∀ time push, .recorded time push ∈ w.notes key os → time ≤ (w.course key os).now := by
  induction os with
  | nil =>
    obtain ⟨r, hr, -⟩ := hinserted.request
    exact ⟨⟨hinserted.made, hserving, r, hr⟩, .start hinserted hmode, trivial,
      fun _ _ h => absurd h List.not_mem_nil⟩
  | cons o earlier ih =>
    obtain ⟨hserves, haccounted, hcoalesced, htold⟩ := ih hos.2
    have hnow : (w.course key earlier).now ≤ (w.course key (o :: earlier)).now := hos.1.now_le
    have hnoted := haccounted.noted hserves hos.1
    refine ⟨hserves.burst hos.1, ?_⟩
    show Accounted key uid
        (List.countP _ ((w.course key earlier).note key o :: w.notes key earlier))
      (unfired ((w.course key earlier).note key o :: w.notes key earlier))
      ((w.course key earlier).after key o).store ∧
      Coalesced policy ((w.course key earlier).note key o :: w.notes key earlier) ∧
      ∀ time push, .recorded time push ∈ (w.course key earlier).note key o :: w.notes key earlier →
        time ≤ (w.course key (o :: earlier)).now
    have htold' : ∀ time push, .recorded time push ∈ w.notes key earlier →
        time ≤ (w.course key (o :: earlier)).now :=
      fun time push hmem => Instant.le_trans (htold time push hmem) hnow
    -- from here on only the note counts, and what the step lemma says of it
    generalize (w.course key earlier).note key o = n at hnoted ⊢
    rw [List.countP_cons]
    cases hnoted with
    | @recorded push htime h =>
      refine ⟨h, ⟨⟨htime, htold⟩, hcoalesced⟩, fun time p hmem => ?_⟩
      rcases List.mem_cons.mp hmem with heq | hmem
      · obtain ⟨rfl, -⟩ := Note.recorded.inj heq
        exact hnow
      · exact htold' time p hmem
    | fired hwaiting hquiet h =>
      refine ⟨h, ⟨⟨_, hwaiting, rfl, hquiet⟩, hcoalesced⟩, fun time p hmem => ?_⟩
      rcases List.mem_cons.mp hmem with heq | hmem
      · cases heq
      · exact htold' time p hmem
    | nothing h =>
      refine ⟨h, hcoalesced, fun time p hmem => ?_⟩
      rcases List.mem_cons.mp hmem with heq | hmem
      · cases heq
      · exact htold' time p hmem

/-- There are as many executions for pushes as are counted: their places are those of the numbers
from one to the counter, and no two numbers share a place. -/
theorem Accounted.ncard {m : Nat} {waiting : Option PushRecord} {s : MemoryStore}
    (h : Accounted key uid m waiting s) :
    {q | ∃ x, s.executions.get? q = some x ∧ x.BelongsTo uid ∧ x.IsForPush}.ncard = m := by
  have hplaces : {q | ∃ x, s.executions.get? q = some x ∧ x.BelongsTo uid ∧ x.IsForPush} =
      (fun n : Nat => pushPlace key ((n + 1 : Nat) : Int)) '' (Finset.range m : Set Nat) := by
    ext q
    constructor
    · rintro ⟨x, hx, howned, -⟩
      obtain ⟨n, hn, hm, rfl⟩ := h.only hx howned
      refine ⟨n - 1, Finset.mem_coe.mpr (Finset.mem_range.mpr (by omega)), ?_⟩
      have hnumber : n - 1 + 1 = n := by omega
      dsimp only
      rw [hnumber]
    · rintro ⟨n, hn, rfl⟩
      exact h.started (by omega) (Finset.mem_range.mp (Finset.mem_coe.mp hn))
  have hinjective : Function.Injective fun n : Nat => pushPlace key ((n + 1 : Nat) : Int) := by
    intro n n' hplace
    have hnumber := pushPlace_inj.mp hplace
    omega
  rw [hplaces, Set.ncard_image_of_injective _ hinjective, Set.ncard_coe_finset, Finset.card_range]

/-- **Bursts coalesce.**  Pushes, evaluations and reports for a request that was inserted without
status come one after another, no call fails and the clock does not go back.  Then each start that
is reported takes away the push that was recorded last, no start has been made for a push before,
and, off leap seconds, no push was recorded within the debounce window before it.  There are as many
executions for pushes as starts, and no more than pushes. -/
theorem bursts_coalesce (hinserted : Inserted w.store key uid) (hserving : w.store.Serving False)
    (hmode : (w.store.requestAt key).isOnCommit = true) {os : List Occurrence}
    (hos : w.Permits (Burst policy) key os) :
    (∀ later time execution cleared earlier,
      w.notes key os = later ++ .fired time execution cleared :: earlier →
      (∃ received push between before, earlier = between ++ .recorded received push :: before ∧
        (∀ n ∈ between, n = .nothing) ∧ push.receivedAt = received ∧ cleared = some push) ∧
      (time.IsPlain →
        (∀ received push, .recorded received push ∈ earlier →
          received.IsPlain ∧ (received.plus? policy.debounce).isSome) →
        ∀ received push, .recorded received push ∈ earlier →
          received.total + policy.debounce.millis * 1000000 ≤ time.total)) ∧
    (∀ later since received push before,
      w.notes key os = later ++ (since ++ .recorded received push :: before) →
      (∀ n ∈ since, n.IsRecorded = false) → since.countP Note.IsFired ≤ 1) ∧
    {q | ∃ x, (w.course key os).store.executions.get? q = some x ∧ x.BelongsTo uid ∧
      x.IsForPush}.ncard = (w.notes key os).countP Note.IsFired ∧
    (w.notes key os).countP Note.IsFired ≤ (w.notes key os).countP Note.IsRecorded := by
  obtain ⟨-, haccounted, hcoalesced, -⟩ := World.tallied hinserted hserving hmode hos
  refine ⟨fun later time execution cleared earlier hnotes => ?_,
    fun later since received push before hnotes hsince => ?_, haccounted.ncard, ?_⟩
  · rw [hnotes] at hcoalesced
    have hfired := hcoalesced.of_append
    refine ⟨?_, fun htime hplain received push hp => hfired.window htime hplain hp⟩
    obtain ⟨⟨push, hwaits, hcleared, -⟩, hearlier⟩ := hfired
    obtain ⟨received, between, before, rfl, hbetween⟩ := exists_of_unfired hwaits
    exact ⟨received, push, between, before, rfl, hbetween, hearlier.of_append.1.1, hcleared⟩
  · rw [hnotes] at hcoalesced
    -- since the record nothing was added, so the one push that waited is all that can be spent
    have hspent := hcoalesced.of_append.conserves
    have hnone : since.countP Note.IsRecorded = 0 :=
      List.countP_eq_zero.mpr fun n hn h => by
        cases (hsince n hn).symm.trans h
    have hone : reserve (.recorded received push :: before) = 1 := rfl
    omega
  · -- before the first note nothing could be spent
    rw [← List.append_nil (w.notes key os)] at hcoalesced
    have hspent := hcoalesced.conserves
    have hzero : reserve [] = 0 := rfl
    omega

end

/-! ## Runs -/

instance (policy : TriggerPolicy) (w : World) : (o : Occurrence) → Decidable (Burst policy w o)
  | .call (.accept ..) | .deed (.report ..) => .isTrue trivial
  | .call (.coordinate policy' _) => inferInstanceAs (Decidable (policy' = policy))
  | .tick now => inferInstanceAs (Decidable (w.now ≤ now))
  | .call (.reconcile _) | .deed (.insertRequest _) | .deed (.updateSpec ..) | .deed (.setLabel ..)
  | .deed (.putTemplate _) | .deed (.putExecution _) | .deed (.setPolicy _)
  | .deed (.insertStrategy _) | .deed (.insertSecret ..) | .deed (.injectConflicts _)
  | .deed (.setUnavailable _) => .isFalse id

/-- A world with a request that pushes build. -/
def burstWorld (now : Instant) : World := { now, store := appStore }

/-- The store of the examples answers every call. -/
theorem appStore_serving : appStore.Serving False := ⟨by decide +kernel, Or.inr (by decide +kernel)⟩

/-- Two pushes come in within the debounce window, and then the trigger is evaluated. -/
def twoPushes : List Occurrence :=
  [.call (.coordinate {} {}), .tick (secondsIn 16), .call (.accept appDelivery {} Provider.all),
    .tick (secondsIn 5), .call (.accept appDelivery {} Provider.all)]

/-- The push of that run, received at this time. -/
def appPush (time : Instant) : PushRecord := ⟨"refs/heads/main", "", time⟩

/-- One start is made for the two pushes, and it takes away the second one. -/
theorem two_pushes_coalesce :
    ∃ cleared earlier, (burstWorld (secondsIn 1)).notes appKey twoPushes =
        .fired (secondsIn 16) "app-buildrun-oncommit-1" cleared :: earlier ∧
      (∃ received push between before, earlier = between ++ .recorded received push :: before ∧
        (∀ n ∈ between, n = .nothing) ∧ push.receivedAt = received ∧ cleared = some push) ∧
      {q | ∃ x, ((burstWorld (secondsIn 1)).course appKey twoPushes).store.executions.get?
        q = some x ∧ x.BelongsTo "uid-1" ∧ x.IsForPush}.ncard = 1 := by
  obtain ⟨hpermits, hnotes⟩ :
      (burstWorld (secondsIn 1)).Permits (Burst {}) appKey twoPushes ∧
      (burstWorld (secondsIn 1)).notes appKey twoPushes =
        [.fired (secondsIn 16) "app-buildrun-oncommit-1" (some (appPush (secondsIn 5))), .nothing,
          .recorded (secondsIn 5) (appPush (secondsIn 5)), .nothing,
          .recorded (secondsIn 1) (appPush (secondsIn 1))] := by
    decide +kernel
  obtain ⟨hfired, -, hcount, -⟩ := bursts_coalesce (w := burstWorld (secondsIn 1)) appStore_inserted
    appStore_serving (by decide +kernel) hpermits
  rw [hnotes] at hcount
  exact ⟨_, _, hnotes, (hfired [] _ _ _ _ hnotes).1, hcount⟩

/-- A push comes in, and in the next tenth of a second the trigger is evaluated. -/
def withinTenth : List Occurrence :=
  [.call (.coordinate oneSecondQuiet {}), .tick (leapTenth 3),
    .call (.accept appDelivery {} Provider.all)]

/-- In a leap second a start is made for a push that came in a tenth of a second before, though it
has to be quiet for one second. -/
theorem burst_fires_in_leap_second :
    ∃ w : World, Inserted w.store appKey "uid-1" ∧ w.store.Serving False ∧
      (w.store.requestAt appKey).isOnCommit = true ∧ 0 ≤ oneSecondQuiet.debounce.millis ∧
      0 ≤ oneSecondQuiet.minInterval.millis ∧ ∃ os, w.Permits (Burst oneSecondQuiet) appKey os ∧
      ∃ time execution cleared earlier,
        w.notes appKey os = .fired time execution cleared :: earlier ∧
        ∃ received push quiet, .recorded received push ∈ earlier ∧
          received.plus? oneSecondQuiet.debounce = some quiet ∧ ¬ quiet ≤ time := by
  obtain ⟨hmode, hpermits, hnotes, quiet, hquiet, hearly⟩ :
      (appStore.requestAt appKey).isOnCommit = true ∧
      (burstWorld (leapTenth 2)).Permits (Burst oneSecondQuiet) appKey withinTenth ∧
      (burstWorld (leapTenth 2)).notes appKey withinTenth =
        [.fired (leapTenth 3) "app-buildrun-oncommit-1" (some (appPush (leapTenth 2))), .nothing,
          .recorded (leapTenth 2) (appPush (leapTenth 2))] ∧
      ∃ quiet ∈ (leapTenth 2).plus? oneSecondQuiet.debounce, ¬ quiet ≤ leapTenth 3 := by
    decide +kernel
  exact ⟨burstWorld (leapTenth 2), appStore_inserted, appStore_serving, hmode, by decide, by decide,
    withinTenth, hpermits, _, _, _, _, hnotes, _, _, quiet,
    List.mem_cons_of_mem _ List.mem_cons_self, hquiet, hearly⟩

end PushBuild
