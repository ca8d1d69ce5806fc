import Mathlib.Data.List.Destutter
import PushBuild.Proofs.OnCommit.Admission
import PushBuild.Proofs.Specification.Shown

/-!
# One execution at a time, across changes of mode

While pushes go on building a request, the next execution is created only after the one before has
ended.  The evaluator knows that execution by the name that the request records.  A request that
pushes do not build any more loses that record, and when they build it again, nothing tells of an
execution that may be running still.

1. **Forgetting** (`forgotten`).  A request that was stored with a counter, but names no execution
   as started last, had its record dropped by an event, while pushes did not build it.
2. **The next start** (`next_start_saw`).  Who creates execution `n + 1` saw that execution `n` had
   ended, or the record of execution `n` was dropped before.
3. **The result** (`started_while_running`).  So an execution that is created while an earlier one
   runs comes after an event that dropped the record of the earlier one; whatever modes, pushes and
   clocks do otherwise, and in whatever order the calls are interleaved.
4. **It happens** (`started_beside_running`).
-/

namespace PushBuild

open PushBuild.System

/-- A program drops the record that the execution under `q` was started last, on a request that
pushes do not build. -/
def Event.Forgets {ι : Type} (key q : ObjectKey) (d : Event ι) : Prop :=
  (∃ i, d.actor? = some i) ∧ ∃ r r' last, d.before.requests.get? key = some r ∧
    d.after.requests.get? key = some r' ∧ r.isOnCommit = false ∧
    r.statusOrDefault.lastTriggered? = some last ∧ q = ⟨key.namespace, last.name⟩ ∧
    r'.statusOrDefault.lastTriggered? = none

/-- Before none of these events had the execution under `q` ended. -/
def NotEnded {ι : Type} (q : ObjectKey) (log : List (Event ι)) : Prop :=
  ∀ e ∈ log, ∀ x, e.before.executions.get? q = some x → x.outcome.isTerminal = false

section

variable {ι : Type} [DecidableEq ι] {call : ι → ControllerCall} {key : ObjectKey} {uid : String}
  {store : MemoryStore} {now : Instant} {s : System ι fun i => (call i).Result}

/-- The facts about moments that are past ask for this. -/
theorem othersLeave_leaves (t : MemoryStore) (deed : Deed)
    (h : (othersLeave key uid).allows t deed) : (othersLeave key uid).allows t deed := h

/-- A request that counts executions, but names none as started last, has had its record dropped.
It was not so at first, so by some event it came to be so; and only a write that gives the pushes up
leaves the counter and takes the name away. -/
theorem forgotten (hinserted : Inserted store key uid)
    (hrun : Reaches (othersLeave key uid) (startCalls call key store now) s) {r : BuildRequest}
    (hr : s.Stored key r) {n : Int} (hn : 1 ≤ n) (hcounter : r.statusOrDefault.triggerCounter = n)
    (hnone : r.statusOrDefault.lastTriggered? = none) :
    ∃ d ∈ s.log, d.Forgets key (pushPlace key n) := by
  have hstart : ∀ r, store.requests.get? key = some r →
      ¬ (r.statusOrDefault.triggerCounter = n ∧ r.statusOrDefault.lastTriggered? = none) := by
    rintro r hr ⟨hcounter, -⟩
    obtain ⟨r₀, hr₀, hstatus, -⟩ := hinserted.request
    obtain rfl := Option.some.inj (hr₀.symm.trans hr)
    rw [BuildRequest.statusOrDefault, hstatus] at hcounter
    have hzero : (0 : Int) = n := hcounter
    omega
  obtain ⟨d, hd, r₀, r₁, hr₀, hr₁, hnot, hcounter₁, hnone₁⟩ :=
    exists_change hinserted othersLeave_leaves hrun hstart hr ⟨hcounter, hnone⟩
  obtain ⟨later, earlier, hlog⟩ := List.append_of_mem hd
  obtain ⟨s₁, h₁⟩ := hrun.moment (obeys_startCalls call key store now) rfl hlog
  obtain ⟨r', m, hnumbered⟩ := numbered_within hinserted othersLeave_leaves h₁.reaches
  obtain rfl : r₀ = r' := by
    rw [← h₁.store_eq] at hr₀
    exact Option.some.inj (hr₀.symm.trans hnumbered.current)
  have hstored := stored_of_get? hnumbered.current
  have hchanged : r₁.statusOrDefault ≠ r₀.statusOrDefault := by
    intro heq
    rw [heq] at hcounter₁ hnone₁
    exact hnot ⟨hcounter₁, hnone₁⟩
  obtain ⟨i, act, hcause, hduty, hrewrites⟩ := h₁.status_changed hnumbered.versioned
    hnumbered.informed (fun _ h => h.1) hr₀ hr₁ hchanged
  -- of the ways to change what is known of the last execution, only giving it up leaves none
  rcases (hrewrites _ hduty).triggerChange.last (hnumbered.counter_nonneg hstored) with
    ⟨hcounter, hlast⟩ | ⟨hmode, hcounter, -⟩ | ⟨f, time, -, -, -, hlast⟩
  · exact absurd ⟨hcounter.symm.trans hcounter₁, hlast.symm.trans hnone₁⟩ hnot
  · cases hlast : r₀.statusOrDefault.lastTriggered? with
    | none => exact absurd ⟨hcounter.symm.trans hcounter₁, hlast⟩ hnot
    | some last =>
      refine ⟨d, hd, ⟨i, Event.actor?_eq_some.mpr ⟨act, hcause⟩⟩, r₀, r₁, last, hr₀, hr₁,
        hmode, hlast, ?_, hnone₁⟩
      rw [hnumbered.named hstored hlast, ← hcounter, hcounter₁]
      rfl
  · -- a start would name its execution
    cases hlast.symm.trans hnone₁

/-- Who creates execution `n + 1` saw that execution `n` had ended, or its record was dropped
before. -/
theorem next_start_saw (hinserted : Inserted store key uid)
    (hrun : Reaches (othersLeave key uid) (startCalls call key store now) s)
    {later earlier : List (Event ι)} {c : Event ι} (hlog : s.log = later ++ c :: earlier) {n : Int}
    (hn : 1 ≤ n) (hcreates : c.creates (pushPlace key (n + 1)) = true) :
    (∃ e ∈ earlier, ∃ x, e.before.executions.get? (pushPlace key n) = some x ∧
      x.outcome.isTerminal = true) ∨ ∃ d ∈ earlier, d.Forgets key (pushPlace key n) := by
  obtain ⟨i, _, _, f, s₁, -, h₁, hadmitted, hcounter⟩ :=
    exists_firing hinserted othersLeave_leaves hrun hlog hcreates
  rw [← h₁.log_eq]
  rcases admitted_saw hinserted othersLeave_leaves h₁.reaches hadmitted hn hcounter with hnone |
    ⟨last, time, x, before, -, -, hacts, -, hended⟩
  · -- the request that was acted on names no execution: its record was dropped
    obtain ⟨r, m, hnumbered⟩ := numbered_within hinserted othersLeave_leaves h₁.reaches
    obtain ⟨-, hread, -⟩ := hnumbered.firing hadmitted List.suffix_rfl
    have hnext : f.counter = f.request.statusOrDefault.triggerCounter + 1 := rfl
    exact Or.inr (forgotten hinserted h₁.reaches hread hn (by omega) hnone)
  · -- the event at which the creator saw the end
    obtain ⟨later', e, earlier', s₂, hlog', hcause, h₂, -⟩ :=
      h₁.reaches.moment_act (obeys_startCalls call key store now) rfl ⟨[], hacts.symm⟩
    have hseen :=
      (h₂.act i (.getExecution (pushPlace key n) (.ok (some x))) hcause).1.executionEffect.1
    refine Or.inl ⟨e, ?_, x, ?_, hended⟩
    · rw [hlog']
      exact List.mem_append_right _ List.mem_cons_self
    · rw [← h₂.store_eq]
      exact hseen.symm

/-- **An execution that is started while an earlier one runs.**  Whatever the order of evaluations,
passes and deliveries for a request that was inserted without status, whatever others do meanwhile
to its specification and its mode, and whichever calls fail or are answered with what was stored
earlier: when an execution is created for a push while an earlier one of the request has not ended
so far, the record of the earlier one was dropped before, and pushes did not build the request
then. -/
theorem started_while_running (hinserted : Inserted store key uid)
    (hrun : Reaches (othersLeave key uid) (startCalls call key store now) s)
    {later earlier : List (Event ι)} {e : Event ι} (hlog : s.log = later ++ e :: earlier)
    {p q : ObjectKey} {x y : BuildExecution} (hcreates : e.creates p = true)
    (hy : e.after.executions.get? p = some y) (hpush : y.IsForPush)
    (hx : e.before.executions.get? q = some x) (howned : x.BelongsTo uid) (hxpush : x.IsForPush)
    (hrunning : NotEnded q (e :: earlier)) : ∃ d ∈ earlier, d.Forgets key q := by
  obtain ⟨s₁, h₁⟩ := hrun.moment (obeys_startCalls call key store now) rfl hlog
  obtain ⟨i, z, created, hcause, rfl⟩ := Event.creates_iff.mp hcreates
  -- the label is written when the execution is made, and stays
  have hpush : z.IsForPush := by
    obtain ⟨-, ht, _, _, hcreated⟩ := (h₁.act i _ hcause).1.executionEffect
    rw [ht, SortedMap.get?_insert, if_pos rfl] at hy
    have halike : y.Alike z := by
      rw [← Option.some.inj hy, hcreated]
      exact ⟨rfl, rfl⟩
    exact halike.isForPush.mp hpush
  obtain ⟨r, m, hnumbered⟩ := numbered_within hinserted othersLeave_leaves h₁.reaches
  rw [← h₁.store_eq] at hx
  -- the earlier execution has a number up to `m`
  obtain ⟨n, hn, hnm, rfl⟩ : ∃ n, 1 ≤ n ∧ n ≤ m ∧ q = pushPlace key n := by
    rcases hnumbered.only hx howned with ⟨-, hnumber⟩ | ⟨hplain, -⟩
    · exact hnumber
    · exact absurd hxpush hplain
  -- so the one after it was created by now: before, or just now
  obtain ⟨later', c, earlier', hcreation, hcreates, hearlier⟩ : ∃ later' c earlier',
      s.log = later' ++ c :: earlier' ∧ c.creates (pushPlace key (n + 1)) = true ∧
        earlier' ⊆ earlier := by
    by_cases hnext : n + 1 ≤ m
    · obtain ⟨z, hz, hzowned, -⟩ := hnumbered.numbered (n := n + 1) (by omega) hnext
      obtain ⟨c, hc, hcreates⟩ := hnumbered.kept.created hz hzowned
      rw [h₁.log_eq] at hc
      obtain ⟨between, earlier', rfl⟩ := List.append_of_mem hc
      refine ⟨later ++ e :: between, c, earlier', ?_, hcreates, ?_⟩
      · rw [hlog, List.append_assoc]
        rfl
      · exact fun d hd => List.mem_append_right _ (List.mem_cons_of_mem _ hd)
    · obtain ⟨hanswer, ⟨f, hadmitted, hz⟩ | ⟨b, hadmitted, hz⟩⟩ := h₁.act i _ hcause
      · obtain ⟨-, -, hdesired⟩ := hnumbered.firing hadmitted List.suffix_rfl
        have hplace := (hdesired hz).1
        obtain ⟨hnumber, -⟩ :=
          hnumbered.next_number hadmitted List.suffix_rfl (hplace ▸ hanswer.executionEffect.1)
        have hnumber : n + 1 = f.counter := by omega
        refine ⟨later, e, earlier, hlog, ?_, fun _ hd => hd⟩
        rw [hnumber, ← hplace]
        exact hcreates
      · -- it is not an execution of the other kind, for it is labelled as one for a push
        exact absurd hpush (hnumbered.specBuild hadmitted List.suffix_rfl hz).2
  rcases next_start_saw hinserted hrun hcreation hn hcreates with ⟨e', he', z, hz, hended⟩ |
    ⟨d, hd, hforgets⟩
  · -- the creator of that one saw an end, but there was none
    have hnot := hrunning e' (List.mem_cons_of_mem _ (hearlier he')) z hz
    cases hended.symm.trans hnot
  · exact ⟨d, hearlier hd, hforgets⟩

end

/-! ## A run -/

/-- The acts of each program are together in the log, with none of another one in between: if runs
of equal actors are made one, no actor comes up twice. -/
def Serial {ι : Type} [DecidableEq ι] (log : List (Event ι)) : Prop :=
  ((log.filterMap Event.actor?).destutter (· ≠ ·)).Nodup

instance {ι : Type} [DecidableEq ι] (log : List (Event ι)) : Decidable (Serial log) :=
  inferInstanceAs (Decidable (List.Nodup _))

instance {ι : Type} (q : ObjectKey) (log : List (Event ι)) : Decidable (NotEnded q log) :=
  inferInstanceAs
    (Decidable (∀ e ∈ log, ∀ x ∈ e.before.executions.get? q, x.outcome.isTerminal = false))

/-- The specification of a request in each of its two modes. -/
def switchSpec (mode : RebuildMode) : BuildRequestSpec where
  source := { git := { url := "u", revision := "main" } }
  buildFile := .present
  output := { image := "i" }
  rebuild := some mode
  onCommit := some ⟨"hook", "token"⟩

/-- A store with a request that pushes build, labelled and with its secret, and with what a pass
looks up. -/
def switchStore : MemoryStore :=
  Deed.apply (.setLabel appKey onCommitLabel (some "true"))
    (Deed.apply
      (.insertRequest { metadata := { name := some "app" }, spec := switchSpec .onCommit })
      (Deed.apply (.insertSecret ⟨"default", "hook"⟩ "token" [115])
        (Deed.apply (.insertStrategy "buildkit")
          (Deed.apply (.setPolicy (some { buildfile := some "buildkit" })) {}))))

/-- Its request was inserted without status, and there are no executions. -/
theorem switchStore_inserted : Inserted switchStore appKey "uid-1" where
  made := .deed _ (.deed _ (.deed _ (.deed _ (.deed _ .empty))))
  request := ⟨(switchStore.requests.get? appKey).getD {}, by decide +kernel⟩
  free _ _ h := by cases h

/-- Who calls while the mode is changed: pushes are delivered in between passes. -/
inductive Visit where
  | push
  | first
  | away
  | back
  | laterPush
  | second
deriving DecidableEq

/-- Their calls. -/
def visits : Visit → ControllerCall
  | .push | .laterPush => .accept appDelivery {} Provider.all
  | .first | .away | .back | .second => .reconcile {}

/-- A push is built; a pass finds the request in the other mode and drops what is known of pushes;
when it is back in the first mode, and the execution is still running, another push is built. -/
def switchedTwice : List (Choice Visit) :=
  List.replicate 5 (.serve .push) ++ [.tick (secondsIn 11)] ++ List.replicate 20 (.serve .first) ++
    [.deed (.updateSpec appKey (switchSpec .initial))] ++ List.replicate 13 (.serve .away) ++
    [.deed (.updateSpec appKey (switchSpec .onCommit))] ++ List.replicate 13 (.serve .back) ++
    List.replicate 5 (.serve .laterPush) ++ [.tick (secondsIn 21)] ++
      List.replicate 7 (.serve .second)

/-- The calls before the first of them starts. -/
def switchStart : System Visit fun i => (visits i).Result :=
  startCalls visits appKey switchStore (secondsIn 1)

/-- The state in which the second execution was just created. -/
def startedBeside : System Visit fun i => (visits i).Result := switchStart.play switchedTwice

/-- What the run comes to: its last event creates the second execution, and the first one has not
ended. -/
theorem startedBeside_last :
    Permits (othersLeave appKey "uid-1") switchStart switchedTwice ∧ Serial startedBeside.log ∧
      NotEnded (pushPlace appKey 1) startedBeside.log ∧
      ∃ e ∈ startedBeside.log.head?, e.creates (pushPlace appKey 2) = true ∧
        (∃ y ∈ e.after.executions.get? (pushPlace appKey 2), y.BelongsTo "uid-1" ∧ y.IsForPush) ∧
        ∃ x ∈ e.before.executions.get? (pushPlace appKey 1), x.BelongsTo "uid-1" ∧ x.IsForPush := by
  decide +kernel

/-- The record of the first execution was dropped before the second one was created. -/
theorem started_while_running_switched :
    ∃ e earlier, startedBeside.log = e :: earlier ∧ e.creates (pushPlace appKey 2) = true ∧
      ∃ d ∈ earlier, d.Forgets appKey (pushPlace appKey 1) := by
  obtain ⟨hpermits, -, hrunning, e, he, hcreates, ⟨y, hy, -, hpush⟩, x, hx, howned, hxpush⟩ :=
    startedBeside_last
  obtain ⟨earlier, hlog⟩ := List.head?_eq_some_iff.mp he
  have hlast : startedBeside.log = [] ++ e :: earlier := hlog
  exact ⟨e, earlier, hlog, hcreates, started_while_running switchStore_inserted
    (reaches_play switchedTwice hpermits) hlast hcreates hy hpush hx howned hxpush
      (hlog ▸ hrunning)⟩

/-- Programs act one after another, and an execution is created for a push while an earlier one of
the request has not ended. -/
theorem started_beside_running :
    Inserted switchStore appKey "uid-1" ∧
    ∃ s, Reaches (othersLeave appKey "uid-1") (startCalls visits appKey switchStore
      (secondsIn 1)) s ∧
      Serial s.log ∧ ∃ e ∈ s.log, ∃ p q, e.creates p = true ∧
        (∃ y ∈ e.after.executions.get? p, y.BelongsTo "uid-1" ∧ y.IsForPush) ∧
        ∃ x ∈ e.before.executions.get? q, x.BelongsTo "uid-1" ∧ x.IsForPush ∧
          x.outcome.isTerminal = false := by
  obtain ⟨hpermits, hserial, hrunning, e, he, hcreates, hy, x, hx, howned, hxpush⟩ :=
    startedBeside_last
  have he : e ∈ startedBeside.log := List.mem_of_mem_head? he
  exact ⟨switchStore_inserted, _, reaches_play switchedTwice hpermits, hserial, e, he, _, _,
    hcreates, hy, x, hx, howned, hxpush, hrunning e he x hx⟩

end PushBuild
