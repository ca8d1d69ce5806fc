import PushBuild.Proofs.Controller.Name
import PushBuild.Proofs.Interleaving.Schedule
import PushBuild.Proofs.OnCommit.Change
import PushBuild.Proofs.Store.Execution
import PushBuild.Proofs.Store.Version

/-!
# How executions are numbered

Any number of evaluations, passes and deliveries for one request are interleaved, with reads that
may be out of date and calls that may fail, while others change the request's specification and its
mode.  The executions that pushes start are numbered without a gap all the same.

1. **The invariant** (`Numbered`).  The request as it is stored has the greatest counters of all
   that were stored; a name that is recorded is made from the counter recorded with it; and the
   executions that pushes started have the numbers from one up to the counter, or one more while a
   start waits to be recorded.
2. **Why it holds.**  A start takes the number after a counter that was stored.  If it creates, that
   number was free, so it is the first one free.  If it records, its execution is there, so the
   number is not above the last one (`Numbered.recordable`); and if the number is not new, the
   record is made only over its own name.
3. **The result** (`executions_numbered`).
-/

namespace PushBuild

open PushBuild.System

/-! ## The setting -/

/-- Where the execution with number `n` that a push starts is found. -/
def pushPlace (key : ObjectKey) (n : Int) : ObjectKey :=
  ⟨key.namespace, onCommitExecutionName key.name n⟩

/-- Different numbers have different places. -/
theorem pushPlace_inj {key : ObjectKey} {m n : Int} :
    pushPlace key m = pushPlace key n ↔ m = n := by
  refine ⟨fun h => ?_, fun h => by rw [h]⟩
  exact onCommitExecutionName_inj.mp (ObjectKey.mk.inj h).2

/-- The counters of the request under `key` are no less than those in an earlier store. -/
def MemoryStore.CountsOn (key : ObjectKey) (later earlier : MemoryStore) : Prop :=
  ∀ r r', later.requests.get? key = some r → earlier.requests.get? key = some r' →
    r'.statusOrDefault.triggerCounter ≤ r.statusOrDefault.triggerCounter ∧
      r'.statusOrDefault.buildRunCounter ≤ r.statusOrDefault.buildRunCounter

/-- A request as it was inserted: nothing is known about it, and it controls no execution. -/
structure Inserted (store : MemoryStore) (key : ObjectKey) (uid : String) : Prop where
  made : store.Made
  request : ∃ r, store.requests.get? key = some r ∧ r.status = none ∧ r.metadata.uid = some uid
  free : ∀ q x, store.executions.get? q = some x → ¬ x.BelongsTo uid

/-- Others put no other request in the place of this one and leave its executions alone; the clock
may be set. -/
def othersLeave (key : ObjectKey) (uid : String) : Surroundings where
  allows s deed := ¬ deed.Inserts key ∧ deed.Leaves uid s
  ticks _ _ := True

instance (key : ObjectKey) (uid : String) (s : MemoryStore) (deed : Deed) :
    Decidable ((othersLeave key uid).allows s deed) :=
  inferInstanceAs (Decidable (¬ deed.Inserts key ∧ deed.Leaves uid s))

instance (key : ObjectKey) (uid : String) (t t' : Instant) :
    Decidable ((othersLeave key uid).ticks t t') := .isTrue trivial

/-! ## The invariant -/

/-- What may become of a request whose executions have numbers up to `m`. -/
structure Succeeds (key : ObjectKey) (m : Int) (r r' : BuildRequest) : Prop where
  uid_eq : r'.metadata.uid = r.metadata.uid
  counter_le : r.statusOrDefault.triggerCounter ≤ r'.statusOrDefault.triggerCounter
  counter_le_last : r'.statusOrDefault.triggerCounter ≤ m
  builds_le : r.statusOrDefault.buildRunCounter ≤ r'.statusOrDefault.buildRunCounter
  named : ∀ {last}, r'.statusOrDefault.lastTriggered? = some last →
    last.name = onCommitExecutionName key.name r'.statusOrDefault.triggerCounter

variable {ι : Type} {ρ : ι → Type} [DecidableEq ι]

/-- The request under `key` is `r`, and pushes started its executions 1 to `m`. -/
structure Numbered (key : ObjectKey) (uid : String) (s : System ι ρ) (r : BuildRequest) (m : Int) :
    Prop where
  versioned : s.Versioned
  informed : s.Informed
  kept : s.Kept uid
  current : s.store.requests.get? key = some r
  /-- every request that was ever stored is the same one, for it has the same identity -/
  uid_eq : ∀ {r'}, s.Stored key r' → r'.metadata.uid = some uid
  /-- no request that was ever stored has greater counters -/
  counter_nonneg : ∀ {r'}, s.Stored key r' → 0 ≤ r'.statusOrDefault.triggerCounter
  counter_le : ∀ {r'}, s.Stored key r' →
    r'.statusOrDefault.triggerCounter ≤ r.statusOrDefault.triggerCounter ∧
      r'.statusOrDefault.buildRunCounter ≤ r.statusOrDefault.buildRunCounter
  /-- a name that was ever recorded is made from the counter recorded with it -/
  named : ∀ {r' last}, s.Stored key r' → r'.statusOrDefault.lastTriggered? = some last →
    last.name = onCommitExecutionName key.name r'.statusOrDefault.triggerCounter
  /-- a start may wait to be recorded -/
  last : r.statusOrDefault.triggerCounter ≤ m ∧ m ≤ r.statusOrDefault.triggerCounter + 1
  /-- none of the numbers is missing -/
  numbered : ∀ {n}, 1 ≤ n → n ≤ m → ∃ x, s.store.executions.get? (pushPlace key n) = some x ∧
    x.BelongsTo uid ∧ x.IsForPush
  /-- and what else the request controls is for a change of the specification -/
  only : ∀ {q x}, s.store.executions.get? q = some x → x.BelongsTo uid →
    (x.IsForPush ∧ ∃ n, 1 ≤ n ∧ n ≤ m ∧ q = pushPlace key n) ∨
      (¬ x.IsForPush ∧ ∃ n, q = ⟨key.namespace, plainExecutionName key.name n⟩)
  /-- the counters never decreased -/
  ordered : s.past.Pairwise (MemoryStore.CountsOn key)

/-- A key that a program may speak of is that of the request. -/
theorem Known.eq_key {key k : ObjectKey} {s : System ι ρ} (hv : s.Versioned) (hi : s.Informed)
    {i : ι} (h : Known key (s.acts i) k) : k = key := by
  induction h with
  | given => rfl
  | read _ hread ih => exact (hv.key_eq (hi i _ _ hread)).trans ih

/-- Who is admitted to a start has read the request. -/
theorem Firing.Admitted.read {policy : TriggerPolicy} {key : ObjectKey} {f : Firing}
    {acts : List Act} (h : f.Admitted policy key acts) :
    .getRequest f.key (.ok (some f.request)) ∈ acts := by
  obtain ⟨time, before, -, hexamined⟩ := h.due
  exact hexamined.suffix.mem (List.mem_cons_of_mem _ List.mem_cons_self)

namespace Numbered

variable {key : ObjectKey} {uid : String} {s : System ι ρ} {r : BuildRequest} {m : Int}
  {policy : TriggerPolicy} {i : ι}

/-- What a request that was stored makes. -/
theorem desired (h : Numbered key uid s r m) {r' : BuildRequest} (hr' : s.Stored key r')
    {name trigger : String} {e : BuildExecution}
    (he : BuildExecution.desired r' name trigger = .ok e) :
    e.key = ⟨key.namespace, name⟩ ∧ e.BelongsTo uid ∧
    e.metadata.label? triggerLabel = some trigger := by
  obtain ⟨hkey, hlabel, uid', huid', howned⟩ := desired_eq he
  have hname : r'.namespace = key.namespace := congrArg ObjectKey.namespace (h.versioned.key_eq hr')
  obtain rfl : uid = uid' := Option.some.inj ((h.uid_eq hr').symm.trans huid')
  exact ⟨by rw [hkey, hname], howned, hlabel⟩

/-- What an admitted start makes: the execution after the counter that was read. -/
theorem firing (h : Numbered key uid s r m) {f : Firing} {acts : List Act}
    (hf : f.Admitted policy key acts) (hacts : acts <:+ s.acts i) :
    f.key = key ∧ s.Stored key f.request ∧ ∀ {e}, f.desired = .ok e →
      e.key = pushPlace key f.counter ∧ e.BelongsTo uid ∧ e.IsForPush := by
  have hkey : f.key = key := Known.eq_key h.versioned h.informed (hf.known.mono hacts)
  have hread : s.Stored key f.request := hkey ▸ h.informed i _ _ (hacts.mem hf.read)
  refine ⟨hkey, hread, fun he => ?_⟩
  have hdesired := h.desired hread he
  rw [Firing.execution, hkey] at hdesired
  exact hdesired

/-- What a pass that may start a build had read was stored. -/
theorem specRead (h : Numbered key uid s r m) {b : SpecBuild} {acts : List Act}
    (hb : b.Admitted key acts) (hacts : acts <:+ s.acts i) : s.Stored key b.request := by
  have hkey : b.key = key := Known.eq_key h.versioned h.informed (hb.templated.known.mono hacts)
  exact hkey ▸ h.informed i _ _ (hacts.mem hb.templated.read)

/-- What an admitted build for a change of the specification makes: the name tells it from the
executions of pushes, and so does the label. -/
theorem specBuild (h : Numbered key uid s r m) {b : SpecBuild} {acts : List Act}
    (hb : b.Admitted key acts) (hacts : acts <:+ s.acts i) {e : BuildExecution}
    (he : b.desired = .ok e) :
    e.key = ⟨key.namespace, plainExecutionName key.name b.counter⟩ ∧ ¬ e.IsForPush := by
  have hread := h.specRead hb hacts
  obtain ⟨hplace, -, hlabel⟩ := h.desired hread he
  have hname : b.request.name = key.name := congrArg ObjectKey.name (h.versioned.key_eq hread)
  refine ⟨by rw [hplace, SpecBuild.execution, hname], fun hpush => ?_⟩
  rw [BuildExecution.IsForPush, hlabel] at hpush
  exact absurd (Option.some.inj hpush) (by decide)

/-- Once the execution of a request that was stored was created or found, it is there. -/
theorem there (h : Numbered key uid s r m) {r' : BuildRequest} (hr' : s.Stored key r')
    {name trigger : String} {e : BuildExecution} {before started : List Act}
    (he : BuildExecution.desired r' name trigger = .ok e) (hstarted : Started r' e before started)
    (hacts : started <:+ s.acts i) :
    ∃ x, s.store.executions.get? ⟨key.namespace, name⟩ = some x ∧ x.BelongsTo uid := by
  obtain ⟨hplace, howned, -⟩ := h.desired hr' he
  rw [← hplace]
  cases hstarted with
  -- it was created by this program,
  | created =>
    obtain ⟨x, hx, halike⟩ := h.kept.made (hacts.mem List.mem_cons_self) howned
    exact ⟨x, hx, halike.belongsTo.mpr howned⟩
  -- or found, and then its owner was checked
  | adopted huid howned' =>
    rw [h.uid_eq hr'] at huid
    obtain rfl := Option.some.inj huid
    obtain ⟨x, hx, halike⟩ := h.kept.found (hacts.mem List.mem_cons_self) howned'
    exact ⟨x, hx, halike.belongsTo.mpr howned'⟩

/-- Once a start created its execution or found it, the execution is there. -/
theorem started (h : Numbered key uid s r m) {f : Firing} {e : BuildExecution}
    {admitted started : List Act} (hadmitted : f.Admitted policy key admitted)
    (he : f.desired = .ok e) (hstarted : Started f.request e admitted started)
    (hacts : started <:+ s.acts i) :
    ∃ x, s.store.executions.get? (pushPlace key f.counter) = some x ∧ x.BelongsTo uid := by
  obtain ⟨hkey, hread, -⟩ := h.firing hadmitted (hstarted.suffix.trans hacts)
  have hthere := h.there hread he hstarted hacts
  rw [Firing.execution, hkey] at hthere
  exact hthere

/-- A start that may be recorded has a number that is taken. -/
theorem recordable (h : Numbered key uid s r m) {f : Firing} {time : Instant}
    (hf : f.Recordable policy key time (s.acts i)) :
    f.execution = onCommitExecutionName key.name f.counter ∧ 1 ≤ f.counter ∧ f.counter ≤ m := by
  obtain ⟨e, admitted, started, hadmitted, he, hstarted, htime⟩ := hf
  have hacts : started <:+ s.acts i := (List.suffix_cons _ _).trans htime
  obtain ⟨hkey, -, -⟩ := h.firing hadmitted (hstarted.suffix.trans hacts)
  refine ⟨by rw [Firing.execution, hkey], ?_⟩
  obtain ⟨x, hx, howned⟩ := h.started hadmitted he hstarted hacts
  rcases h.only hx howned with ⟨-, n, hn, hnm, heq⟩ | ⟨-, n, heq⟩
  · rw [pushPlace_inj.mp heq]
    exact ⟨hn, hnm⟩
  · exact absurd (ObjectKey.mk.inj heq).2.symm (plainExecutionName_ne_onCommit _ _ _)

/-- The counter that a record leaves is the number of the start: the number is new, or the record is
made over its own name, which is made from the counter.  So the maximum that the record takes is
never needed. -/
theorem fire_counter (h : Numbered key uid s r m) {f : Firing} {time : Instant}
    (hf : f.Recordable policy key time (s.acts i))
    (hfirst : r.statusOrDefault.trigger.supersedes f.counter f.execution = false) :
    max r.statusOrDefault.triggerCounter f.counter = f.counter := by
  -- a number that is not new is the counter, because the name recorded last is the start's own
  rcases OnCommitStatus.of_not_supersedes hfirst with hlt | ⟨hle, last, hlast, hexecution⟩
  · rw [← BuildRequestStatus.triggerCounter_eq] at hlt
    omega
  · rw [← BuildRequestStatus.lastTriggered?_eq] at hlast
    have hname := h.named (stored_of_get? h.current) hlast
    rw [hexecution, (h.recordable hf).1, onCommitExecutionName_inj] at hname
    omega

/-- Where nothing changes what is known about pushes, the request succeeds itself. -/
theorem succeeds_of_state (h : Numbered key uid s r m) {r' : BuildRequest}
    (huid : r'.metadata.uid = r.metadata.uid)
    (hcounter : r'.statusOrDefault.triggerCounter = r.statusOrDefault.triggerCounter)
    (hlast : r'.statusOrDefault.lastTriggered? = r.statusOrDefault.lastTriggered?)
    (hbuilds : r.statusOrDefault.buildRunCounter ≤ r'.statusOrDefault.buildRunCounter) :
    Succeeds key m r r' := by
  refine ⟨huid, Int.le_of_eq hcounter.symm, hcounter ▸ h.last.1, hbuilds, fun {last} hlast' => ?_⟩
  rw [hcounter]
  exact h.named (stored_of_get? h.current) (hlast ▸ hlast')

/-- A status write leaves a request that succeeds the one it was made to.  The three cases are those
of `TriggerChange.last`: what is known of the last start stays, is given up, or is a new start. -/
theorem succeeds_of_change (h : Numbered key uid s r m) {status : BuildRequestStatus}
    (hchange : TriggerChange policy key (s.acts i) r status) (n : Nat) :
    Succeeds key m r ((r.restated status).withVersion n) := by
  have hbuilds := hchange.builds_le
  rcases hchange.last (h.counter_nonneg (stored_of_get? h.current)) with ⟨hcounter, hlast⟩ |
    ⟨-, hcounter, hlast⟩ | ⟨f, time, hf, hfirst, hcounter, hlast⟩
  · exact h.succeeds_of_state rfl hcounter hlast hbuilds
  · have hm := h.last.1
    refine ⟨rfl, Int.le_of_eq hcounter.symm, ?_, hbuilds, fun {last} hlast' => ?_⟩
    · exact Int.le_trans (Int.le_of_eq hcounter) hm
    · cases hlast.symm.trans hlast'
  · -- a start: its number is the counter, and not above the executions that are there
    obtain ⟨hname, -, hm⟩ := h.recordable hf
    have hcounter : status.triggerCounter = f.counter := hcounter.trans (h.fire_counter hf hfirst)
    have hle : r.statusOrDefault.triggerCounter ≤ f.counter := by
      have hmax := h.fire_counter hf hfirst
      omega
    refine ⟨rfl, ?_, ?_, hbuilds, fun {last} hlast' => ?_⟩
    · exact Int.le_trans hle (Int.le_of_eq hcounter.symm)
    · exact Int.le_trans (Int.le_of_eq hcounter) hm
    · show last.name = onCommitExecutionName key.name status.triggerCounter
      rw [hcounter, ← Option.some.inj (hlast.symm.trans hlast')]
      exact hname

/-- What an act makes of the request succeeds it. -/
theorem succeeds_of_becomes (h : Numbered key uid s r m) {r' : BuildRequest}
    (hr' : Becomes policy key (s.acts i) r r') : Succeeds key m r r' := by
  cases hr' with
  | same => exact h.succeeds_of_state rfl rfl rfl (Int.le_refl _)
  | label label value n => exact h.succeeds_of_state rfl rfl rfl (Int.le_refl _)
  | status hchange n => exact h.succeeds_of_change hchange n

/-- What is left to check when one more store was seen.  The facts about all stored requests hold of
the new one because it succeeds the one before; those about executions are what each step has to
show. -/
theorem advance (h : Numbered key uid s r m) {s' : System ι ρ} {r' : BuildRequest} {m' : Int}
    (hpast : s'.past = s'.store :: s.past) (hversioned : s'.Versioned) (hinformed : s'.Informed)
    (hkept : s'.Kept uid) (hcurrent : s'.store.requests.get? key = some r')
    (hsucceeds : Succeeds key m r r') (hm : m ≤ m')
    (hlast : m' ≤ r'.statusOrDefault.triggerCounter + 1)
    (hnumbered : ∀ {n}, 1 ≤ n → n ≤ m' → ∃ x, s'.store.executions.get? (pushPlace key n) = some x ∧
      x.BelongsTo uid ∧ x.IsForPush)
    (honly : ∀ {q x}, s'.store.executions.get? q = some x → x.BelongsTo uid →
      (x.IsForPush ∧ ∃ n, 1 ≤ n ∧ n ≤ m' ∧ q = pushPlace key n) ∨
        (¬ x.IsForPush ∧ ∃ n, q = ⟨key.namespace, plainExecutionName key.name n⟩)) :
    Numbered key uid s' r' m' := by
  have hr := stored_of_get? h.current
  -- what was stored was stored before, or it is what is stored now
  have hstored : ∀ {r''}, s'.Stored key r'' → s.Stored key r'' ∨ r'' = r' := by
    intro r'' hr''
    rcases (stored_cons hpast).mp hr'' with hnow | hbefore
    · exact Or.inr (Option.some.inj (hnow.symm.trans hcurrent))
    · exact Or.inl hbefore
  have hle : ∀ {r''}, s.Stored key r'' →
      r''.statusOrDefault.triggerCounter ≤ r'.statusOrDefault.triggerCounter ∧
        r''.statusOrDefault.buildRunCounter ≤ r'.statusOrDefault.buildRunCounter := by
    intro r'' hr''
    obtain ⟨hcounter, hbuilds⟩ := h.counter_le hr''
    exact ⟨Int.le_trans hcounter hsucceeds.counter_le, Int.le_trans hbuilds hsucceeds.builds_le⟩
  refine ⟨hversioned, hinformed, hkept, hcurrent, fun hr'' => ?_, fun hr'' => ?_, fun hr'' => ?_,
    fun {r''} last hr'' hlast' => ?_, ⟨Int.le_trans hsucceeds.counter_le_last hm, hlast⟩, hnumbered,
    honly, ?_⟩
  · rcases hstored hr'' with hr'' | rfl
    · exact h.uid_eq hr''
    · rw [hsucceeds.uid_eq]
      exact h.uid_eq hr
  · rcases hstored hr'' with hr'' | rfl
    · exact h.counter_nonneg hr''
    · exact Int.le_trans (h.counter_nonneg hr) hsucceeds.counter_le
  · rcases hstored hr'' with hr'' | rfl
    · exact hle hr''
    · exact ⟨Int.le_refl _, Int.le_refl _⟩
  · rcases hstored hr'' with hr'' | rfl
    · exact h.named hr'' hlast'
    · exact hsucceeds.named hlast'
  · rw [hpast]
    refine List.Pairwise.cons (fun earlier hearlier r₁ r₂ hr₁ hr₂ => ?_) h.ordered
    obtain rfl := Option.some.inj (hcurrent.symm.trans hr₁)
    exact hle ⟨earlier, hearlier, hr₂⟩

/-- The number of a start follows a counter that was stored, and none up to `m` is free; so a number
that is free is the next one.  This is where it counts that a start which was made, but not
recorded, blocks the place. -/
theorem next_number (h : Numbered key uid s r m) {f : Firing} {acts : List Act}
    (hf : f.Admitted policy key acts) (hacts : acts <:+ s.acts i)
    (hfree : s.store.executions.get? (pushPlace key f.counter) = none) :
    f.counter = m + 1 ∧ 0 ≤ m ∧ m ≤ r.statusOrDefault.triggerCounter := by
  obtain ⟨-, hread, -⟩ := h.firing hf hacts
  have hnonneg := h.counter_nonneg hread
  have hle := (h.counter_le hread).1
  have hcounter : f.counter = f.request.statusOrDefault.triggerCounter + 1 := rfl
  have hgt : m < f.counter := by
    by_contra hle
    obtain ⟨x, hx, -⟩ := h.numbered (n := f.counter) (by omega) (by omega)
    cases hfree.symm.trans hx
  have hlast := h.last
  omega

/-- The executions after an act that does its duty: if a start creates one, it has the next
number. -/
theorem executions_acted (h : Numbered key uid s r m) {act : Act} {t : MemoryStore}
    (hanswer : s.Answers act t) (hduty : controllerDuty policy key (s.acts i) act) :
    ∃ m', m ≤ m' ∧ m' ≤ r.statusOrDefault.triggerCounter + 1 ∧
      (∀ {n}, 1 ≤ n → n ≤ m' → ∃ x, t.executions.get? (pushPlace key n) = some x ∧
        x.BelongsTo uid ∧ x.IsForPush) ∧
      ∀ {q x}, t.executions.get? q = some x → x.BelongsTo uid →
        (x.IsForPush ∧ ∃ n, 1 ≤ n ∧ n ≤ m' ∧ q = pushPlace key n) ∨
          (¬ x.IsForPush ∧ ∃ n, q = ⟨key.namespace, plainExecutionName key.name n⟩) := by
  have heffect := hanswer.executionEffect
  have hkept : ∀ {n}, 1 ≤ n → n ≤ m → ∃ x, t.executions.get? (pushPlace key n) = some x ∧
      x.BelongsTo uid ∧ x.IsForPush := by
    intro n hn hnm
    obtain ⟨x, hx, hxis⟩ := h.numbered hn hnm
    exact ⟨x, heffect.kept hx, hxis⟩
  by_cases hnew : ∃ e w, ∃ f : Firing, act = .createExecution e (.ok w) ∧
    f.Admitted policy key (s.acts i) ∧ f.desired = .ok e
  · obtain ⟨e, w, f, rfl, hadmitted, he⟩ := hnew
    obtain ⟨-, hread, hdesired⟩ := h.firing hadmitted List.suffix_rfl
    obtain ⟨hplace, howned, hpush⟩ := hdesired he
    have ⟨hfree, ht, _, _, hw⟩ := heffect
    have halike : w.Alike e := ⟨by rw [hw], by rw [hw]⟩
    obtain ⟨hnext, hnonneg, hlast⟩ := h.next_number hadmitted List.suffix_rfl (hplace ▸ hfree)
    refine ⟨m + 1, by omega, by omega, fun {n} hn hnm => ?_, fun {q x} hx hxowned => ?_⟩
    · by_cases hnm' : n ≤ m
      · exact hkept hn hnm'
      · have hn' : n = f.counter := by omega
        refine ⟨w, ?_, halike.belongsTo.mpr howned, halike.isForPush.mpr hpush⟩
        rw [ht, SortedMap.get?_insert, hplace, hn', if_pos rfl]
    · rcases heffect.added hx with hx | ⟨e', heq, hkey, -⟩
      · rcases h.only hx hxowned with ⟨hxpush, n, hn, hnm, hq⟩ | hplain
        · exact Or.inl ⟨hxpush, n, hn, by omega, hq⟩
        · exact Or.inr hplain
      · obtain ⟨rfl, hwx⟩ := Act.createExecution.inj heq
        obtain rfl := Except.ok.inj hwx
        exact Or.inl ⟨halike.isForPush.mpr hpush, f.counter, by omega, by omega, hkey ▸ hplace⟩
  · refine ⟨m, Int.le_refl m, h.last.2, hkept, fun {q x} hx hxowned => ?_⟩
    rcases heffect.added hx with hx | ⟨e, rfl, rfl, halike⟩
    · exact h.only hx hxowned
    · rcases hduty with ⟨f, hadmitted, he⟩ | ⟨b, hadmitted, he⟩
      · exact absurd ⟨e, x, f, rfl, hadmitted, he⟩ hnew
      · -- it was created for a change of the specification
        obtain ⟨hplace, hplain⟩ := h.specBuild hadmitted List.suffix_rfl he
        rw [halike.isForPush]
        exact Or.inr ⟨hplain, b.counter, hplace⟩

/-- The step lemma: an act that does its duty. -/
theorem acted (h : Numbered key uid s r m) {act : Act} {t : MemoryStore} (hanswer : s.Answers act t)
    (hduty : controllerDuty policy key (s.acts i) act) (rest : Program (ρ i)) :
    ∃ r' m', Numbered key uid (s.acted i act rest t) r' m' := by
  obtain ⟨r', hr', hbecomes⟩ :=
    becomes_of_duty h.versioned h.informed h.current hanswer hduty
  have hsucceeds := h.succeeds_of_becomes hbecomes
  obtain ⟨m', hm, hlast, hnumbered, honly⟩ := h.executions_acted hanswer hduty
  have hcounter := hsucceeds.counter_le
  exact ⟨r', m', h.advance rfl (h.versioned.acted hanswer rest) (h.informed.acted hanswer rest)
    (h.kept.acted hanswer rest) hr' hsucceeds hm (by omega) hnumbered honly⟩

/-- The step lemma: what others do. -/
theorem did (h : Numbered key uid s r m) {deed : Deed}
    (hallows : (othersLeave key uid).allows s.store deed) :
    ∃ r' m', Numbered key uid (s.did deed) r' m' := by
  obtain ⟨hinserts, hleaves⟩ := hallows
  obtain ⟨r', hr', hsucceeds⟩ : ∃ r', (deed.apply s.store).requests.get? key = some r' ∧
      Succeeds key m r r' := by
    obtain ⟨r', hr', rfl | ⟨label, value, n, rfl⟩ | ⟨spec, n, -, rfl⟩⟩ :=
      Deed.request h.current hinserts
    · exact ⟨_, hr', h.succeeds_of_state rfl rfl rfl (Int.le_refl _)⟩
    · exact ⟨_, hr', h.succeeds_of_state rfl rfl rfl (Int.le_refl _)⟩
    · exact ⟨_, hr', h.succeeds_of_state rfl rfl rfl (Int.le_refl _)⟩
  have hcounter := hsucceeds.counter_le
  have hlast := h.last
  refine ⟨r', m, h.advance rfl (h.versioned.did deed) (h.informed.did deed) (h.kept.did hleaves) hr'
    hsucceeds (Int.le_refl m) (by omega) (fun hn hnm => ?_) fun {q x} hx howned => ?_⟩
  · -- others neither delete an execution of the request nor change whose it is,
    obtain ⟨x, hx, howned, hpush⟩ := h.numbered hn hnm
    obtain ⟨x', hx', halike⟩ := Deed.executions_kept hleaves hx howned
    exact ⟨x', hx', halike.belongsTo.mpr howned, halike.isForPush.mpr hpush⟩
  · -- nor make one for it
    obtain ⟨x', hx', halike⟩ := Deed.executions_added hleaves hx howned
    rw [halike.isForPush]
    exact h.only hx' (halike.belongsTo.mp howned)

/-- The step lemma: the clock. -/
theorem ticked (h : Numbered key uid s r m) (now : Instant) : Numbered key uid (s.ticked now) r m :=
  ⟨h.versioned.ticked now, h.informed.ticked now, h.kept.ticked now, h.current, h.uid_eq,
    h.counter_nonneg, h.counter_le, h.named, h.last, h.numbered, h.only, h.ordered⟩

end Numbered

/-- At the start nothing is counted. -/
theorem numbered_start {store : MemoryStore} {key : ObjectKey} {uid : String}
    (hinserted : Inserted store key uid) (now : Instant) (pool : (i : ι) → Program (ρ i)) :
    ∃ r m, Numbered key uid (System.start store now pool) r m := by
  obtain ⟨r, hr, hstatus, huid⟩ := hinserted.request
  -- only one store was seen, so only one request was stored
  have hstored : ∀ {r'}, (System.start store now pool).Stored key r' → r' = r := by
    rintro r' ⟨t, ht, hr'⟩
    rw [List.mem_singleton.mp ht] at hr'
    exact Option.some.inj (hr'.symm.trans hr)
  have hdefault : r.statusOrDefault = {} := by
    rw [BuildRequest.statusOrDefault, hstatus]
    rfl
  refine ⟨r, 0, versioned_start hinserted.made.wellFormed now pool,
    fun _ _ _ h => absurd h List.not_mem_nil, kept_start hinserted.free now pool, hr, fun hr' => ?_,
    fun hr' => ?_, fun hr' => ?_, fun {r' last} hr' hlast => ?_, ?_, fun hn hn0 => ?_,
    fun hx howned => absurd howned (hinserted.free _ _ hx), List.pairwise_singleton _ _⟩
  · rw [hstored hr']
    exact huid
  · rw [hstored hr', hdefault]
    exact Int.le_refl 0
  · rw [hstored hr']
    exact ⟨Int.le_refl _, Int.le_refl _⟩
  · rw [hstored hr', hdefault] at hlast
    cases hlast
  · rw [hdefault]
    decide
  · omega

/-- Calls for one request do their duties from the start on. -/
theorem obeys_startCalls (call : ι → ControllerCall) (key : ObjectKey) (store : MemoryStore)
    (now : Instant) :
    (startCalls call key store now).Obeys (fun i => controllerDuty (call i).policy key)
      fun _ _ _ => True := fun i => (call i).obeys key

/-- **The run lemma**: the invariant holds in every state that is reached. -/
theorem numbered_of_reaches {call : ι → ControllerCall} {key : ObjectKey} {uid : String}
    {store : MemoryStore} {now : Instant} {s : System ι fun i => (call i).Result}
    (hinserted : Inserted store key uid)
    (hrun : Reaches (othersLeave key uid) (startCalls call key store now) s) :
    ∃ r m, Numbered key uid s r m := by
  refine hrun.induction (J := fun s => ∃ r m, Numbered key uid s r m)
    (obeys_startCalls call key store now)
    (numbered_start hinserted now _) ?_ ?_ ?_
  · rintro s i act rest t - ⟨r, m, h⟩ hanswer hduty
    exact h.acted hanswer hduty rest
  · rintro s deed - ⟨r, m, h⟩ hallows
    exact h.did hallows
  · rintro s now - ⟨r, m, h⟩ -
    exact ⟨r, m, h.ticked now⟩

/-- **Executions are numbered without a gap.**  Whatever the order of evaluations, passes and
deliveries for a request that was inserted without status, whatever others do meanwhile, and
whichever calls fail or are answered with what was stored earlier: the counters never decreased; if
an execution is recorded as started last, its name is made from the counter; the executions that
pushes started for the request are those numbered from one up to the counter, or up to one more; and
none was created twice. -/
theorem executions_numbered {call : ι → ControllerCall} {key : ObjectKey} {uid : String}
    {store : MemoryStore} {now : Instant} {s : System ι fun i => (call i).Result}
    (hinserted : Inserted store key uid)
    (hrun : Reaches (othersLeave key uid) (startCalls call key store now) s) :
    s.past.Pairwise (MemoryStore.CountsOn key) ∧
    (∃ r, s.store.requests.get? key = some r ∧
      (∀ last, r.statusOrDefault.lastTriggered? = some last →
        last.name = onCommitExecutionName r.name r.statusOrDefault.triggerCounter) ∧
      ∃ m, (m = r.statusOrDefault.triggerCounter ∨ m = r.statusOrDefault.triggerCounter + 1) ∧
        ∀ q, (∃ x, s.store.executions.get? q = some x ∧ x.BelongsTo uid ∧ x.IsForPush) ↔
          ∃ n, 1 ≤ n ∧ n ≤ m ∧ q = pushPlace r.key n) ∧
    ∀ q, s.log.countP (·.creates q) ≤ 1 := by
  obtain ⟨r, m, h⟩ := numbered_of_reaches hinserted hrun
  have hkey : r.key = key := h.versioned.key_eq (stored_of_get? h.current)
  have hlast := h.last
  refine ⟨h.ordered, ⟨r, h.current, fun last hlast => ?_, m, by omega, fun q => ⟨?_, ?_⟩⟩,
    h.kept.once⟩
  · have hname : r.name = key.name := congrArg ObjectKey.name hkey
    rw [hname]
    exact h.named (stored_of_get? h.current) hlast
  · -- every execution for a push has a number,
    rintro ⟨x, hx, howned, hpush⟩
    rcases h.only hx howned with ⟨-, hn⟩ | ⟨hplain, -⟩
    · rw [hkey]
      exact hn
    · exact absurd hpush hplain
  · -- and every number has one
    rintro ⟨n, hn, hnm, rfl⟩
    rw [hkey]
    exact h.numbered hn hnm

/-! ## A run -/

/-- The key of the request of a run. -/
def appKey : ObjectKey := ⟨"default", "app"⟩

/-- A store with a request that pushes build, labelled as a pass labels it, and with its secret. -/
def appStore : MemoryStore :=
  Deed.apply (.setLabel appKey onCommitLabel (some "true")) (Deed.apply (.insertRequest {
      metadata := { name := some "app" }
      spec := {
        source := { git := { url := "u", revision := "main" } }
        rebuild := some .onCommit
        onCommit := some ⟨"hook", "token"⟩ } })
    (Deed.apply (.insertSecret ⟨"default", "hook"⟩ "token" [115]) {}))

/-- Nothing is known about its request, which controls no execution. -/
theorem appStore_inserted : Inserted appStore appKey "uid-1" where
  made := .deed _ (.deed _ (.deed _ .empty))
  request := ⟨(appStore.requests.get? appKey).getD {}, by decide +kernel⟩
  free _ _ h := by cases h

/-- A push to the branch that the request builds. -/
def appDelivery : Delivery where
  headers := ⟨[("x-gitlab-event", Text.utf8 "Push Hook"), ("x-gitlab-token", [115])]⟩
  body := Text.utf8 "\x7b\"project\":\x7b\"git_http_url\":\"u\"\x7d,\"ref\":\"refs/heads/main\"\x7d"

/-- Who calls in a run: pushes are delivered twice, and the trigger is evaluated twice. -/
inductive Caller where
  | push
  | evaluation
  | laterPush
  | laterEvaluation
deriving DecidableEq

/-- The calls of a run. -/
def appCalls (policy : TriggerPolicy) : Caller → ControllerCall
  | .push | .laterPush => .accept appDelivery {} Provider.all
  | .evaluation | .laterEvaluation => .coordinate policy {}

/-- The instant so many seconds after the start of 1970. -/
def secondsIn (n : Nat) : Instant := Instant.epoch.deadline ⟨1000 * n⟩

/-- The calls before the first of them starts. -/
def appStart (policy : TriggerPolicy) : System Caller fun i => (appCalls policy i).Result :=
  startCalls (appCalls policy) appKey appStore (secondsIn 1)

/-- A push comes in; ten seconds later an evaluation starts an execution, and cannot record it. -/
def unrecordedStart : List (Choice Caller) :=
  List.replicate 5 (.serve .push) ++ [.tick (secondsIn 11)] ++
    List.replicate 5 (.serve .evaluation) ++ [.fail .evaluation (.backend "gone")]

/-- The state in which the execution waits to be recorded. -/
def unrecorded : System Caller fun i => (appCalls {} i).Result := (appStart {}).play unrecordedStart

/-- The one execution that waits to be recorded has the number after the counter, which is zero. -/
theorem executions_numbered_unrecorded :
    (∃ r, unrecorded.store.requests.get? appKey = some r ∧ r.statusOrDefault.triggerCounter = 0) ∧
    ∀ q, (∃ x, unrecorded.store.executions.get? q = some x ∧ x.BelongsTo "uid-1" ∧ x.IsForPush) ↔
      q = pushPlace appKey 1 := by
  -- the run is computed once, for all that has to be decided about it
  obtain ⟨hpermits, hrequest, x, hx, hxis⟩ :
      Permits (othersLeave appKey "uid-1") (appStart {}) unrecordedStart ∧
      (∀ r ∈ unrecorded.store.requests.get? appKey, r.key = appKey ∧
        r.statusOrDefault.triggerCounter = 0) ∧
      ∃ x ∈ unrecorded.store.executions.get? (pushPlace appKey 1),
        x.BelongsTo "uid-1" ∧ x.IsForPush := by
    decide +kernel
  obtain ⟨-, ⟨r, hr, -, m, hm, hplaces⟩, -⟩ :=
    executions_numbered appStore_inserted (reaches_play unrecordedStart hpermits)
  have hr : unrecorded.store.requests.get? appKey = some r := hr
  obtain ⟨hkey, hzero⟩ := hrequest r hr
  obtain ⟨n, hn, hnm, -⟩ := (hplaces _).mp ⟨x, hx, hxis⟩
  refine ⟨⟨r, hr, hzero⟩, fun q => (hplaces q).trans ⟨?_, ?_⟩⟩
  · rintro ⟨n', hn', hnm', rfl⟩
    obtain rfl : n' = 1 := by omega
    rw [hkey]
  · rintro rfl
    exact ⟨1, by omega, by omega, by rw [hkey]⟩

end PushBuild
