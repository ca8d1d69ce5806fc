import PushBuild.Proofs.Interleaving.Clock
import PushBuild.Proofs.OnCommit.Numbering

/-!
# Where an execution comes from

What was true when an execution was created has to be said of a moment that is past by the time
anyone asks.  Here are the facts about such moments.

1. **Requests.**  An evaluator may act on any request that was ever stored, so what is true of
   requests is proved of all of these at once (`stored_of_rewrites`, `stored_induction`).
2. **Changes.**  What is true of a request that was stored, and was not true at first, came about by
   an event (`exists_change`).
3. **Creations.**  The execution with a number that pushes start was created by an evaluator that
   was admitted just then (`exists_firing`), and this evaluator either knew of no execution started
   last, or it saw that one ended (`admitted_saw`).
4. **Records.**  Before an evaluator that may record a start read the time, the execution was
   created (`exists_creation`).
-/

namespace PushBuild

open PushBuild.System

variable {ι : Type} [DecidableEq ι] {call : ι → ControllerCall} {key : ObjectKey} {uid : String}
  {store : MemoryStore} {now : Instant} {w : Surroundings} {s : System ι fun i => (call i).Result}

/-- A moment of a run of calls for one request. -/
abbrev CallMoment (w : Surroundings) (call : ι → ControllerCall) (key : ObjectKey)
    (store : MemoryStore) (now : Instant) :=
  Moment w (startCalls call key store now) fun i => controllerDuty (call i).policy key

/-- The invariant holds wherever others leave the request and its executions alone. -/
theorem numbered_within (hinserted : Inserted store key uid)
    (hallows : ∀ t deed, w.allows t deed → (othersLeave key uid).allows t deed)
    (hrun : Reaches w (startCalls call key store now) s) : ∃ r m, Numbered key uid s r m :=
  numbered_of_reaches hinserted (hrun.mono hallows fun _ _ _ => trivial)

/-- **The rule of stored requests.**  What holds of the request that was inserted, goes on to hold,
and is handed on when the request gets a label, another specification or a status, holds of every
request that was ever stored. -/
theorem stored_of_rewrites {P : System ι (fun i => (call i).Result) → BuildRequest → Prop}
    (hinserted : Inserted store key uid)
    (hallows : ∀ t deed, w.allows t deed → (othersLeave key uid).allows t deed)
    (hrun : Reaches w (startCalls call key store now) s)
    (start : ∀ r, store.requests.get? key = some r → r.statusOrDefault = {} →
      P (startCalls call key store now) r)
    (mono : ∀ s s' r, s.log ⊆ s'.log → s'.now = s.now ∨ w.ticks s.now s'.now → P s r → P s' r)
    (label : ∀ s r label value n, P s r → P s ((r.withLabel label value).withVersion n))
    (spec : ∀ s r spec n, w.allows s.store (.updateSpec key spec) → P s r →
      P s ((r.withSpec spec).withVersion n))
    (status : ∀ s i r status n, Reaches w (startCalls call key store now) s →
      s.store.requests.get? key = some r → P s r →
      Rewrites (call i).policy key (s.acts i) r status →
      P s ((r.restated status).withVersion n)) :
    ∀ {r}, s.Stored key r → P s r := by
  suffices h : ∀ r, s.Stored key r → P s r from fun {r} => h r
  refine hrun.induction (J := fun s => ∀ r, s.Stored key r → P s r)
    (obeys_startCalls call key store now) ?_ ?_ ?_ ?_
  · rintro r ⟨t, ht, hr⟩
    rw [List.mem_singleton.mp ht] at hr
    obtain ⟨r₀, hr₀, hstatus, -⟩ := hinserted.request
    obtain rfl := Option.some.inj (hr₀.symm.trans hr)
    refine start r₀ hr ?_
    rw [BuildRequest.statusOrDefault, hstatus]
    rfl
  · -- an act: what was stored before is as it was, and what is stored now became of what was stored
    intro s i act rest t hrun h hanswer hduty r' hr'
    obtain ⟨r, m, hnumbered⟩ := numbered_within hinserted hallows hrun
    have hr := h r (stored_of_get? hnumbered.current)
    refine mono s _ r' (List.subset_cons_self _ _) (Or.inl rfl) ?_
    rcases (stored_cons rfl).mp hr' with hr' | hr'
    · obtain ⟨r'', hr'', hcases⟩ :=
        request_of_duty hnumbered.versioned hnumbered.informed hnumbered.current hanswer hduty
      obtain rfl := Option.some.inj (hr''.symm.trans hr')
      rcases hcases with rfl | ⟨name, value, n, rfl⟩ | ⟨newStatus, n, rfl, hrewrites⟩
      · exact hr
      · exact label s r name value n hr
      · exact status s i r newStatus n hrun hnumbered.current hr hrewrites
    · exact h r' hr'
  · intro s deed hrun h hdeed r' hr'
    obtain ⟨r, m, hnumbered⟩ := numbered_within hinserted hallows hrun
    have hr := h r (stored_of_get? hnumbered.current)
    refine mono s _ r' (List.subset_cons_self _ _) (Or.inl rfl) ?_
    rcases (stored_cons rfl).mp hr' with hr' | hr'
    · obtain ⟨r'', hr'', hcases⟩ := Deed.request hnumbered.current (hallows _ _ hdeed).1
      obtain rfl := Option.some.inj (hr''.symm.trans hr')
      rcases hcases with rfl | ⟨name, value, n, rfl⟩ | ⟨newSpec, n, rfl, rfl⟩
      · exact hr
      · exact label s r name value n hr
      · exact spec s r newSpec n hdeed hr
    · exact h r' hr'
  · exact fun s now _ h hticks r hr => mono s _ r (fun _ he => he) (Or.inr hticks) (h r hr)

/-- The rule for what depends on pushes alone: a status write counts only for what it makes of the
pushes. -/
theorem stored_induction {P : System ι (fun i => (call i).Result) → BuildRequest → Prop}
    (hinserted : Inserted store key uid)
    (hallows : ∀ t deed, w.allows t deed → (othersLeave key uid).allows t deed)
    (hrun : Reaches w (startCalls call key store now) s)
    (start : ∀ r, store.requests.get? key = some r → r.statusOrDefault = {} →
      P (startCalls call key store now) r)
    (mono : ∀ s s' r, s.log ⊆ s'.log → s'.now = s.now ∨ w.ticks s.now s'.now → P s r → P s' r)
    (label : ∀ s r label value n, P s r → P s ((r.withLabel label value).withVersion n))
    (spec : ∀ s r spec n, w.allows s.store (.updateSpec key spec) → P s r →
      P s ((r.withSpec spec).withVersion n))
    (status : ∀ s i r status n, Reaches w (startCalls call key store now) s →
      s.store.requests.get? key = some r → P s r →
      TriggerChange (call i).policy key (s.acts i) r status →
      P s ((r.restated status).withVersion n)) :
    ∀ {r}, s.Stored key r → P s r :=
  stored_of_rewrites hinserted hallows hrun start mono label spec
    fun s i r newStatus n hrun hr h hrewrites =>
      status s i r newStatus n hrun hr h hrewrites.triggerChange

/-- **The rule of changes.**  What was not true of the request that was inserted, but is true of one
that was stored, came about by an event. -/
theorem exists_change {Q : BuildRequest → Prop} (hinserted : Inserted store key uid)
    (hallows : ∀ t deed, w.allows t deed → (othersLeave key uid).allows t deed)
    (hrun : Reaches w (startCalls call key store now) s)
    (hstart : ∀ r, store.requests.get? key = some r → ¬ Q r) {r : BuildRequest}
    (hr : s.Stored key r) (hQ : Q r) :
    ∃ e ∈ s.log, ∃ r₀ r₁, e.before.requests.get? key = some r₀ ∧
      e.after.requests.get? key = some r₁ ∧ ¬ Q r₀ ∧ Q r₁ := by
  let Changed (log : List (Event ι)) : Prop := ∃ e ∈ log, ∃ r₀ r₁,
    e.before.requests.get? key = some r₀ ∧ e.after.requests.get? key = some r₁ ∧ ¬ Q r₀ ∧ Q r₁
  suffices h : ∀ r, s.Stored key r → Q r → Changed s.log from h r hr hQ
  -- an event brought it about, unless it was so just before it
  have hnext : ∀ (s : System ι fun i => (call i).Result) (e : Event ι) r,
      Reaches w (startCalls call key store now) s → (∀ r, s.Stored key r → Q r → Changed s.log) →
      e.before = s.store → (e.after.requests.get? key = some r ∨ s.Stored key r) → Q r →
      Changed (e :: s.log) := by
    intro s e r hrun h hbefore hr hQ
    have hsooner : ∀ r, s.Stored key r → Q r → Changed (e :: s.log) := fun r hr hQ => by
      obtain ⟨e', he', hchanged⟩ := h r hr hQ
      exact ⟨e', List.mem_cons_of_mem _ he', hchanged⟩
    rcases hr with hr | hr
    · obtain ⟨r₀, m, hnumbered⟩ := numbered_within hinserted hallows hrun
      by_cases hQ₀ : Q r₀
      · exact hsooner r₀ (stored_of_get? hnumbered.current) hQ₀
      · exact ⟨e, List.mem_cons_self, r₀, r, hbefore ▸ hnumbered.current, hr, hQ₀, hQ⟩
    · exact hsooner r hr hQ
  refine hrun.induction (J := fun s => ∀ r, s.Stored key r → Q r → Changed s.log)
    (obeys_startCalls call key store now) ?_ ?_ ?_ fun _ _ _ h _ => h
  · rintro r ⟨t, ht, hr⟩ hQ
    rw [List.mem_singleton.mp ht] at hr
    exact absurd hQ (hstart r hr)
  · intro s i act rest t hrun h _ _ r hr hQ
    exact hnext s _ r hrun h rfl ((stored_cons rfl).mp hr) hQ
  · intro s deed hrun h _ r hr hQ
    exact hnext s _ r hrun h rfl ((stored_cons rfl).mp hr) hQ

/-- Who created the execution with number `n` was admitted to.  Only evaluations and passes create
executions, and what a pass creates has a name of the other kind. -/
theorem exists_firing (hinserted : Inserted store key uid)
    (hallows : ∀ t deed, w.allows t deed → (othersLeave key uid).allows t deed)
    (hrun : Reaches w (startCalls call key store now) s) {later earlier : List (Event ι)}
    {e : Event ι} (hlog : s.log = later ++ e :: earlier) {n : Int}
    (hcreates : e.creates (pushPlace key n) = true) :
    ∃ i x created f s₁, e.cause = .act i (.createExecution x (.ok created)) ∧
      CallMoment w call key store now e earlier s₁ ∧
      Firing.Admitted (call i).policy key f (s₁.acts i) ∧ f.counter = n := by
  obtain ⟨i, x, created, hcause, hkey⟩ := Event.creates_iff.mp hcreates
  obtain ⟨s₁, h₁⟩ := hrun.moment (obeys_startCalls call key store now) rfl hlog
  obtain ⟨r, m, hnumbered⟩ := numbered_within hinserted hallows h₁.reaches
  obtain ⟨-, ⟨f, hadmitted, hx⟩ | ⟨b, hadmitted, hx⟩⟩ := h₁.act i _ hcause
  · obtain ⟨-, -, hdesired⟩ := hnumbered.firing hadmitted List.suffix_rfl
    have hplace := (hdesired hx).1.symm.trans hkey
    exact ⟨i, x, created, f, s₁, hcause, h₁, hadmitted, pushPlace_inj.mp hplace⟩
  · obtain ⟨hplace, hplain⟩ := hnumbered.specBuild hadmitted List.suffix_rfl hx
    -- a pass gives its executions names without a number for pushes
    have hname := congrArg ObjectKey.name (hplace.symm.trans hkey)
    exact absurd hname (plainExecutionName_ne_onCommit _ _ _)

/-- An evaluator that is admitted to the start after number `n` acts on a request that names no
execution as started last, or it has just seen execution `n` ended. -/
theorem admitted_saw (hinserted : Inserted store key uid)
    (hallows : ∀ t deed, w.allows t deed → (othersLeave key uid).allows t deed)
    (hrun : Reaches w (startCalls call key store now) s) {i : ι} {f : Firing}
    (hadmitted : f.Admitted (call i).policy key (s.acts i)) {n : Int} (hn : 1 ≤ n)
    (hcounter : f.counter = n + 1) :
    f.request.statusOrDefault.lastTriggered? = none ∨
    ∃ last time x before, f.request.statusOrDefault.lastTriggered? = some last ∧
      evaluate f.request.statusOrDefault.onCommit (call i).policy time = .fire f.push ∧
      s.acts i = .getExecution (pushPlace key n) (.ok (some x)) :: .now time ::
        .getRequest key (.ok (some f.request)) :: before ∧
      x.BelongsTo uid ∧ x.outcome.isTerminal = true := by
  obtain ⟨r, m, hnumbered⟩ := numbered_within hinserted hallows hrun
  obtain ⟨hkey, hread, -⟩ := hnumbered.firing hadmitted List.suffix_rfl
  have htaken : f.request.statusOrDefault.triggerCounter = n := by
    have hnext : f.counter = f.request.statusOrDefault.triggerCounter + 1 := rfl
    omega
  cases hlast : f.request.statusOrDefault.lastTriggered? with
  | none => exact Or.inl rfl
  | some last =>
    refine Or.inr ?_
    have hplace : (⟨f.request.namespace, last.name⟩ : ObjectKey) = pushPlace key n := by
      have hnamespace : f.request.namespace = key.namespace :=
        congrArg ObjectKey.namespace (hnumbered.versioned.key_eq hread)
      rw [hnamespace, hnumbered.named hread hlast, htaken]
      rfl
    obtain ⟨time, before, hdue, hexamined⟩ := hadmitted.due
    rw [hkey] at hexamined
    -- when the evaluator looked for the execution it was there, because the counter had come that
    -- far
    have hthere : ∀ found, s.acts i = .getExecution ⟨f.request.namespace, last.name⟩ (.ok found) ::
        .now time :: .getRequest key (.ok (some f.request)) :: before →
        ∃ x, found = some x ∧ x.BelongsTo uid := by
      intro found hacts
      obtain ⟨later, e, earlier, s₁, -, hcause, h₁, hacts₁⟩ :=
        hrun.moment_act (obeys_startCalls call key store now) rfl ⟨[], hacts.symm⟩
      obtain ⟨r₁, m₁, hnumbered₁⟩ := numbered_within hinserted hallows h₁.reaches
      have hread₁ : s₁.Stored key f.request := by
        refine hnumbered₁.informed i key f.request ?_
        rw [hacts₁]
        exact List.mem_cons_of_mem _ List.mem_cons_self
      have hle := (hnumbered₁.counter_le hread₁).1
      have hle₁ := hnumbered₁.last.1
      obtain ⟨x, hx, howned, -⟩ := hnumbered₁.numbered hn (by omega)
      have hfound := (h₁.act i (.getExecution _ (.ok found)) hcause).1.executionEffect.1
      exact ⟨x, by rw [hfound, hplace, hx], howned⟩
    -- it was looked for, it was not missing, and it had ended: of the three cases only this one is
    -- left
    generalize hacts : s.acts i = acts at hexamined hthere ⊢
    cases hexamined with
    | never hnone => cases hnone.symm.trans hlast
    | missing hlast' =>
      obtain rfl := Option.some.inj (hlast.symm.trans hlast')
      obtain ⟨x, hx, -⟩ := hthere none rfl
      cases hx
    | @idle _ x uid' hlast' huid hidle =>
      obtain rfl := Option.some.inj (hlast.symm.trans hlast')
      obtain ⟨y, hy, howned⟩ := hthere (some x) rfl
      obtain rfl := Option.some.inj hy
      obtain rfl := Option.some.inj ((hnumbered.uid_eq hread).symm.trans huid)
      exact ⟨last, time, x, before, rfl, hdue, by rw [hplace], howned, hidle howned⟩

/-- Before an evaluator that may record a start read the time, the execution was created.  Its acts
up to the time it read go back to a moment of the run; there it had created the execution or found
it, and whatever execution of the request is there was created by an event. -/
theorem exists_creation (hinserted : Inserted store key uid)
    (hallows : ∀ t deed, w.allows t deed → (othersLeave key uid).allows t deed)
    (hticks : ∀ a b, w.ticks a b → a ≤ b) (hrun : Reaches w (startCalls call key store now) s)
    {i : ι} {f : Firing} {time : Instant} (hf : f.Recordable (call i).policy key time (s.acts i)) :
    ∃ e ∈ s.log, e.creates (pushPlace key f.counter) = true ∧ e.now ≤ time := by
  obtain ⟨x, admitted, started, hadmitted, hx, hstarted, htime⟩ := hf
  obtain ⟨later, e', earlier, s₁, hlog, hcause, h₁, hacts⟩ :=
    hrun.moment_act (obeys_startCalls call key store now) rfl htime
  obtain ⟨r, m, hnumbered⟩ := numbered_within hinserted hallows h₁.reaches
  have hbefore : started <:+ s₁.acts i := hacts ▸ List.suffix_refl started
  obtain ⟨y, hy, howned⟩ := hnumbered.started hadmitted hx hstarted hbefore
  obtain ⟨e, he, hcreates⟩ := hnumbered.kept.created hy howned
  have hclocked : s₁.Clocked fun _ => True :=
    h₁.reaches.clocked rfl trivial fun a b h => ⟨hticks a b h, trivial⟩
  refine ⟨e, ?_, hcreates, ?_⟩
  · rw [hlog]
    exact List.mem_append_right _ (List.mem_cons_of_mem _ (h₁.log_eq ▸ he))
  · rw [(h₁.act i _ hcause).1.now_eq]
    exact (hclocked.event he).1

end PushBuild
