import PushBuild.Proofs.OnCommit.Recording
import PushBuild.Proofs.Specification.Shown

/-!
# What the execution was created from that is recorded as built

One worker makes passes over a request, one after the other, while others change the specification.
When what is to be built has changed, a pass makes the template say so, creates an execution, which
is built from the template, and records the specification as built by that execution.

1. **The invariant** (`Worker`).  The template of the request is as the worker's last act showed it,
   if that act showed it: nobody else writes it.
2. **Creations.**  A pass creates an execution right after it made the template, so what the
   template says then is what the request said that the pass had read (`Worker.creation`).
3. **The result** (`build_recorded`).  When a specification is recorded as built, the template said
   the same as the execution was created, unless the pass did not create it, but found it there.
4. **The other case.**  It happens: an execution that was created and not recorded is then recorded
   as having built a later specification (`earlier_build_recorded`).
-/

namespace PushBuild

open PushBuild.System

/-! ## The setting -/

/-- Passes over the request under `key`, one after the other.  If one fails the next one is made. -/
def passes (key : ObjectKey) : List ControllerSettings → Program Unit
  | [] => .done ()
  | settings :: rest => (reconcile settings key).run.bind fun _ => passes key rest

/-- The duty of passes, whatever windows each of them goes by. -/
def passesDuty (key : ObjectKey) : Duty :=
  fun acts act => ∃ policy, controllerDuty policy key acts act

/-- A duty that every pass does, the worker does. -/
theorem passes_keep {duty : Duty} {key : ObjectKey}
    (h : ∀ (settings : ControllerSettings) acts, Keeps duty (reconcile settings key) acts)
    (settings : List ControllerSettings) (acts : List Act) :
    (passes key settings).Obeys duty (fun _ _ => True) acts := by
  induction settings generalizing acts with
  | nil => trivial
  | cons settings rest ih =>
    exact (Program.obeys_bind _ _ _ _).mpr
      (Program.Obeys.mono (fun _ later _ => ih later) (h settings acts))

/-- Passes do the duty of passes. -/
theorem passes_obeys (key : ObjectKey) (settings : List ControllerSettings) (acts : List Act) :
    (passes key settings).Obeys (passesDuty key) (fun _ _ => True) acts := by
  refine passes_keep (fun settings acts => ?_) settings acts
  have hpass : Keeps (controllerDuty settings.trigger key) (reconcile settings key) acts :=
    keeps_reconcile (allowsPass_controllerDuty settings.trigger key)
  exact Program.Obeys.weaken (fun _ _ h => ⟨settings.trigger, h⟩) hpass

/-- The state in which the worker has not started. -/
def startPasses (key : ObjectKey) (settings : List ControllerSettings) (store : MemoryStore)
    (now : Instant) : System Unit fun _ => Unit :=
  System.start store now fun _ => passes key settings

/-- So does the worker from the start on. -/
theorem obeys_startPasses (key : ObjectKey) (settings : List ControllerSettings)
    (store : MemoryStore) (now : Instant) :
    (startPasses key settings store now).Obeys (fun _ => passesDuty key) fun _ _ _ => True :=
  fun _ => passes_obeys key settings []

/-- The deed puts no template in this place. -/
def Deed.LeavesTemplate (place : ObjectKey) : Deed → Prop
  | putTemplate t => t.key ≠ place
  | _ => True

instance Deed.LeavesTemplate.decidable (place : ObjectKey) :
    (deed : Deed) → Decidable (deed.LeavesTemplate place)
  | putTemplate t => inferInstanceAs (Decidable (t.key ≠ place))
  | insertRequest _ | updateSpec .. | setLabel .. | putExecution _ | report .. | setPolicy _
  | insertStrategy _ | insertSecret .. | injectConflicts _ | setUnavailable _ => .isTrue trivial

/-- Such a deed keeps the template. -/
theorem Deed.LeavesTemplate.kept {place : ObjectKey} {deed : Deed} (h : deed.LeavesTemplate place)
    (s : MemoryStore) : (deed.apply s).templates.get? place = s.templates.get? place := by
  have heffect := deed.templateEffect s
  cases deed with
  | putTemplate t =>
    obtain ⟨written, ht, -⟩ := heffect
    rw [ht, SortedMap.get?_insert, if_neg (Ne.symm h)]
  | _ => exact congrArg (·.get? place) heffect

/-- Others put no other request in the place of this one and leave its executions and its template
alone; they may change the specification, and the clock may be set. -/
def othersEdit (key : ObjectKey) (uid : String) : Surroundings where
  allows s deed := (othersLeave key uid).allows s deed ∧ deed.LeavesTemplate (templatePlace key)
  ticks _ _ := True

instance (key : ObjectKey) (uid : String) (s : MemoryStore) (deed : Deed) :
    Decidable ((othersEdit key uid).allows s deed) :=
  inferInstanceAs (Decidable (_ ∧ deed.LeavesTemplate (templatePlace key)))

instance (key : ObjectKey) (uid : String) (t t' : Instant) :
    Decidable ((othersEdit key uid).ticks t t') := .isTrue trivial

/-! ## The invariant -/

/-- Where the execution with number `n` is found that a change of the specification starts. -/
def buildPlace (key : ObjectKey) (n : Int) : ObjectKey :=
  ⟨key.namespace, plainExecutionName key.name n⟩

/-- What holds while one worker makes passes. -/
structure Worker (key : ObjectKey) (uid : String) (s : System Unit fun _ => Unit) : Prop where
  numbered : ∃ r m, Numbered key uid s r m
  keyed : s.TemplatesKeyed
  /-- the template is as it was shown just now -/
  shown : ∀ {act before spec}, s.acts () = act :: before →
    act.shown? = some (templatePlace key, spec) →
    ∃ t, s.store.templates.get? (templatePlace key) = some t ∧ t.spec = spec

variable {key : ObjectKey} {uid : String} {store : MemoryStore} {now : Instant}
  {settings : List ControllerSettings} {s : System Unit fun _ => Unit}

/-- **The run lemma**: the invariant holds in every state that is reached. -/
theorem worker_of_reaches (hinserted : Inserted store key uid)
    (hrun : Reaches (othersEdit key uid) (startPasses key settings store now) s) :
    Worker key uid s := by
  refine hrun.induction (J := Worker key uid) (obeys_startPasses key settings store now) ?_ ?_ ?_ ?_
  · refine ⟨numbered_start hinserted now _, ⟨hinserted.made.wellKeyed, ?_⟩,
      fun hacts => nomatch hacts⟩
    exact fun h => absurd h List.not_mem_nil
  · rintro s ⟨⟩ act rest t - ⟨⟨r, m, hnumbered⟩, hkeyed, -⟩ hanswer ⟨policy, hduty⟩
    refine ⟨hnumbered.acted hanswer hduty rest, hkeyed.acted hanswer rest, fun hacts hshown => ?_⟩
    -- the last act is the one that was just done
    rw [acts_acted_self] at hacts
    obtain ⟨rfl, -⟩ := List.cons.inj hacts
    exact hanswer.templateEffect.shown hshown
  · rintro s deed - ⟨⟨r, m, hnumbered⟩, hkeyed, hshown⟩ ⟨hothers, htemplate⟩
    refine ⟨hnumbered.did hothers, hkeyed.did deed, fun hacts hact => ?_⟩
    rw [store_did, htemplate.kept]
    exact hshown hacts hact
  · rintro s now - ⟨⟨r, m, hnumbered⟩, hkeyed, hshown⟩ -
    exact ⟨⟨r, m, hnumbered.ticked now⟩, ⟨hkeyed.store, hkeyed.told⟩, hshown⟩

/-! ## Creations -/

/-- The event creates the execution under `q` while the template of the request under `key` says
this. -/
def Event.CreatesFrom {ι : Type} (key q : ObjectKey) (snapshot : BuildSnapshot) (e : Event ι) :
    Prop :=
  e.creates q = true ∧ ∃ t ∈ e.before.templates.get? (templatePlace key), t.spec.snapshot = snapshot

instance {ι : Type} (key q : ObjectKey) (snapshot : BuildSnapshot) (e : Event ι) :
    Decidable (e.CreatesFrom key q snapshot) := inferInstanceAs (Decidable (_ ∧ _))

/-- When a pass may create an execution, the template says what the request says that the pass had
read. -/
theorem Worker.template (h : Worker key uid s) {b : SpecBuild} (hb : b.Admitted key (s.acts ())) :
    s.Stored key b.request ∧ ∃ t, s.store.templates.get? (templatePlace key) = some t ∧
      t.spec.snapshot = b.request.spec.snapshot := by
  obtain ⟨r, m, hnumbered⟩ := h.numbered
  have hderives := hb.templated.derives hnumbered.versioned hnumbered.informed h.keyed
    List.suffix_rfl
  obtain ⟨act, before, strategy, hacts, hread, hshown⟩ := hderives
  obtain ⟨t, ht, hspec⟩ := h.shown hacts hshown
  refine ⟨hnumbered.informed () key _ ?_, t, ht, by rw [hspec, BuildTemplate.snapshot_specFor]⟩
  rw [hacts]
  exact List.mem_cons_of_mem _ hread

/-- The execution with a number that a change of the specification starts was created while the
template said what some request said that was stored. -/
theorem Worker.creation (h : Worker key uid s) {policy : TriggerPolicy} {x w : BuildExecution}
    {n : Int} (hduty : controllerDuty policy key (s.acts ()) (.createExecution x (.ok w)))
    (hkey : x.key = buildPlace key n) :
    ∃ r₀ t, s.Stored key r₀ ∧ s.store.templates.get? (templatePlace key) = some t ∧
      t.spec.snapshot = r₀.spec.snapshot := by
  obtain ⟨r, m, hnumbered⟩ := h.numbered
  rcases hduty with ⟨f, hf, hx⟩ | ⟨b, hb, hx⟩
  · -- the executions of pushes have other names
    obtain ⟨-, -, hdesired⟩ := hnumbered.firing hf List.suffix_rfl
    have hname := congrArg ObjectKey.name (hkey.symm.trans (hdesired hx).1)
    exact absurd hname (plainExecutionName_ne_onCommit _ _ _)
  · obtain ⟨hstored, t, ht, hsnapshot⟩ := h.template hb
    exact ⟨b.request, t, hstored, ht, hsnapshot⟩

/-! ## Records -/

/-- **What a write records of builds**: nothing new, or an execution that was started for a push, or
a specification as built by the execution that a pass started for it. -/
theorem Rewrites.built {policy : TriggerPolicy} {acts : List Act} {r : BuildRequest}
    {status : BuildRequestStatus} (h : Rewrites policy key acts r status) :
    (status.lastBuildRunRef = r.statusOrDefault.lastBuildRunRef ∧
      status.lastBuildSpec = r.statusOrDefault.lastBuildSpec) ∨
    (∃ f : Firing, ∃ time, f.Recordable policy key time acts ∧
      status.lastBuildRunRef = some f.execution) ∨
    ∃ b x admitted started, SpecBuild.Admitted key b admitted ∧ b.desired = .ok x ∧
      Started b.request x admitted started ∧ started <:+ acts ∧
      status.lastBuildRunRef = some b.execution ∧
      status.lastBuildSpec = some b.request.spec.snapshot := by
  cases h.buildChange with
  | unrelated href hspec _ => exact Or.inl ⟨href, hspec⟩
  | fire f hf _ _ href _ _ => exact Or.inr (Or.inl ⟨f, _, hf, href⟩)
  -- a pass records what it has built
  | build b hb hstatus =>
    obtain ⟨x, admitted, started, hadmitted, hx, hstarted, hacts⟩ := hb
    obtain rfl := Option.some.inj hstatus
    exact Or.inr (Or.inr ⟨b, x, admitted, started, hadmitted, hx, hstarted, hacts, rfl, rfl⟩)

/-- The execution that a pass created, or found, was created while the template said what the
request said that the pass had read; or the pass found it, and the template said what some request
said. -/
theorem creation_of_started (hinserted : Inserted store key uid)
    (hrun : Reaches (othersEdit key uid) (startPasses key settings store now) s) {b : SpecBuild}
    {x : BuildExecution} {admitted started : List Act} (hb : b.Admitted key admitted)
    (hx : b.desired = .ok x) (hstarted : Started b.request x admitted started)
    (hacts : started <:+ s.acts ()) :
    ∃ c ∈ s.log, c.CreatesFrom key x.key b.request.spec.snapshot ∨
      Adopted x.key (s.acts ()) ∧
        ∃ r₀, s.Stored key r₀ ∧ c.CreatesFrom key x.key r₀.spec.snapshot := by
  cases hstarted with
  | @created w =>
    obtain ⟨later, c, earlier, s₁, hlog, hcause, h₁, rfl⟩ :=
      hrun.moment_act (obeys_startPasses key settings store now) rfl hacts
    obtain ⟨-, t, ht, hsnapshot⟩ := (worker_of_reaches hinserted h₁.reaches).template hb
    have hcreates : c.creates x.key = true := Event.creates_iff.mpr ⟨(), x, w, hcause, rfl⟩
    refine ⟨c, ?_, Or.inl ⟨hcreates, t, h₁.store_eq ▸ ht, hsnapshot⟩⟩
    rw [hlog]
    exact List.mem_append_right _ List.mem_cons_self
  | @adopted y uid' name kind huid howned =>
    obtain ⟨r, m, hnumbered⟩ := (worker_of_reaches hinserted hrun).numbered
    have hadmitted : admitted <:+ s.acts () := List.IsSuffix.trans ⟨[_, _], rfl⟩ hacts
    obtain ⟨hplace, -⟩ := hnumbered.specBuild hb hadmitted hx
    -- what was found is the request's, so some event created it
    have hread : s.Stored key b.request := hnumbered.specRead hb hadmitted
    obtain rfl : uid = uid' := Option.some.inj ((hnumbered.uid_eq hread).symm.trans huid)
    obtain ⟨y', hy', halike⟩ := hnumbered.kept.found (hacts.mem List.mem_cons_self) howned
    obtain ⟨c, hc, hcreates⟩ := hnumbered.kept.created hy' (halike.belongsTo.mpr howned)
    obtain ⟨later, earlier, hlog⟩ := List.append_of_mem hc
    obtain ⟨⟨⟩, x', w, hcause, hkey⟩ := Event.creates_iff.mp hcreates
    obtain ⟨s₁, h₁⟩ := hrun.moment (obeys_startPasses key settings store now) rfl hlog
    obtain ⟨-, policy, hduty⟩ := h₁.act () _ hcause
    obtain ⟨r₀, t, hr₀, ht, hsnapshot⟩ :=
      (worker_of_reaches hinserted h₁.reaches).creation hduty (hkey.trans hplace)
    exact ⟨c, hc, Or.inr ⟨⟨x, y, kind, name, admitted, rfl, hacts⟩, r₀, h₁.stored hlog hr₀,
      hcreates, t, h₁.store_eq ▸ ht, hsnapshot⟩⟩

/-- **What is recorded as built.**  One worker makes passes over a request, with whatever settings,
and others may change its specification; any calls may fail, and reads of the request may be
answered with what was stored earlier.  When an execution that a change of the specification starts
is recorded, or another specification as built by it, then exactly one event created that execution,
and before; and either the template had the address, the revision and the image that are recorded
then, or the pass that records it did not create the execution but found it, and the template had
those of another request that was stored. -/
theorem build_recorded (hinserted : Inserted store key uid)
    (hrun : Reaches (othersEdit key uid) (startPasses key settings store now) s)
    {later earlier : List (Event Unit)} {e : Event Unit} (hlog : s.log = later ++ e :: earlier)
    {r r' : BuildRequest} (hr : e.before.requests.get? key = some r)
    (hr' : e.after.requests.get? key = some r') {n : Int}
    (hexecution : r'.statusOrDefault.lastBuildRunRef = some (plainExecutionName key.name n))
    (hnew : r'.statusOrDefault.lastBuildRunRef ≠ r.statusOrDefault.lastBuildRunRef ∨
      r'.statusOrDefault.lastBuildSpec ≠ r.statusOrDefault.lastBuildSpec) :
    ∃ snapshot, r'.statusOrDefault.lastBuildSpec = some snapshot ∧
      ∃ c ∈ earlier, (∀ c' ∈ s.log, c'.creates (buildPlace key n) = true → c' = c) ∧
        (c.CreatesFrom key (buildPlace key n) snapshot ∨
          Adopted (buildPlace key n) (actsOf () earlier) ∧
            ∃ r₀, s.Stored key r₀ ∧ c.CreatesFrom key (buildPlace key n) r₀.spec.snapshot) := by
  obtain ⟨s₁, h₁⟩ := hrun.moment (obeys_startPasses key settings store now) rfl hlog
  obtain ⟨r₁, m, hnumbered⟩ := (worker_of_reaches hinserted h₁.reaches).numbered
  have hchanged : r'.statusOrDefault ≠ r.statusOrDefault := by
    intro heq
    rcases hnew with hnew | hnew <;> exact hnew (heq ▸ rfl)
  obtain ⟨⟨⟩, act, hcause, ⟨policy, hduty⟩, hrewrites⟩ :=
    h₁.status_changed hnumbered.versioned hnumbered.informed (fun _ h => h.1.1) hr hr' hchanged
  rcases (hrewrites policy hduty).built with ⟨href, hspec⟩ | ⟨f, time, hf, href⟩ |
    ⟨b, x, admitted, started, hb, hx, hstarted, hacts, href, hspec⟩
  · rcases hnew with hnew | hnew
    · exact absurd href hnew
    · exact absurd hspec hnew
  · -- the execution of a push has another name
    rw [(hnumbered.recordable hf).1, hexecution] at href
    exact absurd (Option.some.inj href) (plainExecutionName_ne_onCommit _ _ _)
  · have hplace : x.key = buildPlace key n := by
      obtain ⟨hplace, -⟩ := hnumbered.specBuild hb (hstarted.suffix.trans hacts) hx
      have hname : plainExecutionName key.name b.counter = b.execution :=
        congrArg ObjectKey.name (hplace.symm.trans (desired_eq hx).1)
      rw [hplace, buildPlace, hname, Option.some.inj (href.symm.trans hexecution)]
    obtain ⟨c, hc, hfrom⟩ := creation_of_started hinserted h₁.reaches hb hx hstarted hacts
    rw [hplace] at hfrom
    have hearlier : c ∈ earlier := h₁.log_eq ▸ hc
    have hcreates : c.creates (buildPlace key n) = true := by
      rcases hfrom with hfrom | ⟨-, r₀, -, hfrom⟩ <;> exact hfrom.1
    refine ⟨_, hspec, c, hearlier, fun c' hc' hcreates' => ?_, hfrom.imp id ?_⟩
    · obtain ⟨r₂, m₂, hnumbered₂⟩ := (worker_of_reaches hinserted hrun).numbered
      refine eq_of_countP_le_one (hnumbered₂.kept.once _) hc' ?_ hcreates' hcreates
      rw [hlog]
      exact List.mem_append_right _ (List.mem_cons_of_mem _ hearlier)
    · rintro ⟨hadopted, r₀, hr₀, hfrom⟩
      rw [System.acts, h₁.log_eq] at hadopted
      exact ⟨hadopted, r₀, h₁.stored hlog hr₀, hfrom⟩

/-! ## Runs -/

/-- Two passes before the first call of the first one. -/
def twoPasses : System Unit fun _ => Unit := startPasses appKey [{}, {}] plainStore (secondsIn 1)

/-- Its request was inserted without status, and there are no executions. -/
theorem plainStore_inserted : Inserted plainStore appKey "uid-1" where
  made := plainStore_made
  request := ⟨(plainStore.requests.get? appKey).getD {}, by decide +kernel⟩
  free _ _ h := by cases h

/-- The first pass creates an execution, and records what it builds. -/
def builtAtOnce : List (Choice Unit) := List.replicate 8 (.serve ())

/-- The execution was created while the template said what is recorded, or else it was found. -/
theorem build_recorded_at_once :
    ∃ e earlier, (twoPasses.play builtAtOnce).log = e :: earlier ∧
      ∃ c ∈ earlier, c.CreatesFrom appKey (buildPlace appKey 1) ⟨"u", "main", "i"⟩ ∨
        Adopted (buildPlace appKey 1) (actsOf () earlier) ∧
          ∃ r₀, (twoPasses.play builtAtOnce).Stored appKey r₀ ∧
            c.CreatesFrom appKey (buildPlace appKey 1) r₀.spec.snapshot := by
  -- the last event of the run is the write that records the execution
  obtain ⟨hpermits, e, he, r, hr, r', hr', hexecution, hnew, hspec⟩ :
      Permits (othersEdit appKey "uid-1") twoPasses builtAtOnce ∧
      ∃ e ∈ (twoPasses.play builtAtOnce).log.head?, ∃ r ∈ e.before.requests.get? appKey,
        ∃ r' ∈ e.after.requests.get? appKey,
        r'.statusOrDefault.lastBuildRunRef = some (plainExecutionName appKey.name 1) ∧
        r'.statusOrDefault.lastBuildRunRef ≠ r.statusOrDefault.lastBuildRunRef ∧
        r'.statusOrDefault.lastBuildSpec = some ⟨"u", "main", "i"⟩ := by
    decide +kernel
  obtain ⟨earlier, hlog⟩ := List.head?_eq_some_iff.mp he
  have hlast : (twoPasses.play builtAtOnce).log = [] ++ e :: earlier := hlog
  obtain ⟨snapshot, hsnapshot, c, hc, -, hfrom⟩ :=
    build_recorded plainStore_inserted (reaches_play builtAtOnce hpermits) hlast hr hr' hexecution
      (Or.inl hnew)
  obtain rfl := Option.some.inj (hspec.symm.trans hsnapshot)
  exact ⟨e, earlier, hlog, c, hc, hfrom⟩

/-- The execution that the first pass creates is not recorded; then the specification changes, and
the second pass finds the execution and records it. -/
def recordedLate : List (Choice Unit) :=
  List.replicate 7 (.serve ()) ++
    [.fail () (.backend "gone"), .deed (.updateSpec appKey releaseSpec)] ++
    List.replicate 9 (.serve ())

/-- A specification is recorded as built by an execution that was created while the template had
another revision. -/
theorem earlier_build_recorded :
    Inserted plainStore appKey "uid-1" ∧
    ∃ s, Reaches (othersEdit appKey "uid-1") (startPasses appKey [{}, {}] plainStore
      (secondsIn 1)) s ∧
      ∃ e ∈ s.log, ∃ r ∈ e.before.requests.get? appKey, ∃ r' ∈ e.after.requests.get? appKey,
        r'.statusOrDefault.lastBuildSpec ≠ r.statusOrDefault.lastBuildSpec ∧
        ∃ snapshot ∈ r'.statusOrDefault.lastBuildSpec, ∃ name ∈ r'.statusOrDefault.lastBuildRunRef,
        ∃ c ∈ s.log, c.creates ⟨"default", name⟩ = true ∧
          ¬ c.CreatesFrom appKey ⟨"default", name⟩ snapshot := by
  obtain ⟨hpermits, hrecorded⟩ :
      Permits (othersEdit appKey "uid-1") twoPasses recordedLate ∧
      ∃ e ∈ (twoPasses.play recordedLate).log, ∃ r ∈ e.before.requests.get? appKey,
        ∃ r' ∈ e.after.requests.get? appKey,
        r'.statusOrDefault.lastBuildSpec ≠ r.statusOrDefault.lastBuildSpec ∧
        ∃ snapshot ∈ r'.statusOrDefault.lastBuildSpec, ∃ name ∈ r'.statusOrDefault.lastBuildRunRef,
        ∃ c ∈ (twoPasses.play recordedLate).log, c.creates ⟨"default", name⟩ = true ∧
          ¬ c.CreatesFrom appKey ⟨"default", name⟩ snapshot := by
    decide +kernel
  exact ⟨plainStore_inserted, _, reaches_play recordedLate hpermits, hrecorded⟩

end PushBuild
