import PushBuild.Proofs.Image.Reference
import PushBuild.Proofs.Specification.Built
import PushBuild.Proofs.Store.Generation

/-!
# Which image is published

When an execution reports a digest, a pass publishes the image: the repository of the output image
together with the digest.  The execution pushed to the repository that the template named as the
execution was created.  The pass takes the repository from the specification as it stands when the
pass is about to end.

1. **Writes** (`ImageWrite`).  Of the ways to change a status only the projection publishes an
   image, and it made it of a request that it had read just before, and of the execution which that
   request names.
2. **Templates** (`template_shown`).  From the making of the template to the creation of an
   execution a pass does nothing about templates, so the template is as the pass made it
   (`creation_of_belongs`).
3. **Names** (`named_there`).  An execution that a request names is there, and is the request's.
4. **The result** (`published_image`).  The image has the repository of one request that was read,
   and the execution was created from another one, read no later.  Between the two the specification
   may have been changed; if it was not, the image is what was pushed.
5. **The other case.**  It happens: an image is published to which nothing was pushed
   (`unpushed_image_published`).
-/

namespace PushBuild

open PushBuild.System

/-! ## Images -/

/-- The execution reports this digest. -/
def BuildExecution.Reports (x : BuildExecution) (digest : List Char) : Prop :=
  digest ≠ [] ∧ x.digest?.map (fun d => Text.trimBlanks d.toList) = some digest

instance {x : BuildExecution} {digest : List Char} : Decidable (x.Reports digest) :=
  inferInstanceAs (Decidable (_ ∧ _))

/-- A digest that is reported pins the repository. -/
theorem resolveImage_of_reports {x : BuildExecution} {digest : List Char} (h : x.Reports digest)
    {reference image : String} (himage : resolveImage reference x.digest? = some image) :
    image = String.ofList (Image.repository reference ++ '@' :: digest) := by
  obtain ⟨hne, hreported⟩ := h
  obtain ⟨d, hd, rfl⟩ := Option.map_eq_some_iff.mp hreported
  have hnonblank : Text.isAllBlank d = false :=
    Bool.eq_false_iff.mpr fun hblank => hne (Text.isAllBlank_iff.mp hblank)
  rw [hd] at himage
  rw [← String.toList_inj, String.toList_ofList]
  exact ((resolveImage_some_iff hnonblank).mp himage).2

/-! ## Writes -/

/-- What a status write does to the image that is published, and on what grounds: nothing, or the
image was made of a request that was read and of the execution which that request names, as it was
found right after; and the status that is written names that execution too. -/
inductive ImageWrite (key : ObjectKey) (acts : List Act) (r : BuildRequest)
    (status : BuildRequestStatus) : Prop
  | unrelated (himage : status.latestImage = r.statusOrDefault.latestImage)
  | projected {k : ObjectKey} {p : BuildRequest} {name : String} {found : Option BuildExecution}
      {before : List Act} (hk : Known key acts k)
        (hname : p.statusOrDefault.lastBuildRunRef = some name)
      (hacts : .getExecution ⟨k.namespace, name⟩ (.ok found) :: .getRequest k
        (.ok (some p)) :: before <:+ acts)
      (himage : status.latestImage =
        resolveImage p.spec.output.image (found.bind BuildExecution.digest?))
      (hnames : status.lastBuildRunRef = some name)

/-- What a projection does to the image: nothing, or the image is the one that was computed for the
execution which the status names. -/
theorem image_projectedStatus (reference : String) (projection : Option Projection) (now : Instant)
    (r : BuildRequest) (status : BuildRequestStatus) :
    (projectedStatus reference projection now r status).latestImage = status.latestImage ∨
      ∃ q, projection = some q ∧ status.lastBuildRunRef = some q.execution ∧
        (projectedStatus reference projection now r status).latestImage = q.image := by
  unfold projectedStatus
  cases projection with
  | none => exact Or.inl rfl
  | some q =>
    simp only [Option.map_some, Option.getD_some, Projection.apply]
    split
    · -- the status still names the execution that was looked at
      next hname =>
      cases himage : q.image with
      | none => exact Or.inl rfl
      | some image => exact Or.inr ⟨q, rfl, hname, himage.symm⟩
    · exact Or.inl rfl

/-- **The duty**: executions are created when a template was made and nothing was done about
templates since, and what is written is written to what was just read, and says this of the
image. -/
def imageDuty (key : ObjectKey) : Duty := fun acts act =>
  match act with
  | .createExecution .. =>
    ∃ k r templated, Templated key k r templated ∧ TemplatesLeft templated acts
  | .updateRequestStatus request _ => ∃ k r status before,
    acts = .getRequest k (.ok (some r)) :: before ∧ request = r.restated status ∧
    ImageWrite key before r status
  | _ => True

section

variable {key k : ObjectKey} {acts : List Act}

/-- What is minor has nothing to do with images or executions, -/
theorem allowsMinor_imageDuty : AllowsMinor (imageDuty key) := by
  intro acts act h
  cases act <;> first
    | exact h.elim
    | trivial

/-- and a status write does the duty if what it says of the image is one of these two things. -/
theorem allowsChange_imageDuty {change : StatusChange}
    (h : ∀ r status, change r r.statusOrDefault = some status → ImageWrite key acts r status) :
    AllowsChange (imageDuty key) k acts change :=
  fun r status _ hchange => ⟨k, r, status, acts, rfl, rfl, h r status hchange⟩

/-- A pass does the duty.  Of its writes only the projection says anything about the image. -/
theorem allowsPass_imageDuty (policy : TriggerPolicy) (key : ObjectKey) :
    AllowsPass (imageDuty key) policy key where
  minor := allowsMinor_imageDuty
  correct _ _ := trivial
  createForSpec _ hb _ := ⟨_, _, _, hb.templated, .start⟩
  build _ _ _ _ := allowsChange_imageDuty fun r status h => by
    obtain rfl := Option.some.inj h
    exact .unrelated rfl
  createForPush _ _ _ htemplated hleft := ⟨_, _, _, htemplated, hleft⟩
  fire _ := allowsChange_imageDuty fun r status h => by
    obtain ⟨-, rfl⟩ := recordFire_eq_some h
    exact .unrelated rfl
  retire := allowsChange_imageDuty fun r status h => by
    obtain ⟨state, -, -, rfl⟩ := retirePushes_eq_some h
    exact .unrelated rfl
  project {_ _ _ _ reference projection time} htemplated hacts hprojected _ :=
    allowsChange_imageDuty fun r status h => by
      rw [eq_of_ofFunction h]
      rcases image_projectedStatus reference projection time r r.statusOrDefault with
        hsame | ⟨q, rfl, hname, himage⟩
      · exact .unrelated hsame
      · cases hprojected with
        -- what is projected is what was found of the execution that the request names
        | of hp hread =>
          refine .projected ((htemplated.known.mono hacts).read (hacts.mem htemplated.read)) hp
            hread himage ?_
          rw [projectedStatus_frame]
          exact hname
  failure _ := allowsChange_imageDuty fun r status h => by
    rw [eq_of_ofFunction h]
    exact .unrelated rfl

end

/-- Both duties of the worker. -/
def publisherDuty (key : ObjectKey) : Duty := fun acts act =>
  passesDuty key acts act ∧ imageDuty key acts act

/-- The worker does both duties from the start on. -/
theorem obeys_publisher (key : ObjectKey) (settings : List ControllerSettings) (store : MemoryStore)
    (now : Instant) :
    (startPasses key settings store now).Obeys (fun _ => publisherDuty key) fun _ _ _ => True :=
  fun _ => (passes_obeys key settings []).and
    (passes_keep (fun settings _ => keeps_reconcile (allowsPass_imageDuty settings.trigger key))
      settings [])

/-! ## Templates -/

/-- An act that is not about templates leaves them as they are. -/
theorem Act.TemplateEffect.left {act : Act} {s t : MemoryStore} (h : act.TemplateEffect s t)
    (hact : ¬ act.IsOfTemplate) : t.templates = s.templates := by
  cases act <;> first
    | exact absurd trivial hact
    | exact h

variable {key : ObjectKey} {uid : String} {store : MemoryStore} {now : Instant}
  {settings : List ControllerSettings} {s : System Unit fun _ => Unit}

/-- The template is as the worker was shown it, as long as the worker does nothing about templates.
Nobody else writes it; so each act of the worker since leaves it, and so do all deeds. -/
theorem template_shown (hrun : Reaches (othersEdit key uid) (startPasses key settings store now) s)
    {act : Act} {before : List Act} (hleft : TemplatesLeft (act :: before) (s.acts ()))
    {spec : BuildTemplateSpec} (hshown : act.shown? = some (templatePlace key, spec)) :
    ∃ t, s.store.templates.get? (templatePlace key) = some t ∧ t.spec = spec := by
  refine hrun.induction (J := fun s => TemplatesLeft (act :: before) (s.acts ()) →
      ∃ t, s.store.templates.get? (templatePlace key) = some t ∧ t.spec = spec)
    (obeys_startPasses key settings store now) ?_ ?_ ?_ (fun _ _ _ h _ => h) hleft
  · -- at first no template was shown
    intro hleft
    exact absurd (List.suffix_nil.mp hleft.suffix) (List.cons_ne_nil _ _)
  · rintro s ⟨⟩ act' rest t - ih hanswer - hleft
    rw [acts_acted_self] at hleft
    cases hleft with
    | start => exact hanswer.templateEffect.shown hshown
    | step hleft hact =>
      rw [store_acted, hanswer.templateEffect.left hact]
      exact ih hleft
  · -- others leave the template alone
    intro s deed _ ih hdeed hleft
    rw [store_did, hdeed.2.kept]
    exact ih hleft

/-! ## Names -/

/-- The execution that a program may record is there, and is the request's. -/
theorem BuildChange.there {r : BuildRequest} {m : Int} (hnumbered : Numbered key uid s r m)
    {policy : TriggerPolicy} {status : BuildRequestStatus}
    (h : BuildChange policy key (s.acts ()) r status) {name : String}
    (hname : status.lastBuildRunRef = some name) :
    r.statusOrDefault.lastBuildRunRef = some name ∨
      ∃ x, s.store.executions.get? ⟨key.namespace, name⟩ = some x ∧ x.BelongsTo uid := by
  cases h with
  | unrelated href _ _ => exact Or.inl (href ▸ hname)
  -- a start that may be recorded has its execution
  | fire f hf _ _ href _ _ =>
    obtain ⟨hexecution, hpos, hle⟩ := hnumbered.recordable hf
    obtain ⟨x, hx, howned, -⟩ := hnumbered.numbered hpos hle
    rw [Option.some.inj (hname.symm.trans href), hexecution]
    exact Or.inr ⟨x, hx, howned⟩
  -- and so has a build
  | build b hb hstatus =>
    obtain rfl := Option.some.inj hstatus
    obtain ⟨x, admitted, started, hadmitted, hx, hstarted, hacts⟩ := hb
    rw [← Option.some.inj hname]
    exact Or.inr
      (hnumbered.there (hnumbered.specRead hadmitted (hstarted.suffix.trans hacts)) hx hstarted
      hacts)

/-- An execution that a request names which was stored is there, and is the request's. -/
theorem named_there (hinserted : Inserted store key uid)
    (hrun : Reaches (othersEdit key uid) (startPasses key settings store now) s) {r : BuildRequest}
    (hr : s.Stored key r) {name : String} (hname : r.statusOrDefault.lastBuildRunRef = some name) :
    ∃ x, s.store.executions.get? ⟨key.namespace, name⟩ = some x ∧ x.BelongsTo uid := by
  refine hrun.induction (J := fun s => ∀ r, s.Stored key r →
      r.statusOrDefault.lastBuildRunRef = some name →
      ∃ x, s.store.executions.get? ⟨key.namespace, name⟩ = some x ∧ x.BelongsTo uid)
    (obeys_startPasses key settings store now) ?_ ?_ ?_ (fun _ _ _ h _ => h) r hr hname
  · rintro r ⟨t, ht, hr⟩ hname
    rw [List.mem_singleton.mp ht] at hr
    obtain ⟨r₀, hr₀, hstatus, -⟩ := hinserted.request
    obtain rfl := Option.some.inj (hr₀.symm.trans hr)
    rw [BuildRequest.statusOrDefault, hstatus] at hname
    cases hname
  · rintro s ⟨⟩ act rest t hrun ih hanswer ⟨policy, hduty⟩ r hr hname
    obtain ⟨r₁, m, hnumbered⟩ := (worker_of_reaches hinserted hrun).numbered
    -- what was there before is still there
    obtain ⟨x, hx, howned⟩ : ∃ x, s.store.executions.get? ⟨key.namespace, name⟩ = some x ∧
        x.BelongsTo uid := by
      rcases (stored_cons rfl).mp hr with hnow | hbefore
      · obtain ⟨r', hr', hcases⟩ := request_of_duty hnumbered.versioned hnumbered.informed
          hnumbered.current hanswer hduty
        obtain rfl := Option.some.inj (hr'.symm.trans hnow)
        have hcurrent := ih r₁ (stored_of_get? hnumbered.current)
        rcases hcases with rfl | ⟨_, _, _, rfl⟩ | ⟨status, n, rfl, hrewrites⟩
        · exact hcurrent hname
        · exact hcurrent hname
        · rcases hrewrites.buildChange.there hnumbered hname with hsame | hthere
          · exact hcurrent hsame
          · exact hthere
      · exact ih r hbefore hname
    exact ⟨x, hanswer.executionEffect.kept hx, howned⟩
  · intro s deed hrun ih hdeed r hr hname
    obtain ⟨r₁, m, hnumbered⟩ := (worker_of_reaches hinserted hrun).numbered
    obtain ⟨x, hx, howned⟩ : ∃ x, s.store.executions.get? ⟨key.namespace, name⟩ = some x ∧
        x.BelongsTo uid := by
      rcases (stored_cons rfl).mp hr with hnow | hbefore
      · obtain ⟨r', hr', hcases⟩ := Deed.request hnumbered.current hdeed.1.1
        obtain rfl := Option.some.inj (hr'.symm.trans hnow)
        have hcurrent := ih r₁ (stored_of_get? hnumbered.current)
        rcases hcases with rfl | ⟨_, _, _, rfl⟩ | ⟨_, _, -, rfl⟩ <;> exact hcurrent hname
      · exact ih r hbefore hname
    obtain ⟨x', hx', halike⟩ := Deed.executions_kept hdeed.1.2 hx howned
    exact ⟨x', hx', halike.belongsTo.mpr howned⟩

/-! ## Creations -/

/-- A moment of a run of the worker. -/
abbrev WorkerMoment (key : ObjectKey) (uid : String) (settings : List ControllerSettings)
    (store : MemoryStore) (now : Instant) :=
  Moment (othersEdit key uid) (startPasses key settings store now) fun _ => publisherDuty key

/-- The worker created every execution of the request, each when the template said what a request
says that the worker had read, and in a place that was free. -/
theorem creation_of_belongs (hinserted : Inserted store key uid)
    (hrun : Reaches (othersEdit key uid) (startPasses key settings store now) s) {q : ObjectKey}
    {x : BuildExecution} (hx : s.store.executions.get? q = some x) (howned : x.BelongsTo uid) :
    ∃ later c earlier s₁ b, s.log = later ++ c :: earlier ∧
      WorkerMoment key uid settings store now c earlier s₁ ∧
      s₁.store.executions.get? q = none ∧ s₁.Stored key b ∧
      c.CreatesFrom key q b.spec.snapshot := by
  obtain ⟨r, m, hnumbered⟩ := (worker_of_reaches hinserted hrun).numbered
  obtain ⟨c, hc, hcreates⟩ := hnumbered.kept.created hx howned
  obtain ⟨later, earlier, hlog⟩ := List.append_of_mem hc
  obtain ⟨⟨⟩, e, w, hcause, hkey⟩ := Event.creates_iff.mp hcreates
  obtain ⟨s₁, h₁⟩ := hrun.moment (obeys_publisher key settings store now) rfl hlog
  obtain ⟨hanswer, -, k, b, templated, htemplated, hleft⟩ := h₁.act () _ hcause
  have hworker := worker_of_reaches hinserted h₁.reaches
  obtain ⟨r₁, m₁, hnumbered₁⟩ := hworker.numbered
  have hderives := htemplated.derives hnumbered₁.versioned hnumbered₁.informed hworker.keyed
    hleft.suffix
  obtain ⟨act, before, strategy, rfl, hread, hshown⟩ := hderives
  obtain ⟨t, ht, hspec⟩ := template_shown h₁.reaches hleft hshown
  refine ⟨later, c, earlier, s₁, b, hlog, h₁, hkey ▸ hanswer.executionEffect.1, ?_, hcreates, t,
    h₁.store_eq ▸ ht, by rw [hspec, BuildTemplate.snapshot_specFor]⟩
  exact hnumbered₁.informed () key b (hleft.suffix.mem (List.mem_cons_of_mem _ hread))

/-- An execution that a request names which was stored was created by an event, when the template
said what a request says that is of no later generation. -/
theorem creation_of_named (hinserted : Inserted store key uid)
    (hrun : Reaches (othersEdit key uid) (startPasses key settings store now) s) {p : BuildRequest}
    (hp : s.Stored key p) {name : String} (hname : p.statusOrDefault.lastBuildRunRef = some name) :
    ∃ b : BuildRequest, ∃ c ∈ s.log, c.CreatesFrom key ⟨key.namespace, name⟩ b.spec.snapshot ∧
      b.generation ≤ p.generation ∧ (b.generation = p.generation → b.spec = p.spec) := by
  obtain ⟨x, hx, howned⟩ := named_there hinserted hrun hp hname
  obtain ⟨later, c, earlier, s₁, b, hlog, h₁, hnone, hb, hcreates⟩ :=
    creation_of_belongs hinserted hrun hx howned
  obtain ⟨first, hfirst, -⟩ := hinserted.request
  obtain ⟨r, hgenerations⟩ := hrun.generations hfirst fun _ _ h => h.1.1
  -- before the execution was created no request named it
  have hnew : ¬ s₁.Stored key p := fun hp => by
    obtain ⟨x, hx, -⟩ := named_there hinserted h₁.reaches hp hname
    cases hx.symm.trans hnone
  refine ⟨b, c, ?_, hcreates, ?_, fun hsame => hgenerations.spec_eq (h₁.stored hlog hb) hp hsame⟩
  · rw [hlog]
    exact List.mem_append_right _ List.mem_cons_self
  · exact hrun.generation_le hfirst (fun _ _ h => h.1.1) (h₁.past hlog) hb hp hnew

/-- The execution that a request names which the worker had read is found when it is looked for,
since executions of the request are not deleted. -/
theorem found_of_named (hinserted : Inserted store key uid)
    (hrun : Reaches (othersEdit key uid) (startPasses key settings store now) s)
    {p : BuildRequest} {name : String} (hname : p.statusOrDefault.lastBuildRunRef = some name)
    {found : Option BuildExecution} {before : List Act}
    (hacts : .getExecution ⟨key.namespace, name⟩ (.ok found) :: .getRequest key
      (.ok (some p)) :: before <:+ s.acts ()) : ∃ x, found = some x := by
  obtain ⟨later, e, earlier, s₁, -, hcause, h₁, hbefore⟩ :=
    hrun.moment_act (obeys_publisher key settings store now) rfl hacts
  obtain ⟨r, m, hnumbered⟩ := (worker_of_reaches hinserted h₁.reaches).numbered
  have hp : s₁.Stored key p := by
    refine hnumbered.informed () key p ?_
    rw [hbefore]
    exact List.mem_cons_self
  obtain ⟨x, hx, -⟩ := named_there hinserted h₁.reaches hp hname
  exact ⟨x, (h₁.act () _ hcause).1.executionEffect.1.trans hx⟩

/-! ## The result -/

/-- **Where an image that is published comes from.**  One worker makes passes over a request, with
whatever settings, and others may change its specification and report on its executions; any calls
may fail, and reads of the request may be answered with what was stored earlier.  When another image
is published, the worker had read a request `p` and found the execution that it names, which the
status names still, and the image has the repository of the output image of `p`, and the digest that
the execution reports.  Exactly one event created that execution, and before; and the template had
the output image of a request `b` then, which is of no later generation than `p`, and has the
specification of `p` if it is of the same one. -/
theorem published_image (hinserted : Inserted store key uid)
    (hrun : Reaches (othersEdit key uid) (startPasses key settings store now) s)
    {later earlier : List (Event Unit)} {e : Event Unit} (hlog : s.log = later ++ e :: earlier)
    {r r' : BuildRequest} (hr : e.before.requests.get? key = some r)
    (hr' : e.after.requests.get? key = some r') {image : String}
    (himage : r'.statusOrDefault.latestImage = some image)
    (hnew : r.statusOrDefault.latestImage ≠ some image) :
    ∃ (name : String) (p : BuildRequest) (x : BuildExecution) (before : List Act),
      r'.statusOrDefault.lastBuildRunRef = some name ∧
      p.statusOrDefault.lastBuildRunRef = some name ∧
      .getExecution ⟨key.namespace, name⟩ (.ok (some x)) :: .getRequest key
        (.ok (some p)) :: before <:+
        actsOf () earlier ∧
      resolveImage p.spec.output.image x.digest? = some image ∧
      (∀ digest, x.Reports digest →
        image = String.ofList (Image.repository p.spec.output.image ++ '@' :: digest)) ∧
      ∃ b : BuildRequest, ∃ c ∈ earlier,
        (∀ c' ∈ s.log, c'.creates ⟨key.namespace, name⟩ = true → c' = c) ∧
        c.CreatesFrom key ⟨key.namespace, name⟩ b.spec.snapshot ∧
        b.generation ≤ p.generation ∧ (b.generation = p.generation → b.spec = p.spec) := by
  obtain ⟨s₁, h₁⟩ := hrun.moment (obeys_publisher key settings store now) rfl hlog
  obtain ⟨r₁, m, hnumbered⟩ := (worker_of_reaches hinserted h₁.reaches).numbered
  have hchanged : r'.statusOrDefault ≠ r.statusOrDefault := fun hsame => hnew (hsame ▸ himage)
  -- the event is a write to the request that was just read
  obtain ⟨⟨⟩, request, n, hcause, hkey, rfl, hanswer, -, k, r₀, status, before, hacts,
      rfl, hwrite⟩ :=
    h₁.status_written (fun _ h => h.1.1) hr hr' hchanged
  rw [← h₁.store_eq] at hr
  have hread : .getRequest k (.ok (some r₀)) ∈ s₁.acts () := by
    rw [hacts]
    exact List.mem_cons_self
  obtain ⟨rfl, rfl⟩ := hnumbered.versioned.written_to hnumbered.informed hr hread hkey hanswer
  cases hwrite with
  | unrelated hsame => exact absurd (hsame.symm.trans himage) hnew
  | @projected k' p name found before' hk hname hlooked hcomputed hnames =>
    have hbefore : before <:+ s₁.acts () := hacts ▸ List.suffix_cons _ _
    obtain rfl : k' = k := Known.eq_key hnumbered.versioned hnumbered.informed (hk.mono hbefore)
    have hlooked := hlooked.trans hbefore
    obtain ⟨x, rfl⟩ := found_of_named hinserted h₁.reaches hname hlooked
    have hresolved : resolveImage p.spec.output.image x.digest? = some image :=
      hcomputed.symm.trans himage
    have hp : s₁.Stored k' p :=
      hnumbered.informed () k' p (hlooked.mem (List.mem_cons_of_mem _ List.mem_cons_self))
    obtain ⟨b, c, hc, hcreates, hle, hspec⟩ := creation_of_named hinserted h₁.reaches hp hname
    rw [h₁.log_eq] at hc
    rw [System.acts, h₁.log_eq] at hlooked
    refine ⟨name, p, x, before', hnames, hname, hlooked, hresolved,
      fun digest hreports => resolveImage_of_reports hreports hresolved, b, c, hc,
      fun c' hc' hcreates' => ?_,
      hcreates, hle, hspec⟩
    obtain ⟨r₂, m₂, hnumbered₂⟩ := (worker_of_reaches hinserted hrun).numbered
    refine eq_of_countP_le_one (hnumbered₂.kept.once _) hc' ?_ hcreates' hcreates.1
    rw [hlog]
    exact List.mem_append_right _ (List.mem_cons_of_mem _ hc)

/-! ## Runs -/

/-- The report that a build succeeded, and pushed this. -/
def digestReport : BuildExecutionStatus where
  conditions := [{ type := Condition.succeeded, status := .true }]
  output := some { digest := some "sha256:0" }

/-- Another specification of the request, with another output image. -/
def otherImageSpec : BuildRequestSpec where
  source := { git := { url := "u", revision := "main" } }
  buildFile := .present
  output := { image := "j" }

/-- The first pass creates an execution, which reports a digest, and the second pass publishes its
image. -/
def pushedThenPublished : List (Choice Unit) :=
  List.flatten [List.replicate 13 (.serve ()), [.deed (.report (buildPlace appKey 1) digestReport)],
    List.replicate 9 (.serve ())]

/-- What was pushed is published. -/
theorem published_image_pushed :
    ∃ e earlier, (twoPasses.play pushedThenPublished).log = e :: earlier ∧
      ∃ (p : BuildRequest) (x : BuildExecution),
        p.statusOrDefault.lastBuildRunRef = some (plainExecutionName appKey.name 1) ∧
        resolveImage p.spec.output.image x.digest? = some "i@sha256:0" ∧
        ∃ b : BuildRequest, ∃ c ∈ earlier,
          c.CreatesFrom appKey (buildPlace appKey 1) b.spec.snapshot ∧
          b.generation ≤ p.generation := by
  -- the last event of the run is the write that publishes the image
  obtain ⟨hpermits, e, he, r, hr, r', hr', himage, hnew, hexecution⟩ :
      Permits (othersEdit appKey "uid-1") twoPasses pushedThenPublished ∧
      ∃ e ∈ (twoPasses.play pushedThenPublished).log.head?, ∃ r ∈ e.before.requests.get? appKey,
        ∃ r' ∈ e.after.requests.get? appKey,
        r'.statusOrDefault.latestImage = some "i@sha256:0" ∧
        r.statusOrDefault.latestImage ≠ some "i@sha256:0" ∧
        r'.statusOrDefault.lastBuildRunRef = some (plainExecutionName appKey.name 1) := by
    decide +kernel
  obtain ⟨earlier, hlog⟩ := List.head?_eq_some_iff.mp he
  have hlast : (twoPasses.play pushedThenPublished).log = [] ++ e :: earlier := hlog
  obtain ⟨name, p, x, -, hname, hp, -, hresolved, -, b, c, hc, -, hcreates, hle, -⟩ :=
    published_image plainStore_inserted (reaches_play pushedThenPublished hpermits) hlast hr
      hr' himage hnew
  obtain rfl := Option.some.inj (hexecution.symm.trans hname)
  exact ⟨e, earlier, hlog, p, x, hp, hresolved, b, c, hc, hcreates, hle⟩

/-- The second pass has found the template as it should be, and is about to read the request again
to say how things stand, when the output image changes. -/
def imageChanged : List (Choice Unit) :=
  List.flatten [List.replicate 13 (.serve ()), [.deed (.report (buildPlace appKey 1) digestReport)],
    List.replicate 4 (.serve ()), [.deed (.updateSpec appKey otherImageSpec)],
    List.replicate 5 (.serve ())]

/-- An image is published which has the digest that the execution reports, and has not the
repository that the template named as that execution was created. -/
theorem unpushed_image_published :
    Inserted plainStore appKey "uid-1" ∧
    "j@sha256:0" ≠ String.ofList (Image.repository "i" ++ '@' :: "sha256:0".toList) ∧
    ∃ s, Reaches (othersEdit appKey "uid-1") (startPasses appKey [{}, {}] plainStore
      (secondsIn 1)) s ∧
      ∃ e ∈ s.log, ∃ r ∈ e.before.requests.get? appKey, ∃ r' ∈ e.after.requests.get? appKey,
        r'.statusOrDefault.latestImage = some "j@sha256:0" ∧
        r.statusOrDefault.latestImage ≠ some "j@sha256:0" ∧
        r'.statusOrDefault.lastBuildRunRef = some (plainExecutionName appKey.name 1) ∧
        (∃ x ∈ e.before.executions.get? (buildPlace appKey 1), x.Reports "sha256:0".toList) ∧
        ∃ c ∈ s.log, c.CreatesFrom appKey (buildPlace appKey 1) ⟨"u", "main", "i"⟩ := by
  obtain ⟨hpermits, hpublished⟩ :
      Permits (othersEdit appKey "uid-1") twoPasses imageChanged ∧
      ∃ e ∈ (twoPasses.play imageChanged).log, ∃ r ∈ e.before.requests.get? appKey,
        ∃ r' ∈ e.after.requests.get? appKey,
        r'.statusOrDefault.latestImage = some "j@sha256:0" ∧
        r.statusOrDefault.latestImage ≠ some "j@sha256:0" ∧
        r'.statusOrDefault.lastBuildRunRef = some (plainExecutionName appKey.name 1) ∧
        (∃ x ∈ e.before.executions.get? (buildPlace appKey 1), x.Reports "sha256:0".toList) ∧
        ∃ c ∈ (twoPasses.play imageChanged).log,
          c.CreatesFrom appKey (buildPlace appKey 1) ⟨"u", "main", "i"⟩ := by
    decide +kernel
  exact ⟨plainStore_inserted, by decide +kernel, _, reaches_play imageChanged hpermits, hpublished⟩

end PushBuild
