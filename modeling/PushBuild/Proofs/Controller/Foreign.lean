import PushBuild.Proofs.Interleaving.Exchange
import PushBuild.Proofs.Specification.Shown
import PushBuild.Proofs.Status.Linear

/-!
# What belongs to others

In the places of its template and its executions a request may find what somebody else put there.
Whose it is is looked up by one call and the write is another, and between them anybody may write.
Yet nothing that belongs to someone else is ever touched.

1. **Templates.**  What a request makes of a template keeps the owners and the labels that it had,
   and belongs to the request (`BuildTemplate.corrected_of_converged`).
2. **The duty** (`templateDuty`).  Templates are replaced only by corrections, and every call of the
   controller keeps to that (`ControllerCall.obeys_templateDuty`).
3. **The store** (`System.Answers.correction`).  A replacement is refused unless the version is the
   one that was found, and one version has one template.  So the template that is replaced is the
   one whose owner was looked up: it was not somebody else's, and did not become so in between.
4. **Executions.**  A call only adds executions.  One that is there already is returned only if it
   is the request's (`create_runs`).
5. **The result** (`foreign_untouched`), for any number of calls for any requests among any other
   writers.
-/

namespace PushBuild

open PushBuild.System

/-! ## Templates -/

namespace BuildTemplate

/-- `t'` is what became of `t` when the request with this uid corrected it: nobody else controlled
`t`, its owners are kept, and its labels but for the one that names the request; and the request
controls `t'`. -/
structure Corrected (uid : String) (t t' : BuildTemplate) : Prop where
  notForeign : ∀ owner, Ownership.of t.metadata uid ≠ .foreign owner
  owners : t.metadata.owners <+: t'.metadata.owners
  labels : ∀ label, label ≠ buildRequestLabel → t'.metadata.label? label = t.metadata.label? label
  owned : Ownership.of t'.metadata uid = .owned

/-- Setting one label leaves the others. -/
theorem get?_withLabels_of_ne {labels : Option Labels} {label other value : String}
    (h : other ≠ label) :
    (withLabels labels (some (SortedMap.ofList [(label, value)]))).bind (·.get? other) =
      labels.bind (·.get? other) := by
  rw [withLabels_one]
  split
  · rfl
  · cases labels <;> simp [h]

/-- Converging leaves all labels but that of the request. -/
theorem label?_converged {r : BuildRequest} {strategy uid label : String}
    {existing desired updated : BuildTemplate}
    (hdesired : BuildTemplate.desired r strategy = .ok desired)
    (h : existing.converged desired uid = .ok updated) (hne : label ≠ buildRequestLabel) :
    updated.metadata.label? label = existing.metadata.label? label := by
  rw [Metadata.label?, (converged_eq h).1, (desired_eq hdesired).1]
  exact get?_withLabels_of_ne hne

/-- **What a request makes of a template** is a correction. -/
theorem corrected_of_converged {r : BuildRequest} {strategy uid : String}
    {existing desired updated : BuildTemplate}
    (hdesired : BuildTemplate.desired r strategy = .ok desired) (huid : r.uid = .ok uid)
    (h : existing.converged desired uid = .ok updated) :
    existing.Corrected uid updated := by
  have howned := converged_owned h ((desired_eq hdesired).2 uid huid)
  have hlabels := fun label (hne : label ≠ buildRequestLabel) => label?_converged hdesired h hne
  rcases owners_converged h with ⟨hexisting, howners⟩ | ⟨hnone, howners⟩
  · refine ⟨fun owner hforeign => ?_, howners ▸ List.prefix_rfl, hlabels, howned⟩
    cases hexisting.symm.trans hforeign
  · refine ⟨fun owner hforeign => ?_, howners ▸ List.prefix_append _ _, hlabels, howned⟩
    cases (Ownership.of_eq_unowned hnone).symm.trans hforeign

end BuildTemplate

/-! ## The duty -/

/-- Templates are replaced only by corrections of the request that was read last. -/
def templateDuty : Duty := fun acts act =>
  match act with
  | .replaceTemplate updated _ => ∃ r t, Correction r t updated acts
  | _ => True

/-- Of the small parts of a call none replaces a template. -/
theorem allowsMinor_templateDuty : AllowsMinor templateDuty := by
  intro acts act h
  cases act <;> first
    | exact h.elim
    | trivial

/-- An evaluation does the duty, -/
theorem allowsEvaluation_templateDuty (policy : TriggerPolicy) (key : ObjectKey) :
    AllowsEvaluation templateDuty policy key where
  looks := allowsMinor_templateDuty.looks
  createForPush _ _ _ := trivial
  fire _ _ _ _ _ := trivial

/-- and so does a pass. -/
theorem allowsPass_templateDuty (policy : TriggerPolicy) (key : ObjectKey) :
    AllowsPass templateDuty policy key where
  minor := allowsMinor_templateDuty
  correct _ h := ⟨_, _, h⟩
  createForSpec _ _ _ := trivial
  build _ _ _ _ _ _ _ _ := trivial
  createForPush _ _ _ _ _ := trivial
  fire _ _ _ _ _ := trivial
  retire _ _ _ _ := trivial
  project _ _ _ _ _ _ _ _ := trivial
  failure _ _ _ _ _ := trivial

/-- **Every call does its duty** about templates. -/
theorem ControllerCall.obeys_templateDuty (c : ControllerCall) (key : ObjectKey) :
    (c.program key).Obeys templateDuty (fun _ _ => True) [] := by
  cases c with
  | coordinate policy retry =>
    exact Program.Obeys.mono (fun _ _ _ => trivial)
      (keeps_coordinate (allowsEvaluation_templateDuty policy key) .given)
  | reconcile settings =>
    exact Program.Obeys.mono (fun _ _ _ => trivial)
      (keeps_reconcile (allowsPass_templateDuty settings.trigger key))
  | accept delivery retry providers =>
    exact Program.Obeys.mono (fun _ _ _ => trivial)
      (keeps_accept ⟨allowsMinor_templateDuty, fun _ _ _ _ _ _ => trivial⟩)

/-! ## The store -/

section

variable {ι : Type} {ρ : ι → Type} [DecidableEq ι] {s : System ι ρ} {i : ι} {act : Act}
  {t : MemoryStore}

/-- **The step.**  An act that does the duty leaves a template as it is, or corrects it for the
request that was read last. -/
theorem System.Answers.correction (hanswer : s.Answers act t) (hduty : templateDuty (s.acts i) act)
    (hkeyed : s.TemplatesKeyed) (hdated : s.TemplatesDated) {place : ObjectKey} {x : BuildTemplate}
    (hx : s.store.templates.get? place = some x) :
    t.templates.get? place = some x ∨ ∃ r uid x', lastRead? (s.acts i) = some r ∧
      r.metadata.uid = some uid ∧ t.templates.get? place = some x' ∧ x.Corrected uid x' := by
  have heffect := hanswer.templateEffect
  have hsame : t.templates = s.store.templates → t.templates.get? place = some x := fun h => h ▸ hx
  cases act with
  | createTemplate template answer =>
    cases answer with
    | error e => exact Or.inl (hsame heffect)
    | ok w =>
      obtain ⟨hnone, ht, -⟩ := heffect
      have hne : place ≠ template.key := by
        rintro rfl
        exact nomatch hx.symm.trans hnone
      exact Or.inl (by rw [ht, SortedMap.get?_insert, if_neg hne, hx])
  | replaceTemplate updated answer =>
    cases answer with
    | error e => exact Or.inl (hsame heffect)
    | ok w =>
      obtain ⟨r, existing, strategy, desired, uid, before, hdesired, huid, hupdated, hlast,
          hacts⟩ := hduty
      obtain ⟨stored, hstored, hversion, ht, -, hw⟩ := heffect
      by_cases hplace : place = updated.key
      · have hfound : .getTemplate desired.key (.ok (some existing)) ∈ s.acts i :=
          hacts ▸ List.mem_cons_self
        -- the template that is replaced has the version of the one that was found
        have hkey : updated.key = desired.key :=
          (BuildTemplate.key_converged hupdated).trans (hkeyed.told hfound)
        rw [(BuildTemplate.converged_eq hupdated).2.2] at hversion
        obtain rfl : stored = existing := hdated.eq_of_version hfound (hkey ▸ hstored) hversion
        obtain rfl : stored = x := Option.some.inj (hstored.symm.trans (hplace ▸ hx))
        obtain ⟨hforeign, howners, hlabels, howned⟩ :=
          BuildTemplate.corrected_of_converged hdesired huid hupdated
        refine Or.inr ⟨r, uid, w, ?_, BuildRequest.uid_eq_ok.mp huid, ?_, ?_⟩
        · rw [hacts]
          exact hlast
        · rw [ht, SortedMap.get?_insert, if_pos hplace]
        · rw [hw]
          exact ⟨hforeign, howners, hlabels, howned⟩
      · exact Or.inl (by rw [ht, SortedMap.get?_insert, if_neg hplace, hx])
  | getTemplate key answer =>
    cases answer with
    | error e => exact Or.inl (hsame heffect)
    | ok found => exact Or.inl (hsame heffect.2)
  | _ => exact Or.inl (hsame heffect)

end

/-! ## Executions -/

/-- Whoever does not control a resource is told who does. -/
theorem Ownership.ensure_eq_error {kind : ResourceKind} {m : Metadata} {uid : String}
    {e : BuildError} (h : Ownership.ensure kind m uid = .error e) :
    Ownership.of m uid ≠ .owned ∧ e = .ownedByOther kind m.anyName (Ownership.of m uid).owner := by
  unfold Ownership.ensure at h
  split at h
  · cases h
  · next hne => exact ⟨hne, (Except.error.inj h).symm⟩

/-- How a start of an execution ends, and after which acts. -/
inductive CreateEnds (r : BuildRequest) (name trigger : String) :
    Except BuildError BuildExecution → List Act → Prop
  /-- a request without a name or a uid starts nothing -/
  | unnamed {error : BuildError} (hdesired : BuildExecution.desired r name trigger = .error error) :
      CreateEnds r name trigger (.error error) []
  | created {e x : BuildExecution} (hdesired : BuildExecution.desired r name trigger = .ok e) :
      CreateEnds r name trigger (.ok x) [.createExecution e (.ok x)]
  | refused {e : BuildExecution} {error : StoreError}
      (hother : ∀ kind name, error ≠ .alreadyExists kind name) :
      CreateEnds r name trigger (.error (.store error)) [.createExecution e (.error error)]
  | unread {e : BuildExecution} {error : StoreError} {kind : ResourceKind} {other : String} :
      CreateEnds r name trigger (.error (.store error))
        [.getExecution ⟨r.namespace, name⟩ (.error error),
        .createExecution e (.error (.alreadyExists kind other))]
  | gone {e : BuildExecution} {kind : ResourceKind} {other : String} :
      CreateEnds r name trigger (.error (.store (.conflict .execution name)))
        [.getExecution ⟨r.namespace, name⟩ (.ok none),
          .createExecution e (.error (.alreadyExists kind other))]
  /-- one that is there is returned if it is the request's -/
  | owned {e x : BuildExecution} {uid : String} {kind : ResourceKind} {other : String}
      (huid : r.metadata.uid = some uid) (howned : Ownership.of x.metadata uid = .owned) :
      CreateEnds r name trigger (.ok x) [.getExecution ⟨r.namespace, name⟩ (.ok (some x)),
        .createExecution e (.error (.alreadyExists kind other))]
  | foreign {e x : BuildExecution} {uid : String} {kind : ResourceKind} {other : String}
      (huid : r.metadata.uid = some uid) (hforeign : Ownership.of x.metadata uid ≠ .owned) :
      CreateEnds r name trigger
        (.error (.ownedByOther .execution x.metadata.anyName (Ownership.of x.metadata uid).owner))
        [.getExecution ⟨r.namespace, name⟩ (.ok (some x)),
          .createExecution e (.error (.alreadyExists kind other))]

/-- **How a start ends.**  The creation is tried first.  Only where the name is taken is the
execution of that name looked up, and then its owner decides. -/
theorem meets_createEnds {r : BuildRequest} {name trigger : String} :
    Meets (fun _ _ => True) (BuildExecution.create r name trigger)
      (fun x => CreateEnds r name trigger (.ok x)) (fun e => CreateEnds r name trigger (.error e))
        [] := by
  unfold BuildExecution.create
  refine (meets_bind _ _).mpr ((meets_monadLift _).mpr ⟨fun e he => ?_, fun _ he => .unnamed he⟩)
  refine (meets_tryCatch _ _).mpr ((meets_callPass _).mpr fun answer => ⟨trivial, ?_, ?_⟩)
  · rintro x rfl
    -- the name was free
    exact .created he
  · rintro error rfl
    cases error with
    | alreadyExists kind other =>
      refine (meets_bind _ _).mpr ((meets_callPass _).mpr fun answer => ⟨trivial, ?_, ?_⟩)
      · -- the name was taken, by an execution that is gone already or still there
        rintro (_ | x) rfl
        · exact .gone
        · obtain ⟨-, -, uid, huid, -⟩ := PushBuild.desired_eq he
          refine (meets_bind _ _).mpr
            ((meets_monadLift _).mpr ⟨fun uid' huid' => ?_, fun error herror => ?_⟩)
          · obtain rfl := Option.some.inj (huid.symm.trans (BuildRequest.uid_eq_ok.mp huid'))
            refine (meets_bind _ _).mpr
              ((meets_monadLift _).mpr ⟨fun _ howned => ?_, fun error hforeign => ?_⟩)
            · exact .owned huid (Ownership.of_ensure howned)
            · obtain ⟨hne, rfl⟩ := Ownership.ensure_eq_error hforeign
              exact .foreign huid hne
          · exact nomatch (BuildRequest.uid_eq_ok.mpr huid).symm.trans herror
      · rintro error rfl
        exact .unread
    | _ => exact .refused (by simp)

namespace CreateEnds

variable {r : BuildRequest} {name trigger : String} {result : Except BuildError BuildExecution}
  {acts : List Act} {x : BuildExecution}

/-- What is returned was created, or found and is the request's. -/
theorem returned (h : CreateEnds r name trigger (.ok x) acts) :
    (∃ e, BuildExecution.desired r name trigger = .ok e ∧ .createExecution e (.ok x) ∈ acts) ∨
      (.getExecution ⟨r.namespace, name⟩ (.ok (some x)) ∈ acts ∧
        ∃ uid, r.metadata.uid = some uid ∧ Ownership.of x.metadata uid = .owned) := by
  cases h with
  | created hdesired => exact Or.inl ⟨_, hdesired, List.mem_cons_self⟩
  | owned huid howned => exact Or.inr ⟨List.mem_cons_self, _, huid, howned⟩

/-- Where the name is taken, the execution of that name is looked up. -/
theorem lookedUp (h : CreateEnds r name trigger result acts) {e : BuildExecution}
    {kind : ResourceKind} {other : String}
    (htaken : .createExecution e (.error (.alreadyExists kind other)) ∈ acts) :
    ∃ answer, .getExecution ⟨r.namespace, name⟩ answer ∈ acts := by
  cases h with
  | unnamed _ => exact absurd htaken List.not_mem_nil
  | created _ => simp at htaken
  -- in the first three no name was found to be taken
  | refused hother =>
    obtain ⟨-, hexists⟩ : e = _ ∧ StoreError.alreadyExists kind other = _ := by simpa using htaken
    exact absurd hexists.symm (hother kind other)
  | unread => exact ⟨_, List.mem_cons_self⟩
  | gone => exact ⟨_, List.mem_cons_self⟩
  | owned _ _ => exact ⟨_, List.mem_cons_self⟩
  | foreign _ _ => exact ⟨_, List.mem_cons_self⟩

/-- What is found there decides. -/
theorem decided (h : CreateEnds r name trigger result acts)
    (hfound : .getExecution ⟨r.namespace, name⟩ (.ok (some x)) ∈ acts) :
    ∃ uid, r.metadata.uid = some uid ∧ (Ownership.of x.metadata uid = .owned → result = .ok x) ∧
      (Ownership.of x.metadata uid ≠ .owned → result = .error
        (.ownedByOther .execution x.metadata.anyName (Ownership.of x.metadata uid).owner)) := by
  cases h with
  | owned huid howned =>
    obtain rfl : x = _ := by simpa using hfound
    exact ⟨_, huid, fun _ => rfl, fun hne => absurd howned hne⟩
  | foreign huid hforeign =>
    obtain rfl : x = _ := by simpa using hfound
    exact ⟨_, huid, fun howned => absurd howned hforeign, fun _ => rfl⟩
  | _ => simp at hfound

end CreateEnds

/-- **What a start of an execution does** about one that is there already, `xs` being what it did
and `result` what came of it: only if it is the request's is it returned; otherwise the request is
told whose it is. -/
structure StartsOnlyOwn (r : BuildRequest) (name : String) (xs : List Exchange)
    (result : Except BuildError BuildExecution) : Prop where
  /-- what is returned is new, or it is the request's -/
  returned : ∀ x, result = .ok x → ∃ y ∈ xs,
    (y.before.executions.get? ⟨r.namespace, name⟩ = none ∧
      y.after.executions.get? ⟨r.namespace, name⟩ = some x) ∨
    (y.before.executions.get? ⟨r.namespace, name⟩ = some x ∧
      ∃ uid, r.metadata.uid = some uid ∧ Ownership.of x.metadata uid = .owned)
  /-- where the name is taken, the execution of that name is looked up -/
  lookedUp : ∀ e kind other, .createExecution e (.error (.alreadyExists kind other)) ∈ actsIn xs →
    ∃ answer, .getExecution ⟨r.namespace, name⟩ answer ∈ actsIn xs
  /-- what is found there decides -/
  decided : ∀ x, .getExecution ⟨r.namespace, name⟩ (.ok (some x)) ∈ actsIn xs →
    ∃ uid, r.metadata.uid = some uid ∧ (Ownership.of x.metadata uid = .owned → result = .ok x) ∧
      (Ownership.of x.metadata uid ≠ .owned → result = .error
        (.ownedByOther .execution x.metadata.anyName (Ownership.of x.metadata uid).owner))

/-- **A start of an execution**, whoever else writes during it.  What the acts say of the store is
true of the store when each was answered. -/
theorem create_runs {r : BuildRequest} {name trigger : String} {xs : List Exchange}
    {result : Except BuildError BuildExecution}
    (hrun : (BuildExecution.create r name trigger).run.Runs [] xs result) :
    StartsOnlyOwn r name xs result := by
  have hholds : ∀ x ∈ xs, x.Holds := hrun.holds fun _ h => absurd h List.not_mem_nil
  have hends : CreateEnds r name trigger result (actsIn xs) := by
    rcases meets_createEnds.runs hrun with ⟨x, rfl, h⟩ | ⟨e, rfl, h⟩ <;> exact h
  refine ⟨?_, fun _ _ _ => hends.lookedUp, fun _ => hends.decided⟩
  rintro x rfl
  rcases hends.returned with ⟨e, hdesired, hcreated⟩ | ⟨hfound, howned⟩
  · -- it was created: nothing was there before, and it is there after
    obtain ⟨y, hy, hact⟩ := List.mem_map.mp hcreated
    have hanswer := (hholds y hy).answer (.createExecution e) hact
    obtain ⟨-, -, hnone, hafter, -⟩ := MemoryStore.createExecution_eq hanswer
    rw [(PushBuild.desired_eq hdesired).1] at hnone hafter
    exact ⟨y, hy, Or.inl ⟨hnone, by rw [hafter, SortedMap.get?_insert, if_pos rfl]⟩⟩
  · -- it was found, and it is the request's
    obtain ⟨y, hy, hact⟩ := List.mem_map.mp hfound
    have hanswer := (hholds y hy).answer (.getExecution ⟨r.namespace, name⟩) hact
    exact ⟨y, hy, Or.inr ⟨Except.ok.inj (Prod.mk.inj hanswer).1, howned⟩⟩

/-! ## The result -/

/-- What an act for the request `acting` did to what was there: nothing to what belongs to
others. -/
structure Event.SparesOthers {ι : Type} (e : Event ι) (acting : Option BuildRequest) : Prop where
  /-- a template that someone else controls is left as it is -/
  foreign : ∀ {r uid owner place t}, acting = some r → r.metadata.uid = some uid →
    e.before.templates.get? place = some t → Ownership.of t.metadata uid = .foreign owner →
    e.after.templates.get? place = some t
  /-- every template is left as it is, or corrected for the request -/
  template : ∀ {place t}, e.before.templates.get? place = some t →
    e.after.templates.get? place = some t ∨ ∃ r uid t', acting = some r ∧
      r.metadata.uid = some uid ∧
      e.after.templates.get? place = some t' ∧ t.Corrected uid t'
  /-- an execution is left as it is, whoever controls it -/
  execution : ∀ {place x}, e.before.executions.get? place = some x →
    e.after.executions.get? place = some x

/-- **Foreign objects are not touched.**  Whatever calls are made for whatever requests, in whatever
order their effects come, whatever others do, and whichever calls fail or are answered with requests
that were stored earlier: no act of a call touches a template that the request it acts for, which is
the one the call read last, does not control and someone else does, and no act touches an execution
that is there.  And whoever starts an execution gets one that was there before only if it is the
request's own. -/
theorem foreign_untouched {ι : Type} [DecidableEq ι] {call : ι → ControllerCall}
    {keys : ι → ObjectKey} {w : Surroundings} {store : MemoryStore} {now : Instant}
    {s : System ι fun i => (call i).Result} (hmade : store.Made)
    (hrun : Reaches w (startEach call keys store now) s) :
    (∀ {later earlier : List (Event ι)} {e : Event ι} {i : ι} {act : Act},
      s.log = later ++ e :: earlier →
      e.cause = .act i act → e.SparesOthers (lastRead? (actsOf i earlier))) ∧
    ∀ {r : BuildRequest} {name trigger : String} {xs : List Exchange}
      {result : Except BuildError BuildExecution},
      (BuildExecution.create r name trigger).run.Runs [] xs result →
        StartsOnlyOwn r name xs result := by
  refine ⟨fun {later earlier e i act} hlog hcause => ?_, create_runs⟩
  have hobeys : (startEach call keys store now).Obeys (fun _ => templateDuty) (fun _ _ _ => True) :=
    fun i => (call i).obeys_templateDuty (keys i)
  obtain ⟨s₁, h₁⟩ := hrun.moment hobeys rfl hlog
  obtain ⟨hanswer, hduty⟩ := h₁.act i act hcause
  -- what the act does to any template, from the moment in which it was made
  have htemplate : ∀ {place t}, e.before.templates.get? place = some t → _ := fun {place t} ht =>
    hanswer.correction hduty (h₁.reaches.templatesKeyed hmade) (h₁.reaches.templatesDated hmade)
      (h₁.store_eq ▸ ht : s₁.store.templates.get? place = some t)
  rw [System.acts, h₁.log_eq] at htemplate
  refine ⟨fun {r uid owner place t} hr huid ht hforeign => ?_, htemplate, fun {place x} hx => ?_⟩
  · -- a template that was corrected was not somebody else's, so this one was left
    rcases htemplate ht with hsame | ⟨r', uid', t', hr', huid', -, hcorrected⟩
    · exact hsame
    · obtain rfl := Option.some.inj (hr.symm.trans hr')
      obtain rfl := Option.some.inj (huid.symm.trans huid')
      exact absurd hforeign (hcorrected.notForeign owner)
  · exact hanswer.executionEffect.kept (h₁.store_eq ▸ hx : s₁.store.executions.get? place = some x)

/-! ## A run -/

/-- A template that others put in the place of a request's. -/
def foundTemplate (request : String) (controller : Option Bool) : BuildTemplate where
  metadata := {
    name := some (request ++ "-build")
    «namespace» := some "default"
    labels := some (SortedMap.ofList [("team", "infra")])
    ownerReferences := some [{ controller, kind := "Deployment", name := "web", uid := "other" }] }

/-- A store with two requests, whose templates are there already and nobody's. -/
def foundStore : MemoryStore :=
  [.insertRequest {
      metadata := { name := some "lib" }
      spec := {
        source := { git := { url := "v", revision := "main" } }
        buildFile := .present
        output := { image := "j" } } },
    .putTemplate (foundTemplate "app" none), .putTemplate (foundTemplate "lib" none)].foldl
    (fun s deed => Deed.apply deed s) plainStore

/-- The keys of the two requests. -/
def foundKey : Bool → ObjectKey
  | false => appKey
  | true => ⟨"default", "lib"⟩

/-- A pass is made for each request.  When the first has looked at its template, someone takes
it. -/
def takenMeanwhile : List (Choice Bool) :=
  List.replicate 4 (.serve false) ++ [.deed (.putTemplate (foundTemplate "app" (some true)))] ++
    List.replicate 6 (.serve false) ++ List.replicate 5 (.serve true)

/-- The state when one template was taken and the other corrected. -/
def taken : System Bool fun _ => Except BuildError ReconcileOutcome :=
  (startEach (fun _ => .reconcile {}) foundKey foundStore (secondsIn 1)).play takenMeanwhile

/-- The event is an attempt to replace a template. -/
def Event.replaces {ι : Type} (e : Event ι) : Bool :=
  match e.cause with
  | .act _ (.replaceTemplate ..) => true
  | _ => false

/-- The template that was taken is left as it is by the replacement of what was found before, and
the other one is corrected, in this run. -/
theorem foreign_untouched_taken :
    (∃ e ∈ taken.log, e.replaces = true ∧ e.actor? = some false ∧
      ∃ t ∈ e.before.templates.get? (templatePlace appKey),
        e.after.templates.get? (templatePlace appKey) = some t ∧
        Ownership.of t.metadata "uid-1" = .foreign "Deployment/web") ∧
    (∃ e ∈ taken.log, e.actor? = some true ∧
      e.after.templates.get? (templatePlace (foundKey true)) ≠
        e.before.templates.get? (templatePlace (foundKey true))) ∧
    ∀ later e earlier i act, taken.log = later ++ e :: earlier → e.cause = .act i act →
      e.SparesOthers (lastRead? (actsOf i earlier)) := by
  obtain ⟨hpermits, hrefused, hcorrected⟩ :
      Permits (othersKeep appKey)
        (startEach (fun _ : Bool => .reconcile {}) foundKey foundStore (secondsIn 1))
        takenMeanwhile ∧
      (∃ e ∈ taken.log, e.replaces = true ∧ e.actor? = some false ∧
        ∃ t ∈ e.before.templates.get? (templatePlace appKey),
          e.after.templates.get? (templatePlace appKey) = some t ∧
          Ownership.of t.metadata "uid-1" = .foreign "Deployment/web") ∧
      ∃ e ∈ taken.log, e.actor? = some true ∧
        e.after.templates.get? (templatePlace (foundKey true)) ≠
          e.before.templates.get? (templatePlace (foundKey true)) := by
    decide +kernel
  -- the run is a run of the system, so it is as for every other
  have hmade : foundStore.Made := plainStore_made.deeds _
  refine ⟨hrefused, hcorrected, fun later e earlier i act hlog hcause => ?_⟩
  exact (foreign_untouched hmade (reaches_play takenMeanwhile hpermits)).1 hlog hcause

end PushBuild
