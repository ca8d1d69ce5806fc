import PushBuild.Proofs.Recovery.Follow

/-!
# The writes of a pass follow its decisions

A pass decides on requests and executions that it read before, and it writes with versions that it
read before.  While nobody else writes, what it read is what is there, so each of its writes is the
one that is decided on what is there.

1. **What is read.**  What a program holds of a request, compared with what is there: all of it
   (`HoldsAll`), or all but the status (`Holds`).
2. **Writes.**  One lemma for each thing that is written: the label, the template
   (`follows_template`), an execution (`followsAt_create`) and a status (`followsAt_modifyStatus`);
   and one for the strategy, which is only read.
-/

namespace PushBuild

variable {key : ObjectKey} {now : Instant} {fails : Prop}

/-! ## What is read -/

/-- The request that is stored is the one that the contents have, but for its version. -/
theorem Sound.stored {s : MemoryStore} (h : Sound key s.contents) :
    ∃ r, s.requests.get? key = some r ∧ r.key = key ∧ s.contents.requestAt key = r.unversioned := by
  obtain ⟨r, hr, hkey⟩ := h.request
  obtain ⟨r₀, hr₀, rfl⟩ : ∃ r₀, s.requests.get? key = some r₀ ∧ r₀.unversioned = r := by
    simpa [MemoryStore.contents] using hr
  exact ⟨r₀, hr₀, hkey, MemoryStore.requestAt_of_get? hr⟩

/-- The request as a program holds it, apart from its version and its status, is the one that is
there. -/
def Holds (key : ObjectKey) (r : BuildRequest) (v : MemoryStore) : Prop :=
  ∃ status, v.requestAt key = { r.unversioned with status }

/-- The request as a program holds it is the one that is there, its status included. -/
def HoldsAll (key : ObjectKey) (r : BuildRequest) (v : MemoryStore) : Prop :=
  v.requestAt key = r.unversioned

/-- Who holds all of the request holds all but its status. -/
theorem HoldsAll.holds {r : BuildRequest} {v : MemoryStore} (h : HoldsAll key r v) :
    Holds key r v :=
  ⟨r.status, h⟩

/-- The request stays the same, apart from its status, when only that is written. -/
theorem Holds.restated {r : BuildRequest} {v : MemoryStore} (h : Holds key r v)
    (status : BuildRequestStatus) :
    Holds key r (Write.apply key (.request ((v.requestAt key).restated status)) v) := by
  obtain ⟨old, hrequest⟩ := h
  refine ⟨some status, ?_⟩
  rw [Write.apply, MemoryStore.requestAt_withRequest, hrequest]

/-! ## The label and the strategy -/

/-- Setting the label of a request, as it is there. -/
theorem followsAt_label {s : MemoryStore} (hs : s.Serving fails) (hsound : Sound key s.contents)
    {r : BuildRequest} (hr : HoldsAll key r s.contents) (hkey : r.key = key) :
    FollowsAt key now fails s (syncSelectionLabel r) (labelStep key)
      fun r' _ v => HoldsAll key r' v ∧ r'.key = key := by
  have hprogram : syncSelectionLabel r =
      if r.metadata.label? onCommitLabel = r.modeLabel then pure r
      else (StoreCall.setRequestLabel r.key onCommitLabel r.modeLabel).pass >>= fun _ =>
        (StoreCall.getRequest r.key).pass >>= fun found => pure (found.getD r) := rfl
  have hlabel : labelStep key s.contents =
      if r.metadata.label? onCommitLabel = r.modeLabel then .ok ()
      else .error (.writes (.request (r.unversioned.withLabel onCommitLabel r.modeLabel))) := by
    simp only [labelStep]
    rw [show s.contents.requestAt key = r.unversioned from hr]
    rfl
  rw [hprogram]
  split
  · next hsame => exact followsAt_pure hs (hlabel.trans (if_pos hsame)) ⟨hr, hkey⟩
  · next hdiffers =>
    rw [if_neg hdiffers] at hlabel
    obtain ⟨r₀, hr₀, -, heq⟩ := hsound.stored
    have hunversioned : r₀.unversioned = r.unversioned := heq.symm.trans hr
    obtain ⟨t, hcall, ht, hcontents⟩ := hs.setRequestLabel hr₀ onCommitLabel r.modeLabel
    rw [hunversioned] at hcontents
    have hwritten : t.contents = Write.apply key
        (.request (r.unversioned.withLabel onCommitLabel r.modeLabel)) s.contents := hcontents
    have hadvanced : Advanced key fails (labelStep key) s t := .one ht hlabel hwritten
    rw [hkey]
    refine followsAt_write hs hcall hadvanced ?_
    -- the request is read again as it is then
    obtain ⟨r₁, hr₁, hkey₁, heq₁⟩ := (hadvanced.sound sound_label hsound).stored
    refine followsAt_read ht (a := some r₁) ?_ ?_
    · show (Except.ok (t.requests.get? key), t) = _
      rw [hr₁]
    · have hsettles := labelStep_settles hlabel
      rw [← hwritten] at hsettles
      exact followsAt_pure ht hsettles ⟨heq₁, hkey₁⟩

/-- Looking up the strategy. -/
theorem followsAt_strategy {s : MemoryStore} (hs : s.Serving fails) {r : BuildRequest}
    (hr : HoldsAll key r s.contents) :
    FollowsAt key now fails s (resolveStrategy r.spec) (strategyStep key)
      fun name name' v => name = name' ∧ HoldsAll key r v := by
  have hspec : (s.contents.requestAt key).spec = r.spec := by
    rw [show s.contents.requestAt key = r.unversioned from hr]
    rfl
  unfold resolveStrategy
  refine followsAt_read hs rfl ?_
  cases hpolicy : s.policy with
  | none =>
    -- there is no policy
    have hpolicy : s.contents.policy = none := hpolicy
    exact followsAt_throw hs (by simp only [strategyStep, hpolicy])
  | some policy =>
    have hpolicy : s.contents.policy = some policy := hpolicy
    dsimp only
    cases hname : policy.strategyFor? r.spec.buildFile with
    -- it has no strategy for this kind of build file
    | none => exact followsAt_throw hs (by simp only [strategyStep, hspec, hpolicy, hname])
    | some name =>
      refine followsAt_read hs rfl ?_
      cases hstrategy : s.strategies.get? name with
      | none =>
        have hstrategy : s.contents.strategies.get? name = none := hstrategy
        exact followsAt_throw hs (by simp only [strategyStep, hspec, hpolicy, hname, hstrategy])
      | some strategy =>
        have hstrategy : s.contents.strategies.get? name = some strategy := hstrategy
        exact followsAt_pure hs (by simp only [strategyStep, hspec, hpolicy, hname, hstrategy])
          ⟨rfl, hr⟩

/-! ## The template -/

section

/-- Converging does not look at versions. -/
theorem BuildTemplate.converged_unversioned (existing desired : BuildTemplate) (uid : String) :
    existing.unversioned.converged desired uid =
      (existing.converged desired uid).map BuildTemplate.unversioned := by
  unfold converged
  have hof : Ownership.of existing.unversioned.metadata uid = Ownership.of existing.metadata uid :=
    rfl
  rw [hof]
  split <;> rfl

/-- Templates of one version that are the same but for the version are the same. -/
theorem BuildTemplate.unversioned_inj {t t' : BuildTemplate}
    (hversion : t.metadata.resourceVersion = t'.metadata.resourceVersion) :
    t.unversioned = t'.unversioned ↔ t = t' := by
  refine ⟨fun h => ?_, fun h => by rw [h]⟩
  obtain ⟨m, spec⟩ := t
  obtain ⟨m', spec'⟩ := t'
  obtain ⟨hmetadata, hspec⟩ := BuildTemplate.mk.inj h
  have hspec : spec = spec' := hspec
  -- the metadata are put together again from what is left and the version
  have hm : m = m' := by
    have hm : m = { m.unversioned with resourceVersion := m.resourceVersion } := rfl
    have hm' : m' = { m'.unversioned with resourceVersion := m'.resourceVersion } := rfl
    have hmetadata : m.unversioned = m'.unversioned := hmetadata
    have hversion : m.resourceVersion = m'.resourceVersion := hversion
    exact (hm.trans (by rw [hmetadata, hversion])).trans hm'.symm
  rw [hm, hspec]

/-- The template leaves the request as it is. -/
theorem within_template_request (strategy : String) :
    Within key (fun v v' => v'.requestAt key = v.requestAt key) (templateStep key strategy) := by
  intro v w h
  obtain ⟨desired, uid, -, -, h⟩ := templateStep_writes h
  rcases convergeStep_writes h with ⟨-, rfl⟩ | ⟨existing, updated, -, -, rfl⟩ <;> rfl

variable {s : MemoryStore} {r : BuildRequest} {strategy uid : String} {desired : BuildTemplate}

/-- What is decided about the template, on the request that is there. -/
theorem HoldsAll.template {v : MemoryStore} (hr : HoldsAll key r v)
    (hdesired : BuildTemplate.desired r strategy = .ok desired) (huid : r.uid = .ok uid) :
    templateStep key strategy v = convergeStep desired uid v := by
  have hrequest : v.requestAt key = r.unversioned := hr
  have hdesired' : BuildTemplate.desired r.unversioned strategy = .ok desired := hdesired
  have huid' : r.unversioned.uid = .ok uid := huid
  simp only [templateStep, hrequest, hdesired', huid']
  rfl

/-- A write of the template is the one that was decided, and then there is nothing left to do.  This
is so for one that is created and for one that is replaced. -/
theorem template_written (hsound : Sound key s.contents) (hr : HoldsAll key r s.contents)
    (hdesired : BuildTemplate.desired r strategy = .ok desired) {w : Write}
    (hw : templateStep key strategy s.contents = .error (.writes w)) {t : BuildTemplate}
    (hkey : t.key = desired.key) {u : MemoryStore} (hu : u.Serving fails)
    (hcontents : u.contents = w.apply key s.contents) :
    Advanced key fails (templateStep key strategy) s u ∧
      ∃ reference, templateStep key strategy u.contents = .ok reference ∧
        t.reference = reference ∧ HoldsAll key r u.contents := by
  have hrequest : s.contents.requestAt key = r.unversioned := hr
  obtain ⟨desired', hdesired', hsettles⟩ := templateStep_settles hsound hw
  rw [hrequest] at hdesired'
  obtain rfl : desired = desired' := Except.ok.inj (hdesired.symm.trans hdesired')
  refine ⟨.one hu hw hcontents,
    _, by rw [hcontents, hsettles], by rw [BuildTemplate.reference, hkey], ?_⟩
  rw [HoldsAll, hcontents, within_template_request strategy _ _ hw, hrequest]

/-- Correcting a template that is there. -/
theorem followsAt_correct (hs : s.Serving fails) (hsound : Sound key s.contents)
    (hr : HoldsAll key r s.contents) (hdesired : BuildTemplate.desired r strategy = .ok desired)
    (huid : r.uid = .ok uid) {existing : BuildTemplate}
    (hexisting : s.templates.get? desired.key = some existing) :
    FollowsAt key now fails s
      (do
        let updated ← existing.converged desired uid
        if updated = existing then return existing
        else StoreCall.pass (.replaceTemplate updated))
      (templateStep key strategy) fun t reference v => t.reference = reference ∧
        HoldsAll key r v := by
  have hexisting' : s.contents.templates.get? desired.key = some existing.unversioned := by
    rw [MemoryStore.get?_templates_contents, hexisting]
    rfl
  have hkey : existing.unversioned.key = desired.key := hsound.template hexisting'
  have hstep := (hr.template hdesired huid).trans (convergeStep_of_some hexisting')
  rw [existing.converged_unversioned desired uid] at hstep
  cases hupdated : existing.converged desired uid with
  | error e =>
    rw [hupdated] at hstep
    exact followsAt_throw hs hstep
  | ok updated =>
    obtain ⟨-, -, hmetadata⟩ := BuildTemplate.converged_eq hupdated
    have hversion : updated.metadata.resourceVersion = existing.metadata.resourceVersion := by
      rw [hmetadata]
    have hdecided : templateStep key strategy s.contents =
        if updated = existing then .ok existing.unversioned.reference
        else .error (.writes (.template updated.unversioned)) := by
      rw [hstep, hupdated]
      simp only [← BuildTemplate.unversioned_inj hversion]
      rfl
    show FollowsAt key now fails s (if updated = existing then pure existing else _) _ _
    split
    · -- it is as desired, and nothing is written
      next hsame =>
      rw [if_pos hsame] at hdecided
      exact followsAt_pure hs hdecided ⟨rfl, hr⟩
    · -- it is replaced, with the version that was read
      next hdiffers =>
      rw [if_neg hdiffers] at hdecided
      obtain ⟨t, u, hcall, hu, hkeyt, hcontents⟩ := hs.replaceTemplate hexisting hkey hmetadata
      refine finishes_callPass _ ?_ fun hfails e => ⟨.refl hs, Or.inr ⟨hfails, e, rfl⟩⟩
      rw [hcall]
      exact template_written hsound hr hdesired hdecided hkeyt hu hcontents

/-- One attempt to converge. -/
theorem followsAt_apply (hs : s.Serving fails) (hsound : Sound key s.contents)
    (hr : HoldsAll key r s.contents) (hdesired : BuildTemplate.desired r strategy = .ok desired)
    (huid : r.uid = .ok uid) :
    FollowsAt key now fails s (BuildTemplate.apply desired uid) (templateStep key strategy)
      fun t reference v => t.reference = reference ∧ HoldsAll key r v := by
  unfold BuildTemplate.apply
  refine followsAt_read hs rfl ?_
  cases hexisting : s.templates.get? desired.key with
  | none =>
    obtain ⟨t, u, hcall, hu, hkey, hcontents⟩ := hs.createTemplate hexisting
    have hnone : s.contents.templates.get? desired.key = none := by
      rw [MemoryStore.get?_templates_contents, hexisting]
      rfl
    have hw := (hr.template hdesired huid).trans (convergeStep_of_none hnone)
    refine (finishes_tryCatch _ _).mpr (finishes_callPass _ ?_ fun hfails e => ?_)
    · rw [hcall]
      exact template_written hsound hr hdesired hw hkey hu hcontents
    · -- a template that is said to be there already counts as a lost race
      cases e <;> exact ⟨.refl hs, Or.inr ⟨hfails, _, rfl⟩⟩
  | some existing => exact followsAt_correct hs hsound hr hdesired huid hexisting

/-- Converging, again and again while writes are refused.  Before every attempt the request is as it
is held, and what was written so far was decided. -/
theorem follows_template {retry : RetryPolicy} :
    Follows key now fails (HoldsAll key r) (BuildTemplate.reconcile r strategy retry)
      (templateStep key strategy) fun t reference v => t.reference = reference ∧
        HoldsAll key r v := by
  intro s hs hsound hr
  have hrequest : s.contents.requestAt key = r.unversioned := hr
  have hstep : templateStep key strategy s.contents =
      (Decision.of (BuildTemplate.desired r strategy) >>= fun desired =>
        Decision.of r.uid >>= fun uid => convergeStep desired uid s.contents) := by
    simp only [templateStep, hrequest]
    rfl
  unfold BuildTemplate.reconcile
  refine followsAt_monadLift hs hstep fun desired hdesired hstep => ?_
  refine followsAt_monadLift hs hstep fun uid huid _ => ?_
  refine finishes_retryOnConflict (fun t => Sound key t.contents ∧ HoldsAll key r t.contents ∧
    Advanced key fails (templateStep key strategy) s t) ?_ ⟨hsound, hr, .refl hs⟩
  rintro t ⟨hsound, hr, hadvanced⟩
  have happly : FollowsAt key now fails t (BuildTemplate.apply desired uid) _ _ :=
    followsAt_apply hadvanced.serving hsound hr hdesired huid
  refine Finishes.mono happly (fun a u hu => ⟨hadvanced.trans hu.1, hu.2⟩) fun e u hu => ?_
  refine ⟨⟨hadvanced.trans hu.1, hu.2⟩, hu.1.sound (sound_template strategy) hsound, ?_,
    hadvanced.trans hu.1⟩
  refine hu.1.invariant hr fun v w hv hw => ?_
  rw [HoldsAll, within_template_request strategy v w hw]
  exact hv

end

/-! ## Executions -/

section

/-- An execution that is there is the request's, or the pass fails as was decided. -/
theorem followsAt_adopt {s : MemoryStore} (hs : s.Serving fails) {r : BuildRequest}
    (hr : Holds key r s.contents) {name trigger : String} {x existing : BuildExecution}
    (hx : BuildExecution.desired r name trigger = .ok x)
    (hexisting : s.executions.get? x.key = some existing) :
    FollowsAt key now fails s (BuildExecution.adopt r ⟨r.namespace, name⟩)
      (claimStep key name trigger)
      fun _ _ _ => True := by
  obtain ⟨status, hrequest⟩ := hr
  have hexisting' : s.contents.executions.get? x.key = some existing.unversioned := by
    rw [MemoryStore.get?_executions_contents, hexisting]
    rfl
  have hstep : claimStep key name trigger s.contents =
      (Decision.of r.uid >>= fun uid =>
        Decision.of (Ownership.ensure .execution existing.metadata uid)) := by
    have hx' : BuildExecution.desired { r.unversioned with status } name trigger = .ok x := hx
    simp only [claimStep, hrequest, hx']
    refine (adoptStep_of_some hexisting').trans ?_
    rw [hrequest]
    rfl
  unfold BuildExecution.adopt
  rw [← (PushBuild.desired_eq hx).1]
  refine followsAt_read hs (a := some existing) ?_ ?_
  · show (Except.ok (s.executions.get? x.key), s) = _
    rw [hexisting]
  · refine followsAt_monadLift hs hstep fun uid huid hstep => ?_
    -- whether the execution is the request's is decided as the program finds out
    cases howned : Ownership.ensure .execution existing.metadata uid with
    | error e =>
      rw [howned] at hstep
      exact followsAt_throw hs hstep
    | ok _ =>
      rw [howned] at hstep
      exact followsAt_pure hs hstep trivial

/-- Starting an execution. -/
theorem followsAt_create {s : MemoryStore} (hs : s.Serving fails) {r : BuildRequest}
    (hr : Holds key r s.contents) {name trigger : String} :
    FollowsAt key now fails s (BuildExecution.create r name trigger) (claimStep key name trigger)
      fun _ _ _ => True := by
  have ⟨status, hrequest⟩ := hr
  have hstep : claimStep key name trigger s.contents =
      (Decision.of (BuildExecution.desired r name trigger) >>= fun x =>
        adoptStep key x s.contents) := by
    simp only [claimStep, hrequest]
    rfl
  unfold BuildExecution.create
  refine followsAt_monadLift hs hstep fun x hx hstep => ?_
  cases hexisting : s.executions.get? x.key with
  | none =>
    obtain ⟨w, t, hcall, ht, hcontents⟩ := hs.createExecution hexisting
    have hnone : s.contents.executions.get? x.key = none := by
      rw [MemoryStore.get?_executions_contents, hexisting]
      rfl
    rw [adoptStep_of_none hnone] at hstep
    refine (finishes_tryCatch _ _).mpr (finishes_callPass _ ?_ fun hfails e => ?_)
    · rw [hcall]
      have hwritten : t.contents = Write.apply key (.newExecution x) s.contents := hcontents
      refine ⟨.one ht hstep hwritten, (), ?_, trivial⟩
      rw [hwritten]
      exact claimStep_settles hstep
    · cases e with
      | alreadyExists kind other =>
        -- it is said to be there, but it is not
        have hget : s.call (.getExecution ⟨r.namespace, name⟩) = (.ok none, s) := by
          rw [hs.getExecution, ← (PushBuild.desired_eq hx).1, hexisting]
        refine (finishes_bind _ _).mpr (finishes_callPass _ ?_ fun hfails e => ?_)
        · rw [hget]
          exact ⟨.refl hs, Or.inr ⟨hfails, _, rfl⟩⟩
        · exact ⟨.refl hs, Or.inr ⟨hfails, e, rfl⟩⟩
      | _ => exact ⟨.refl hs, Or.inr ⟨hfails, _, rfl⟩⟩
  | some existing =>
    obtain ⟨kind, other, hcall⟩ := hs.createExecution_exists hexisting
    have hadopt : FollowsAt key now fails s (BuildExecution.adopt r ⟨r.namespace, name⟩)
      (claimStep key name trigger) fun _ _ _ => True := followsAt_adopt hs hr hx hexisting
    refine (finishes_tryCatch _ _).mpr (finishes_callPass _ ?_ fun hfails e => ?_)
    · rw [hcall]
      exact hadopt
    · cases e with
      | alreadyExists kind other => exact hadopt
      | _ => exact ⟨.refl hs, Or.inr ⟨hfails, _, rfl⟩⟩

end

/-! ## Statuses -/

section

/-- The change does not look at versions. -/
def StatusChange.Unversioned (change : StatusChange) : Prop :=
  ∀ (r : BuildRequest) status, change r.unversioned status = change r status

/-- What became of a status that was to be changed: nothing if there was nothing to change; and else
it was changed. -/
structure Restated (key : ObjectKey) (fails : Prop) (change : StatusChange) (s : MemoryStore)
    (found : Option BuildRequest) (t : MemoryStore) : Prop where
  advanced : Advanced key fails (restateStep key change) s t
  found : ∃ r, found = some r ∧ HoldsAll key r t.contents
  done : restateStep key change s.contents = .ok () ∨
    ∃ w, restateStep key change s.contents = .error (.writes w) ∧
      t.contents = w.apply key s.contents

/-- **Changing a status**, again and again while the write is refused. -/
theorem finishes_modifyStatus {change : StatusChange} (hchange : change.Unversioned)
    {retry : RetryPolicy} {s : MemoryStore} (hs : s.Serving fails) (hsound : Sound key s.contents) :
    Finishes now fails (BuildRequest.modifyStatus retry key change)
      (Restated key fails change s)
      (fun _ t => fails ∧ Advanced key fails (restateStep key change) s t ∧
        t.contents = s.contents) s := by
  unfold BuildRequest.modifyStatus
  refine Finishes.mono (finishes_retryOnConflict (fun t => t.contents = s.contents ∧
    Advanced key fails (restateStep key change) s t) ?_ ⟨rfl, .refl hs⟩) (fun _ _ h => h)
    fun _ _ h => h
  rintro t ⟨hcontents, hadvanced⟩
  have ht := hadvanced.serving
  rw [← hcontents] at hsound
  obtain ⟨r, hr, hkey, hrequest⟩ := hsound.stored
  have hchanges : change (s.contents.requestAt key) (s.contents.requestAt key).statusOrDefault =
      change r r.statusOrDefault := by
    rw [← hcontents, show t.contents.requestAt key = r.unversioned from hrequest]
    exact hchange r _
  unfold BuildRequest.tryModifyStatus
  refine (finishes_bind _ _).mpr
    (finishes_call _ ?_ fun hfails e => ⟨⟨hfails, hadvanced, hcontents⟩, hcontents, hadvanced⟩)
  rw [ht.getRequest, hr]
  dsimp only
  cases hstatus : change r r.statusOrDefault with
  | none =>
    exact ⟨hadvanced, ⟨r, rfl, hrequest⟩, Or.inl (restateStep_of_none (hchanges.trans hstatus))⟩
  | some status =>
    have hstep := restateStep_of_some (hchanges.trans hstatus)
    rw [← hcontents, show t.contents.requestAt key = r.unversioned from hrequest,
      hcontents] at hstep
    refine (finishes_map _ _).mpr
      (finishes_call _ ?_ fun hfails e => ⟨⟨hfails, hadvanced, hcontents⟩, hcontents, hadvanced⟩)
    rcases ht.updateRequestStatus hr hkey status with ⟨w, u, hcall, hu, hw, hcontents'⟩ |
      ⟨e, u, hcall, hu, hfails, hcontents'⟩
    · have hwritten : u.contents =
          (Write.request (r.unversioned.restated status)).apply key s.contents := by
        rw [hcontents', hcontents]
        rfl
      rw [hcall]
      refine ⟨.one hu hstep hwritten, ⟨w, rfl, ?_⟩, Or.inr ⟨_, hstep, hwritten⟩⟩
      rw [HoldsAll, hcontents', MemoryStore.requestAt_withRequest, hw]
    · -- the write was refused, so what is stored is as it was
      have hsame : u.contents = s.contents := hcontents'.trans hcontents
      have hrefused : Advanced key fails (restateStep key change) s u :=
        ⟨hu, by rw [hsame], fun hsettled => absurd hstep (hsettled _)⟩
      rw [hcall]
      exact ⟨⟨hfails, hrefused, hsame⟩, hsame, hrefused⟩

/-- A status that is changed first, when that change is what is decided. -/
theorem followsAt_modifyStatus {change : StatusChange} (hchange : change.Unversioned)
    {retry : RetryPolicy} {s : MemoryStore} (hs : s.Serving fails) (hsound : Sound key s.contents)
    {γ δ : Type} {q : Option BuildRequest → Pass γ} {d : MemoryStore → Decision δ}
    {R : γ → δ → MemoryStore → Prop}
    (hd : ∀ w, restateStep key change s.contents = .error (.writes w) →
      d s.contents = .error (.writes w))
    (hsame : ∀ r, HoldsAll key r s.contents → restateStep key change s.contents = .ok () →
      FollowsAt key now fails s (q (some r)) d R)
    (hwritten : ∀ r t w, t.Serving fails → HoldsAll key r t.contents →
      restateStep key change s.contents = .error (.writes w) → t.contents = w.apply key s.contents →
      FollowsAt key now fails t (q (some r)) d R) :
    FollowsAt key now fails s ((BuildRequest.modifyStatus retry key change).pass >>= q) d R := by
  refine (finishes_bind _ _).mpr ((finishes_adapt _ _).mpr
    (Finishes.mono (finishes_modifyStatus hchange hs hsound) ?_ ?_))
  · rintro _ t ⟨hadvanced, ⟨r, rfl, hr⟩, hok | ⟨w, hw, hcontents⟩⟩
    · -- there was nothing to change
      obtain rfl := hadvanced.quiet fun w hw => nomatch hok.symm.trans hw
      exact hsame r hr hok
    · exact (hwritten r t w hadvanced.serving hr hw hcontents).after
        (.one hadvanced.serving (hd w hw) hcontents)
  · rintro e t ⟨hfails, hadvanced, hcontents⟩
    exact ⟨hadvanced.same hcontents hd, Or.inr ⟨hfails, e, rfl⟩⟩

end

end PushBuild
