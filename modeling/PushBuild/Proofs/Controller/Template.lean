import PushBuild.Proofs.Controller.Foreign

/-!
# What comes of making a template as a request wants it

The template is read, and created, corrected or left alone according to what was read; if a write
comes too late, all of this starts over.  Meanwhile anybody may write.

1. **As wanted.**  A template is as wanted if the request controls it, it has the request's label,
   and it says what the request says (`BuildTemplate.MadeFor`), field by field
   (`BuildTemplateSpec.Translates`).  That is so exactly if converging changes nothing
   (`converged_eq_self_iff`), and converging leads there; `BuildTemplate.DerivedFrom` says what it
   keeps.
2. **Ends.**  All acts but the last settle nothing (`Act.Fruitless`), and by the last one a template
   was obtained, or it failed (`TemplateEnds`).  For an attempt is followed by another one only if
   it failed, and then its acts settled nothing (`meets_reconcileEnds`).
3. **The store.**  This is the crux: what is stored before the act by which a template is obtained
   is what was read last (`Obtained.made`).  A write is made on the version that was read, and one
   version has one template.
4. **One program among others.**  `MakesTemplate` is what comes of it, said of the log of a run.
5. **The result** (`template_reconciled`), among any other programs and whatever else is done to the
   store.
-/

namespace PushBuild

open PushBuild.System

/-! ## As wanted -/

/-- What a template says of a request, field by field.  The build is done by a strategy of the
cluster; address, revision, directory and image are the request's, and so are the names of both
secrets, present or not. -/
structure BuildTemplateSpec.Translates (t : BuildTemplateSpec) (spec : BuildRequestSpec)
    (strategy : String) :
    Prop where
  strategyName : t.strategy.name = strategy
  strategyKind : t.strategy.kind = "ClusterBuildStrategy"
  url : t.source.url = spec.source.git.url
  revision : t.source.revision = spec.source.git.revision
  contextDir : t.source.contextDir = spec.source.contextDir
  cloneSecret : t.source.cloneSecret = spec.source.git.cloneSecret
  image : t.output.image = spec.output.image
  pushSecret : t.output.pushSecret = spec.output.pushSecret

/-- The translation is told by these fields alone, so that no template says more than they do. -/
theorem BuildTemplateSpec.translates_iff {t : BuildTemplateSpec} {spec : BuildRequestSpec}
    {strategy : String} :
    t.Translates spec strategy ↔ t = BuildTemplate.specFor spec strategy := by
  constructor
  · intro h
    obtain ⟨⟨name, kind⟩, ⟨url, revision, contextDir, cloneSecret⟩, ⟨image, pushSecret⟩⟩ := t
    obtain ⟨rfl, rfl, rfl, rfl, rfl, rfl, rfl, rfl⟩ := h
    rfl
  · rintro rfl
    exact ⟨rfl, rfl, rfl, rfl, rfl, rfl, rfl, rfl⟩

namespace BuildTemplate

/-- The template is as a request with this uid wants it: it is the request's, says what the request
and the strategy say, and has the request's label. -/
structure MadeFor (r : BuildRequest) (strategy uid : String) (t : BuildTemplate) : Prop where
  owned : Ownership.of t.metadata uid = .owned
  spec : t.spec = specFor r.spec strategy
  label : t.metadata.label? buildRequestLabel = some r.name

/-- `t` is made from what was there before, if anything was: owners are kept, and only a controller
is added, which is the request, if there was none; labels are kept but for that of the request; and
so is all else but the version. -/
structure DerivedFrom (uid : String) (before : Option BuildTemplate) (t : BuildTemplate) :
    Prop where
  owners : t.metadata.owners = (before.map (·.metadata.owners)).getD [] ∨
    (before.bind (·.metadata.controller?) = none ∧ ∃ r : OwnerReference, r.controller = some true ∧
      r.uid = uid ∧ t.metadata.owners = (before.map (·.metadata.owners)).getD [] ++ [r])
  labels : ∀ label, label ≠ buildRequestLabel →
    t.metadata.label? label = before.bind (·.metadata.label? label)
  others : ∀ t₀ ∈ before, t.metadata = { t₀.metadata with
    labels := t.metadata.labels
    ownerReferences := t.metadata.ownerReferences
    resourceVersion := t.metadata.resourceVersion }

section

variable {r : BuildRequest} {strategy uid : String} {existing desired updated t : BuildTemplate}

/-- The one owner of a desired template is the request. -/
theorem desired_owners (hdesired : BuildTemplate.desired r strategy = .ok desired)
    (huid : r.uid = .ok uid) :
    ∃ owner : OwnerReference, owner.controller = some true ∧ owner.uid = uid ∧
      desired.metadata.owners = [owner] := by
  unfold BuildTemplate.desired BuildRequest.ownerReference at hdesired
  split at hdesired
  · next uid' _ huid' =>
    obtain rfl := Except.ok.inj hdesired
    obtain rfl := Option.some.inj (huid'.symm.trans (BuildRequest.uid_eq_ok.mp huid))
    exact ⟨_, rfl, rfl, rfl⟩
  · cases hdesired

/-- A request with a name and a uid desires a template. -/
theorem exists_desired {name : String} (hname : r.metadata.name = some name)
    (huid : r.metadata.uid = some uid) (strategy : String) :
    ∃ desired, BuildTemplate.desired r strategy = .ok desired := by
  unfold BuildTemplate.desired BuildRequest.ownerReference
  rw [hname, huid]
  exact ⟨_, rfl⟩

/-- A label that is set is there afterwards, also if it was there before. -/
theorem label?_withLabels (labels : Option Labels) (label value : String) :
    (withLabels labels (some (SortedMap.ofList [(label, value)]))).bind (·.get? label) =
      some value := by
  rw [withLabels_one]
  split
  · next hsame => exact hsame
  · rw [Option.bind_some, SortedMap.get?_insert, if_pos rfl]

/-- **Converging leads to what is wanted.** -/
theorem madeFor_of_converged (hdesired : BuildTemplate.desired r strategy = .ok desired)
    (huid : r.uid = .ok uid) (h : existing.converged desired uid = .ok updated) :
    updated.MadeFor r strategy uid := by
  obtain ⟨hlabels, hown⟩ := desired_eq hdesired
  obtain ⟨hlabels', hspec, -⟩ := converged_eq h
  refine ⟨converged_owned h (hown uid huid), hspec.trans (desired_place hdesired).2, ?_⟩
  rw [Metadata.label?, hlabels', hlabels]
  exact label?_withLabels _ _ _

/-- **Converging changes nothing** exactly if the template is as wanted. -/
theorem converged_eq_self_iff (hdesired : BuildTemplate.desired r strategy = .ok desired)
    (huid : r.uid = .ok uid) :
    t.converged desired uid = .ok t ↔ t.MadeFor r strategy uid := by
  refine ⟨madeFor_of_converged hdesired huid, fun h => ?_⟩
  obtain ⟨hlabels, -⟩ := desired_eq hdesired
  have hlabel : (t.metadata.labels.bind (·.get? buildRequestLabel)) = some r.name := h.label
  have hkept : withLabels t.metadata.labels desired.metadata.labels = t.metadata.labels := by
    rw [hlabels, withLabels_one, if_pos hlabel]
  have hspec : desired.spec = t.spec := (desired_place hdesired).2.trans h.spec.symm
  unfold converged
  rw [h.owned]
  dsimp only
  rw [if_pos rfl, hkept, hspec]

/-- What converging makes is made from the template that was there. -/
theorem derivedFrom_converged (hdesired : BuildTemplate.desired r strategy = .ok desired)
    (huid : r.uid = .ok uid) (h : existing.converged desired uid = .ok updated) :
    updated.DerivedFrom uid (some existing) := by
  obtain ⟨-, -, hmetadata⟩ := converged_eq h
  obtain ⟨owner, hcontroller, howner, howners⟩ := desired_owners hdesired huid
  refine ⟨?_, fun label hne => label?_converged hdesired h hne, ?_⟩
  · rcases owners_converged h with ⟨-, hkept⟩ | ⟨hnone, hadded⟩
    · exact Or.inl hkept
    · exact Or.inr ⟨hnone, owner, hcontroller, howner, howners ▸ hadded⟩
  · rintro _ ⟨⟩
    rw [hmetadata]

/-- What is desired is as wanted, -/
theorem madeFor_desired (hdesired : BuildTemplate.desired r strategy = .ok desired)
    (huid : r.uid = .ok uid) :
    desired.MadeFor r strategy uid := by
  obtain ⟨hlabels, hown⟩ := desired_eq hdesired
  refine ⟨hown uid huid, (desired_place hdesired).2, ?_⟩
  rw [Metadata.label?, hlabels, Option.bind_some]
  exact (SortedMap.get?_insert _ _ _ _).trans (if_pos rfl)

/-- and made from nothing. -/
theorem derivedFrom_desired (hdesired : BuildTemplate.desired r strategy = .ok desired)
    (huid : r.uid = .ok uid) :
    desired.DerivedFrom uid none := by
  obtain ⟨owner, hcontroller, howner, howners⟩ := desired_owners hdesired huid
  refine ⟨Or.inr ⟨rfl, owner, hcontroller, howner, howners⟩, fun label hne => ?_, ?_⟩
  · rw [Metadata.label?, (desired_eq hdesired).1, Option.bind_some]
    exact (SortedMap.get?_insert _ _ _ _).trans (if_neg hne)
  · rintro _ ⟨⟩

end

end BuildTemplate

/-! ## Ends -/

/-- An act that settles nothing: no template was found that is as wanted, or a write was refused. -/
def Act.Fruitless (desired : BuildTemplate) (uid : String) : Act → Prop
  | .getTemplate _ answer => ∀ t, answer = .ok (some t) → t.converged desired uid ≠ .ok t
  | .createTemplate template answer => template = desired ∧ ∃ e, answer = .error e
  | .replaceTemplate _ answer => ∃ e, answer = .error e
  | .sleep _ => True
  | _ => False

/-- With which error an attempt fails if its creation of a template does: that there is one already
is a lost race. -/
def StoreError.ofCreation : StoreError → StoreError
  | .alreadyExists kind name => .conflict kind name
  | error => error

/-- An act for which an attempt fails with this error. -/
def Act.FailsWith (error : StoreError) : Act → Prop
  | .getTemplate _ answer => answer = .error error
  | .createTemplate _ answer => ∃ e, answer = .error e ∧ error = e.ofCreation
  | .replaceTemplate _ answer => answer = .error error
  | _ => False

section

variable (desired : BuildTemplate) (uid : String)

/-- After the acts `earlier`, this one obtained the template `t`. -/
inductive Obtained (t : BuildTemplate) : Act → List Act → Prop
  | found {earlier : List Act} (ht : t.converged desired uid = .ok t) :
      Obtained t (.getTemplate desired.key (.ok (some t))) earlier
  | created {earlier : List Act} :
      Obtained t (.createTemplate desired (.ok t)) (.getTemplate desired.key (.ok none) :: earlier)
  | corrected {existing updated : BuildTemplate} {earlier : List Act}
      (hupdated : existing.converged desired uid = .ok updated) :
      Obtained t (.replaceTemplate updated (.ok t))
        (.getTemplate desired.key (.ok (some existing)) :: earlier)

/-- How making a template as desired ends, and after which acts. -/
inductive TemplateEnds : Except BuildError BuildTemplate → List Act → Prop
  | obtained {t : BuildTemplate} {act : Act} {earlier : List Act}
      (hobtained : Obtained desired uid t act earlier)
      (hearlier : ∀ a ∈ earlier, a.Fruitless desired uid) : TemplateEnds (.ok t) (act :: earlier)
  /-- someone else's template was found -/
  | foreign {t : BuildTemplate} {e : BuildError} {earlier : List Act}
      (ht : t.converged desired uid = .error e)
      (hearlier : ∀ a ∈ earlier, a.Fruitless desired uid) :
      TemplateEnds (.error e) (.getTemplate desired.key (.ok (some t)) :: earlier)
  /-- a call failed -/
  | failed {error : StoreError} {act : Act} {earlier : List Act} (hact : act.FailsWith error)
      (hacts : ∀ a ∈ act :: earlier, a.Fruitless desired uid) :
      TemplateEnds (.error (.store error)) (act :: earlier)

end

section

variable {desired : BuildTemplate} {uid : String} {result : Except BuildError BuildTemplate}
  {act : Act} {later earlier acts : List Act}

/-- An attempt that fails leaves nothing but fruitless acts. -/
theorem TemplateEnds.fruitless {e : BuildError} (h : TemplateEnds desired uid (.error e) acts) :
    ∀ a ∈ acts, a.Fruitless desired uid := by
  cases h with
  | foreign ht hearlier =>
    refine List.forall_mem_cons.mpr ⟨?_, hearlier⟩
    rintro t ⟨⟩ hsame
    exact nomatch ht.symm.trans hsame
  | failed _ hacts => exact hacts

/-- **Each act of the run** was fruitless, or it is the last one and obtained the result.  So who
sees an act with an effect in the middle of a run knows that it had none. -/
theorem TemplateEnds.fruitless_or_obtained
    (h : TemplateEnds desired uid result (later ++ act :: earlier)) :
    act.Fruitless desired uid ∨
      (later = [] ∧ ∃ t, result = .ok t ∧ Obtained desired uid t act earlier) := by
  have hact : act ∈ later ++ act :: earlier := List.mem_append_right _ List.mem_cons_self
  cases result with
  | error e => exact Or.inl (h.fruitless act hact)
  | ok t =>
    -- the run succeeded by the act in front of all others, which is this one if none came later
    generalize hacts : later ++ act :: earlier = acts at h
    cases h with
    | obtained hobtained hearlier =>
      cases later with
      | nil =>
        obtain ⟨rfl, rfl⟩ := List.cons.inj hacts
        exact Or.inr ⟨rfl, t, rfl, hobtained⟩
      | cons last later =>
        obtain ⟨-, rfl⟩ := List.cons.inj hacts
        exact Or.inl (hearlier act (List.mem_append_right _ List.mem_cons_self))

/-- A run that succeeds does so by its last act. -/
theorem TemplateEnds.last {t : BuildTemplate} (h : TemplateEnds desired uid (.ok t) acts) :
    ∃ act earlier, acts = act :: earlier ∧ Obtained desired uid t act earlier := by
  cases h with
  | obtained hobtained _ => exact ⟨_, _, rfl, hobtained⟩

/-- One attempt, after others that came to nothing. -/
theorem meets_applyEnds (hacts : ∀ a ∈ acts, a.Fruitless desired uid) :
    Meets (fun _ _ => True) (BuildTemplate.apply desired uid)
      (fun t => TemplateEnds desired uid (.ok t))
      (fun e => TemplateEnds desired uid (.error e)) acts := by
  have hmore : ∀ {a}, a.Fruitless desired uid → ∀ b ∈ a :: acts, b.Fruitless desired uid :=
    fun ha => List.forall_mem_cons.mpr ⟨ha, hacts⟩
  unfold BuildTemplate.apply
  refine (meets_bind _ _).mpr ((meets_callPass _).mpr fun answer => ⟨trivial, ?_, ?_⟩)
  · rintro (_ | t) rfl
    · have hread := hmore (a := .getTemplate desired.key (.ok none)) fun _ h =>
        nomatch Except.ok.inj h
      refine (meets_tryCatch _ _).mpr ((meets_callPass _).mpr fun answer => ⟨trivial, ?_, ?_⟩)
      · rintro t rfl
        exact .obtained .created hread
      · rintro e rfl
        -- whichever way the creation was refused, this is why the attempt fails
        cases e <;> exact .failed ⟨_, rfl, rfl⟩ (List.forall_mem_cons.mpr ⟨⟨rfl, _, rfl⟩, hread⟩)
    · refine (meets_bind _ _).mpr
        ((meets_monadLift _).mpr ⟨fun updated hupdated => ?_, fun e he => ?_⟩)
      · show Meets _ (if _ then _ else _ : Pass _) _ _ _
        split
        · next hsame => exact .obtained (.found (hsame ▸ hupdated)) hacts
        · next hchanged =>
          have hread := hmore (a := .getTemplate desired.key (.ok (some t))) <| by
            rintro _ ⟨⟩ hsame
            exact hchanged (Except.ok.inj (hupdated.symm.trans hsame))
          refine (meets_callPass _).mpr fun answer => ⟨trivial, ?_, ?_⟩
          · rintro t' rfl
            exact .obtained (.corrected hupdated) hread
          · rintro e rfl
            exact .failed rfl (List.forall_mem_cons.mpr ⟨⟨_, rfl⟩, hread⟩)
      · exact .foreign he hacts
  · rintro e rfl
    exact .failed rfl (hmore (a := .getTemplate desired.key (.error _)) fun _ h => nomatch h)

/-- **How making the template of a request ends.** -/
theorem meets_reconcileEnds {r : BuildRequest} {strategy : String} {retry : RetryPolicy}
    (hdesired : BuildTemplate.desired r strategy = .ok desired) (huid : r.uid = .ok uid) :
    Meets (fun _ _ => True) (BuildTemplate.reconcile r strategy retry)
      (fun t => TemplateEnds desired uid (.ok t))
      (fun e => TemplateEnds desired uid (.error e)) [] := by
  unfold BuildTemplate.reconcile
  rw [hdesired, huid]
  -- an attempt that is followed by another one failed, so all acts before each were fruitless
  refine meets_retryOnConflict (fun acts => ∀ a ∈ acts, a.Fruitless desired uid) (fun hacts => ?_)
    (List.forall_mem_nil _)
  exact (meets_applyEnds hacts).mono (fun _ _ h => h) fun _ _ h =>
    ⟨h, fun _ => ⟨trivial, List.forall_mem_cons.mpr ⟨trivial, h.fruitless⟩⟩⟩

end

/-! ## The store -/

/-- The template that was read last, if there was one. -/
def lastTemplate? : List Act → Option BuildTemplate
  | [] => none
  | .getTemplate _ (.ok found) :: _ => found
  | _ :: acts => lastTemplate? acts

/-- What the last act of a run does to the store that makes the template of a request and returns
`t`, `read` being what was read last. -/
structure TemplateMade (r : BuildRequest) (strategy uid : String) (read : Option BuildTemplate)
    (t : BuildTemplate) (before after : MemoryStore) : Prop where
  stored : after.templates.get? ⟨r.namespace, r.templateName⟩ = some t
  madeFor : t.MadeFor r strategy uid
  /-- its specification is the request's, in every field -/
  translated : t.spec.Translates r.spec strategy
  /-- what was read last is still there -/
  current : before.templates.get? ⟨r.namespace, r.templateName⟩ = read
  derived : t.DerivedFrom uid read
  templates : after.templates = before.templates ∨
    after.templates = before.templates.insert ⟨r.namespace, r.templateName⟩ t

section

variable {ι : Type} {ρ : ι → Type} [DecidableEq ι] {s : System ι ρ} {i : ι} {r : BuildRequest}
  {strategy uid : String} {desired t : BuildTemplate} {act : Act} {store : MemoryStore}

/-- An act that fails such an attempt is a call about templates, -/
theorem Act.FailsWith.isOfTemplate {error : StoreError} (h : act.FailsWith error) :
    act.IsOfTemplate := by
  cases act <;> first
    | exact h.elim
    | trivial

/-- and so is one that obtains a template. -/
theorem Obtained.isOfTemplate {earlier : List Act} (h : Obtained desired uid t act earlier) :
    act.IsOfTemplate := by
  cases h <;> trivial

/-- Who obtains a template has come to something. -/
theorem Obtained.not_fruitless {earlier : List Act} (h : Obtained desired uid t act earlier) :
    ¬ act.Fruitless desired uid := by
  cases h with
  | found ht => exact fun hne => hne t rfl ht
  | created => exact fun h => nomatch h.2
  | corrected _ => exact fun h => nomatch h

/-- What came to nothing left the templates as they were: a look changes nothing, and neither does a
write that is refused. -/
theorem Act.Fruitless.templates_eq {before after : MemoryStore} (h : act.Fruitless desired uid)
    (heffect : act.TemplateEffect before after) : after.templates = before.templates := by
  cases act with
  | getTemplate key answer =>
    cases answer with
    | error e => exact heffect
    | ok found => exact heffect.2
  | createTemplate template answer =>
    obtain ⟨-, e, rfl⟩ := h
    exact heffect
  | replaceTemplate template answer =>
    obtain ⟨e, rfl⟩ := h
    exact heffect
  | _ => exact heffect

/-- **The step.**  What is stored before an act by which a template is obtained is what was read
last. -/
theorem Obtained.made (h : Obtained desired uid t act (s.acts i)) (hanswer : s.Answers act store)
    (hkeyed : s.TemplatesKeyed) (hdated : s.TemplatesDated)
    (hdesired : BuildTemplate.desired r strategy = .ok desired) (huid : r.uid = .ok uid) :
    TemplateMade r strategy uid (lastTemplate? (act :: s.acts i)) t s.store store := by
  have heffect := hanswer.templateEffect
  have hplace := (BuildTemplate.desired_place hdesired).1
  generalize hacts : s.acts i = acts at h
  cases h with
  | found ht =>
    -- it was found, and a look leaves the store
    obtain ⟨hfound, hsame⟩ := heffect
    rw [hplace] at hfound
    have hmadeFor := (BuildTemplate.converged_eq_self_iff hdesired huid).mp ht
    exact ⟨by rw [hsame, hfound], hmadeFor, BuildTemplateSpec.translates_iff.mpr hmadeFor.spec,
      hfound.symm, BuildTemplate.derivedFrom_converged hdesired huid ht, Or.inl hsame⟩
  | created =>
    -- it was created, so nothing was in its place
    obtain ⟨hnone, hstore, -, uid', hwritten⟩ := heffect
    rw [hplace] at hnone hstore
    have hmadeFor : t.MadeFor r strategy uid := by
      rw [hwritten]
      obtain ⟨howned, hspec, hlabel⟩ := BuildTemplate.madeFor_desired hdesired huid
      exact ⟨howned, hspec, hlabel⟩
    refine ⟨by rw [hstore, SortedMap.get?_insert, if_pos rfl], hmadeFor,
      BuildTemplateSpec.translates_iff.mpr hmadeFor.spec, hnone, ?_, Or.inr hstore⟩
    · rw [hwritten]
      obtain ⟨howners, hlabels, -⟩ := BuildTemplate.derivedFrom_desired hdesired huid
      exact ⟨howners, hlabels, by rintro _ ⟨⟩⟩
  | @corrected existing updated earlier hupdated =>
    -- it was corrected: the write says the version of what was read, so that is what is stored
    obtain ⟨stored, hstored, hversion, hstore, -, hwritten⟩ := heffect
    have hfound : .getTemplate desired.key (.ok (some existing)) ∈ s.acts i :=
      hacts ▸ List.mem_cons_self
    have hkey : updated.key = desired.key :=
      (BuildTemplate.key_converged hupdated).trans (hkeyed.told hfound)
    rw [hkey] at hstored hstore
    rw [(BuildTemplate.converged_eq hupdated).2.2] at hversion
    obtain rfl : stored = existing := hdated.eq_of_version hfound hstored hversion
    rw [hplace] at hstored hstore
    have hmadeFor : t.MadeFor r strategy uid := by
      rw [hwritten]
      obtain ⟨howned, hspec, hlabel⟩ := BuildTemplate.madeFor_of_converged hdesired huid hupdated
      exact ⟨howned, hspec, hlabel⟩
    obtain ⟨howners, hlabels, -⟩ := BuildTemplate.derivedFrom_converged hdesired huid hupdated
    refine ⟨by rw [hstore, SortedMap.get?_insert, if_pos rfl], hmadeFor,
      BuildTemplateSpec.translates_iff.mpr hmadeFor.spec, hstored, ?_, Or.inr hstore⟩
    · rw [hwritten]
      refine ⟨howners, hlabels, ?_⟩
      rintro _ ⟨⟩
      rfl

end

/-! ## One program among others -/

/-- The event is the last act of program `i`, which is a call about templates. -/
def Event.IsLast {ι : Type} [DecidableEq ι] (e : Event ι) (i : ι) (log : List (Event ι)) : Prop :=
  ∃ later earlier act, log = later ++ e :: earlier ∧ actsOf i later = [] ∧ e.cause = .act i act ∧
    act.IsOfTemplate

/-- The last act is in front of all others. -/
theorem Event.IsLast.cause_eq {ι : Type} [DecidableEq ι] {e : Event ι} {i : ι}
    {log : List (Event ι)} {act : Act} {acts : List Act} (h : e.IsLast i log)
    (hacts : actsOf i log = act :: acts) : e.cause = .act i act := by
  obtain ⟨later, earlier, act', rfl, hlast, hcause, -⟩ := h
  rw [actsOf_append_cons hcause, hlast] at hacts
  rw [hcause, (List.cons.inj hacts).1]

/-- What comes of a program that makes the template of a request with this uid, the last one that
was read being `lastTemplate?` of its acts.  Everything is said of the store before and after an
event of the log, so others may have written in between. -/
structure MakesTemplate {ι : Type} [DecidableEq ι] (r : BuildRequest) (strategy uid : String)
    (i : ι) (log : List (Event ι)) (result : Except BuildError BuildTemplate) : Prop where
  /-- what is returned is stored when the last call was made, is as wanted, and was made from what
  was read last -/
  made : ∀ t, result = .ok t → ∃ e : Event ι, e.IsLast i log ∧
    TemplateMade r strategy uid (lastTemplate? (actsOf i log)) t e.before e.after
  /-- no act changes a template but the last one of a program that succeeds, and that one only the
  request's -/
  writes : ∀ e ∈ log, e.actor? = some i → e.after.templates ≠ e.before.templates → e.IsLast i log ∧
    ∃ t, result = .ok t ∧
      e.after.templates = e.before.templates.insert ⟨r.namespace, r.templateName⟩ t
  /-- who reads a template that is as wanted does nothing more, and changed nothing before -/
  asRead : ∀ t, .getTemplate ⟨r.namespace, r.templateName⟩ (.ok (some t)) ∈ actsOf i log →
    t.MadeFor r strategy uid →
    result = .ok t ∧
    (∃ earlier, actsOf i log =
      .getTemplate ⟨r.namespace, r.templateName⟩ (.ok (some t)) :: earlier) ∧
    ∀ e ∈ log, e.actor? = some i → e.after.templates = e.before.templates
  /-- a template is created in the request's place if there is none, and a refusal changes
  nothing -/
  creates : ∀ e ∈ log, ∀ template answer, e.cause = .act i (.createTemplate template answer) →
    template.key = ⟨r.namespace, r.templateName⟩ ∧
    (∀ t, answer = .ok t → e.before.templates.get? ⟨r.namespace, r.templateName⟩ = none) ∧
    ∀ error, answer = .error error → e.after.templates = e.before.templates
  /-- a conflict is reported if someone else controls the template when it is read last, and nothing
  was changed -/
  conflict : ∀ kind name owner, result = .error (.ownedByOther kind name owner) →
    kind = .template ∧ name = r.templateName ∧
    (∃ (e : Event ι) (t : BuildTemplate) (c : OwnerReference), e.IsLast i log ∧
      e.cause = .act i (.getTemplate ⟨r.namespace, r.templateName⟩ (.ok (some t))) ∧
      e.before.templates.get? ⟨r.namespace, r.templateName⟩ = some t ∧
      t.metadata.controller? = some c ∧ c.uid ≠ uid ∧ owner = c.kind ++ "/" ++ c.name) ∧
    ∀ e ∈ log, e.actor? = some i → e.after.templates = e.before.templates
  /-- any other error is that of the last call, which failed -/
  fails : ∀ error, result = .error error →
    (∃ kind name owner, error = .ownedByOther kind name owner) ∨
    ∃ (e : Event ι) (act : Act) (storeError : StoreError), error = .store storeError ∧
      e.IsLast i log ∧
      e.cause = .act i act ∧ act.FailsWith storeError

/-! ## The result -/

/-- Someone else controls the template that cannot be made as desired. -/
theorem BuildTemplate.converged_eq_error {existing desired : BuildTemplate} {uid : String}
    {e : BuildError} (h : existing.converged desired uid = .error e) :
    ∃ c, existing.metadata.controller? = some c ∧ c.uid ≠ uid ∧
      e = .ownedByOther .template desired.name (c.kind ++ "/" ++ c.name) := by
  unfold converged at h
  split at h
  · next owner hforeign =>
    unfold Ownership.of at hforeign
    split at hforeign
    · next c hc =>
      split at hforeign
      · cases hforeign
      · next hne =>
        obtain rfl := Ownership.foreign.inj hforeign
        exact ⟨c, hc, hne, (Except.error.inj h).symm⟩
    · cases hforeign
  · cases h

section

variable {ι : Type} {ρ : ι → Type} [DecidableEq ι] {w : Surroundings} {store : MemoryStore}
  {now : Instant} {pool : (i : ι) → Program (ρ i)} {s : System ι ρ} {i : ι} {r : BuildRequest}
  {strategy uid : String} {desired : BuildTemplate} {result : Except BuildError BuildTemplate}

/-- A template that was read and is as wanted ends the run. -/
theorem TemplateEnds.found {t : BuildTemplate}
    (hends : TemplateEnds desired uid result (s.acts i))
    (hdesired : BuildTemplate.desired r strategy = .ok desired) (huid : r.uid = .ok uid)
    (hread : .getTemplate desired.key (.ok (some t)) ∈ s.acts i)
    (hmadeFor : t.MadeFor r strategy uid) :
    result = .ok t ∧ ∃ earlier, s.acts i = .getTemplate desired.key (.ok (some t)) :: earlier := by
  obtain ⟨later, earlier, hacts⟩ := List.append_of_mem hread
  rw [hacts] at hends
  obtain hfruitless | ⟨rfl, t', rfl, hobtained⟩ := hends.fruitless_or_obtained
  · exact absurd ((BuildTemplate.converged_eq_self_iff hdesired huid).mpr hmadeFor)
      (hfruitless t rfl)
  · cases hobtained
    exact ⟨rfl, earlier, hacts⟩

/-- A conflict ends the run when someone else's template is read. -/
theorem TemplateEnds.conflict {kind : ResourceKind} {name owner : String}
    (hends : TemplateEnds desired uid (.error (.ownedByOther kind name owner)) (s.acts i)) :
    kind = .template ∧ name = desired.name ∧ ∃ t c earlier,
      s.acts i = .getTemplate desired.key (.ok (some t)) :: earlier ∧
        t.metadata.controller? = some c ∧
        c.uid ≠ uid ∧ owner = c.kind ++ "/" ++ c.name := by
  generalize s.acts i = acts at hends ⊢
  cases hends with
  | @foreign t _ earlier ht _ =>
    obtain ⟨c, hc, hne, herror⟩ := BuildTemplate.converged_eq_error ht
    obtain ⟨rfl, rfl, rfl⟩ := BuildError.ownedByOther.inj herror
    exact ⟨rfl, rfl, t, c, earlier, rfl, hc, hne, rfl⟩

/-- Any other error is that of the last call. -/
theorem TemplateEnds.failure {error : BuildError}
    (hends : TemplateEnds desired uid (.error error) (s.acts i)) :
    (∃ kind name owner, error = .ownedByOther kind name owner) ∨
      ∃ (e : Event ι) (act : Act) (storeError : StoreError), error = .store storeError ∧
        e.IsLast i s.log ∧
        e.cause = .act i act ∧ act.FailsWith storeError := by
  generalize hacts : s.acts i = acts at hends
  cases hends with
  | foreign ht _ =>
    obtain ⟨c, -, -, rfl⟩ := BuildTemplate.converged_eq_error ht
    exact Or.inl ⟨_, _, _, rfl⟩
  | failed hact _ =>
    obtain ⟨later, e, earlier, hlog, hcause, -, hlast⟩ := exists_last_event hacts
    exact Or.inr ⟨e, _, _, rfl, ⟨later, earlier, _, hlog, hlast, hcause, hact.isOfTemplate⟩,
      hcause, hact⟩

variable (hdesired : BuildTemplate.desired r strategy = .ok desired) (huid : r.uid = .ok uid)
  (hrun : Reaches w (start store now pool) s) (hmade : store.Made)

include hdesired huid hrun hmade

/-- **Each act of the program** came to nothing, or it is the last one and made the template. -/
theorem TemplateEnds.event (hends : TemplateEnds desired uid result (s.acts i)) {e : Event ι}
    (he : e ∈ s.log) {act : Act} (hcause : e.cause = .act i act) :
    act.TemplateEffect e.before e.after ∧ (act.Fruitless desired uid ∨
      ∃ t earlier, e.IsLast i s.log ∧ result = .ok t ∧ Obtained desired uid t act earlier ∧
        TemplateMade r strategy uid (lastTemplate? (actsOf i s.log)) t e.before e.after) := by
  obtain ⟨later, earlier, hlog⟩ := List.append_of_mem he
  have hobeys : (start store now pool).Obeys (fun _ _ _ => True) (fun _ _ _ => True) :=
    fun j => (pool j).obeys_of_forall (fun _ _ => trivial) (fun _ _ => trivial) _
  -- the state in which the act was answered
  obtain ⟨s₁, h₁⟩ := hrun.moment hobeys rfl hlog
  obtain ⟨hanswer, -⟩ := h₁.act i act hcause
  rw [← h₁.store_eq]
  refine ⟨hanswer.templateEffect, ?_⟩
  have hacts : s.acts i = actsOf i later ++ act :: s₁.acts i := by
    rw [System.acts, System.acts, h₁.log_eq, hlog, actsOf_append_cons hcause]
  rw [hacts] at hends
  refine hends.fruitless_or_obtained.imp_right ?_
  rintro ⟨hlast, t, rfl, hobtained⟩
  -- it was the last act, so what was read last is told by all acts of the program
  have hread : actsOf i s.log = act :: s₁.acts i := by
    rw [← List.nil_append (act :: _), ← hlast]
    exact hacts
  rw [hread]
  exact ⟨t, _, ⟨later, earlier, act, hlog, hlast, hcause, hobtained.isOfTemplate⟩, rfl, hobtained,
    hobtained.made hanswer (h₁.reaches.templatesKeyed hmade) (h₁.reaches.templatesDated hmade)
      hdesired huid⟩

/-- An act that changes a template is the last one, and made the result. -/
theorem TemplateEnds.writes (hends : TemplateEnds desired uid result (s.acts i)) {e : Event ι}
    (he : e ∈ s.log) (hactor : e.actor? = some i) (hne : e.after.templates ≠ e.before.templates) :
    e.IsLast i s.log ∧
      ∃ t, result = .ok t ∧
        TemplateMade r strategy uid (lastTemplate? (actsOf i s.log)) t e.before e.after := by
  obtain ⟨act, hcause⟩ := Event.actor?_eq_some.mp hactor
  obtain ⟨heffect, hfruitless | ⟨t, _, hlast, hresult, -, hmade⟩⟩ :=
    hends.event hdesired huid hrun hmade he hcause
  · exact absurd (hfruitless.templates_eq heffect) hne
  · exact ⟨hlast, t, hresult, hmade⟩

/-- What is returned was made by the last act. -/
theorem TemplateEnds.made {t : BuildTemplate}
    (hends : TemplateEnds desired uid (.ok t) (s.acts i)) :
    ∃ e : Event ι, e.IsLast i s.log ∧
      TemplateMade r strategy uid (lastTemplate? (actsOf i s.log)) t e.before e.after := by
  obtain ⟨act, earlier, hacts, hobtained⟩ := hends.last
  obtain ⟨later, e, _, hlog, hcause, -⟩ := exists_last_event hacts
  have he : e ∈ s.log := hlog ▸ List.mem_append_right _ List.mem_cons_self
  obtain ⟨-, hfruitless | ⟨t, _, hlast, ⟨⟩, -, hmade⟩⟩ :=
    hends.event hdesired huid hrun hmade he hcause
  · exact absurd hfruitless hobtained.not_fruitless
  · exact ⟨e, hlast, hmade⟩

/-- **What a program makes** that ends in one of these ways. -/
theorem TemplateEnds.makes (hends : TemplateEnds desired uid result (s.acts i)) :
    MakesTemplate r strategy uid i s.log result := by
  have hplace := (BuildTemplate.desired_place hdesired).1
  refine ⟨?_, fun e he hactor hne => ?_, fun t hread hmadeFor => ?_,
    fun e he template answer hcause => ?_, ?_, ?_⟩
  · rintro t rfl
    exact hends.made hdesired huid hrun hmade
  · obtain ⟨hlast, t, hresult, hmade⟩ := hends.writes hdesired huid hrun hmade he hactor hne
    exact ⟨hlast, t, hresult, hmade.templates.resolve_left hne⟩
  · rw [← hplace] at hread ⊢
    obtain ⟨hresult, earlier, hacts⟩ := hends.found hdesired huid hread hmadeFor
    refine ⟨hresult, ⟨earlier, hacts⟩, fun e he hactor => ?_⟩
    by_contra hne
    -- what changes a template is the last act, and that was the read
    obtain ⟨hlast, -⟩ := hends.writes hdesired huid hrun hmade he hactor hne
    exact hne (hends.event hdesired huid hrun hmade he (hlast.cause_eq hacts)).1.2
  · obtain ⟨heffect, ⟨rfl, error, rfl⟩ | ⟨t, _, -, -, hobtained, -⟩⟩ :=
      hends.event hdesired huid hrun hmade he hcause
    · refine ⟨hplace, ?_, fun _ _ => heffect⟩
      rintro _ ⟨⟩
    · cases hobtained
      refine ⟨hplace, fun _ _ => hplace ▸ heffect.1, ?_⟩
      rintro _ ⟨⟩
  · rintro kind name owner rfl
    obtain ⟨hkind, rfl, t, c, earlier, hacts, hc, hne, howner⟩ := hends.conflict
    obtain ⟨later, e, _, hlog, hcause, -, hlast⟩ := exists_last_event hacts
    have he : e ∈ s.log := hlog ▸ List.mem_append_right _ List.mem_cons_self
    obtain ⟨hfound, -⟩ := (hends.event hdesired huid hrun hmade he hcause).1
    rw [hplace] at hcause hfound
    refine ⟨hkind, congrArg ObjectKey.name hplace,
      ⟨e, t, c, ⟨later, _, _, hlog, hlast, hcause, trivial⟩, hcause,
      hfound.symm, hc, hne, howner⟩, fun e he hactor => ?_⟩
    by_contra hne
    obtain ⟨-, _, ⟨⟩, -⟩ := hends.writes hdesired huid hrun hmade he hactor hne
  · rintro error rfl
    exact hends.failure

end

/-- The program `p`, and others besides. -/
def besides {κ : Type} {α : Type} {σ : κ → Type} (p : Program α)
    (others : (k : κ) → Program (σ k)) :
    (i : Option κ) → Program (i.elim α σ)
  | none => p
  | some k => others k

/-- **A template that is made as a request wants it**, whatever other programs do and whoever else
writes.  What is returned is as wanted when the last call is made, and is made from what was read
last; of the template nothing is written besides. -/
theorem template_reconciled {κ : Type} [DecidableEq κ] {σ : κ → Type}
    {others : (k : κ) → Program (σ k)} {request : BuildRequest} {strategy name uid : String}
    {retry : RetryPolicy} {w : Surroundings} {store : MemoryStore} {now : Instant}
    {s : System (Option κ) fun i => i.elim (Except BuildError BuildTemplate) σ}
    {result : Except BuildError BuildTemplate} (hmade : store.Made)
    (hname : request.metadata.name = some name) (huid : request.metadata.uid = some uid)
    (hrun : Reaches w
      (start store now (besides (BuildTemplate.reconcile request strategy retry).run others)) s)
    (hdone : s.result? none = some result) :
    MakesTemplate request strategy uid none s.log result := by
  obtain ⟨desired, hdesired⟩ := BuildTemplate.exists_desired hname huid strategy
  have huid' := BuildRequest.uid_eq_ok.mpr huid
  have hobeys : (BuildTemplate.reconcile request strategy retry).run.Obeys (fun _ _ => True)
      (TemplateEnds desired uid) [] := by
    refine Program.Obeys.mono ?_ (meets_reconcileEnds hdesired huid')
    rintro (e | t) acts h <;> exact h
  -- the program ends in one of its ways, and its acts are those in the log
  have hends : TemplateEnds desired uid result (s.acts none) :=
    hrun.returned (i := none) hobeys hdone
  exact hends.makes hdesired huid' hrun hmade

/-! ## A run -/

/-- The request in the plain store. -/
def plainRequest : BuildRequest := (plainStore.requests.get? appKey).getD {}

/-- Two programs make the template of the same request. -/
def twoMakers : System (Option Unit) fun i => i.elim (Except BuildError BuildTemplate) fun _ =>
    Except BuildError BuildTemplate :=
  start plainStore (secondsIn 1)
    (besides (BuildTemplate.reconcile plainRequest "buildkit" {}).run fun _ =>
    (BuildTemplate.reconcile plainRequest "buildkit" {}).run)

/-- Both find no template, and the other one creates it first.  Someone replaces it by one that
nobody controls.  The creation is refused; after a pause that template is found. -/
def createdMeanwhile : List (Choice (Option Unit)) :=
  [.serve none, .serve (some ()), .serve (some ()), .deed (.putTemplate (foundTemplate "app" none)),
    .serve none, .serve none, .serve none, .serve none]

/-- What the first one returns. -/
def returnedTemplate : Option (Except BuildError BuildTemplate) :=
  (twoMakers.play createdMeanwhile).result? none

/-- The template is adopted in this run: it keeps its label and its owner, and gets those of the
request. -/
theorem template_reconciled_adopted : ∃ t, returnedTemplate = some (.ok t) ∧
    t.metadata.label? "team" = some "infra" ∧ t.metadata.owners.map (·.uid) = ["other", "uid-1"] ∧
    MakesTemplate plainRequest "buildkit" "uid-1" none (twoMakers.play createdMeanwhile).log
      (.ok t) := by
  obtain ⟨hpermits, hname, huid, result, hdone, t, ht, hlabel, howners⟩ :
      Permits (othersKeep appKey) twoMakers createdMeanwhile ∧
        plainRequest.metadata.name = some "app" ∧
      plainRequest.metadata.uid = some "uid-1" ∧
      ∃ result ∈ returnedTemplate, ∃ t ∈ result.toOption, t.metadata.label? "team" = some "infra" ∧
        t.metadata.owners.map (·.uid) = ["other", "uid-1"] := by
    decide +kernel
  obtain rfl : result = .ok t := by
    cases result with
    | error e => cases ht
    | ok t' => exact congrArg Except.ok (Option.some.inj ht)
  exact ⟨t, hdone, hlabel, howners,
    template_reconciled plainStore_made hname huid (reaches_play createdMeanwhile hpermits) hdone⟩

end PushBuild
