import PushBuild.Controller.Template
import PushBuild.Proofs.Interleaving.Act

/-!
# What it takes to make a template as desired

A pass makes the template of a request what it should be, and starts over when another writer was
faster.  Whatever it is answered, when it succeeds its last acts have one of three shapes, and this
file lists them.

1. **Templates.**  The template that is desired has the request's place, says what the request says
   and is its own (`BuildTemplate.desired_place`, `desired_eq`); a template that is corrected keeps
   its place, and is made to say the same (`converged_eq`) and to belong to the request
   (`converged_owned`).
2. **Ends.**  `Converged` is what has just been done: the template was found to be as desired, or it
   was created, or it was corrected.
3. **The rule** (`meets_reconcileTemplate`).  A duty that minds nothing about templates but which
   ones are corrected is kept, and the program ends in one of these ways.  Meanwhile it reads no
   request.
-/

namespace PushBuild

/-! ## Owners -/

/-- A request is asked for its uid and has one. -/
theorem BuildRequest.uid_eq_ok {r : BuildRequest} {uid : String} :
    r.uid = .ok uid ↔ r.metadata.uid = some uid := by
  unfold BuildRequest.uid
  split
  · next heq => rw [heq, Option.some_inj, Except.ok.injEq]
  · next heq => rw [heq]; exact ⟨nofun, nofun⟩

/-- A resource belongs to the request that its first controller reference names. -/
theorem Ownership.of_eq_owned {m : Metadata} {uid : String} :
    Ownership.of m uid = .owned ↔ ∃ r, m.controller? = some r ∧ r.uid = uid := by
  unfold Ownership.of
  split
  · next r hr =>
    rw [hr]
    split
    · next heq => exact ⟨fun _ => ⟨r, rfl, heq⟩, fun _ => rfl⟩
    · -- somebody else controls it
      next hne =>
      refine ⟨nofun, ?_⟩
      rintro ⟨_, ⟨⟩, heq⟩
      exact absurd heq hne
  · next hnone =>
    rw [hnone]
    exact ⟨nofun, fun ⟨_, h, _⟩ => nomatch h⟩

/-- Without a controller reference nobody owns a resource. -/
theorem Ownership.of_eq_unowned {m : Metadata} {uid : String} (h : m.controller? = none) :
    Ownership.of m uid = .unowned := by
  unfold Ownership.of
  rw [h]

/-- Nobody controls what neither this one nor someone else does. -/
theorem Ownership.controller?_eq_none {m : Metadata} {uid : String}
    (howned : Ownership.of m uid ≠ .owned)
    (hforeign : ∀ owner, Ownership.of m uid ≠ .foreign owner) : m.controller? = none := by
  unfold Ownership.of at howned hforeign
  split at howned
  · next r hr =>
    rw [hr] at hforeign
    split at howned
    · exact absurd rfl howned
    · next hne => exact absurd (if_neg hne) (hforeign _)
  · next hnone => exact hnone

namespace BuildTemplate

/-! ## Templates -/

/-- Where a desired template goes, and what it says. -/
theorem desired_place {r : BuildRequest} {strategy : String} {desired : BuildTemplate}
    (h : BuildTemplate.desired r strategy = .ok desired) :
    desired.key = ⟨r.namespace, r.templateName⟩ ∧ desired.spec = specFor r.spec strategy := by
  unfold BuildTemplate.desired BuildRequest.ownerReference at h
  split at h
  · obtain rfl := Except.ok.inj h
    exact ⟨rfl, rfl⟩
  · cases h

/-- What a request desires is its own, and has one label. -/
theorem desired_eq {r : BuildRequest} {strategy : String} {desired : BuildTemplate}
    (h : BuildTemplate.desired r strategy = .ok desired) :
    desired.metadata.labels = some (SortedMap.ofList [(buildRequestLabel, r.name)]) ∧
      ∀ uid, r.uid = .ok uid → Ownership.of desired.metadata uid = .owned := by
  unfold BuildTemplate.desired BuildRequest.ownerReference at h
  split at h
  · next uid _ huid =>
    obtain rfl := Except.ok.inj h
    refine ⟨rfl, fun uid' huid' => ?_⟩
    obtain rfl := Option.some.inj (huid.symm.trans (BuildRequest.uid_eq_ok.mp huid'))
    simp [Ownership.of, Metadata.controller?, Metadata.owners]
  · cases h

/-- Setting one label. -/
theorem withLabels_one (labels : Option Labels) (label value : String) :
    withLabels labels (some (SortedMap.ofList [(label, value)])) =
      if labels.bind (·.get? label) = some value then labels
      else some ((labels.getD SortedMap.empty).insert label value) := rfl

/-- What converging changes: labels, owners and the specification. -/
theorem converged_eq {existing desired updated : BuildTemplate} {uid : String}
    (h : existing.converged desired uid = .ok updated) :
    updated.metadata.labels = withLabels existing.metadata.labels desired.metadata.labels ∧
      updated.spec = desired.spec ∧
      updated.metadata = { existing.metadata with
        labels := updated.metadata.labels,
        ownerReferences := updated.metadata.ownerReferences } := by
  unfold converged at h
  split at h
  · cases h
  · obtain rfl := Except.ok.inj h
    exact ⟨rfl, rfl, rfl⟩

/-- A template that is corrected stays in its place. -/
theorem key_converged {existing desired updated : BuildTemplate} {uid : String}
    (h : existing.converged desired uid = .ok updated) : updated.key = existing.key := by
  obtain ⟨-, -, hmetadata⟩ := converged_eq h
  rw [key, hmetadata]
  rfl

/-- Whose template is corrected keeps its owners, and one that nobody controls gets those that are
desired.  In neither case is an owner taken away. -/
theorem owners_converged {existing desired updated : BuildTemplate} {uid : String}
    (h : existing.converged desired uid = .ok updated) :
    (Ownership.of existing.metadata uid = .owned ∧
      updated.metadata.owners = existing.metadata.owners) ∨
      (existing.metadata.controller? = none ∧
        updated.metadata.owners = existing.metadata.owners ++ desired.metadata.owners) := by
  unfold converged at h
  split at h
  · cases h
  · next hforeign =>
    obtain rfl := Except.ok.inj h
    by_cases howned : Ownership.of existing.metadata uid = .owned
    · refine Or.inl ⟨howned, ?_⟩
      unfold Metadata.owners
      dsimp only
      rw [if_pos howned]
    · refine Or.inr ⟨Ownership.controller?_eq_none howned hforeign, ?_⟩
      unfold Metadata.owners
      dsimp only
      rw [if_neg howned]
      rfl

/-- Converging makes a template the request's. -/
theorem converged_owned {existing desired updated : BuildTemplate} {uid : String}
    (h : existing.converged desired uid = .ok updated)
    (howned : Ownership.of desired.metadata uid = .owned) :
    Ownership.of updated.metadata uid = .owned := by
  rcases owners_converged h with ⟨hexisting, howners⟩ | ⟨hnone, howners⟩
  · obtain ⟨r, hr, huid⟩ := Ownership.of_eq_owned.mp hexisting
    refine Ownership.of_eq_owned.mpr ⟨r, ?_, huid⟩
    unfold Metadata.controller? at hr ⊢
    rw [howners, hr]
  · -- nobody controls the template, so the request is its first controller
    obtain ⟨r, hr, huid⟩ := Ownership.of_eq_owned.mp howned
    refine Ownership.of_eq_owned.mpr ⟨r, ?_, huid⟩
    unfold Metadata.controller? at hnone hr ⊢
    rw [howners, List.find?_append, hnone, hr]
    rfl

end BuildTemplate

/-! ## Ends -/

section

variable (desired : BuildTemplate) (uid : String) (before : List Act)

/-- After `before` the stored template was made as desired. -/
inductive Converged : List Act → Prop
  | found {acts : List Act} {t : BuildTemplate} (hacts : before <:+ acts)
      (ht : t.converged desired uid = .ok t) :
      Converged (.getTemplate desired.key (.ok (some t)) :: acts)
  | created {acts : List Act} {w : BuildTemplate} (hacts : before <:+ acts) :
      Converged (.createTemplate desired (.ok w) :: acts)
  | corrected {acts : List Act} {t updated w : BuildTemplate} (hacts : before <:+ acts)
      (ht : t.converged desired uid = .ok updated) :
      Converged (.replaceTemplate updated (.ok w) :: .getTemplate desired.key
        (.ok (some t)) :: acts)

end

variable {desired : BuildTemplate} {uid : String} {before acts : List Act}

/-- What was done before is done still, -/
theorem Converged.suffix (h : Converged desired uid before acts) : before <:+ acts := by
  cases h with
  | found hacts _ => exact hacts.trans (List.suffix_cons _ _)
  | created hacts => exact hacts.trans (List.suffix_cons _ _)
  | corrected hacts _ => exact hacts.trans ⟨[_, _], rfl⟩

/-- and a template that was made as desired lately was so for whoever looks further back. -/
theorem Converged.of_suffix {earlier : List Act} (h : Converged desired uid before acts)
    (hearlier : earlier <:+ before) : Converged desired uid earlier acts := by
  cases h with
  | found hacts ht => exact .found (hearlier.trans hacts) ht
  | created hacts => exact .created (hearlier.trans hacts)
  | corrected hacts ht => exact .corrected (hearlier.trans hacts) ht

/-- A duty that does not mind what a program looks for and creates among templates, nor that it
pauses, and that lets it correct a template that it has just found, no request having been read
since `before`. -/
structure AllowsTemplates (duty : Duty) (desired : BuildTemplate) (uid : String)
    (before : List Act) :
    Prop where
  get : ∀ acts key answer, duty acts (.getTemplate key answer)
  create : ∀ acts template answer, duty acts (.createTemplate template answer)
  correct : ∀ {acts t updated} answer, lastRead? acts = lastRead? before →
    t.converged desired uid = .ok updated →
    duty (.getTemplate desired.key (.ok (some t)) :: acts) (.replaceTemplate updated answer)
  pause : ∀ acts time, duty acts (.sleep time)

variable {duty : Duty}

/-- One attempt.  It ends with the template as desired, or it fails and has read no request; the
duty is asked for its calls in the order in which they are made, the write only once the owner was
looked up. -/
theorem meets_applyTemplate (hduty : AllowsTemplates duty desired uid before)
    (hread : lastRead? acts = lastRead? before) :
    Meets duty (BuildTemplate.apply desired uid) (fun _ later => Converged desired uid acts later)
      (fun _ later => lastRead? later = lastRead? before) acts := by
  unfold BuildTemplate.apply
  refine (meets_bind _ _).mpr
    ((meets_callPass _).mpr fun answer => ⟨hduty.get _ _ _, ?_, fun _ he => ?_⟩)
  · rintro (_ | t) rfl
    · -- there is no template, so one is created
      refine (meets_tryCatch _ _).mpr
        ((meets_callPass _).mpr fun answer => ⟨hduty.create _ _ _, ?_, ?_⟩)
      · rintro w rfl
        exact .created (List.suffix_cons _ _)
      · rintro e rfl
        split <;> exact hread
    · -- there is one, which is left alone if converging changes nothing
      refine (meets_bind _ _).mpr
        ((meets_monadLift _).mpr ⟨fun updated hupdated => ?_, fun _ _ => hread⟩)
      show Meets _ (if _ then _ else _ : Pass _) _ _ _
      split
      · next hsame => exact .found List.suffix_rfl (hsame ▸ hupdated)
      · refine (meets_callPass _).mpr fun answer =>
          ⟨hduty.correct answer hread hupdated, ?_, fun _ he => ?_⟩
        · rintro w rfl
          exact .corrected List.suffix_rfl hupdated
        · exact he ▸ hread
  · exact he ▸ hread

/-- **What making a template as desired does.** -/
theorem meets_reconcileTemplate {r : BuildRequest} {strategy : String} {retry : RetryPolicy}
    (hduty : ∀ desired uid, BuildTemplate.desired r strategy = .ok desired → r.uid = .ok uid →
      AllowsTemplates duty desired uid acts) :
    Meets duty (BuildTemplate.reconcile r strategy retry)
      (fun _ later => ∃ desired uid, BuildTemplate.desired r strategy = .ok desired ∧
        Converged desired uid acts later)
      (fun _ _ => True) acts := by
  unfold BuildTemplate.reconcile
  refine meets_monadLift_bind fun desired hdesired => meets_monadLift_bind fun uid huid => ?_
  have hallows := hduty desired uid hdesired huid
  have hconverged :
        Meets duty (ExceptT.mk (retryOnConflict retry Program.sleep BuildError.isConflict
        (BuildTemplate.apply desired uid).run))
      (fun _ later => Converged desired uid acts later) (fun _ _ => True) acts := by
    -- every attempt comes after what was done before the first one, and reads no request
    refine meets_retryOnConflict (fun later => acts <:+ later ∧ lastRead? later = lastRead? acts)
      (fun hacts => ?_) ⟨List.suffix_rfl, rfl⟩
    refine (meets_applyTemplate hallows hacts.2).suffix.mono (fun _ _ h => h.2.of_suffix hacts.1)
      fun _ _ h => ?_
    exact ⟨trivial,
      fun _ => ⟨hallows.pause _ _, (hacts.1.trans h.1).trans (List.suffix_cons _ _), h.2⟩⟩
  exact hconverged.mono (fun _ _ h => ⟨desired, uid, hdesired, h⟩) fun _ _ h => h

end PushBuild
