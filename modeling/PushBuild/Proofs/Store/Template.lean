import PushBuild.Proofs.Store.Dated
import PushBuild.Proofs.Store.Version

/-!
# What becomes of templates

A template is created, or it is replaced by one that was made from it; nothing else that programs do
concerns templates, and what others do is to put one.  This file says so once, for every act and
every deed.

1. **Acts.**  `Act.TemplateEffect` says what a call did, given its answer, and however a call is
   answered, the one it got is right (`System.Answers.templateEffect`).  After an act that shows a
   template, that template is there (`Act.TemplateEffect.shown`).
2. **Deeds.**  `Deed.TemplateEffect` says the same of what others do.
3. **Keys.**  Every template is stored under its own key (`MemoryStore.Made.wellKeyed`), and
   programs are told of it under that key (`Reaches.templatesKeyed`).
4. **Versions.**  Of all templates that a run stored, one key and version has one, and programs were
   told of no others (`Reaches.templatesDated`).  So a template that is replaced is the one that was
   found (`System.TemplatesDated.eq_of_version`).
-/

namespace PushBuild

/-! ## Acts -/

/-- What an act did to the templates when the store went from `s` to `t`. -/
def Act.TemplateEffect (s t : MemoryStore) : Act → Prop
  | .getTemplate key (.ok found) => found = s.templates.get? key ∧ t.templates = s.templates
  | .createTemplate template (.ok written) =>
    s.templates.get? template.key = none ∧
    t.templates = s.templates.insert template.key written ∧ s.lastVersion < t.lastVersion ∧
    ∃ uid, written = { template with metadata := { template.metadata with
      uid := some uid, resourceVersion := some (toString t.lastVersion) } }
  | .replaceTemplate template (.ok written) => ∃ stored,
    s.templates.get? template.key = some stored ∧
    stored.metadata.resourceVersion = template.metadata.resourceVersion ∧
    t.templates = s.templates.insert template.key written ∧ s.lastVersion < t.lastVersion ∧
    written = { template with metadata := { stored.metadata with
      labels := template.metadata.labels
      ownerReferences := template.metadata.ownerReferences
      resourceVersion := some (toString t.lastVersion) } }
  | _ => t.templates = s.templates

namespace MemoryStore

variable {s t : MemoryStore}

/-- A template is created where none is. -/
theorem createTemplate_templates {template : BuildTemplate}
    {answer : Except StoreError BuildTemplate} (h : s.createTemplate template = (answer, t)) :
    (Act.createTemplate template answer).TemplateEffect s t := by
  unfold createTemplate at h
  split at h
  · obtain ⟨rfl, rfl⟩ := Prod.mk.inj h
    rfl
  · next hfree =>
    simp only [created, takeUid, takeVersion] at h
    obtain ⟨rfl, rfl⟩ := Prod.mk.inj h
    have hnone : s.templates.get? template.key = none := by simpa [SortedMap.contains] using hfree
    exact ⟨hnone, rfl, Nat.lt_succ_self _, _, rfl⟩

/-- A template is replaced, if the versions agree. -/
theorem replaceTemplate_templates {template : BuildTemplate}
    {answer : Except StoreError BuildTemplate} (h : s.replaceTemplate template = (answer, t)) :
    (Act.replaceTemplate template answer).TemplateEffect s t := by
  simp only [replaceTemplate, takeVersion] at h
  split at h
  · obtain ⟨rfl, rfl⟩ := Prod.mk.inj h
    rfl
  · next stored hstored =>
    split at h
    · -- the versions agree, and the template is written
      next hversion =>
      obtain ⟨rfl, rfl⟩ := Prod.mk.inj h
      exact ⟨stored, hstored, hversion, rfl, Nat.lt_succ_self _, rfl⟩
    · obtain ⟨rfl, rfl⟩ := Prod.mk.inj h
      rfl

/-- Writes to requests and executions leave templates alone. -/
theorem updateRequestStatus_templates {request : BuildRequest}
    {answer : Except StoreError BuildRequest} (h : s.updateRequestStatus request = (answer, t)) :
    t.templates = s.templates := by
  unfold updateRequestStatus at h
  split at h
  · obtain ⟨rfl, rfl⟩ := Prod.mk.inj h
    rfl
  · simp only [takeVersion] at h
    split at h
    · obtain ⟨rfl, rfl⟩ := Prod.mk.inj h
      rfl
    · split at h <;> obtain ⟨rfl, rfl⟩ := Prod.mk.inj h <;> rfl

/-- So do labels, -/
theorem setRequestLabel_templates {key : ObjectKey} {label : String} {value : Option String}
    {answer : Except StoreError Unit} (h : s.setRequestLabel key label value = (answer, t)) :
    t.templates = s.templates := by
  simp only [setRequestLabel, takeVersion] at h
  split at h <;> obtain ⟨rfl, rfl⟩ := Prod.mk.inj h <;> rfl

/-- and so do executions. -/
theorem createExecution_templates {execution : BuildExecution}
    {answer : Except StoreError BuildExecution} (h : s.createExecution execution = (answer, t)) :
    t.templates = s.templates := by
  unfold createExecution at h
  split at h
  · obtain ⟨rfl, rfl⟩ := Prod.mk.inj h
    rfl
  · simp only [created, takeUid, takeVersion] at h
    obtain ⟨rfl, rfl⟩ := Prod.mk.inj h
    rfl

end MemoryStore

namespace Act

variable {act : Act} {s t : MemoryStore} {now : Instant}

/-- An act that failed did nothing, -/
theorem Failed.templateEffect (h : act.Failed) : act.TemplateEffect s s := by
  cases act <;> first
    | exact h.elim
    | (obtain ⟨e, rfl⟩ := h; rfl)

/-- neither did one that was told of an old store, -/
theorem Outdated.templateEffect {past : List MemoryStore} (h : act.Outdated past) :
    act.TemplateEffect s s := by
  cases act <;> first | exact h.elim | rfl

/-- and one that was answered did what the store does. -/
theorem Served.templateEffect (h : act.Served s now t) : act.TemplateEffect s t := by
  have hfailed : ∀ {act : Act}, t = s → act.Failed → act.TemplateEffect s t := by
    rintro act rfl hact
    exact hact.templateEffect
  cases act with
  | updateRequestStatus request answer =>
    rcases MemoryStore.call_eq h with ⟨hts, hact⟩ | h
    · exact hfailed hts hact
    · exact MemoryStore.updateRequestStatus_templates h
  | setRequestLabel key label value answer =>
    rcases MemoryStore.call_eq h with ⟨hts, hact⟩ | h
    · exact hfailed hts hact
    · exact MemoryStore.setRequestLabel_templates h
  | createTemplate template answer =>
    rcases MemoryStore.call_eq h with ⟨hts, hact⟩ | h
    · exact hfailed hts hact
    · exact MemoryStore.createTemplate_templates h
  | replaceTemplate template answer =>
    rcases MemoryStore.call_eq h with ⟨hts, hact⟩ | h
    · exact hfailed hts hact
    · exact MemoryStore.replaceTemplate_templates h
  | createExecution execution answer =>
    rcases MemoryStore.call_eq h with ⟨hts, hact⟩ | h
    · exact hfailed hts hact
    · exact MemoryStore.createExecution_templates h
  | getTemplate key answer =>
    rcases MemoryStore.call_eq h with ⟨hts, hact⟩ | h
    · exact hfailed hts hact
    · obtain ⟨rfl, rfl⟩ := Prod.mk.inj h
      exact ⟨rfl, rfl⟩
  | now time =>
    rw [h.2]
    rfl
  | sleep time =>
    have h : t = s := h
    rw [h]
    rfl
  -- the calls that are left read something else
  | _ =>
    rcases MemoryStore.call_eq h with ⟨hts, hact⟩ | h
    · exact hfailed hts hact
    · obtain ⟨rfl, rfl⟩ := Prod.mk.inj h
      rfl

end Act

/-- **What an act did to templates**, however it was answered. -/
theorem System.Answers.templateEffect {ι : Type} {ρ : ι → Type} {s : System ι ρ} {act : Act}
    {t : MemoryStore} (h : s.Answers act t) : act.TemplateEffect s.store t := by
  rcases h with h | ⟨rfl, h | h⟩
  · exact h.templateEffect
  · exact h.templateEffect
  · exact h.templateEffect

/-- The template that an act showed, as it is stored then: where it is, and what it says. -/
def Act.shown? : Act → Option (ObjectKey × BuildTemplateSpec)
  | .getTemplate key (.ok (some t)) => some (key, t.spec)
  | .createTemplate t (.ok _) | .replaceTemplate t (.ok _) => some (t.key, t.spec)
  | _ => none

/-- A template that was shown is there: it was found there, or created there, or put in the place of
another one. -/
theorem Act.TemplateEffect.shown {act : Act} {s t : MemoryStore} {key : ObjectKey}
    {spec : BuildTemplateSpec} (h : act.TemplateEffect s t)
    (hshown : act.shown? = some (key, spec)) :
    ∃ template, t.templates.get? key = some template ∧ template.spec = spec := by
  unfold Act.shown? at hshown
  split at hshown
  · obtain ⟨rfl, rfl⟩ := Prod.mk.inj (Option.some.inj hshown)
    exact ⟨_, by rw [h.2, ← h.1], rfl⟩
  · obtain ⟨rfl, rfl⟩ := Prod.mk.inj (Option.some.inj hshown)
    obtain ⟨-, ht, -, uid, hw⟩ := h
    exact ⟨_, by rw [ht, SortedMap.get?_insert, if_pos rfl], by rw [hw]⟩
  · obtain ⟨rfl, rfl⟩ := Prod.mk.inj (Option.some.inj hshown)
    obtain ⟨stored, -, -, ht, -, hw⟩ := h
    exact ⟨_, by rw [ht, SortedMap.get?_insert, if_pos rfl], by rw [hw]⟩
  · cases hshown

/-! ## Deeds -/

/-- What a deed did to the templates when the store went from `s` to `t`. -/
def Deed.TemplateEffect (s t : MemoryStore) : Deed → Prop
  | putTemplate template => ∃ written : BuildTemplate,
    t.templates = s.templates.insert template.key written ∧ written.key = template.key ∧
      written.metadata.resourceVersion = some (toString t.lastVersion) ∧
      s.lastVersion < t.lastVersion
  | _ => t.templates = s.templates

/-- **What a deed did to templates.** -/
theorem Deed.templateEffect (deed : Deed) (s : MemoryStore) :
    deed.TemplateEffect s (deed.apply s) := by
  cases deed with
  | insertRequest request => rfl
  | updateSpec key spec =>
    simp only [apply, MemoryStore.updateSpec, MemoryStore.takeVersion]
    split <;> rfl
  | setLabel key label value =>
    simp only [apply, MemoryStore.setRequestLabel, MemoryStore.takeVersion]
    split <;> rfl
  | putTemplate template =>
    simp only [apply, MemoryStore.putTemplate, MemoryStore.placed, MemoryStore.takeVersion,
      MemoryStore.takeUid]
    split <;> exact ⟨_, rfl, rfl, rfl, Nat.lt_succ_self _⟩
  | putExecution execution =>
    simp only [apply, MemoryStore.putExecution, MemoryStore.placed, MemoryStore.takeVersion,
      MemoryStore.takeUid]
    split <;> rfl
  | report key status =>
    simp only [apply, MemoryStore.setExecutionStatus, MemoryStore.takeVersion]
    split <;> rfl
  | _ => rfl

/-! ## Keys -/

/-- Templates are stored under their own keys. -/
def MemoryStore.WellKeyed (s : MemoryStore) : Prop :=
  ∀ key t, s.templates.get? key = some t → t.key = key

section

variable {s t : MemoryStore}

/-- A template may be put under its own key, -/
theorem MemoryStore.WellKeyed.of_insert (hs : s.WellKeyed) {key : ObjectKey}
    {template : BuildTemplate} (ht : t.templates = s.templates.insert key template)
    (hkey : template.key = key) :
    t.WellKeyed := by
  intro k found hfound
  rw [ht, SortedMap.get?_insert] at hfound
  split at hfound
  · next heq => rw [← Option.some.inj hfound, hkey, heq]
  · exact hs k found hfound

/-- and templates may be left alone. -/
theorem MemoryStore.WellKeyed.of_eq (hs : s.WellKeyed) (ht : t.templates = s.templates) :
    t.WellKeyed := by
  intro k found hfound
  exact hs k found (ht ▸ hfound)

/-- Acts keep templates under their keys. -/
theorem Act.TemplateEffect.wellKeyed {act : Act} (h : act.TemplateEffect s t) (hs : s.WellKeyed) :
    t.WellKeyed := by
  cases act with
  | createTemplate template answer =>
    cases answer with
    | error e => exact hs.of_eq h
    | ok w =>
      obtain ⟨-, ht, -, uid, rfl⟩ := h
      exact hs.of_insert ht rfl
  | replaceTemplate template answer =>
    cases answer with
    | error e => exact hs.of_eq h
    | ok w =>
      obtain ⟨stored, hstored, -, ht, -, rfl⟩ := h
      -- a template that is replaced keeps its name
      have hkey : stored.key = template.key := hs _ _ hstored
      exact hs.of_insert ht hkey
  | getTemplate key answer =>
    cases answer with
    | error e => exact hs.of_eq h
    | ok found => exact hs.of_eq h.2
  | _ => exact hs.of_eq h

/-- Deeds keep templates under their keys. -/
theorem Deed.wellKeyed (deed : Deed) (hs : s.WellKeyed) : (deed.apply s).WellKeyed := by
  have heffect := deed.templateEffect s
  cases deed with
  | putTemplate template =>
    obtain ⟨written, ht, hkey, -⟩ := heffect
    exact hs.of_insert ht hkey
  | _ => exact hs.of_eq heffect

/-- **Templates are stored under their own keys**, whatever made the store. -/
theorem MemoryStore.Made.wellKeyed (h : s.Made) : s.WellKeyed := by
  induction h with
  | empty =>
    intro k found hfound
    have hnone : none = some found := hfound
    cases hnone
  | call call _ ih => exact (call.act_served _ Instant.epoch).templateEffect.wellKeyed ih
  | deed deed _ ih => exact deed.wellKeyed ih

end

namespace System

variable {ι : Type} {ρ : ι → Type} [DecidableEq ι]

/-- Templates are stored, and were told to programs, under their own keys. -/
structure TemplatesKeyed (s : System ι ρ) : Prop where
  store : s.store.WellKeyed
  told : ∀ {i key t}, .getTemplate key (.ok (some t)) ∈ s.acts i → t.key = key

/-- Acts keep templates under their keys, and tell of them under these, -/
theorem TemplatesKeyed.acted {s : System ι ρ} (h : s.TemplatesKeyed) {i : ι} {act : Act}
    {t : MemoryStore} (hanswer : s.Answers act t) (rest : Program (ρ i)) :
    (s.acted i act rest t).TemplatesKeyed := by
  refine ⟨hanswer.templateEffect.wellKeyed h.store, fun {j key template} htold => ?_⟩
  rcases mem_acts_acted htold with rfl | htold
  · obtain ⟨hfound, -⟩ := hanswer.templateEffect
    exact h.store _ _ hfound.symm
  · exact h.told htold

/-- and deeds keep them there. -/
theorem TemplatesKeyed.did {s : System ι ρ} (h : s.TemplatesKeyed) (deed : Deed) :
    (s.did deed).TemplatesKeyed := ⟨deed.wellKeyed h.store, h.told⟩

/-- **The run lemma** for the keys of templates. -/
theorem Reaches.templatesKeyed {w : Surroundings} {store : MemoryStore} {now : Instant}
    {pool : (i : ι) → Program (ρ i)} {s : System ι ρ} (hrun : Reaches w (start store now pool) s)
    (hmade : store.Made) : s.TemplatesKeyed :=
  hrun.invariant (J := TemplatesKeyed)
    ⟨hmade.wellKeyed, fun h => absurd h List.not_mem_nil⟩
    (fun _ _ _ rest _ h hanswer => h.acted hanswer rest) (fun _ deed h _ => h.did deed)
    (fun _ _ h => ⟨h.store, h.told⟩)

end System

/-! ## Versions -/

/-- The version of a template, as it is stored. -/
abbrev BuildTemplate.version (t : BuildTemplate) : Option String := t.metadata.resourceVersion

section

variable {s t : MemoryStore}

/-- What an act does to templates renews them: each one that it writes gets the version given
last. -/
theorem Act.TemplateEffect.renews {act : Act} (h : act.TemplateEffect s t)
    (hle : s.lastVersion ≤ t.lastVersion) : s.Renews (·.templates) BuildTemplate.version t := by
  cases act with
  | createTemplate template answer =>
    cases answer with
    | error e => exact .of_eq hle h
    | ok w =>
      obtain ⟨-, ht, hlt, uid, rfl⟩ := h
      exact .of_insert rfl hlt ht
  | replaceTemplate template answer =>
    cases answer with
    | error e => exact .of_eq hle h
    | ok w =>
      obtain ⟨stored, -, -, ht, hlt, rfl⟩ := h
      exact .of_insert rfl hlt ht
  | getTemplate key answer =>
    cases answer with
    | error e => exact .of_eq hle h
    | ok found => exact .of_eq hle h.2
  | _ => exact .of_eq hle h

/-- What a deed does to templates renews them. -/
theorem Deed.renewsTemplates (deed : Deed) (s : MemoryStore) :
    s.Renews (·.templates) BuildTemplate.version (deed.apply s) := by
  have heffect := deed.templateEffect s
  have hle := deed.lastVersion_le s
  cases deed with
  | putTemplate template =>
    obtain ⟨written, ht, -, hversion, hlt⟩ := heffect
    exact .of_insert hversion hlt ht
  | _ => exact .of_eq hle heffect

/-- The templates of a store that the operations make have versions that were given. -/
theorem MemoryStore.Made.templatesDated (h : s.Made) :
    Dated (·.templates) BuildTemplate.version s.lastVersion [s] := by
  have hnext : ∀ {s t : MemoryStore}, Dated (·.templates) BuildTemplate.version s.lastVersion [s] →
      s.Renews (·.templates) BuildTemplate.version t →
      Dated (·.templates) BuildTemplate.version t.lastVersion [t] := by
    intro s t hs hrenews
    exact .one ((hs.next List.mem_cons_self hrenews).given List.mem_cons_self)
  induction h with
  | empty => exact .one fun hfound => nomatch hfound
  | @call s _ call _ ih =>
    have hserved := call.act_served s Instant.epoch
    exact hnext ih (hserved.templateEffect.renews (hserved.effects []).1)
  | deed deed _ ih => exact hnext ih (deed.renewsTemplates _)

end

namespace System

variable {ι : Type} {ρ : ι → Type} [DecidableEq ι]

/-- Of all templates a run has stored, one key and version has one, and programs were told of no
others. -/
structure TemplatesDated (s : System ι ρ) : Prop where
  dated : Dated (·.templates) BuildTemplate.version s.store.lastVersion s.past
  told : ∀ {i key t}, .getTemplate key (.ok (some t)) ∈ s.acts i →
    ∃ old ∈ s.past, old.templates.get? key = some t

/-- **A template with the version of one that was told** is the one that was told. -/
theorem TemplatesDated.eq_of_version {s : System ι ρ} (h : s.TemplatesDated) {i : ι}
    {key : ObjectKey} {t stored : BuildTemplate}
    (htold : .getTemplate key (.ok (some t)) ∈ s.acts i)
    (hstored : s.store.templates.get? key = some stored) (hversion : stored.version = t.version) :
    stored = t := by
  obtain ⟨old, hold, ht⟩ := h.told htold
  exact h.dated.unique List.mem_cons_self hold hstored ht hversion

/-- Acts keep the versions of templates apart, and tell of templates that were stored, -/
theorem TemplatesDated.acted {s : System ι ρ} (h : s.TemplatesDated) {i : ι} {act : Act}
    {t : MemoryStore} (hanswer : s.Answers act t) (rest : Program (ρ i)) :
    (s.acted i act rest t).TemplatesDated := by
  have heffect := hanswer.templateEffect
  refine ⟨h.dated.next List.mem_cons_self (heffect.renews hanswer.lastVersion_le), ?_⟩
  intro j key template htold
  rcases mem_acts_acted htold with rfl | htold
  · exact ⟨s.store, List.mem_cons_of_mem _ List.mem_cons_self, heffect.1.symm⟩
  · obtain ⟨old, hold, hfound⟩ := h.told htold
    exact ⟨old, List.mem_cons_of_mem _ hold, hfound⟩

/-- and deeds keep them apart. -/
theorem TemplatesDated.did {s : System ι ρ} (h : s.TemplatesDated) (deed : Deed) :
    (s.did deed).TemplatesDated := by
  refine ⟨h.dated.next List.mem_cons_self (deed.renewsTemplates s.store), fun htold => ?_⟩
  obtain ⟨old, hold, hfound⟩ := h.told htold
  exact ⟨old, List.mem_cons_of_mem _ hold, hfound⟩

/-- **The run lemma** for the versions of templates. -/
theorem Reaches.templatesDated {w : Surroundings} {store : MemoryStore} {now : Instant}
    {pool : (i : ι) → Program (ρ i)} {s : System ι ρ} (hrun : Reaches w (start store now pool) s)
    (hmade : store.Made) : s.TemplatesDated :=
  hrun.invariant (J := TemplatesDated)
    ⟨hmade.templatesDated, fun h => absurd h List.not_mem_nil⟩
    (fun _ _ _ rest _ h hanswer => h.acted hanswer rest) (fun _ deed h _ => h.did deed)
    (fun _ _ h => ⟨h.dated, h.told⟩)

end System

end PushBuild
