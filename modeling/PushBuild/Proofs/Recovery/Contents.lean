import PushBuild.Controller.Template
import PushBuild.Proofs.Status.Modify
import PushBuild.Store.Memory

/-!
# What a store holds, apart from versions

Every write takes a new version, and so does one that is refused.  Two stores that differ in nothing
else are the same for all that a pass decides, so what is decided is said of contents, which have no
versions.

1. **Contents.**  `MemoryStore.contents` leaves the versions out, and the refusals still to come.
2. **Writes.**  What a write makes of the contents, for each kind of write (`withRequest`,
   `withTemplate`, `withNewTemplate`, `withNewExecution`).
3. **Calls.**  While a store serves, a call that writes has just this effect, for what was read
   (`Serving.updateRequestStatus` and the lemmas after it).
-/

namespace PushBuild

/-! ## Maps -/

namespace SortedMap

variable {κ α β : Type} [DecidableEq κ] [LT κ] [DecidableLT κ]

omit [LT κ] [DecidableLT κ] in
/-- Changing all values of a map changes the value under each key. -/
@[simp] theorem get?_mapValues (f : α → β) (m : SortedMap κ α) (k : κ) :
    (m.mapValues f).get? k = (m.get? k).map f := by
  obtain ⟨entries⟩ := m
  simp only [mapValues, get?]
  induction entries with
  | nil => rfl
  | cons e rest ih =>
    rw [List.map_cons, lookup_cons_eq, lookup_cons_eq, ih]
    split <;> rfl

/-- Values may be changed before or after one is inserted. -/
@[simp] theorem mapValues_insert (f : α → β) (m : SortedMap κ α) (k : κ) (v : α) :
    (m.insert k v).mapValues f = (m.mapValues f).insert k (f v) := by
  obtain ⟨entries⟩ := m
  simp only [mapValues, insert, SortedMap.mk.injEq]
  induction entries with
  | nil => rfl
  | cons e rest ih =>
    simp only [insertEntry, List.map_cons]
    split
    · rfl
    · split
      · rfl
      · rw [List.map_cons, ih]

end SortedMap

/-! ## Contents -/

/-- The metadata without the version. -/
def Metadata.unversioned (m : Metadata) : Metadata := { m with resourceVersion := none }

/-- The request without its version. -/
def BuildRequest.unversioned (r : BuildRequest) : BuildRequest :=
  { r with metadata := r.metadata.unversioned }

/-- The template without its version. -/
def BuildTemplate.unversioned (t : BuildTemplate) : BuildTemplate :=
  { t with metadata := t.metadata.unversioned }

/-- The execution without its version. -/
def BuildExecution.unversioned (x : BuildExecution) : BuildExecution :=
  { x with metadata := x.metadata.unversioned }

/-- The template as it is stored when it is new. -/
def BuildTemplate.identified (t : BuildTemplate) (uid : String) : BuildTemplate :=
  { t with metadata := { t.metadata.unversioned with uid := some uid } }

/-- The execution as it is stored when it is new. -/
def BuildExecution.identified (x : BuildExecution) (uid : String) : BuildExecution :=
  { x with metadata := { x.metadata.unversioned with uid := some uid } }

namespace MemoryStore

/-- What the store holds, apart from versions and from refusals still to come. -/
def contents (s : MemoryStore) : MemoryStore :=
  { s with
    lastVersion := 0
    conflicts := 0
    requests := s.requests.mapValues BuildRequest.unversioned
    templates := s.templates.mapValues BuildTemplate.unversioned
    executions := s.executions.mapValues BuildExecution.unversioned }

/-- The store with no refusals to come. -/
def undisturbed (s : MemoryStore) : MemoryStore := { s with conflicts := 0 }

/-- The contents have the templates of the store, without their versions. -/
theorem get?_templates_contents (s : MemoryStore) (key : ObjectKey) :
    s.contents.templates.get? key = (s.templates.get? key).map BuildTemplate.unversioned :=
  SortedMap.get?_mapValues _ _ _

/-- So they have its executions. -/
theorem get?_executions_contents (s : MemoryStore) (key : ObjectKey) :
    s.contents.executions.get? key = (s.executions.get? key).map BuildExecution.unversioned :=
  SortedMap.get?_mapValues _ _ _

/-- The request under a key. -/
def requestAt (s : MemoryStore) (key : ObjectKey) : BuildRequest := (s.requests.get? key).getD {}

/-- The uid that the store gives next. -/
def nextUid (s : MemoryStore) : String := "uid-" ++ toString (s.lastUid + 1)

/-! ## Writes -/

/-- The store with another request under a key. -/
def withRequest (v : MemoryStore) (key : ObjectKey) (r : BuildRequest) : MemoryStore :=
  { v with requests := v.requests.insert key r }

/-- The store with another template in the place of the one of its name. -/
def withTemplate (v : MemoryStore) (t : BuildTemplate) : MemoryStore :=
  { v with templates := v.templates.insert t.key t }

/-- The store with a new template. -/
def withNewTemplate (v : MemoryStore) (t : BuildTemplate) : MemoryStore :=
  { v with
    lastUid := v.lastUid + 1
    templates := v.templates.insert t.key (t.identified v.nextUid) }

/-- The store with a new execution. -/
def withNewExecution (v : MemoryStore) (x : BuildExecution) : MemoryStore :=
  { v with
    lastUid := v.lastUid + 1
    executions := v.executions.insert x.key (x.identified v.nextUid) }

section

variable {v : MemoryStore} {key : ObjectKey} {r : BuildRequest}

/-- The request that was put there is the one found there. -/
@[simp] theorem requestAt_withRequest : (v.withRequest key r).requestAt key = r := by
  simp [requestAt, withRequest]

/-- Where a request is found, it is the one under the key. -/
theorem requestAt_of_get? (h : v.requests.get? key = some r) : v.requestAt key = r := by
  rw [requestAt, h]
  rfl

/-- The contents have the request of the store, without its version. -/
@[simp] theorem requestAt_contents (s : MemoryStore) (key : ObjectKey) :
    s.contents.requestAt key = (s.requestAt key).unversioned := by
  simp only [requestAt, contents, SortedMap.get?_mapValues]
  cases s.requests.get? key <;> rfl

end

section

variable (s : MemoryStore) (n : Nat)

/-- To store a request with any version is a write to the contents. -/
theorem contents_request (key : ObjectKey) (r : BuildRequest) :
    ({ s with lastVersion := n, requests := s.requests.insert key r } : MemoryStore).contents =
      s.contents.withRequest key r.unversioned := by
  simp only [contents, withRequest, SortedMap.mapValues_insert]

/-- So it is to store a template. -/
theorem contents_template (key : ObjectKey) (t : BuildTemplate) (hkey : t.unversioned.key = key) :
    ({ s with lastVersion := n, templates := s.templates.insert key t } : MemoryStore).contents =
      s.contents.withTemplate t.unversioned := by
  simp only [contents, withTemplate, SortedMap.mapValues_insert, hkey]

end

/-! ## Calls -/

/-- The store answers; and it refuses no write, unless calls may fail anyhow. -/
structure Serving (fails : Prop) (s : MemoryStore) : Prop where
  available : s.unavailable = false
  steady : fails ∨ s.conflicts = 0

namespace Serving

variable {fails : Prop} {s : MemoryStore}

/-- While a store serves, every call reaches it. -/
theorem call_eq (h : s.Serving fails) {α : Type} (call : StoreCall α) :
    s.call call = s.answer call := by
  unfold MemoryStore.call
  rw [h.available, if_neg Bool.false_ne_true]

theorem getRequest (h : s.Serving fails) (key : ObjectKey) :
    s.call (.getRequest key) = (.ok (s.requests.get? key), s) := h.call_eq _

theorem getExecution (h : s.Serving fails) (key : ObjectKey) :
    s.call (.getExecution key) = (.ok (s.executions.get? key), s) := h.call_eq _

/-- A status is written to the request that was just read, or the write is refused as if another
writer had been faster.  In the second case the contents stay as they are, for a refusal that was
still to come is no part of them. -/
theorem updateRequestStatus (h : s.Serving fails) {key : ObjectKey} {r : BuildRequest}
    (hr : s.requests.get? key = some r) (hkey : r.key = key) (status : BuildRequestStatus) :
    (∃ w t, s.call (.updateRequestStatus (r.restated status)) = (.ok w, t) ∧ t.Serving fails ∧
      w.unversioned = r.unversioned.restated status ∧
      t.contents = s.contents.withRequest key (r.unversioned.restated status)) ∨
    ∃ e t, s.call (.updateRequestStatus (r.restated status)) = (.error e, t) ∧ t.Serving fails ∧
      fails ∧ t.contents = s.contents := by
  rw [h.call_eq]
  show (∃ w t, s.updateRequestStatus (r.restated status) = (.ok w, t) ∧ _) ∨
    ∃ e t, s.updateRequestStatus (r.restated status) = (.error e, t) ∧ _
  unfold MemoryStore.updateRequestStatus
  by_cases hconflicts : 0 < s.conflicts
  · -- a refusal is still to come
    rw [if_pos hconflicts]
    have hfails : fails := h.steady.resolve_right (by omega)
    exact Or.inr ⟨_, _, rfl, ⟨h.available, Or.inl hfails⟩, hfails, rfl⟩
  · -- the version is the one just read, so the write goes through
    have hplace : (r.restated status).key = key := hkey
    rw [if_neg hconflicts]
    simp only [takeVersion, hplace, hr, if_true]
    exact Or.inl ⟨_, _, rfl, ⟨h.available, h.steady⟩, rfl, contents_request s _ key _⟩

/-- The request gets a label. -/
theorem setRequestLabel (h : s.Serving fails) {key : ObjectKey} {r : BuildRequest}
    (hr : s.requests.get? key = some r) (label : String) (value : Option String) :
    ∃ t, s.call (.setRequestLabel key label value) = (.ok (), t) ∧ t.Serving fails ∧
      t.contents = s.contents.withRequest key
        { r.unversioned with metadata := r.unversioned.metadata.setLabel label value } := by
  rw [h.call_eq]
  show ∃ t, s.setRequestLabel key label value = (.ok (), t) ∧ _
  simp only [MemoryStore.setRequestLabel, takeVersion, hr]
  exact ⟨_, rfl, ⟨h.available, h.steady⟩, contents_request s _ key _⟩

/-- A template is created where none is, and gets a new identity. -/
theorem createTemplate (h : s.Serving fails) {template : BuildTemplate}
    (hfree : s.templates.get? template.key = none) :
    ∃ w t, s.call (.createTemplate template) = (.ok w, t) ∧ t.Serving fails ∧ w.key = template.key ∧
      t.contents = s.contents.withNewTemplate template := by
  rw [h.call_eq]
  show ∃ w t, s.createTemplate template = (.ok w, t) ∧ _
  have hnew : ¬ s.templates.contains template.key = true := by simp [SortedMap.contains, hfree]
  simp only [MemoryStore.createTemplate, if_neg hnew, created, takeUid, takeVersion]
  refine ⟨_, _, rfl, ⟨h.available, h.steady⟩, rfl, ?_⟩
  simp only [contents, withNewTemplate, SortedMap.mapValues_insert]
  rfl

/-- A template is replaced by one that differs in labels, owners and specification. -/
theorem replaceTemplate (h : s.Serving fails) {key : ObjectKey} {stored template : BuildTemplate}
    (hstored : s.templates.get? key = some stored) (hkey : stored.key = key)
    (hmetadata : template.metadata = { stored.metadata with
      labels := template.metadata.labels, ownerReferences := template.metadata.ownerReferences }) :
    ∃ w t, s.call (.replaceTemplate template) = (.ok w, t) ∧ t.Serving fails ∧ w.key = key ∧
      t.contents = s.contents.withTemplate template.unversioned := by
  rw [h.call_eq]
  show ∃ w t, s.replaceTemplate template = (.ok w, t) ∧ _
  have hplace : template.key = key := by
    rw [← hkey, BuildTemplate.key, hmetadata]
    rfl
  have hversion : stored.metadata.resourceVersion = template.metadata.resourceVersion := by
    rw [hmetadata]
  simp only [MemoryStore.replaceTemplate, takeVersion, hplace, hstored, if_pos hversion]
  refine ⟨_, _, rfl, ⟨h.available, h.steady⟩, hkey, ?_⟩
  refine (contents_template s _ key _ ?_).trans ?_
  · exact hkey
  have hsame : template.metadata.unversioned = { stored.metadata with
      labels := template.metadata.labels, ownerReferences := template.metadata.ownerReferences
      resourceVersion := none } := by
    rw [hmetadata]
    rfl
  rw [BuildTemplate.unversioned, BuildTemplate.unversioned, hsame]
  rfl

/-- An execution is created where none is, and gets a new identity. -/
theorem createExecution (h : s.Serving fails) {execution : BuildExecution}
    (hfree : s.executions.get? execution.key = none) :
    ∃ w t, s.call (.createExecution execution) = (.ok w, t) ∧ t.Serving fails ∧
      t.contents = s.contents.withNewExecution execution := by
  rw [h.call_eq]
  show ∃ w t, s.createExecution execution = (.ok w, t) ∧ _
  have hnew : ¬ s.executions.contains execution.key = true := by simp [SortedMap.contains, hfree]
  simp only [MemoryStore.createExecution, if_neg hnew, created, takeUid, takeVersion]
  refine ⟨_, _, rfl, ⟨h.available, h.steady⟩, ?_⟩
  simp only [contents, withNewExecution, SortedMap.mapValues_insert]
  rfl

/-- An execution that is there is not created again. -/
theorem createExecution_exists (h : s.Serving fails) {execution x : BuildExecution}
    (hx : s.executions.get? execution.key = some x) :
    ∃ kind name, s.call (.createExecution execution) = (.error (.alreadyExists kind name), s) := by
  rw [h.call_eq]
  show ∃ kind name, s.createExecution execution = (.error (.alreadyExists kind name), s)
  have hthere : s.executions.contains execution.key = true := by simp [SortedMap.contains, hx]
  simp only [MemoryStore.createExecution, if_pos hthere]
  exact ⟨_, _, rfl⟩

end Serving

end MemoryStore

end PushBuild
