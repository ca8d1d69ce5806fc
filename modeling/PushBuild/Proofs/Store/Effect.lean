import PushBuild.Proofs.Interleaving.System

/-!
# What an act does to the store, and what a deed does

Of everything a store holds, theorems about builds speak of its requests and its executions.  This
file says once, for every act of a program and every deed of others, what becomes of these two.  No
proof after this one opens a store's operation.

1. **Acts.**  `Act.RequestEffect` and `Act.ExecutionEffect` say what a call did, given its answer:
   only a status write and a label that succeeded change requests, only a creation that succeeded
   changes executions.  However a call is answered, the one it got is right
   (`System.Answers.requestEffect`, `System.Answers.executionEffect`).
2. **Deeds.**  `Deed.RequestEffect` and `Deed.ExecutionEffect` say the same of what others do.
3. **Versions.**  Nothing takes a version back, and what is written gets one above all before
   (`System.Answers.lastVersion_le`, `Deed.lastVersion_le`).
-/

namespace PushBuild

/-- The request with a version. -/
def BuildRequest.withVersion (r : BuildRequest) (version : Nat) : BuildRequest :=
  { r with metadata := { r.metadata with resourceVersion := some (toString version) } }

/-- The execution with a version. -/
def BuildExecution.withVersion (e : BuildExecution) (version : Nat) : BuildExecution :=
  { e with metadata := { e.metadata with resourceVersion := some (toString version) } }

/-- The request with a label set, or taken away. -/
def BuildRequest.withLabel (r : BuildRequest) (label : String) (value : Option String) :
    BuildRequest :=
  { r with metadata := r.metadata.setLabel label value }

/-- The request with another specification, which is its next generation. -/
def BuildRequest.withSpec (r : BuildRequest) (spec : BuildRequestSpec) : BuildRequest :=
  { r with metadata := { r.metadata with generation := some (r.metadata.generation.getD 0 + 1) }
           spec }

@[simp] theorem BuildRequest.key_withVersion (r : BuildRequest) (n : Nat) :
    (r.withVersion n).key = r.key := rfl

@[simp] theorem BuildRequest.key_withLabel (r : BuildRequest) (label : String)
    (value : Option String) : (r.withLabel label value).key = r.key := rfl

@[simp] theorem BuildRequest.key_withSpec (r : BuildRequest) (spec : BuildRequestSpec) :
    (r.withSpec spec).key = r.key := rfl

@[simp] theorem BuildRequest.key_withStatus (r : BuildRequest)
    (status : Option BuildRequestStatus) : ({ r with status } : BuildRequest).key = r.key := rfl

/-- What is found after an entry was replaced was found before. -/
theorem SortedMap.isSome_of_insert {κ α : Type} [LT κ] [DecidableLT κ] [DecidableEq κ]
    {m : SortedMap κ α} {k j : κ} {v w : α} (hk : m.get? k = some v)
    (h : ((m.insert k w).get? j).isSome) : (m.get? j).isSome := by
  rw [get?_insert] at h
  split at h
  · next hkey => rw [hkey, hk, Option.isSome_some]
  · exact h

/-- An entry is found after an insertion, unless it is the one that was replaced. -/
theorem SortedMap.get?_insert_cases {κ α : Type} [LT κ] [DecidableLT κ] [DecidableEq κ]
    {m : SortedMap κ α} {j : κ} {v : α} (h : m.get? j = some v) (k : κ) (w : α) :
    (m.insert k w).get? j = some v ∨ (j = k ∧ (m.insert k w).get? j = some w) := by
  rw [get?_insert]
  by_cases hkey : j = k
  · rw [if_pos hkey]
    exact Or.inr ⟨hkey, rfl⟩
  · rw [if_neg hkey]
    exact Or.inl h

/-! ## Acts -/

namespace Act

/-- What an act did to the requests when the store went from `s` to `t`. -/
def RequestEffect (s t : MemoryStore) : Act → Prop
  | .updateRequestStatus request (.ok written) => ∃ stored,
    s.requests.get? request.key = some stored ∧
    stored.metadata.resourceVersion = request.metadata.resourceVersion ∧
    written = ({ stored with status := request.status } : BuildRequest).withVersion t.lastVersion ∧
    t.requests = s.requests.insert request.key written ∧ s.lastVersion < t.lastVersion
  | .setRequestLabel key label value (.ok _) => ∃ stored,
    s.requests.get? key = some stored ∧
    t.requests = s.requests.insert key ((stored.withLabel label value).withVersion t.lastVersion) ∧
    s.lastVersion < t.lastVersion
  | _ => t.requests = s.requests

/-- What an act did to the executions when the store went from `s` to `t`. -/
def ExecutionEffect (s t : MemoryStore) : Act → Prop
  | .createExecution execution (.ok written) =>
    s.executions.get? execution.key = none ∧
    t.executions = s.executions.insert execution.key written ∧
    ∃ uid version, written = { execution with
      metadata := { execution.metadata with uid := some uid, resourceVersion := some version } }
  | .getExecution key (.ok found) => found = s.executions.get? key ∧ t.executions = s.executions
  | _ => t.executions = s.executions

/-- What a read of a request was told: how it stands, or how it once stood. -/
def RequestAnswer (past : List MemoryStore) : Act → Prop
  | .getRequest key (.ok found) => ∃ old ∈ past, found = old.requests.get? key
  | _ => True

end Act

namespace MemoryStore

variable {s t : MemoryStore}

/-- A call that is refused because the store is not available, or is answered by the store. -/
theorem call_eq {α : Type} {call : StoreCall α} {answer : Except StoreError α}
    (h : s.call call = (answer, t)) :
    (t = s ∧ ∃ e, answer = .error e) ∨ s.answer call = (answer, t) := by
  unfold MemoryStore.call at h
  split at h
  · obtain ⟨rfl, rfl⟩ := Prod.mk.inj h
    exact Or.inl ⟨rfl, _, rfl⟩
  · exact Or.inr h

/-- A status write puts the request with the new status in the place of the stored one, if the
versions agree; else it takes a version at most. -/
theorem updateRequestStatus_eq {request : BuildRequest} {answer : Except StoreError BuildRequest}
    (h : s.updateRequestStatus request = (answer, t)) :
    s.lastVersion ≤ t.lastVersion ∧ t.executions = s.executions ∧
      (Act.updateRequestStatus request answer).RequestEffect s t := by
  unfold updateRequestStatus at h
  split at h
  · obtain ⟨rfl, rfl⟩ := Prod.mk.inj h
    exact ⟨Nat.le_refl _, rfl, rfl⟩
  · simp only [takeVersion] at h
    split at h
    · obtain ⟨rfl, rfl⟩ := Prod.mk.inj h
      exact ⟨Nat.le_succ _, rfl, rfl⟩
    · next stored hstored =>
      split at h
      · -- the versions agree, and the status is written
        next hversion =>
        obtain ⟨rfl, rfl⟩ := Prod.mk.inj h
        exact ⟨Nat.le_succ _, rfl, stored, hstored, hversion, rfl, rfl, Nat.lt_succ_self _⟩
      · obtain ⟨rfl, rfl⟩ := Prod.mk.inj h
        exact ⟨Nat.le_succ _, rfl, rfl⟩

/-- A label is set on the request that is stored, if there is one. -/
theorem setRequestLabel_eq {key : ObjectKey} {label : String} {value : Option String}
    {answer : Except StoreError Unit} (h : s.setRequestLabel key label value = (answer, t)) :
    s.lastVersion ≤ t.lastVersion ∧ t.executions = s.executions ∧
      (Act.setRequestLabel key label value answer).RequestEffect s t := by
  simp only [setRequestLabel, takeVersion] at h
  split at h
  · obtain ⟨rfl, rfl⟩ := Prod.mk.inj h
    exact ⟨Nat.le_succ _, rfl, rfl⟩
  · next stored hstored =>
    obtain ⟨rfl, rfl⟩ := Prod.mk.inj h
    exact ⟨Nat.le_succ _, rfl, stored, hstored, rfl, Nat.lt_succ_self _⟩

/-- An execution is created where none is. -/
theorem createExecution_eq {execution : BuildExecution} {answer : Except StoreError BuildExecution}
    (h : s.createExecution execution = (answer, t)) :
    s.lastVersion ≤ t.lastVersion ∧ t.requests = s.requests ∧
      (Act.createExecution execution answer).ExecutionEffect s t := by
  unfold createExecution at h
  split at h
  · obtain ⟨rfl, rfl⟩ := Prod.mk.inj h
    exact ⟨Nat.le_refl _, rfl, rfl⟩
  · next hfree =>
    simp only [created, takeUid, takeVersion] at h
    obtain ⟨rfl, rfl⟩ := Prod.mk.inj h
    -- nothing is overwritten: the key was free
    have hnone : s.executions.get? execution.key = none := by
      simpa [SortedMap.contains] using hfree
    exact ⟨Nat.le_succ _, rfl, hnone, rfl, _, _, rfl⟩

/-- Writing templates leaves requests and executions alone. -/
theorem createTemplate_eq {template : BuildTemplate} {answer : Except StoreError BuildTemplate}
    (h : s.createTemplate template = (answer, t)) :
    s.lastVersion ≤ t.lastVersion ∧ t.requests = s.requests ∧ t.executions = s.executions := by
  unfold createTemplate at h
  split at h
  · obtain ⟨rfl, rfl⟩ := Prod.mk.inj h
    exact ⟨Nat.le_refl _, rfl, rfl⟩
  · simp only [created, takeUid, takeVersion] at h
    obtain ⟨rfl, rfl⟩ := Prod.mk.inj h
    exact ⟨Nat.le_succ _, rfl, rfl⟩

/-- So does replacing them. -/
theorem replaceTemplate_eq {template : BuildTemplate} {answer : Except StoreError BuildTemplate}
    (h : s.replaceTemplate template = (answer, t)) :
    s.lastVersion ≤ t.lastVersion ∧ t.requests = s.requests ∧ t.executions = s.executions := by
  simp only [replaceTemplate, takeVersion] at h
  split at h
  · obtain ⟨rfl, rfl⟩ := Prod.mk.inj h
    exact ⟨Nat.le_succ _, rfl, rfl⟩
  · split at h <;> obtain ⟨rfl, rfl⟩ := Prod.mk.inj h <;> exact ⟨Nat.le_succ _, rfl, rfl⟩

end MemoryStore

namespace Act

variable {act : Act} {s t : MemoryStore} {now : Instant}

/-- An act that failed did nothing, and was told nothing. -/
theorem Failed.effects (h : act.Failed) (past : List MemoryStore) :
    act.RequestEffect s s ∧ act.ExecutionEffect s s ∧ act.RequestAnswer past := by
  cases act <;> first
    | exact h.elim
    | (obtain ⟨e, rfl⟩ := h; exact ⟨rfl, rfl, trivial⟩)

/-- An act that was told of requests as they once were did nothing. -/
theorem Outdated.effects {past : List MemoryStore} (h : act.Outdated past) :
    act.RequestEffect s s ∧ act.ExecutionEffect s s ∧ act.RequestAnswer past := by
  cases act with
  | getRequest key answer =>
    obtain ⟨old, hold, rfl⟩ := h
    exact ⟨rfl, rfl, old, hold, rfl⟩
  | listRequests selector answer => exact ⟨rfl, rfl, trivial⟩
  | _ => exact h.elim

/-- An act that the store answered. -/
theorem Served.effects (h : act.Served s now t) (past : List MemoryStore) :
    s.lastVersion ≤ t.lastVersion ∧ act.RequestEffect s t ∧ act.ExecutionEffect s t ∧
      act.RequestAnswer (s :: past) := by
  have hfailed : ∀ {act : Act}, t = s → act.Failed → s.lastVersion ≤ t.lastVersion ∧
      act.RequestEffect s t ∧ act.ExecutionEffect s t ∧ act.RequestAnswer (s :: past) := by
    rintro act rfl hact
    exact ⟨Nat.le_refl _, hact.effects _⟩
  cases act with
  | updateRequestStatus request answer =>
    rcases MemoryStore.call_eq h with ⟨hts, hact⟩ | h
    · exact hfailed hts hact
    · obtain ⟨hle, hexecutions, hrequests⟩ := MemoryStore.updateRequestStatus_eq h
      exact ⟨hle, hrequests, hexecutions, trivial⟩
  | setRequestLabel key label value answer =>
    rcases MemoryStore.call_eq h with ⟨hts, hact⟩ | h
    · exact hfailed hts hact
    · obtain ⟨hle, hexecutions, hrequests⟩ := MemoryStore.setRequestLabel_eq h
      exact ⟨hle, hrequests, hexecutions, trivial⟩
  | createTemplate template answer =>
    rcases MemoryStore.call_eq h with ⟨hts, hact⟩ | h
    · exact hfailed hts hact
    · obtain ⟨hle, hrequests, hexecutions⟩ := MemoryStore.createTemplate_eq h
      exact ⟨hle, hrequests, hexecutions, trivial⟩
  | replaceTemplate template answer =>
    rcases MemoryStore.call_eq h with ⟨hts, hact⟩ | h
    · exact hfailed hts hact
    · obtain ⟨hle, hrequests, hexecutions⟩ := MemoryStore.replaceTemplate_eq h
      exact ⟨hle, hrequests, hexecutions, trivial⟩
  | createExecution execution answer =>
    rcases MemoryStore.call_eq h with ⟨hts, hact⟩ | h
    · exact hfailed hts hact
    · obtain ⟨hle, hrequests, hexecutions⟩ := MemoryStore.createExecution_eq h
      exact ⟨hle, hrequests, hexecutions, trivial⟩
  | getRequest key answer =>
    rcases MemoryStore.call_eq h with ⟨hts, hact⟩ | h
    · exact hfailed hts hact
    · obtain ⟨rfl, rfl⟩ := Prod.mk.inj h
      exact ⟨Nat.le_refl _, rfl, rfl, s, List.mem_cons_self, rfl⟩
  | getExecution key answer =>
    rcases MemoryStore.call_eq h with ⟨hts, hact⟩ | h
    · exact hfailed hts hact
    · obtain ⟨rfl, rfl⟩ := Prod.mk.inj h
      exact ⟨Nat.le_refl _, rfl, ⟨rfl, rfl⟩, trivial⟩
  | now time => exact ⟨Nat.le_of_eq (by rw [h.2]), by rw [h.2]; rfl, by rw [h.2]; rfl, trivial⟩
  | sleep time =>
    have h : t = s := h
    exact ⟨Nat.le_of_eq (by rw [h]), by rw [h]; rfl, by rw [h]; rfl, trivial⟩
  -- the calls that are left only read
  | _ =>
    rcases MemoryStore.call_eq h with ⟨hts, hact⟩ | h
    · exact hfailed hts hact
    · obtain ⟨rfl, rfl⟩ := Prod.mk.inj h
      exact ⟨Nat.le_refl _, rfl, rfl, trivial⟩

end Act

namespace System.Answers

variable {ι : Type} {ρ : ι → Type} {s : System ι ρ} {act : Act} {t : MemoryStore}

/-- **What an act did**, however it was answered. -/
theorem effects (h : s.Answers act t) :
    s.store.lastVersion ≤ t.lastVersion ∧ act.RequestEffect s.store t ∧
      act.ExecutionEffect s.store t ∧ act.RequestAnswer s.past := by
  rcases h with h | ⟨rfl, h | h⟩
  · exact h.effects _
  · exact ⟨Nat.le_refl _, h.effects _⟩
  · exact ⟨Nat.le_refl _, h.effects⟩

/-- Versions are not taken back. -/
theorem lastVersion_le (h : s.Answers act t) : s.store.lastVersion ≤ t.lastVersion := h.effects.1

/-- What an act did to the requests. -/
theorem requestEffect (h : s.Answers act t) : act.RequestEffect s.store t := h.effects.2.1

/-- What an act did to the executions. -/
theorem executionEffect (h : s.Answers act t) : act.ExecutionEffect s.store t := h.effects.2.2.1

/-- What an act was told of requests. -/
theorem requestAnswer (h : s.Answers act t) : act.RequestAnswer s.past := h.effects.2.2.2

end System.Answers

/-- **What becomes of a request** that is stored, when a program acts: it stays as it is, it gets a
label, or it gets a status, if it still has the version that the status was written to. -/
theorem Act.RequestEffect.request {act : Act} {s t : MemoryStore} {key : ObjectKey}
    {r : BuildRequest} (h : act.RequestEffect s t) (hr : s.requests.get? key = some r) :
    ∃ r', t.requests.get? key = some r' ∧
      (r' = r ∨
        (∃ label value answer n, act = .setRequestLabel key label value answer ∧
          r' = (r.withLabel label value).withVersion n) ∨
        ∃ request n, act = .updateRequestStatus request (.ok r') ∧ request.key = key ∧
          r.metadata.resourceVersion = request.metadata.resourceVersion ∧
          r' = ({ r with status := request.status } : BuildRequest).withVersion n) := by
  have hsame : t.requests = s.requests → ∃ r', t.requests.get? key = some r' ∧ r' = r :=
    fun heq => ⟨r, by rw [heq]; exact hr, rfl⟩
  cases act with
  | updateRequestStatus request answer =>
    cases answer with
    | error e =>
      obtain ⟨r', hr', heq⟩ := hsame h
      exact ⟨r', hr', Or.inl heq⟩
    | ok written =>
      obtain ⟨stored, hstored, hversion, hwritten, ht, -⟩ := h
      rw [ht]
      rcases SortedMap.get?_insert_cases hr request.key written with hr' | ⟨rfl, hr'⟩
      · exact ⟨r, hr', Or.inl rfl⟩
      · -- the version that was compared is that of the request that is replaced
        obtain rfl := Option.some.inj (hr.symm.trans hstored)
        exact ⟨written, hr', Or.inr (Or.inr ⟨request, _, rfl, rfl, hversion, hwritten⟩)⟩
  | setRequestLabel other label value answer =>
    cases answer with
    | error e =>
      obtain ⟨r', hr', heq⟩ := hsame h
      exact ⟨r', hr', Or.inl heq⟩
    | ok _ =>
      obtain ⟨stored, hstored, ht, -⟩ := h
      rw [ht]
      rcases SortedMap.get?_insert_cases hr other _ with hr' | ⟨rfl, hr'⟩
      · exact ⟨r, hr', Or.inl rfl⟩
      · obtain rfl := Option.some.inj (hr.symm.trans hstored)
        exact ⟨_, hr', Or.inr (Or.inl ⟨label, value, _, _, rfl, rfl⟩)⟩
  | _ =>
    obtain ⟨r', hr', heq⟩ := hsame h
    exact ⟨r', hr', Or.inl heq⟩

/-- A request that is stored after a program acted was stored before. -/
theorem Act.RequestEffect.isSome {act : Act} {s t : MemoryStore} {key : ObjectKey}
    (h : act.RequestEffect s t) (ht : (t.requests.get? key).isSome) :
    (s.requests.get? key).isSome := by
  have hsame : t.requests = s.requests → (s.requests.get? key).isSome := fun heq => heq ▸ ht
  cases act with
  | updateRequestStatus request answer =>
    cases answer with
    | error e => exact hsame h
    | ok written =>
      obtain ⟨stored, hstored, -, -, heq, -⟩ := h
      exact SortedMap.isSome_of_insert hstored (heq ▸ ht)
  | setRequestLabel k label value answer =>
    cases answer with
    | error e => exact hsame h
    | ok _ =>
      obtain ⟨stored, hstored, heq, -⟩ := h
      exact SortedMap.isSome_of_insert hstored (heq ▸ ht)
  | _ => exact hsame h

/-! ## Deeds -/

namespace Deed

/-- The deed puts a new request under a key. -/
def Inserts (key : ObjectKey) : Deed → Prop
  | insertRequest request =>
    ⟨request.metadata.namespace.getD "default", request.metadata.anyName⟩ = key
  | _ => False

instance Inserts.decidable (key : ObjectKey) : (deed : Deed) → Decidable (deed.Inserts key)
  | insertRequest _ => inferInstanceAs (Decidable (_ = key))
  | updateSpec .. | setLabel .. | putTemplate _ | putExecution _ | report .. | setPolicy _
  | insertStrategy _ | insertSecret .. | injectConflicts _ | setUnavailable _ => .isFalse nofun

/-- What a deed did to the requests when the store went from `s` to `t`. -/
def RequestEffect (s t : MemoryStore) : Deed → Prop
  | insertRequest request => ∃ written : BuildRequest,
    written.metadata.resourceVersion = some (toString t.lastVersion) ∧
    written.key = ⟨request.metadata.namespace.getD "default", request.metadata.anyName⟩ ∧
    t.requests = s.requests.insert written.key written ∧ s.lastVersion < t.lastVersion
  | updateSpec key spec =>
    (s.requests.get? key = none ∧ t.requests = s.requests) ∨
    ∃ stored, s.requests.get? key = some stored ∧
      t.requests = s.requests.insert key ((stored.withSpec spec).withVersion t.lastVersion) ∧
      s.lastVersion < t.lastVersion
  | setLabel key label value =>
    (s.requests.get? key = none ∧ t.requests = s.requests) ∨
    ∃ stored, s.requests.get? key = some stored ∧
      t.requests =
        s.requests.insert key ((stored.withLabel label value).withVersion t.lastVersion) ∧
      s.lastVersion < t.lastVersion
  | _ => t.requests = s.requests

/-- What a deed did to the executions when the store went from `s` to `t`. -/
def ExecutionEffect (s t : MemoryStore) : Deed → Prop
  | putExecution execution => ∃ written : BuildExecution,
    t.executions = s.executions.insert execution.key written ∧
    written.metadata.ownerReferences = execution.metadata.ownerReferences ∧
    written.metadata.labels = execution.metadata.labels ∧ written.status = execution.status
  | report key status =>
    (s.executions.get? key = none ∧ t.executions = s.executions) ∨
    ∃ stored, s.executions.get? key = some stored ∧
      t.executions = s.executions.insert key
        (({ stored with status := some status } : BuildExecution).withVersion t.lastVersion)
  | _ => t.executions = s.executions

variable (deed : Deed) (s : MemoryStore)

/-- **What a deed did**, seen once for all deeds. -/
theorem effects : s.lastVersion ≤ (deed.apply s).lastVersion ∧ deed.RequestEffect s (deed.apply s) ∧
    deed.ExecutionEffect s (deed.apply s) := by
  cases deed with
  | insertRequest request => exact ⟨Nat.le_succ _, ⟨_, rfl, rfl, rfl, Nat.lt_succ_self _⟩, rfl⟩
  | updateSpec key spec =>
    simp only [apply, MemoryStore.updateSpec, MemoryStore.takeVersion]
    split
    · next hnone => exact ⟨Nat.le_succ _, Or.inl ⟨hnone, rfl⟩, rfl⟩
    · next stored hstored =>
      exact ⟨Nat.le_succ _, Or.inr ⟨stored, hstored, rfl, Nat.lt_succ_self _⟩, rfl⟩
  | setLabel key label value =>
    simp only [apply, MemoryStore.setRequestLabel, MemoryStore.takeVersion]
    split
    · next hnone => exact ⟨Nat.le_succ _, Or.inl ⟨hnone, rfl⟩, rfl⟩
    · next stored hstored =>
      exact ⟨Nat.le_succ _, Or.inr ⟨stored, hstored, rfl, Nat.lt_succ_self _⟩, rfl⟩
  | putTemplate template =>
    -- what is put keeps its uid, or takes a new one; neither concerns requests or executions
    simp only [apply, MemoryStore.putTemplate, MemoryStore.placed, MemoryStore.takeVersion,
      MemoryStore.takeUid]
    split <;> exact ⟨Nat.le_succ _, rfl, rfl⟩
  | putExecution execution =>
    simp only [apply, MemoryStore.putExecution, MemoryStore.placed, MemoryStore.takeVersion,
      MemoryStore.takeUid]
    split <;> exact ⟨Nat.le_succ _, rfl, _, rfl, rfl, rfl, rfl⟩
  | report key status =>
    simp only [apply, MemoryStore.setExecutionStatus, MemoryStore.takeVersion]
    split
    · next hnone => exact ⟨Nat.le_succ _, rfl, Or.inl ⟨hnone, rfl⟩⟩
    · next stored hstored => exact ⟨Nat.le_succ _, rfl, Or.inr ⟨stored, hstored, rfl⟩⟩
  -- the deeds that are left concern neither requests, executions nor versions
  | _ => exact ⟨Nat.le_refl _, rfl, rfl⟩

/-- Versions are not taken back. -/
theorem lastVersion_le : s.lastVersion ≤ (deed.apply s).lastVersion := (deed.effects s).1

/-- What a deed did to the requests. -/
theorem requestEffect : deed.RequestEffect s (deed.apply s) := (deed.effects s).2.1

/-- What a deed did to the executions. -/
theorem executionEffect : deed.ExecutionEffect s (deed.apply s) := (deed.effects s).2.2

/-- **What becomes of a request** that is stored, when others act and put no other in its place: it
stays as it is, it gets a label, or it gets another specification. -/
theorem request {deed : Deed} {s : MemoryStore} {key : ObjectKey} {r : BuildRequest}
    (hr : s.requests.get? key = some r) (hdeed : ¬ deed.Inserts key) :
    ∃ r', (deed.apply s).requests.get? key = some r' ∧
      (r' = r ∨ (∃ label value n, r' = (r.withLabel label value).withVersion n) ∨
        ∃ spec n, deed = .updateSpec key spec ∧ r' = (r.withSpec spec).withVersion n) := by
  have heffect := deed.requestEffect s
  have hsame : (deed.apply s).requests = s.requests →
      ∃ r', (deed.apply s).requests.get? key = some r' ∧ r' = r :=
    fun heq => ⟨r, by rw [heq]; exact hr, rfl⟩
  cases deed with
  | insertRequest request =>
    obtain ⟨written, -, hkey, ht, -⟩ := heffect
    -- a request that is inserted goes under another key
    refine ⟨r, ?_, Or.inl rfl⟩
    rw [ht, SortedMap.get?_insert, if_neg]
    · exact hr
    · exact fun heq => hdeed (hkey.symm.trans heq.symm)
  | updateSpec other spec =>
    rcases heffect with ⟨-, ht⟩ | ⟨stored, hstored, ht, -⟩
    · obtain ⟨r', hr', heq⟩ := hsame ht
      exact ⟨r', hr', Or.inl heq⟩
    · rw [ht]
      rcases SortedMap.get?_insert_cases hr other _ with hr' | ⟨rfl, hr'⟩
      · exact ⟨r, hr', Or.inl rfl⟩
      · obtain rfl := Option.some.inj (hr.symm.trans hstored)
        exact ⟨_, hr', Or.inr (Or.inr ⟨spec, _, rfl, rfl⟩)⟩
  | setLabel other label value =>
    rcases heffect with ⟨-, ht⟩ | ⟨stored, hstored, ht, -⟩
    · obtain ⟨r', hr', heq⟩ := hsame ht
      exact ⟨r', hr', Or.inl heq⟩
    · rw [ht]
      rcases SortedMap.get?_insert_cases hr other _ with hr' | ⟨rfl, hr'⟩
      · exact ⟨r, hr', Or.inl rfl⟩
      · obtain rfl := Option.some.inj (hr.symm.trans hstored)
        exact ⟨_, hr', Or.inr (Or.inl ⟨label, value, _, rfl⟩)⟩
  | _ =>
    obtain ⟨r', hr', heq⟩ := hsame heffect
    exact ⟨r', hr', Or.inl heq⟩

/-- A request that is stored after others acted, and put no other under its key, was stored
before. -/
theorem isSome {deed : Deed} {s : MemoryStore} {key : ObjectKey} (hdeed : ¬ deed.Inserts key)
    (ht : ((deed.apply s).requests.get? key).isSome) : (s.requests.get? key).isSome := by
  have heffect := deed.requestEffect s
  have hsame : (deed.apply s).requests = s.requests → (s.requests.get? key).isSome :=
    fun heq => heq ▸ ht
  cases deed with
  | insertRequest request =>
    obtain ⟨written, -, hkey, heq, -⟩ := heffect
    rw [heq, SortedMap.get?_insert, if_neg] at ht
    · exact ht
    · exact fun hsame => hdeed (hkey.symm.trans hsame.symm)
  | updateSpec k spec =>
    obtain ⟨-, heq⟩ | ⟨stored, hstored, heq, -⟩ := heffect
    · exact hsame heq
    · exact SortedMap.isSome_of_insert hstored (heq ▸ ht)
  | setLabel k label value =>
    obtain ⟨-, heq⟩ | ⟨stored, hstored, heq, -⟩ := heffect
    · exact hsame heq
    · exact SortedMap.isSome_of_insert hstored (heq ▸ ht)
  | _ => exact hsame heffect

/-- A request that was put under a key is there with the status that it was given, and with a
uid. -/
theorem inserted {deed : Deed} {s : MemoryStore} {key : ObjectKey} (hdeed : deed.Inserts key) :
    ∃ request written, deed = .insertRequest request ∧
      (deed.apply s).requests.get? key = some written ∧ written.status = request.status ∧
      ∃ uid, written.metadata.uid = some uid := by
  cases deed with
  | insertRequest request =>
    obtain rfl : _ = key := hdeed
    exact ⟨request, _, rfl, (SortedMap.get?_insert _ _ _ _).trans (if_pos rfl), rfl, _, rfl⟩
  | _ => exact hdeed.elim

end Deed

end PushBuild
