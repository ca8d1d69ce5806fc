import Mathlib.Data.List.Induction
import PushBuild.Proofs.Interleaving.Exchange
import PushBuild.Proofs.Store.Dated
import PushBuild.Proofs.Store.Template

/-!
# Versions and uids are given once

Everything that is done to a store is a call of a program or a deed of others, and each of them may
fail.  A write takes a version before it is known whether there is anything to write to, so numbers
are lost; none is given twice.

1. **Objects.**  Requests, templates and executions are what has a version.  `Place` says where one
   is stored, and `MemoryStore.object?` what is stored there, so that nothing below is said three
   times.
2. **One operation** (`Operation.effect`).  It fails and changes counters only, or it is done: then
   it leaves all objects, or it writes one of them, which has the version that was given last then,
   above all before.  Which of them, and whether it is given a uid, is told by the operation alone.
   Operations are unfolded here only; what one does to objects (`stores`) and what it identifies
   (`givesUid`) are read off it.
3. **Runs.**  A counter that grows with every number told gives strictly increasing numbers
   (`gathered_eq`); this is both the versions and the uids.  That a version tells an object at all
   moments is `Dated`, which every step keeps.
-/

namespace PushBuild

/-! ## Operations -/

/-- What is done to a store. -/
inductive Operation where
  | call {α : Type} (call : StoreCall α)
  | deed (deed : Deed)

/-- Where an object with a version is stored. -/
inductive Place where
  | request (key : ObjectKey)
  | template (key : ObjectKey)
  | execution (key : ObjectKey)
deriving DecidableEq

/-- An object with a version. -/
inductive StoredObject where
  | request (request : BuildRequest)
  | template (template : BuildTemplate)
  | execution (execution : BuildExecution)

/-- The metadata of an object, of whatever kind. -/
def StoredObject.metadata : StoredObject → Metadata
  | request r => r.metadata
  | template t => t.metadata
  | execution e => e.metadata

/-- What is stored at a place. -/
def MemoryStore.object? (s : MemoryStore) : Place → Option StoredObject
  | .request key => (s.requests.get? key).map .request
  | .template key => (s.templates.get? key).map .template
  | .execution key => (s.executions.get? key).map .execution

/-- Where a call writes. -/
def StoreCall.place? {α : Type} : StoreCall α → Option Place
  | .updateRequestStatus request => some (.request request.key)
  | .setRequestLabel key _ _ => some (.request key)
  | .createTemplate template | .replaceTemplate template => some (.template template.key)
  | .createExecution execution => some (.execution execution.key)
  | _ => none

namespace Deed

/-- Where a deed writes. -/
def place? : Deed → Option Place
  | insertRequest request =>
    some (.request ⟨request.metadata.namespace.getD "default", request.metadata.anyName⟩)
  | updateSpec key _ | setLabel key _ _ => some (.request key)
  | putTemplate template => some (.template template.key)
  | putExecution execution => some (.execution execution.key)
  | report key _ => some (.execution key)
  | _ => none

/-- Whether there is nothing for the deed to change. -/
def fails (s : MemoryStore) : Deed → Bool
  | updateSpec key spec => (s.updateSpec key spec).1.isNone
  | setLabel key label value => !(s.setRequestLabel key label value).1.isOk
  | report key _ => !s.executions.contains key
  | _ => false

end Deed

namespace Operation

/-- The store after an operation. -/
def apply (op : Operation) (s : MemoryStore) : MemoryStore :=
  match op with
  | call c => (s.call c).2
  | deed d => d.apply s

/-- Whether the operation fails. -/
def fails (op : Operation) (s : MemoryStore) : Bool :=
  match op with
  | call c => !(s.call c).1.isOk
  | deed d => d.fails s

/-- Where the operation would write. -/
def target? : Operation → Option Place
  | call c => c.place?
  | deed d => d.place?

/-- Where the operation writes. -/
def place? (op : Operation) (s : MemoryStore) : Option Place :=
  if op.fails s then none else op.target?

/-- Whether the operation gives a uid, if it does not fail. -/
def identifies : Operation → Bool
  | call (.createTemplate _) | call (.createExecution _) | deed (.insertRequest _) => true
  | deed (.putTemplate template) => template.metadata.uid.isNone
  | deed (.putExecution execution) => execution.metadata.uid.isNone
  | _ => false

/-- What the operation wrote. -/
def written? (op : Operation) (s : MemoryStore) : Option StoredObject :=
  (op.place? s).bind (op.apply s).object?

/-- The version that the operation gave. -/
def version? (op : Operation) (s : MemoryStore) : Option String :=
  (op.written? s).bind (·.metadata.resourceVersion)

/-- The uid that the operation gave. -/
def uid? (op : Operation) (s : MemoryStore) : Option String :=
  if op.identifies then (op.written? s).bind (·.metadata.uid) else none

/-- The store after some operations. -/
def run (s : MemoryStore) (ops : List Operation) : MemoryStore :=
  ops.foldl (fun s op => op.apply s) s

/-- What is told of each operation of a run, in their order. -/
def gathered {β : Type} (tell : Operation → MemoryStore → Option β) :
    MemoryStore → List Operation → List β
  | _, [] => []
  | s, op :: rest => (tell op s).toList ++ gathered tell (op.apply s) rest

end Operation

/-! ## One operation -/

/-- From the store `s` to the store `t`, what is at this place was written, with the version that
was given last; all other objects are as they were. -/
structure Stores (s t : MemoryStore) (written : Option Place) : Prop where
  lastVersion_le : s.lastVersion ≤ t.lastVersion
  kept : ∀ place, written ≠ some place → t.object? place = s.object? place
  renewed : ∀ place, written = some place → ∃ a, t.object? place = some a ∧
    a.metadata.resourceVersion = some (toString t.lastVersion) ∧ s.lastVersion < t.lastVersion

namespace Stores

variable {s t : MemoryStore} {key : ObjectKey}

/-- What leaves requests, templates and executions alone stores nothing. -/
theorem nothing (hle : s.lastVersion ≤ t.lastVersion) (hrequests : t.requests = s.requests)
    (htemplates : t.templates = s.templates) (hexecutions : t.executions = s.executions) :
    Stores s t none where
  lastVersion_le := hle
  kept place _ := by
    cases place <;> simp only [MemoryStore.object?, hrequests, htemplates, hexecutions]
  renewed _ := nofun

/-- A request that is put with a new version is what is stored, -/
theorem request {r : BuildRequest} (hlt : s.lastVersion < t.lastVersion)
    (hversion : r.metadata.resourceVersion = some (toString t.lastVersion))
    (hrequests : t.requests = s.requests.insert key r) (htemplates : t.templates = s.templates)
    (hexecutions : t.executions = s.executions) : Stores s t (some (.request key)) where
  lastVersion_le := Nat.le_of_lt hlt
  kept place hother := by
    cases place with
    | request k =>
      have hk : k ≠ key := fun h => hother (h ▸ rfl)
      simp only [MemoryStore.object?, hrequests, SortedMap.get?_insert, if_neg hk]
    | template k => simp only [MemoryStore.object?, htemplates]
    | execution k => simp only [MemoryStore.object?, hexecutions]
  renewed := by
    rintro _ ⟨⟩
    exact ⟨.request r, by simp [MemoryStore.object?, hrequests], hversion, hlt⟩

/-- and so is a template -/
theorem template {a : BuildTemplate} (hlt : s.lastVersion < t.lastVersion)
    (hversion : a.metadata.resourceVersion = some (toString t.lastVersion))
    (hrequests : t.requests = s.requests) (htemplates : t.templates = s.templates.insert key a)
    (hexecutions : t.executions = s.executions) : Stores s t (some (.template key)) where
  lastVersion_le := Nat.le_of_lt hlt
  kept place hother := by
    cases place with
    | request k => simp only [MemoryStore.object?, hrequests]
    | template k =>
      have hk : k ≠ key := fun h => hother (h ▸ rfl)
      simp only [MemoryStore.object?, htemplates, SortedMap.get?_insert, if_neg hk]
    | execution k => simp only [MemoryStore.object?, hexecutions]
  renewed := by
    rintro _ ⟨⟩
    exact ⟨.template a, by simp [MemoryStore.object?, htemplates], hversion, hlt⟩

/-- or an execution. -/
theorem execution {x : BuildExecution} (hlt : s.lastVersion < t.lastVersion)
    (hversion : x.metadata.resourceVersion = some (toString t.lastVersion))
    (hrequests : t.requests = s.requests) (htemplates : t.templates = s.templates)
    (hexecutions : t.executions = s.executions.insert key x) :
    Stores s t (some (.execution key)) where
  lastVersion_le := Nat.le_of_lt hlt
  kept place hother := by
    cases place with
    | request k => simp only [MemoryStore.object?, hrequests]
    | template k => simp only [MemoryStore.object?, htemplates]
    | execution k =>
      have hk : k ≠ key := fun h => hother (h ▸ rfl)
      simp only [MemoryStore.object?, hexecutions, SortedMap.get?_insert, if_neg hk]
  renewed := by
    rintro _ ⟨⟩
    exact ⟨.execution x, by simp [MemoryStore.object?, hexecutions], hversion, hlt⟩

end Stores

/-- From the store `s` to the store `t`, what is at this place was given a uid, if there is such a
place; else no uid was given. -/
def Identifies (s t : MemoryStore) : Option Place → Prop
  | none => t.lastUid = s.lastUid
  | some place => s.lastUid < t.lastUid ∧ ∃ a, t.object? place = some a ∧
    a.metadata.uid = some ("uid-" ++ toString t.lastUid)

namespace Identifies

variable {s t : MemoryStore} {key : ObjectKey}

/-- A request with a new uid is what was identified, -/
theorem request {r : BuildRequest} (hlt : s.lastUid < t.lastUid)
    (huid : r.metadata.uid = some ("uid-" ++ toString t.lastUid))
    (ht : t.requests = s.requests.insert key r) :
    Identifies s t (some (.request key)) := by
  refine ⟨hlt, .request r, ?_, huid⟩
  rw [MemoryStore.object?, ht, SortedMap.get?_insert, if_pos rfl, Option.map_some]

/-- and so is a template -/
theorem template {a : BuildTemplate} (hlt : s.lastUid < t.lastUid)
    (huid : a.metadata.uid = some ("uid-" ++ toString t.lastUid))
    (ht : t.templates = s.templates.insert key a) :
    Identifies s t (some (.template key)) := by
  refine ⟨hlt, .template a, ?_, huid⟩
  rw [MemoryStore.object?, ht, SortedMap.get?_insert, if_pos rfl, Option.map_some]

/-- or an execution. -/
theorem execution {x : BuildExecution} (hlt : s.lastUid < t.lastUid)
    (huid : x.metadata.uid = some ("uid-" ++ toString t.lastUid))
    (ht : t.executions = s.executions.insert key x) :
    Identifies s t (some (.execution key)) := by
  refine ⟨hlt, .execution x, ?_, huid⟩
  rw [MemoryStore.object?, ht, SortedMap.get?_insert, if_pos rfl, Option.map_some]

end Identifies

section

variable {s t : MemoryStore}

/-- What changes counters only leaves all objects, and gives no uid. -/
theorem MemoryStore.Recounts.same (h : s.Recounts t) :
    t.requests = s.requests ∧ t.templates = s.templates ∧ t.executions = s.executions ∧
    t.lastUid = s.lastUid :=
  ⟨(congrArg MemoryStore.requests h :), (congrArg MemoryStore.templates h :),
    (congrArg MemoryStore.executions h :), (congrArg MemoryStore.lastUid h :)⟩

/-- **What came of an operation** when the store went from `s` to `t`: it failed and changed
counters only, or it wrote the object at its place and gave it a uid if it does so. -/
inductive Operation.Effect (s t : MemoryStore) (place : Option Place) (identifies : Bool) :
    (failed : Bool) → Prop
  | failed : s.Recounts t → Effect s t place identifies true
  | done :
      Stores s t place → Identifies s t (if identifies then place else none) →
        Effect s t place identifies false

/-- What came of a call. -/
theorem StoreCall.effect {α : Type} {c : StoreCall α} {answer : Except StoreError α}
    (h : s.call c = (answer, t)) :
    Operation.Effect s t c.place? (Operation.call c).identifies !answer.isOk := by
  rcases MemoryStore.call_eq h with ⟨rfl, _, rfl⟩ | h
  · exact .failed (.refl _)
  · cases c with
    | updateRequestStatus request =>
      simp only [MemoryStore.answer, MemoryStore.updateRequestStatus, MemoryStore.takeVersion] at h
      split at h
      · obtain ⟨rfl, rfl⟩ := Prod.mk.inj h
        exact .failed rfl
      · split at h
        · obtain ⟨rfl, rfl⟩ := Prod.mk.inj h
          exact .failed rfl
        · split at h
          · obtain ⟨rfl, rfl⟩ := Prod.mk.inj h
            exact .done (.request (Nat.lt_succ_self _) rfl rfl rfl rfl) rfl
          · obtain ⟨rfl, rfl⟩ := Prod.mk.inj h
            exact .failed rfl
    | setRequestLabel key label value =>
      simp only [MemoryStore.answer, MemoryStore.setRequestLabel, MemoryStore.takeVersion] at h
      split at h
      · obtain ⟨rfl, rfl⟩ := Prod.mk.inj h
        exact .failed rfl
      · obtain ⟨rfl, rfl⟩ := Prod.mk.inj h
        exact .done (.request (Nat.lt_succ_self _) rfl rfl rfl rfl) rfl
    | createTemplate template =>
      simp only [MemoryStore.answer, MemoryStore.createTemplate] at h
      split at h
      · obtain ⟨rfl, rfl⟩ := Prod.mk.inj h
        exact .failed rfl
      · obtain ⟨rfl, rfl⟩ := Prod.mk.inj h
        exact .done (.template (Nat.lt_succ_self _) rfl rfl rfl rfl)
          (.template (Nat.lt_succ_self _) rfl rfl)
    | replaceTemplate template =>
      simp only [MemoryStore.answer, MemoryStore.replaceTemplate, MemoryStore.takeVersion] at h
      split at h
      · obtain ⟨rfl, rfl⟩ := Prod.mk.inj h
        exact .failed rfl
      · split at h
        · obtain ⟨rfl, rfl⟩ := Prod.mk.inj h
          exact .done (.template (Nat.lt_succ_self _) rfl rfl rfl rfl) rfl
        · obtain ⟨rfl, rfl⟩ := Prod.mk.inj h
          exact .failed rfl
    | createExecution execution =>
      simp only [MemoryStore.answer, MemoryStore.createExecution] at h
      split at h
      · obtain ⟨rfl, rfl⟩ := Prod.mk.inj h
        exact .failed rfl
      · obtain ⟨rfl, rfl⟩ := Prod.mk.inj h
        exact .done (.execution (Nat.lt_succ_self _) rfl rfl rfl rfl)
          (.execution (Nat.lt_succ_self _) rfl rfl)
    -- the calls that are left only read
    | _ =>
      obtain ⟨rfl, rfl⟩ := Prod.mk.inj h
      exact .done (.nothing (Nat.le_refl _) rfl rfl rfl) rfl

/-- What came of a deed. -/
theorem Deed.effect (d : Deed) (s : MemoryStore) :
    Operation.Effect s (d.apply s) d.place? (Operation.deed d).identifies (d.fails s) := by
  cases d with
  | insertRequest request =>
    exact .done (.request (Nat.lt_succ_self _) rfl rfl rfl rfl)
      (.request (Nat.lt_succ_self _) rfl rfl)
  | updateSpec key spec =>
    simp only [fails, apply, MemoryStore.updateSpec, MemoryStore.takeVersion]
    cases s.requests.get? key with
    | none => exact .failed rfl
    | some stored => exact .done (.request (Nat.lt_succ_self _) rfl rfl rfl rfl) rfl
  | setLabel key label value =>
    simp only [fails, apply, MemoryStore.setRequestLabel, MemoryStore.takeVersion]
    cases s.requests.get? key with
    | none => exact .failed rfl
    | some stored => exact .done (.request (Nat.lt_succ_self _) rfl rfl rfl rfl) rfl
  | putTemplate template =>
    simp only [apply, MemoryStore.putTemplate, MemoryStore.placed, MemoryStore.takeVersion,
      MemoryStore.takeUid]
    -- what is put keeps its uid, or takes a new one
    split
    · next huid =>
      have hkeeps : (Operation.deed (putTemplate template)).identifies = false := by
        rw [Operation.identifies, huid]
        rfl
      exact hkeeps ▸ .done (.template (Nat.lt_succ_self _) rfl rfl rfl rfl) rfl
    · next huid =>
      have htakes : (Operation.deed (putTemplate template)).identifies = true := by
        rw [Operation.identifies, huid]
        rfl
      exact htakes ▸ .done (.template (Nat.lt_succ_self _) rfl rfl rfl rfl)
        (.template (Nat.lt_succ_self _) rfl rfl)
  | putExecution execution =>
    simp only [apply, MemoryStore.putExecution, MemoryStore.placed, MemoryStore.takeVersion,
      MemoryStore.takeUid]
    split
    · next huid =>
      have hkeeps : (Operation.deed (putExecution execution)).identifies = false := by
        rw [Operation.identifies, huid]
        rfl
      exact hkeeps ▸ .done (.execution (Nat.lt_succ_self _) rfl rfl rfl rfl) rfl
    · next huid =>
      have htakes : (Operation.deed (putExecution execution)).identifies = true := by
        rw [Operation.identifies, huid]
        rfl
      exact htakes ▸ .done (.execution (Nat.lt_succ_self _) rfl rfl rfl rfl)
        (.execution (Nat.lt_succ_self _) rfl rfl)
  | report key status =>
    simp only [fails, apply, MemoryStore.setExecutionStatus, MemoryStore.takeVersion,
      SortedMap.contains]
    cases s.executions.get? key with
    | none => exact .failed rfl
    | some stored => exact .done (.execution (Nat.lt_succ_self _) rfl rfl rfl rfl) rfl
  | _ => exact .done (.nothing (Nat.le_refl _) rfl rfl rfl) rfl

end

namespace Operation

section

variable {op : Operation} {s : MemoryStore}

/-- **What came of an operation**, be it a call or a deed. -/
theorem effect (op : Operation) (s : MemoryStore) :
    Effect s (op.apply s) op.target? op.identifies (op.fails s) := by
  cases op with
  | call c => exact c.effect rfl
  | deed d => exact d.effect s

/-- **An operation that fails** leaves the store as it is, except for what it counts. -/
theorem recounts (h : op.fails s = true) : s.Recounts (op.apply s) := by
  have heffect := op.effect s
  rw [h] at heffect
  cases heffect with
  | failed hsame => exact hsame

/-- Versions are not taken back. -/
theorem lastVersion_le (op : Operation) (s : MemoryStore) :
    s.lastVersion ≤ (op.apply s).lastVersion := by
  cases op with
  | call c => exact ((c.act_served s Instant.epoch).effects []).1
  | deed d => exact d.lastVersion_le s

/-- **What an operation does to objects.**  It writes the one at its place, or none. -/
theorem stores (op : Operation) (s : MemoryStore) : Stores s (op.apply s) (op.place? s) := by
  have heffect := op.effect s
  unfold place?
  cases hfails : op.fails s with
  | true =>
    obtain ⟨hrequests, htemplates, hexecutions, -⟩ := (recounts hfails).same
    exact .nothing (op.lastVersion_le s) hrequests htemplates hexecutions
  | false =>
    rw [hfails] at heffect
    cases heffect with
    | done hstores => exact hstores

/-- **What an operation gives a uid**: what it creates, if it does not fail. -/
theorem givesUid (op : Operation) (s : MemoryStore) :
    Identifies s (op.apply s) (if op.identifies then op.place? s else none) := by
  have heffect := op.effect s
  unfold place?
  cases hfails : op.fails s with
  | true =>
    rw [if_pos rfl, ite_self]
    exact (recounts hfails).same.2.2.2
  | false =>
    rw [hfails] at heffect
    cases heffect with
    | done _ hidentifies => exact hidentifies

/-- An operation gives no version and leaves all objects, or it gives the next one to what it
writes. -/
theorem version?_cases (op : Operation) (s : MemoryStore) :
    (op.version? s = none ∧ ∀ place, (op.apply s).object? place = s.object? place) ∨
    (op.version? s = some (toString (op.apply s).lastVersion) ∧
      s.lastVersion < (op.apply s).lastVersion ∧
      ∃ place a, op.place? s = some place ∧ (op.apply s).object? place = some a ∧
        a.metadata.resourceVersion = some (toString (op.apply s).lastVersion) ∧
        ∀ other, other ≠ place → (op.apply s).object? other = s.object? other) := by
  have hstores := op.stores s
  unfold version? written?
  cases hplace : op.place? s with
  | none => exact Or.inl ⟨rfl, fun place => hstores.kept place (hplace ▸ nofun)⟩
  | some place =>
    obtain ⟨a, ha, hversion, hlt⟩ := hstores.renewed place hplace
    refine Or.inr ⟨?_, hlt, place, a, rfl, ha, hversion, fun other hother => hstores.kept other ?_⟩
    · rw [Option.bind_some, ha, Option.bind_some, hversion]
    · rw [hplace]
      exact fun h => hother (Option.some.inj h).symm

/-- An operation gives no uid, or the next one. -/
theorem uid?_cases (op : Operation) (s : MemoryStore) :
    (op.uid? s = none ∧ (op.apply s).lastUid = s.lastUid) ∨
    (op.uid? s = some ("uid-" ++ toString (op.apply s).lastUid) ∧
      s.lastUid < (op.apply s).lastUid) := by
  have hgives := op.givesUid s
  unfold uid? written?
  cases hidentifies : op.identifies with
  -- an operation that identifies nothing gives no uid
  | false =>
    rw [hidentifies] at hgives
    exact Or.inl ⟨rfl, hgives⟩
  | true =>
    rw [hidentifies, if_pos rfl] at hgives
    cases hplace : op.place? s with
    | none =>
      rw [hplace] at hgives
      exact Or.inl ⟨rfl, hgives⟩
    | some place =>
      rw [hplace] at hgives
      obtain ⟨hlt, a, ha, huid⟩ := hgives
      refine Or.inr ⟨?_, hlt⟩
      rw [if_pos rfl, Option.bind_some, ha, Option.bind_some, huid]

end

end Operation

/-! ## Runs -/

namespace Operation

/-- **Numbers given in a run.**  What is told of each operation is nothing, or the label of a
counter that has grown; so all that is told are the labels of strictly increasing numbers, above
where the counter was. -/
theorem gathered_eq {β : Type} (tell : Operation → MemoryStore → Option β)
    (counter : MemoryStore → Nat) (label : Nat → β)
    (hle : ∀ (op : Operation) s, counter s ≤ counter (op.apply s))
    (htell : ∀ (op : Operation) s, tell op s = none ∨
      (tell op s = some (label (counter (op.apply s))) ∧ counter s < counter (op.apply s)))
    (s : MemoryStore) (ops : List Operation) :
    ∃ numbers : List Nat, (∀ n ∈ numbers, counter s < n) ∧
      numbers.Pairwise (· < ·) ∧ gathered tell s ops = numbers.map label := by
  induction ops generalizing s with
  | nil => exact ⟨[], nofun, .nil, rfl⟩
  | cons op rest ih =>
    obtain ⟨numbers, habove, hincreasing, hrest⟩ := ih (op.apply s)
    rw [gathered, hrest]
    rcases htell op s with hnone | ⟨hsome, hlt⟩
    · rw [hnone]
      exact ⟨numbers, fun n hn => Nat.lt_of_le_of_lt (hle op s) (habove n hn), hincreasing, rfl⟩
    · rw [hsome]
      refine ⟨counter (op.apply s) :: numbers, ?_, List.pairwise_cons.mpr ⟨habove, hincreasing⟩,
        rfl⟩
      exact List.forall_mem_cons.mpr ⟨hlt, fun n hn => Nat.lt_trans hlt (habove n hn)⟩

/-- The last operation of a run is applied last. -/
theorem run_append_singleton (s : MemoryStore) (ops : List Operation) (op : Operation) :
    run s (ops ++ [op]) = op.apply (run s ops) := List.foldl_append ..

section

variable {α : Type} {held : MemoryStore → SortedMap ObjectKey α} {wrap : α → StoredObject}
  {place : ObjectKey → Place}

/-- What an operation does renews the objects of each kind. -/
theorem renews
    (hheld : ∀ (s : MemoryStore) key, s.object? (place key) = ((held s).get? key).map wrap)
    (hwrap : ∀ {a b}, wrap a = wrap b → a = b) (op : Operation) (s : MemoryStore) :
    s.Renews held (fun a => (wrap a).metadata.resourceVersion) (op.apply s) where
  lastVersion_le := op.lastVersion_le s
  object key := by
    -- a kind of objects is seen through what is at its places
    have hobject : ∀ {t : MemoryStore} {o : Option α}, t.object? (place key) = o.map wrap →
        (held t).get? key = o := by
      intro t o h
      exact Option.map_injective (fun _ _ => hwrap) ((hheld t key).symm.trans h)
    rcases op.version?_cases s with ⟨-, hsame⟩ | ⟨-, hlt, other, a, -, ha, hversion, hothers⟩
    · exact Or.inl (hobject ((hsame _).trans (hheld s key)))
    · by_cases hother : place key = other
      · -- the object is the one that was written
        subst hother
        have hfound := (hheld (op.apply s) key).symm.trans ha
        obtain ⟨b, hb, rfl⟩ := Option.map_eq_some_iff.mp hfound
        exact Or.inr ⟨b, hb, hversion, hlt⟩
      · exact Or.inl (hobject ((hothers _ hother).trans (hheld s key)))

/-- The stores of a run tell the objects of each kind apart by their versions. -/
theorem exists_dated
    (hheld : ∀ (s : MemoryStore) key, s.object? (place key) = ((held s).get? key).map wrap)
    (hwrap : ∀ {a b}, wrap a = wrap b → a = b) (ops : List Operation) :
    ∃ stores : List MemoryStore, (∀ before, before <+: ops → run {} before ∈ stores) ∧
      Dated held (fun a => (wrap a).metadata.resourceVersion) (run {} ops).lastVersion stores := by
  induction ops using List.reverseRecOn with
  | nil =>
    refine ⟨[{}], fun before h => ?_, .one fun {key a} ha => ?_⟩
    · rw [List.prefix_nil.mp h]
      exact List.mem_singleton_self _
    · -- the empty store has no objects
      have hempty : ({} : MemoryStore).object? (place key) = none := by cases place key <;> rfl
      rw [hheld, ha] at hempty
      cases hempty
  | append_singleton ops op ih =>
    obtain ⟨stores, hstores, hdated⟩ := ih
    refine ⟨run {} (ops ++ [op]) :: stores, fun before h => ?_, ?_⟩
    · rcases List.prefix_concat_iff.mp h with rfl | h
      · exact List.mem_cons_self
      · exact List.mem_cons_of_mem _ (hstores before h)
    · rw [run_append_singleton]
      exact hdated.next (hstores ops (List.prefix_refl _)) (renews hheld hwrap op _)

/-- An object of a kind is told by its version at all moments of a run. -/
theorem eq_of_version (held : MemoryStore → SortedMap ObjectKey α) (place : ObjectKey → Place)
    (hheld : ∀ (s : MemoryStore) key, s.object? (place key) = ((held s).get? key).map wrap)
    (hwrap : ∀ {a b}, wrap a = wrap b → a = b) {ops before after : List Operation}
    (hbefore : before <+: ops) (hafter : after <+: ops) {key : ObjectKey} {a b : StoredObject}
    (ha : (run {} before).object? (place key) = some a)
    (hb : (run {} after).object? (place key) = some b)
    (hversion : a.metadata.resourceVersion = b.metadata.resourceVersion) : a = b := by
  obtain ⟨stores, hstores, hdated⟩ := exists_dated hheld hwrap ops
  obtain ⟨x, hx, rfl⟩ := Option.map_eq_some_iff.mp ((hheld _ key).symm.trans ha)
  obtain ⟨y, hy, rfl⟩ := Option.map_eq_some_iff.mp ((hheld _ key).symm.trans hb)
  exact congrArg wrap (hdated.unique (hstores before hbefore) (hstores after hafter) hx hy hversion)

end

end Operation

/-- **Versions and uids are given once**, whatever is done to a store and whatever fails.  The
versions that are given are strictly increasing, what is stored at a place at two moments with one
version is the same, and no uid is given twice.  An operation that fails changes counters only.  Any
other leaves all objects, or it writes one of them, which has the version that is told of the
operation; and where no uid is told, none was given. -/
theorem versions_never_reused (ops : List Operation) :
    (∃ numbers : List Nat, numbers.Pairwise (· < ·) ∧
      Operation.gathered Operation.version? {} ops = numbers.map toString) ∧
    (∀ before after, before <+: ops → after <+: ops → ∀ place a b,
      (Operation.run {} before).object? place = some a →
        (Operation.run {} after).object? place = some b →
      a.metadata.resourceVersion = b.metadata.resourceVersion → a = b) ∧
    (Operation.gathered Operation.uid? {} ops).Nodup ∧
    ∀ (op : Operation) (s : MemoryStore),
      (op.fails s = true → s.Recounts (op.apply s)) ∧
      ((op.version? s = none ∧ ∀ place, (op.apply s).object? place = s.object? place) ∨
        ∃ place a version, op.version? s = some version ∧ (op.apply s).object? place = some a ∧
          a.metadata.resourceVersion = some version ∧
          ∀ other, other ≠ place → (op.apply s).object? other = s.object? other) ∧
      (op.uid? s = none → (op.apply s).lastUid = s.lastUid) := by
  refine ⟨?_, fun before after hbefore hafter place a b ha hb hversion => ?_, ?_,
    fun op s => ⟨Operation.recounts, ?_, ?_⟩⟩
  · obtain ⟨numbers, -, hincreasing, hgathered⟩ := Operation.gathered_eq Operation.version?
      MemoryStore.lastVersion toString Operation.lastVersion_le
      (fun op s => (op.version?_cases s).imp And.left fun h => ⟨h.1, h.2.1⟩) {} ops
    exact ⟨numbers, hincreasing, hgathered⟩
  · cases place with
    | request key =>
      exact Operation.eq_of_version (·.requests) .request (fun _ _ => rfl) StoredObject.request.inj
        hbefore hafter
        ha hb hversion
    | template key =>
      exact Operation.eq_of_version (·.templates) .template (fun _ _ => rfl)
        StoredObject.template.inj hbefore hafter
        ha hb hversion
    | execution key =>
      exact Operation.eq_of_version (·.executions) .execution (fun _ _ => rfl)
        StoredObject.execution.inj hbefore hafter
        ha hb hversion
  · obtain ⟨numbers, -, hincreasing, hgathered⟩ := Operation.gathered_eq Operation.uid?
      MemoryStore.lastUid (fun n => "uid-" ++ toString n)
      (fun op s => (op.uid?_cases s).elim (fun h => Nat.le_of_eq h.2.symm) fun h =>
        Nat.le_of_lt h.2)
      (fun op s => (op.uid?_cases s).imp_left And.left) {} ops
    -- different numbers have different texts
    rw [hgathered]
    exact List.pairwise_map.mpr (hincreasing.imp fun hlt h =>
      Nat.ne_of_lt hlt (repr_inj.mp ((String.append_right_inj _).mp h)))
  · rcases op.version?_cases s with hnone | ⟨hversion, -, place, a, -, ha, hm, hothers⟩
    · exact Or.inl hnone
    · exact Or.inr ⟨place, a, _, hversion, ha, hm, hothers⟩
  · intro hnone
    rcases op.uid?_cases s with ⟨-, h⟩ | ⟨h, -⟩
    · exact h
    · cases hnone.symm.trans h

/-- A report on an execution that is not there uses up a version. -/
example : Operation.gathered Operation.version? {}
    [.deed (.insertRequest default), .deed (.report ⟨"default", "run"⟩ default),
      .deed (.putExecution default)] =
    ["1", "3"] := by
  decide +kernel

end PushBuild
