import PushBuild.Controller.Execution
import PushBuild.Proofs.Store.Effect

/-!
# Executions are there for good

Nothing removes an execution, and if others leave those of a request alone, only programs create
them.  So what a program was told about an execution of the request stays true.

1. **Owners and labels.**  These never change (`Alike`), and they say whose an execution is
   (`BelongsTo`) and whether a push started it (`IsForPush`).
2. **One step.**  An act keeps every execution, and adds at most the one it created
   (`Act.ExecutionEffect.kept`, `Act.ExecutionEffect.added`); a deed that leaves the executions of
   the request alone neither adds one nor changes whose it is (`Deed.Leaves`).
3. **Runs** (`Kept`).  An execution of the request was created by an event of the log, and no two
   events created the same one; what a program created or found is there.
-/

namespace PushBuild

namespace BuildExecution

/-- The request with this uid controls the execution. -/
def BelongsTo (x : BuildExecution) (uid : String) : Prop := Ownership.of x.metadata uid = .owned

instance (x : BuildExecution) (uid : String) : Decidable (x.BelongsTo uid) :=
  inferInstanceAs (Decidable (_ = _))

/-- A push started the execution. -/
def IsForPush (x : BuildExecution) : Prop :=
  x.metadata.label? triggerLabel = some BuildTrigger.onCommit.label

instance (x : BuildExecution) : Decidable x.IsForPush := inferInstanceAs (Decidable (_ = _))

/-- The executions have the same owners and the same labels. -/
structure Alike (x y : BuildExecution) : Prop where
  owners : x.metadata.ownerReferences = y.metadata.ownerReferences
  labels : x.metadata.labels = y.metadata.labels

variable {x y z : BuildExecution} {uid : String}

/-- An execution is like itself, -/
theorem Alike.refl (x : BuildExecution) : x.Alike x := ⟨rfl, rfl⟩

/-- and what is like one that is like another is like that other. -/
theorem Alike.trans (h : x.Alike y) (h' : y.Alike z) : x.Alike z :=
  ⟨h.owners.trans h'.owners, h.labels.trans h'.labels⟩

/-- Executions that are alike belong to the same request -/
theorem Alike.belongsTo (h : x.Alike y) : x.BelongsTo uid ↔ y.BelongsTo uid := by
  unfold BelongsTo Ownership.of Metadata.controller? Metadata.owners
  rw [h.owners]

/-- and were started for the same reason. -/
theorem Alike.isForPush (h : x.Alike y) : x.IsForPush ↔ y.IsForPush := by
  unfold IsForPush Metadata.label?
  rw [h.labels]

end BuildExecution

/-! ## One step -/

section

variable {act : Act} {s t : MemoryStore} {q : ObjectKey} {x : BuildExecution}

/-- An act leaves the executions that are there as they are. -/
theorem Act.ExecutionEffect.kept (h : act.ExecutionEffect s t) (hx : s.executions.get? q = some x) :
    t.executions.get? q = some x := by
  have hsame : t.executions = s.executions → t.executions.get? q = some x := fun heq => heq ▸ hx
  cases act with
  | createExecution e answer =>
    cases answer with
    | error error => exact hsame h
    | ok w =>
      obtain ⟨hfree, ht, -⟩ := h
      -- the new execution has a key that was free, so it is another one
      rw [ht, SortedMap.get?_insert, if_neg]
      · exact hx
      · rintro rfl
        cases hfree.symm.trans hx
  | getExecution k answer =>
    cases answer with
    | error error => exact hsame h
    | ok found => exact hsame h.2
  | _ => exact hsame h

/-- An execution that is there after an act was there before, or the act created it. -/
theorem Act.ExecutionEffect.added (h : act.ExecutionEffect s t)
    (hx : t.executions.get? q = some x) :
    s.executions.get? q = some x ∨ ∃ e, act = .createExecution e (.ok x) ∧ e.key = q ∧
      x.Alike e := by
  have hsame : t.executions = s.executions → s.executions.get? q = some x := fun heq => heq ▸ hx
  cases act with
  | createExecution e answer =>
    cases answer with
    | error error => exact Or.inl (hsame h)
    | ok w =>
      obtain ⟨-, ht, uid, version, hw⟩ := h
      rw [ht, SortedMap.get?_insert] at hx
      split at hx
      · -- the execution in this place is the one that was created
        next hkey =>
        obtain rfl := Option.some.inj hx
        exact Or.inr ⟨e, rfl, hkey.symm, by rw [hw], by rw [hw]⟩
      · exact Or.inl hx
  | getExecution k answer =>
    cases answer with
    | error error => exact Or.inl (hsame h)
    | ok found => exact Or.inl (hsame h.2)
  | _ => exact Or.inl (hsame h)

end

namespace Deed

/-- The deed leaves the executions of the request with this uid alone: an execution that is put has
another owner, and does not take the place of one of the request. -/
def Leaves (uid : String) (s : MemoryStore) : Deed → Prop
  | putExecution x => ¬ x.BelongsTo uid ∧ ∀ y ∈ s.executions.get? x.key, ¬ y.BelongsTo uid
  | _ => True

instance Leaves.decidable (uid : String) (s : MemoryStore) :
    (deed : Deed) → Decidable (deed.Leaves uid s)
  | putExecution x =>
    inferInstanceAs
      (Decidable (¬ x.BelongsTo uid ∧ ∀ y ∈ s.executions.get? x.key, ¬ y.BelongsTo uid))
  | insertRequest _ | updateSpec .. | setLabel .. | putTemplate _ | report .. | setPolicy _
  | insertStrategy _ | insertSecret .. | injectConflicts _ | setUnavailable _ => .isTrue trivial

variable {deed : Deed} {uid : String} {s : MemoryStore} {q : ObjectKey} {x : BuildExecution}

/-- No deed removes an execution. -/
theorem executions_mono (deed : Deed) (hx : s.executions.get? q = some x) :
    ∃ x', (deed.apply s).executions.get? q = some x' := by
  have heffect := deed.executionEffect s
  -- an insertion replaces an entry at most
  have hinsert : ∀ k y, (deed.apply s).executions = s.executions.insert k y →
      ∃ x', (deed.apply s).executions.get? q = some x' := by
    intro k y ht
    rw [ht]
    rcases SortedMap.get?_insert_cases hx k y with hx' | ⟨-, hx'⟩
    · exact ⟨x, hx'⟩
    · exact ⟨y, hx'⟩
  cases deed with
  | putExecution y =>
    obtain ⟨written, ht, -⟩ := heffect
    exact hinsert _ _ ht
  | report k status =>
    rcases heffect with ⟨-, ht⟩ | ⟨y, -, ht⟩
    · exact ⟨x, by rw [ht]; exact hx⟩
    · exact hinsert _ _ ht
  | _ => exact ⟨x, heffect ▸ hx⟩

/-- An execution of the request stays the request's. -/
theorem executions_kept (hleaves : deed.Leaves uid s) (hx : s.executions.get? q = some x)
    (howned : x.BelongsTo uid) :
    ∃ x', (deed.apply s).executions.get? q = some x' ∧ x'.Alike x := by
  have heffect := deed.executionEffect s
  cases deed with
  | putExecution y =>
    obtain ⟨written, ht, -⟩ := heffect
    refine ⟨x, ?_, .refl x⟩
    rw [ht, SortedMap.get?_insert, if_neg]
    · exact hx
    · rintro rfl
      exact hleaves.2 x hx howned
  | report k status =>
    rcases heffect with ⟨-, ht⟩ | ⟨y, hy, ht⟩
    · exact ⟨x, by rw [ht]; exact hx, .refl x⟩
    · rw [ht]
      rcases SortedMap.get?_insert_cases hx k _ with hx' | ⟨rfl, hx'⟩
      · exact ⟨x, hx', .refl x⟩
      · -- a report changes the status only
        obtain rfl := Option.some.inj (hx.symm.trans hy)
        exact ⟨_, hx', rfl, rfl⟩
  | _ => exact ⟨x, heffect ▸ hx, .refl x⟩

/-- An execution of the request was the request's before. -/
theorem executions_added (hleaves : deed.Leaves uid s)
    (hx : (deed.apply s).executions.get? q = some x) (howned : x.BelongsTo uid) :
    ∃ x', s.executions.get? q = some x' ∧ x.Alike x' := by
  have heffect := deed.executionEffect s
  cases deed with
  | putExecution y =>
    obtain ⟨written, ht, howners, hlabels, -⟩ := heffect
    rw [ht, SortedMap.get?_insert] at hx
    split at hx
    · -- what others put has another owner
      obtain rfl := Option.some.inj hx
      have halike : written.Alike y := ⟨howners, hlabels⟩
      exact absurd (halike.belongsTo.mp howned) hleaves.1
    · exact ⟨x, hx, .refl x⟩
  | report k status =>
    rcases heffect with ⟨-, ht⟩ | ⟨y, hy, ht⟩
    · exact ⟨x, ht ▸ hx, .refl x⟩
    · rw [ht, SortedMap.get?_insert] at hx
      split at hx
      · next hkey =>
        obtain rfl := Option.some.inj hx
        exact ⟨y, hkey ▸ hy, rfl, rfl⟩
      · exact ⟨x, hx, .refl x⟩
  | _ => exact ⟨x, heffect ▸ hx, .refl x⟩

end Deed

/-! ## Runs -/

/-- Whether the event is the creation of an execution under this key. -/
def Event.creates {ι : Type} (q : ObjectKey) (e : Event ι) : Bool :=
  match e.cause with
  | .act _ (.createExecution x (.ok _)) => x.key == q
  | _ => false

/-- What it means that an event creates an execution. -/
theorem Event.creates_iff {ι : Type} {q : ObjectKey} {e : Event ι} :
    e.creates q = true ↔ ∃ i x w, e.cause = .act i (.createExecution x (.ok w)) ∧ x.key = q := by
  unfold Event.creates
  split
  · next i x w hcause =>
    rw [beq_iff_eq]
    refine ⟨fun hkey => ⟨i, x, w, hcause, hkey⟩, ?_⟩
    rintro ⟨j, y, v, hcause', hkey⟩
    cases hcause.symm.trans hcause'
    exact hkey
  · next hcause =>
    refine ⟨nofun, ?_⟩
    rintro ⟨i, x, w, hcause', -⟩
    exact absurd hcause' (hcause i x w)

namespace System

variable {ι : Type} {ρ : ι → Type} [DecidableEq ι]

/-- What holds of executions while others leave those of the request with this uid alone. -/
structure Kept (uid : String) (s : System ι ρ) : Prop where
  /-- every execution of the request was created by a program -/
  created : ∀ {q x}, s.store.executions.get? q = some x → x.BelongsTo uid →
    ∃ e ∈ s.log, e.creates q = true
  /-- what a program found of the request's is there -/
  found : ∀ {i q x}, .getExecution q (.ok (some x)) ∈ s.acts i → x.BelongsTo uid →
    ∃ x', s.store.executions.get? q = some x' ∧ x'.Alike x
  /-- what a program created for the request is there -/
  made : ∀ {i e w}, .createExecution e (.ok w) ∈ s.acts i → e.BelongsTo uid →
    ∃ x, s.store.executions.get? e.key = some x ∧ x.Alike e
  /-- what is not there was never created -/
  absent : ∀ {q}, s.store.executions.get? q = none → s.log.countP (·.creates q) = 0
  /-- no execution was created twice -/
  once : ∀ q, s.log.countP (·.creates q) ≤ 1

variable {uid : String} {s : System ι ρ}

/-- At the start the request has no executions. -/
theorem kept_start {store : MemoryStore} (hfree : ∀ q x, store.executions.get? q = some x →
      ¬ x.BelongsTo uid) (now : Instant) (pool : (i : ι) → Program (ρ i)) :
    (start store now pool).Kept uid where
  created hx howned := absurd howned (hfree _ _ hx)
  found h := absurd h List.not_mem_nil
  made h := absurd h List.not_mem_nil
  absent _ := rfl
  once _ := Nat.zero_le 1

namespace Kept

/-- The step lemma: an act. -/
theorem acted (h : s.Kept uid) {i : ι} {act : Act} {t : MemoryStore} (hanswer : s.Answers act t)
    (rest : Program (ρ i)) : (s.acted i act rest t).Kept uid := by
  have heffect := hanswer.executionEffect
  have hkept : ∀ {q x}, (∃ x', s.store.executions.get? q = some x' ∧ x'.Alike x) →
      ∃ x', t.executions.get? q = some x' ∧ x'.Alike x := by
    rintro q x ⟨x', hx', halike⟩
    exact ⟨x', heffect.kept hx', halike⟩
  -- what the act created was not there before, and is there after it
  have hnew : ∀ {q}, (Event.creates q ⟨.act i act, s.now, s.store, t⟩ : Bool) = true →
      s.store.executions.get? q = none ∧ ∃ x, t.executions.get? q = some x := by
    intro q hcreates
    obtain ⟨_, e, w, hcause, rfl⟩ := Event.creates_iff.mp hcreates
    obtain ⟨rfl, rfl⟩ := Cause.act.inj hcause
    obtain ⟨hfree, ht, -⟩ := heffect
    exact ⟨hfree, w, by rw [ht, SortedMap.get?_insert, if_pos rfl]⟩
  refine ⟨fun {q x} hx howned => ?_, fun {j q x} hfound howned => ?_,
    fun {j e w} hmade howned => ?_, fun {q} hnone => ?_, fun q => ?_⟩
  · rcases heffect.added hx with hx | ⟨e, rfl, hkey, -⟩
    · obtain ⟨e, he, hcreates⟩ := h.created hx howned
      exact ⟨e, List.mem_cons_of_mem _ he, hcreates⟩
    · exact ⟨_, List.mem_cons_self, Event.creates_iff.mpr ⟨i, e, x, rfl, hkey⟩⟩
  · rcases mem_acts_acted hfound with rfl | hfound
    · exact ⟨x, heffect.kept heffect.1.symm, .refl x⟩
    · exact hkept (h.found hfound howned)
  · rcases mem_acts_acted hmade with rfl | hmade
    · obtain ⟨-, ht, uid', version, hw⟩ := heffect
      exact ⟨w, by rw [store_acted, ht, SortedMap.get?_insert, if_pos rfl], by rw [hw], by rw [hw]⟩
    · exact hkept (h.made hmade howned)
  · -- what is not there now was not there before, so no event so far created it
    have hbefore : s.store.executions.get? q = none := by
      rcases hx : s.store.executions.get? q with _ | x
      · rfl
      · cases (heffect.kept hx).symm.trans hnone
    rw [log_acted, List.countP_cons, h.absent hbefore, if_neg]
    intro hcreates
    obtain ⟨-, x, hx⟩ := hnew hcreates
    cases hx.symm.trans hnone
  · rw [log_acted, List.countP_cons]
    split
    · next hcreates =>
      -- the act created it, so it was not there, and was never created before
      have hzero := h.absent (hnew hcreates).1
      omega
    · exact h.once q

/-- The step lemma: what others do. -/
theorem did (h : s.Kept uid) {deed : Deed} (hleaves : deed.Leaves uid s.store) :
    (s.did deed).Kept uid := by
  have hkept : ∀ {q x}, x.BelongsTo uid → (∃ x', s.store.executions.get? q = some x' ∧ x'.Alike x) →
      ∃ x', (deed.apply s.store).executions.get? q = some x' ∧ x'.Alike x := by
    rintro q x howned ⟨x', hx', halike⟩
    obtain ⟨y, hy, halike'⟩ := Deed.executions_kept hleaves hx' (halike.belongsTo.mpr howned)
    exact ⟨y, hy, halike'.trans halike⟩
  refine ⟨fun {q x} hx howned => ?_, fun hfound howned => hkept howned (h.found hfound howned),
    fun hmade howned => hkept howned (h.made hmade howned), fun {q} hnone => ?_, h.once⟩
  · -- others make no execution for the request
    obtain ⟨x', hx', halike⟩ := Deed.executions_added hleaves hx howned
    obtain ⟨e, he, hcreates⟩ := h.created hx' (halike.belongsTo.mp howned)
    exact ⟨e, List.mem_cons_of_mem _ he, hcreates⟩
  · -- and remove none, so what is not there was not there before
    refine h.absent ?_
    rcases hx : s.store.executions.get? q with _ | x
    · rfl
    · obtain ⟨x', hx'⟩ := deed.executions_mono hx
      cases hx'.symm.trans hnone

/-- The clock has nothing to do with executions. -/
theorem ticked (h : s.Kept uid) (now : Instant) : (s.ticked now).Kept uid :=
  ⟨h.created, h.found, h.made, h.absent, h.once⟩

end Kept

end System

end PushBuild
