import PushBuild.Proofs.Interleaving.Schedule
import PushBuild.Proofs.Store.Version

/-!
# What one program does among others

A system follows all its programs, and bounds what others do.  Where one program is of interest and
others may do anything at all, it is enough to know of each of its effects what the store was when
it was carried out: between two effects the store may have become any other.

1. **Exchanges.**  An `Exchange` is an effect with its answer, and the store before and after it.  A
   call is answered by the store, or fails and changes nothing.
2. **Runs.**  `Program.Runs` says with which exchanges a program may end, and with which result.  As
   with acts, the latest exchange comes first.
3. **Rules.**  A run of a sequence is a run of its first part and then one of its second part
   (`runs_run_bind`); there is one such rule for each way to put programs together.  What a program
   is obliged to is found in its runs (`Program.Obeys.runs`).
4. **Alone.**  Nobody else wrote during a run if each exchange found the store that the one before
   left (`Alone`).  Then what only asks finds the store as it was and leaves it so (`Alone.stores`,
   `Alone.asked`), and a write that is refused leaves all but the counters (`Alone.refused`).
5. **Runs that are carried out** (`Program.carryOut`).  A certain run is given by what others do
   before each effect, and computed.
-/

namespace PushBuild

/-- An effect with its answer, when it was carried out, and the store before and after it. -/
structure Exchange where
  now : Instant
  before : MemoryStore
  act : Act
  after : MemoryStore

/-- The answer is the store's, or the call failed and changed nothing. -/
def Exchange.Holds (x : Exchange) : Prop :=
  x.act.Served x.before x.now x.after ∨ (x.after = x.before ∧ x.act.Failed)

/-- The acts of a run. -/
abbrev actsIn (xs : List Exchange) : List Act := xs.map (·.act)

/-- The acts of two runs are those of one after the other, -/
theorem actsIn_append (xs ys : List Exchange) : actsIn (xs ++ ys) = actsIn xs ++ actsIn ys :=
  List.map_append

/-- and what was done stays done. -/
theorem actsIn_mono {xs ys : List Exchange} (h : xs <:+ ys) {act : Act} (hact : act ∈ actsIn xs) :
    act ∈ actsIn ys := by
  obtain ⟨x, hx, rfl⟩ := List.mem_map.mp hact
  exact List.mem_map_of_mem (h.mem hx)

namespace Program

variable {α β : Type}

/-- After the exchanges `before` the program may end with this result, all exchanges being `after`
then. -/
inductive Runs : Program α → List Exchange → List Exchange → α → Prop
  | done (a : α) (xs : List Exchange) : Runs (.done a) xs xs a
  | step {β : Type} {effect : Effect β} {next : β → Program α} {before after : List Exchange}
      {a : α} (x : Exchange) (answer : β) (hact : x.act = effect.act answer) (hholds : x.Holds)
      (h : Runs (next answer) (x :: before) after a) : Runs (.step effect next) before after a

variable {before after : List Exchange}

/-- A run of a sequence is a run of each part, the second of which starts where the first one
ended. -/
theorem runs_bind (p : Program α) (f : α → Program β) {b : β} :
    (p.bind f).Runs before after b ↔ ∃ mid a, p.Runs before mid a ∧ (f a).Runs mid after b := by
  induction p generalizing before with
  | done a =>
    constructor
    · intro h
      exact ⟨before, a, .done a before, h⟩
    · rintro ⟨mid, a', hfirst, hsecond⟩
      cases hfirst
      exact hsecond
  -- the first exchange belongs to the first part on either side
  | step effect next ih =>
    constructor
    · rintro (_ | ⟨x, answer, hact, hholds, h⟩)
      obtain ⟨mid, a, hfirst, hsecond⟩ := (ih answer).mp h
      exact ⟨mid, a, .step x answer hact hholds hfirst, hsecond⟩
    · rintro ⟨mid, a, hfirst, hsecond⟩
      cases hfirst with
      | step x answer hact hholds h =>
        exact .step x answer hact hholds ((ih answer).mpr ⟨mid, a, h, hsecond⟩)

/-- What came before a run is still there after it. -/
theorem Runs.suffix {p : Program α} {a : α} (h : p.Runs before after a) : before <:+ after := by
  induction h with
  | done a xs => exact List.suffix_rfl
  | step x answer _ _ _ ih => exact (List.suffix_cons x _).trans ih

/-- The exchanges of a run hold. -/
theorem Runs.holds {p : Program α} {a : α} (h : p.Runs before after a)
    (hbefore : ∀ x ∈ before, x.Holds) : ∀ x ∈ after, x.Holds := by
  induction h with
  | done a xs => exact hbefore
  | step x answer _ hholds _ ih => exact ih (List.forall_mem_cons.mpr ⟨hholds, hbefore⟩)

/-- **What a program is obliged to** whatever it is answered holds of its runs. -/
theorem Obeys.runs {duty : Duty} {p : Program α} {post : α → List Act → Prop} {a : α}
    (h : p.Runs before after a) : p.Obeys duty post (actsIn before) → post a (actsIn after) := by
  induction h with
  | done a xs => exact fun hobeys => hobeys
  | step x answer hact _ _ ih =>
    intro hobeys
    refine ih ?_
    show Obeys duty _ post (x.act :: actsIn _)
    rw [hact]
    exact (hobeys answer).2

end Program

/-! ## Runs of programs that may fail -/

section

variable {α β ε ε' : Type} {before after : List Exchange}

/-- What returns or fails at once has no exchange. -/
theorem runs_pure {a : α} {r : Except ε α} :
    (pure a : ExceptT ε Program α).run.Runs before after r ↔ after = before ∧ r = .ok a := by
  constructor
  · rintro ⟨⟩
    exact ⟨rfl, rfl⟩
  · rintro ⟨rfl, rfl⟩
    exact .done _ _

theorem runs_throw {e : ε} {r : Except ε α} :
    (throw e : ExceptT ε Program α).run.Runs before after r ↔ after = before ∧ r = .error e := by
  constructor
  · rintro ⟨⟩
    exact ⟨rfl, rfl⟩
  · rintro ⟨rfl, rfl⟩
    exact .done _ _

/-- The result of a function that has no effects. -/
theorem runs_monadLift {a r : Except ε α} :
    (MonadLift.monadLift a : ExceptT ε Program α).run.Runs before after r ↔
      after = before ∧ r = a := by
  cases a with
  | ok a => exact runs_pure
  | error e => exact runs_throw

/-- A sequence fails in its first part, or its first part succeeds and its second part follows. -/
theorem runs_run_bind (p : ExceptT ε Program α) (f : α → ExceptT ε Program β) {r : Except ε β} :
    (p >>= f).run.Runs before after r ↔
      (∃ e, p.run.Runs before after (.error e) ∧ r = .error e) ∨
      ∃ mid a, p.run.Runs before mid (.ok a) ∧ (f a).run.Runs mid after r := by
  refine (Program.runs_bind p.run _).trans ⟨?_, ?_⟩
  · rintro ⟨mid, e | a, hfirst, hsecond⟩
    · obtain ⟨rfl, rfl⟩ := runs_throw.mp hsecond
      exact Or.inl ⟨e, hfirst, rfl⟩
    · exact Or.inr ⟨mid, a, hfirst, hsecond⟩
  · rintro (⟨e, hfirst, rfl⟩ | ⟨mid, a, hfirst, hsecond⟩)
    · exact ⟨after, .error e, hfirst, .done _ _⟩
    · exact ⟨mid, .ok a, hfirst, hsecond⟩

/-- A program whose failures are renamed. -/
theorem runs_adapt (f : ε → ε') (p : ExceptT ε Program α) {r : Except ε' α} :
    (ExceptT.adapt f p).run.Runs before after r ↔
      ∃ r', p.run.Runs before after r' ∧ r = r'.mapError f := by
  refine (Program.runs_bind p.run _).trans ⟨?_, ?_⟩
  · rintro ⟨mid, r', hfirst, hsecond⟩
    cases hsecond
    exact ⟨r', hfirst, rfl⟩
  · rintro ⟨r', hfirst, rfl⟩
    exact ⟨after, r', hfirst, .done _ _⟩

/-- A call is one exchange. -/
theorem runs_call (call : StoreCall α) {answer : Except StoreError α} :
    call.program.run.Runs before after answer ↔
      ∃ x, after = x :: before ∧ x.act = call.act answer ∧ x.Holds := by
  constructor
  · rintro (_ | ⟨x, answer, hact, hholds, h⟩)
    cases h
    exact ⟨x, rfl, hact, hholds⟩
  · rintro ⟨x, rfl, hact, hholds⟩
    exact .step x answer hact hholds (.done _ _)

/-- Reading the clock is one exchange. -/
theorem runs_now {r : Except ε Instant} :
    (ExceptT.lift (Program.ask .now) : ExceptT ε Program Instant).run.Runs before after r ↔
      ∃ x time, after = x :: before ∧ x.act = .now time ∧ x.Holds ∧ r = .ok time := by
  constructor
  · rintro (_ | ⟨x, time, hact, hholds, h⟩)
    cases h
    exact ⟨x, time, rfl, hact, hholds, rfl⟩
  · rintro ⟨x, time, rfl, hact, hholds, rfl⟩
    exact .step x time hact hholds (.done _ _)

/-- **How a program ends in a run**, if whatever it is answered it ends in one of these ways. -/
theorem Meets.runs {duty : Duty} {p : ExceptT ε Program α} {ok : α → List Act → Prop}
    {fails : ε → List Act → Prop} (h : Meets duty p ok fails (actsIn before)) {r : Except ε α}
    (hrun : p.run.Runs before after r) :
    (∃ a, r = .ok a ∧ ok a (actsIn after)) ∨ ∃ e, r = .error e ∧ fails e (actsIn after) := by
  have hend := Program.Obeys.runs hrun h
  cases r with
  | ok a => exact Or.inl ⟨a, rfl, hend⟩
  | error e => exact Or.inr ⟨e, rfl, hend⟩

end

/-- A call that succeeded was answered by the store. -/
theorem Exchange.Holds.answer {α : Type} {x : Exchange} (h : x.Holds) (call : StoreCall α) {a : α}
    (hact : x.act = call.act (.ok a)) : x.before.answer call = (.ok a, x.after) := by
  unfold Exchange.Holds at h
  rw [hact] at h
  rcases h with h | ⟨-, h⟩
  · have hserved : x.before.call call = (.ok a, x.after) := by
      cases call <;> exact h
    rcases MemoryStore.call_eq hserved with ⟨-, e, he⟩ | h
    · cases he
    · exact h
  · cases call <;> obtain ⟨e, he⟩ := h <;> cases he

/-! ## Alone -/

/-- The act writes nothing. -/
def Act.Asks : Act → Prop
  | .updateRequestStatus .. | .setRequestLabel .. | .createTemplate .. | .replaceTemplate ..
  | .createExecution .. => False
  | _ => True

/-- The act writes nothing, or it is a status write that was refused. -/
def Act.AsksOrIsRefused : Act → Prop
  | .updateRequestStatus _ answer => ∃ e, answer = .error e
  | act => act.Asks

/-- The store `t` is `s`, except for what it counts. -/
def MemoryStore.Recounts (s t : MemoryStore) : Prop :=
  t = { s with lastVersion := t.lastVersion, conflicts := t.conflicts }

/-- Counting on is kept by doing nothing and by doing one thing after another. -/
theorem MemoryStore.Recounts.refl (s : MemoryStore) : s.Recounts s := rfl

theorem MemoryStore.Recounts.trans {s t u : MemoryStore} (h : s.Recounts t) (h' : t.Recounts u) :
    s.Recounts u := by
  unfold Recounts at *
  rw [h'] at ⊢
  rw [h]

/-- A status write that is refused changes counters only: the one for conflicts if the store was
told to refuse it, and otherwise the one for versions, which is moved before the write is looked
at. -/
theorem MemoryStore.recounts_of_refused {s t : MemoryStore} {request : BuildRequest}
    {e : StoreError} (h : s.call (.updateRequestStatus request) = (.error e, t)) :
    s.Recounts t := by
  -- either no call is answered, or this one was refused for a conflict or for its version
  rcases call_eq h with ⟨rfl, -⟩ | h
  · exact .refl _
  · change s.updateRequestStatus request = _ at h
    unfold updateRequestStatus at h
    split at h
    · obtain ⟨-, rfl⟩ := Prod.mk.inj h
      rfl
    · simp only [takeVersion] at h
      split at h
      · obtain ⟨-, rfl⟩ := Prod.mk.inj h
        rfl
      · split at h
        · cases (Prod.mk.inj h).1
        · obtain ⟨-, rfl⟩ := Prod.mk.inj h
          rfl

namespace Exchange

variable {x : Exchange}

/-- What only asks leaves the store as it is. -/
theorem Holds.asked (h : x.Holds) (hasks : x.act.Asks) : x.after = x.before := by
  rcases h with h | ⟨h, -⟩
  · generalize x.act = act at h hasks
    cases act with
    | updateRequestStatus | setRequestLabel | createTemplate | replaceTemplate | createExecution =>
      exact hasks.elim
    | now time => exact h.2
    | sleep time => exact h
    | _ =>
      rcases MemoryStore.call_eq h with ⟨h, -⟩ | h
      · exact h
      · exact (Prod.mk.inj h).2.symm
  · exact h

/-- What asks or is refused changes counters only. -/
theorem Holds.refused (h : x.Holds) (hrefused : x.act.AsksOrIsRefused) :
    x.before.Recounts x.after := by
  by_cases hasks : x.act.Asks
  · rw [h.asked hasks]
    exact .refl _
  · rcases h with h | ⟨h, -⟩
    · generalize x.act = act at h hrefused hasks
      cases act with
      | updateRequestStatus request answer =>
        obtain ⟨e, rfl⟩ := hrefused
        exact MemoryStore.recounts_of_refused h
      | _ => exact absurd hrefused hasks
    · rw [h]
      exact .refl _

end Exchange

/-- Nobody else wrote during these exchanges, which led from the store `s` to the store `t`. -/
def Alone (s : MemoryStore) : List Exchange → MemoryStore → Prop
  | [], t => t = s
  | x :: before, t => x.after = t ∧ Alone s before x.before

section

variable {s t : MemoryStore} {xs ys : List Exchange}

/-- **Two parts of a run** were made alone if each was, from the store that the one before it
left. -/
theorem alone_append : Alone s (ys ++ xs) t ↔ ∃ u, Alone s xs u ∧ Alone u ys t := by
  induction ys generalizing t with
  | nil =>
    constructor
    · exact fun h => ⟨t, h, rfl⟩
    · rintro ⟨u, h, rfl⟩
      exact h
  | cons y ys ih =>
    constructor
    · rintro ⟨rfl, h⟩
      obtain ⟨u, hxs, hys⟩ := ih.mp h
      exact ⟨u, hxs, rfl, hys⟩
    · rintro ⟨u, hxs, rfl, hys⟩
      exact ⟨rfl, ih.mpr ⟨u, hxs, hys⟩⟩

/-- Where all acts only ask, the store is left as it is. -/
theorem Alone.asked (h : Alone s xs t) (hxs : ∀ x ∈ xs, x.Holds ∧ x.act.Asks) : t = s := by
  induction xs generalizing t with
  | nil => exact h
  | cons x xs ih =>
    obtain ⟨hafter, hbefore⟩ := h
    obtain ⟨hholds, hasks⟩ := hxs x List.mem_cons_self
    rw [← hafter, hholds.asked hasks]
    exact ih hbefore fun y hy => hxs y (List.mem_cons_of_mem _ hy)

/-- Where all acts only ask, each finds the same store. -/
theorem Alone.stores (h : Alone s xs t) (hxs : ∀ x ∈ xs, x.Holds ∧ x.act.Asks) :
    ∀ x ∈ xs, x.before = s := by
  induction xs generalizing t with
  | nil => exact fun _ h => absurd h List.not_mem_nil
  | cons x xs ih =>
    have hrest := (List.forall_mem_cons.mp hxs).2
    exact List.forall_mem_cons.mpr ⟨h.2.asked hrest, ih h.2 hrest⟩

/-- Where all acts ask or are refused, only counters change. -/
theorem Alone.refused (h : Alone s xs t) (hxs : ∀ x ∈ xs, x.Holds ∧ x.act.AsksOrIsRefused) :
    s.Recounts t := by
  induction xs generalizing t with
  | nil =>
    obtain rfl : t = s := h
    exact .refl _
  | cons x xs ih =>
    obtain ⟨rfl, hbefore⟩ := h
    obtain ⟨hholds, hrefused⟩ := hxs x List.mem_cons_self
    have hsame := ih hbefore fun y hy => hxs y (List.mem_cons_of_mem _ hy)
    exact hsame.trans (hholds.refused hrefused)

end

/-! ## Runs that are carried out -/

/-- What happens before an effect and at it: others act, and the call fails or is answered. -/
structure Turn where
  deeds : List Deed := []
  failure : Option StoreError := none

/-- Carries a program out at one time, taking turns with others, and undisturbed when there are no
more turns. -/
def Program.carryOut {α : Type} (now : Instant) :
    Program α → List Turn → MemoryStore → List Exchange → α × List Exchange × MemoryStore
  | .done a, _, s, xs => (a, xs, s)
  | .step effect next, turns, s, xs =>
    let turn := turns.headD {}
    let s := turn.deeds.foldl (fun s deed => deed.apply s) s
    match turn.failure.bind effect.fail? with
    | none =>
      let (answer, t) := effect.serve s now
      (next answer).carryOut now turns.tail t (⟨now, s, effect.act answer, t⟩ :: xs)
    | some answer =>
      (next answer).carryOut now turns.tail s (⟨now, s, effect.act answer, s⟩ :: xs)

/-- **What is carried out is a run.** -/
theorem Program.carryOut_runs {α : Type} {now : Instant} (p : Program α) (turns : List Turn)
    (s : MemoryStore) (xs : List Exchange) :
    p.Runs xs (p.carryOut now turns s xs).2.1 (p.carryOut now turns s xs).1 := by
  induction p generalizing turns s xs with
  | done a => exact .done a xs
  | step effect next ih =>
    simp only [carryOut]
    generalize (turns.headD {}).deeds.foldl (fun s deed => deed.apply s) s = s
    split
    · exact .step ⟨now, s, _, _⟩ _ rfl (Or.inl (effect.served s now)) (ih _ _ _ _)
    · next answer hfails =>
      obtain ⟨e, -, hanswer⟩ := Option.bind_eq_some_iff.mp hfails
      exact .step ⟨now, s, _, _⟩ answer rfl (Or.inr ⟨rfl, Effect.failed hanswer⟩) (ih _ _ _ _)

/-- A result that is computed, as an equation that can be decided. -/
theorem eq_ok_of_toOption {ε α : Type} {result : Except ε α} {a : α}
    (h : result.toOption = some a) :
    result = .ok a := by
  cases result with
  | error e => cases h
  | ok a' => exact congrArg _ (Option.some.inj h)

/-- Deeds and effects make stores of stores that were made. -/
theorem MemoryStore.Made.deeds {s : MemoryStore} (h : s.Made) (deeds : List Deed) :
    (deeds.foldl (fun s deed => deed.apply s) s).Made := by
  induction deeds generalizing s with
  | nil => exact h
  | cons deed deeds ih => exact ih (.deed deed h)

theorem MemoryStore.Made.serve {β : Type} {s : MemoryStore} (h : s.Made) (effect : Effect β)
    (now : Instant) : (effect.serve s now).2.Made := by
  cases effect with
  | store call => exact .call call h
  | now => exact h
  | sleep time => exact h

/-- The stores of a run that is carried out are made by operations. -/
theorem Program.carryOut_made {α : Type} {now : Instant} (p : Program α) (turns : List Turn)
    {s : MemoryStore} {xs : List Exchange} (hs : s.Made) (hxs : ∀ x ∈ xs, x.before.Made) :
    ∀ x ∈ (p.carryOut now turns s xs).2.1, x.before.Made := by
  induction p generalizing turns s xs with
  | done a => exact hxs
  | step effect next ih =>
    have hmade := hs.deeds (turns.headD {}).deeds
    simp only [carryOut]
    split
    · exact ih _ _ (hmade.serve effect now) (List.forall_mem_cons.mpr ⟨hmade, hxs⟩)
    · exact ih _ _ hmade (List.forall_mem_cons.mpr ⟨hmade, hxs⟩)

/-- Where others do nothing, the program is alone: each exchange finds the store that the one before
it left. -/
theorem Program.carryOut_alone {α : Type} {now : Instant} {s₀ : MemoryStore} (p : Program α)
    {turns : List Turn} (hturns : ∀ turn ∈ turns, turn.deeds = []) {s : MemoryStore}
    {xs : List Exchange} (h : Alone s₀ xs s) :
    Alone s₀ (p.carryOut now turns s xs).2.1 (p.carryOut now turns s xs).2.2 := by
  induction p generalizing turns s xs with
  | done a => exact h
  | step effect next ih =>
    have hdeeds : (turns.headD {}).deeds = [] := by
      cases turns with
      | nil => rfl
      | cons turn turns => exact hturns turn List.mem_cons_self
    have hrest : ∀ turn ∈ turns.tail, turn.deeds = [] :=
      fun turn hturn => hturns turn (List.mem_of_mem_tail hturn)
    simp only [carryOut, hdeeds, List.foldl_nil]
    split
    · exact ih _ hrest ⟨rfl, h⟩
    · exact ih _ hrest ⟨rfl, h⟩

end PushBuild
