import PushBuild.Retry
import PushBuild.Simulation.World

/-!
# How a program ends on its own

One program runs against a store, and nobody else writes meanwhile.  Its calls are answered by the
store, or some of them fail.  This file says how to find out where such a run may end, without
choosing in advance which calls fail.

1. **Answers.**  `Effect.Answered` lists the answers an effect may get.  Whether calls may fail is a
   parameter: without failures there is one answer.
2. **Ends.**  `Program.Ends` says of a program that it ends in a certain way, whatever it is
   answered.
3. **Rules.**  One for each way to put programs together, as for the duties of a program; trying
   again is the only loop (`ends_retryOnConflict`).
4. **Simulations** (`Program.Ends.run`).  What a simulation computes is one of these runs, if its
   faults only let calls fail.
-/

namespace PushBuild

instance : LawfulMonad Program :=
  .mk' Program (fun p => p.bind_done) (fun _ _ => rfl) fun p f g => p.bind_assoc f g

/-- The effect may be answered so at the time `now`, and leaves the store `t`. -/
def Effect.Answered (now : Instant) (fails : Prop) {β : Type} :
    Effect β → MemoryStore → β → MemoryStore → Prop
  | .store call, s, answer, t =>
    s.call call = (answer, t) ∨ (fails ∧ t = s ∧ ∃ e, answer = .error e)
  | .now, s, time, t => time = now ∧ t = s
  | .sleep _, s, _, t => t = s

namespace Program

variable {α β : Type} {now : Instant} {fails : Prop}

/-- Started with a store, the program ends so that `post` holds of its result and the store then,
whatever it is answered. -/
def Ends (now : Instant) (fails : Prop) :
    Program α → (α → MemoryStore → Prop) → MemoryStore → Prop
  | done a, post, s => post a s
  | step effect next, post, s =>
    ∀ answer t, effect.Answered now fails s answer t → (next answer).Ends now fails post t

/-- A sequence ends as its second part does, started where the first part ends. -/
theorem ends_bind (p : Program α) (f : α → Program β) (post : β → MemoryStore → Prop) :
    ∀ s, (p.bind f).Ends now fails post s ↔
      p.Ends now fails (fun a => (f a).Ends now fails post) s := by
  induction p with
  | done a => exact fun _ => Iff.rfl
  | step effect next ih =>
    intro s
    exact forall_congr' fun answer => forall_congr' fun t => forall_congr' fun _ => ih answer t

/-- A program that ends so ends also so that less holds. -/
theorem Ends.mono {p : Program α} {post post' : α → MemoryStore → Prop}
    (hpost : ∀ a s, post a s → post' a s) :
    ∀ {s}, p.Ends now fails post s → p.Ends now fails post' s := by
  induction p with
  | done a => exact hpost a _
  | step effect next ih => exact fun h answer t hanswer => ih answer (h answer t hanswer)

end Program

/-! ## Programs that may fail -/

section

variable {α β ε ε' : Type} {now : Instant} {fails : Prop} {s : MemoryStore}

/-- `Ends` of a program that may fail: what holds when it succeeds, and what when it fails. -/
def Finishes (now : Instant) (fails : Prop) (p : ExceptT ε Program α) (ok : α → MemoryStore → Prop)
    (error : ε → MemoryStore → Prop) : MemoryStore → Prop :=
  Program.Ends now fails p.run fun
    | .ok a => ok a
    | .error e => error e

variable {ok : α → MemoryStore → Prop} {error : ε → MemoryStore → Prop}

/-- The same for a program that may fail. -/
theorem Finishes.mono {p : ExceptT ε Program α} {ok' : α → MemoryStore → Prop}
    {error' : ε → MemoryStore → Prop} (h : Finishes now fails p ok error s)
    (hok : ∀ a t, ok a t → ok' a t) (herror : ∀ e t, error e t → error' e t) :
    Finishes now fails p ok' error' s := by
  refine Program.Ends.mono ?_ h
  rintro (e | a) t hr
  · exact herror e t hr
  · exact hok a t hr

/-- What goes on with the result of a program that may fail. -/
theorem ends_run_bind {γ : Type} (p : ExceptT ε Program α) (f : Except ε α → Program γ)
    (post : γ → MemoryStore → Prop) :
    (p.run.bind f).Ends now fails post s ↔
      Finishes now fails p (fun a => (f (.ok a)).Ends now fails post)
        (fun e => (f (.error e)).Ends now fails post) s := by
  refine (Program.ends_bind p.run f post s).trans ?_
  unfold Finishes
  constructor <;> refine Program.Ends.mono ?_ <;> rintro (e | a) t h <;> exact h

/-- A sequence of programs that may fail. -/
theorem finishes_bind (p : ExceptT ε Program α) (f : α → ExceptT ε Program β)
    {ok : β → MemoryStore → Prop} :
    Finishes now fails (p >>= f) ok error s ↔
      Finishes now fails p (fun a => Finishes now fails (f a) ok error) error s :=
  ends_run_bind p _ _

/-- A sequence, of which it is known where its first part ends. -/
theorem Finishes.bind {p : ExceptT ε Program α} {f : α → ExceptT ε Program β}
    {ok' : β → MemoryStore → Prop} {error' : ε → MemoryStore → Prop}
    (h : Finishes now fails p ok error s)
    (hok : ∀ a t, ok a t → Finishes now fails (f a) ok' error' t)
    (herror : ∀ e t, error e t → error' e t) : Finishes now fails (p >>= f) ok' error' s :=
  (finishes_bind p f).mpr (h.mono hok herror)

/-- A program whose result is turned into another one. -/
theorem finishes_map (p : ExceptT ε Program α) (f : α → β) {ok : β → MemoryStore → Prop} :
    Finishes now fails (f <$> p) ok error s ↔ Finishes now fails p (fun a => ok (f a)) error s :=
  ends_run_bind p _ _

/-- A program that goes on when a part has failed. -/
theorem finishes_tryCatch (p : ExceptT ε Program α) (f : ε → ExceptT ε Program α) :
    Finishes now fails (tryCatch p f) ok error s ↔
      Finishes now fails p ok (fun e => Finishes now fails (f e) ok error) s :=
  ends_run_bind p _ _

/-- A program whose failures are renamed. -/
theorem finishes_adapt (f : ε → ε') (p : ExceptT ε Program α) {error : ε' → MemoryStore → Prop} :
    Finishes now fails (ExceptT.adapt f p) ok error s ↔
      Finishes now fails p ok (fun e => error (f e)) s :=
  ends_run_bind p _ _

/-- A program over the store that does not fail, as part of a pass. -/
theorem Finishes.pass {p : StoreProgram α} (h : Finishes now fails p ok (fun _ _ => False) s) :
    Finishes now fails p.pass ok (fun _ _ => False) s :=
  (finishes_adapt _ _).mpr h

/-- A call is answered by the store, or fails and changes nothing. -/
theorem finishes_call (call : StoreCall α) {error : StoreError → MemoryStore → Prop}
    (hserved : match s.call call with
      | (.ok a, t) => ok a t
      | (.error e, t) => error e t)
    (hfails : fails → ∀ e, error e s) : Finishes now fails call.program ok error s := by
  rintro answer t (hanswer | ⟨hmay, rfl, e, rfl⟩)
  · rw [hanswer] at hserved
    cases answer <;> exact hserved
  · exact hfails hmay e

/-- A call that is part of a pass. -/
theorem finishes_callPass (call : StoreCall α) {error : BuildError → MemoryStore → Prop}
    (hserved : match s.call call with
      | (.ok a, t) => ok a t
      | (.error e, t) => error (.store e) t)
    (hfails : fails → ∀ e, error (.store e) s) : Finishes now fails call.pass ok error s :=
  (finishes_adapt _ _).mpr (finishes_call call hserved hfails)

/-- Reading the clock. -/
theorem finishes_now {ok : Instant → MemoryStore → Prop} (h : ok now s) :
    Finishes now fails (ExceptT.lift (Program.ask .now) : ExceptT ε Program Instant) ok
      error s := by
  rintro time t ⟨rfl, rfl⟩
  exact h

/-- A sequence that reads the clock first. -/
theorem finishes_now_bind {f : Instant → ExceptT ε Program β} {ok : β → MemoryStore → Prop}
    (h : Finishes now fails (f now) ok error s) :
    Finishes now fails ((ExceptT.lift (Program.ask .now) : ExceptT ε Program Instant) >>= f)
      ok error s :=
  (finishes_bind _ _).mpr (finishes_now h)

/-- A sequence that starts with a function that has no effects. -/
theorem finishes_monadLift_bind {r : Except ε α} {f : α → ExceptT ε Program β}
    {ok : β → MemoryStore → Prop} (hok : ∀ a, r = .ok a → Finishes now fails (f a) ok error s)
    (herror : ∀ e, r = .error e → error e s) :
    Finishes now fails ((MonadLift.monadLift r : ExceptT ε Program α) >>= f) ok error s := by
  cases r with
  | ok a => exact hok a rfl
  | error e => exact herror e rfl

/-- A sequence that starts with a function that succeeds. -/
theorem finishes_ok_bind {r : Except ε α} {a : α} (hr : r = .ok a) {f : α → ExceptT ε Program β}
    {ok : β → MemoryStore → Prop} (h : Finishes now fails (f a) ok error s) :
    Finishes now fails ((MonadLift.monadLift r : ExceptT ε Program α) >>= f) ok error s := by
  subst hr
  exact h

/-- A sequence that starts with a read of the store. -/
theorem finishes_read_bind {call : StoreCall α} {a : α} {f : α → Pass β}
    {ok : β → MemoryStore → Prop} {error : BuildError → MemoryStore → Prop}
    (hcall : s.call call = (.ok a, s)) (h : Finishes now False (f a) ok error s) :
    Finishes now False (call.pass >>= f) ok error s := by
  refine (finishes_bind _ _).mpr (finishes_callPass _ ?_ fun h => h.elim)
  rw [hcall]
  exact h

/-- Trying again: what holds before the first attempt holds before every one, if it holds again
after an attempt that failed.  The induction is on the number of attempts that are left. -/
theorem finishes_retryOnConflict (before : MemoryStore → Prop) {policy : RetryPolicy}
    {isConflict : ε → Bool} {op : ExceptT ε Program α}
    (hop : ∀ {s}, before s → Finishes now fails op ok (fun e t => error e t ∧ before t) s)
    (h : before s) :
    Finishes now fails (ExceptT.mk (retryOnConflict policy Program.sleep isConflict op.run)) ok
      error
      s := by
  unfold retryOnConflict
  -- the number of further attempts and the next pause do not matter
  generalize policy.maxAttempts - 1 = more
  generalize policy.initialBackoff = backoff
  induction more generalizing backoff s with
  | zero => exact (hop h).mono (fun _ _ ha => ha) fun _ _ he => he.1
  | succ more ih =>
    refine (Program.ends_bind _ _ _ s).mpr (Program.Ends.mono ?_ (hop h))
    rintro (e | a) t hend
    · show Finishes now fails (if isConflict e then _ else _ : ExceptT _ _ _) _ _ t
      split
      · rintro _ _ rfl
        exact ih hend.2 _
      · exact hend.1
    · exact hend

end

/-! ## Simulations -/

namespace Simulation

/-- The faults that a call leaves are among those there were, with other counts. -/
theorem mem_nextEffect {method : StoreMethod} {faults : List Fault} {effect : Option FaultEffect}
    {rest : List Fault} (h : nextEffect method faults = (effect, rest)) :
    (∀ x ∈ effect, ∃ f ∈ faults, f.effect = x) ∧
      ∀ g ∈ rest, ∃ f ∈ faults, f.effect = g.effect := by
  induction faults generalizing rest with
  | nil =>
    obtain ⟨rfl, rfl⟩ := Prod.mk.inj h
    exact ⟨nofun, nofun⟩
  | cons fault faults ih =>
    have hrest : ∀ {g : Fault}, g ∈ faults → ∃ f ∈ fault :: faults, f.effect = g.effect :=
      fun hg => ⟨_, List.mem_cons_of_mem _ hg, rfl⟩
    simp only [nextEffect] at h
    split at h
    · split at h
      · obtain ⟨rfl, rfl⟩ := Prod.mk.inj h
        refine ⟨nofun, fun g hg => ?_⟩
        rcases List.mem_cons.mp hg with rfl | hg
        · exact ⟨fault, List.mem_cons_self, rfl⟩
        · exact hrest hg
      · obtain ⟨rfl, rfl⟩ := Prod.mk.inj h
        refine ⟨?_, fun g hg => ?_⟩
        · rintro x ⟨⟩
          exact ⟨fault, List.mem_cons_self, rfl⟩
        · rcases List.mem_cons.mp hg with rfl | hg
          · exact ⟨fault, List.mem_cons_self, rfl⟩
          · exact hrest hg
    · -- the fault is for another method, or used up
      obtain ⟨rfl, rfl⟩ := Prod.mk.inj h
      obtain ⟨heffect, hfaults⟩ := ih rfl
      refine ⟨fun x hx => ?_, fun g hg => ?_⟩
      · obtain ⟨f, hf, hfx⟩ := heffect x hx
        exact ⟨f, List.mem_cons_of_mem _ hf, hfx⟩
      · rcases List.mem_cons.mp hg with rfl | hg
        · exact ⟨_, List.mem_cons_self, rfl⟩
        · obtain ⟨f, hf, hfg⟩ := hfaults g hg
          exact ⟨f, List.mem_cons_of_mem _ hf, hfg⟩

/-- All that the faults do is to let calls fail, and they do so only if `fails`. -/
def OnlyFails (fails : Prop) (faults : List Fault) : Prop :=
  ∀ f ∈ faults, fails ∧ ∃ e, f.effect = .fail e

/-- Where there are no faults, no call fails. -/
theorem onlyFails_nil (fails : Prop) : OnlyFails fails [] := fun _ h => absurd h List.not_mem_nil

/-- One effect of a simulation. -/
theorem answer_answered {fails : Prop} {sim : Simulation} (hfaults : OnlyFails fails sim.faults)
    {β : Type} (effect : Effect β) :
    effect.Answered sim.world.now fails sim.world.store (answer effect sim).1
        (answer effect sim).2.world.store ∧
      (answer effect sim).2.world.now = sim.world.now ∧
      OnlyFails fails (answer effect sim).2.faults := by
  cases effect with
  | now => exact ⟨⟨rfl, rfl⟩, rfl, hfaults⟩
  | sleep time => exact ⟨rfl, rfl, hfaults⟩
  | store call =>
    simp only [answer]
    generalize hnext : nextEffect call.method sim.faults = next
    obtain ⟨effect, rest⟩ := next
    obtain ⟨heffect, hrest⟩ := mem_nextEffect hnext
    refine ⟨?_, ?_, fun g hg => ?_⟩
    -- the answer is the store's, or the call fails
    · cases effect with
      | none => exact Or.inl rfl
      | some x =>
        obtain ⟨f, hf, rfl⟩ := heffect x rfl
        obtain ⟨hfails, e, he⟩ := hfaults f hf
        rw [he]
        exact Or.inr ⟨hfails, rfl, e, rfl⟩
    -- neither moves the clock
    · cases effect with
      | none => rfl
      | some x =>
        obtain ⟨f, hf, rfl⟩ := heffect x rfl
        obtain ⟨-, e, he⟩ := hfaults f hf
        rw [he]
        rfl
    · -- the faults that are left only let calls fail, as before
      obtain ⟨f, hf, hfg⟩ := hrest g hg
      rw [← hfg]
      exact hfaults f hf

end Simulation

/-- **What a simulation computes** is where the program may end. -/
theorem Program.Ends.run {α : Type} {fails : Prop} {p : Program α}
    {post : α → MemoryStore → Prop} :
    ∀ sim : Simulation, Simulation.OnlyFails fails sim.faults →
      p.Ends sim.world.now fails post sim.world.store →
      post (Simulation.run p sim).1 (Simulation.run p sim).2.world.store := by
  induction p with
  | done a => exact fun _ _ h => h
  | step effect next ih =>
    intro sim hfaults h
    obtain ⟨hanswer, hnow, hrest⟩ := Simulation.answer_answered hfaults effect
    have hnext := h _ _ hanswer
    rw [← hnow] at hnext
    exact ih _ _ hrest hnext

end PushBuild
