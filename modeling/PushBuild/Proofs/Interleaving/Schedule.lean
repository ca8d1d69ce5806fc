import PushBuild.Proofs.Interleaving.System

/-!
# Runs that are played

A run of a `System` is a chain of steps.  Where a certain run is wanted, it is given as a list of
choices and computed: `play` does what the choices say, and what it computes is reached by a run
(`reaches_play`), so long as the surroundings permit the choices, which can be decided.
-/

namespace PushBuild

/-- What happens next. -/
inductive Choice (ι : Type) where
  /-- program `i` goes on, and the store answers -/
  | serve (i : ι)
  /-- program `i` goes on, and its call fails -/
  | fail (i : ι) (error : StoreError)
  /-- program `i` goes on, and its read of a request is answered from the store `n` events ago -/
  | stale (i : ι) (n : Nat)
  | deed (deed : Deed)
  | tick (now : Instant)

namespace Effect

variable {β : Type}

/-- The answer of the store and the clock, and the store after it. -/
def serve (s : MemoryStore) (now : Instant) : Effect β → β × MemoryStore
  | .store call => s.call call
  | .now => (now, s)
  | .sleep _ => ((), s)

/-- The answer of a call that fails. -/
def fail? (error : StoreError) : Effect β → Option β
  | .store _ => some (.error error)
  | _ => none

/-- The answer of an old store to the read of a request. -/
def stale? (old : MemoryStore) : Effect β → Option β
  | .store (.getRequest key) => some (.ok (old.requests.get? key))
  | _ => none

/-- What is computed for an effect is an answer of the store and the clock, -/
theorem served (effect : Effect β) (s : MemoryStore) (now : Instant) :
    (effect.act (effect.serve s now).1).Served s now (effect.serve s now).2 := by
  cases effect with
  | store call => cases call <;> rfl
  | now => exact ⟨rfl, rfl⟩
  | sleep time => rfl

/-- a failure, -/
theorem failed {effect : Effect β} {error : StoreError} {answer : β}
    (h : effect.fail? error = some answer) : (effect.act answer).Failed := by
  cases effect with
  | store call =>
    obtain rfl := Option.some.inj h
    cases call <;> exact ⟨error, rfl⟩
  | now => cases h
  | sleep time => cases h

/-- or what an old store would say. -/
theorem outdated {effect : Effect β} {old : MemoryStore} {past : List MemoryStore} {answer : β}
    (hold : old ∈ past) (h : effect.stale? old = some answer) :
    (effect.act answer).Outdated past := by
  cases effect with
  | store call =>
    cases call with
    | getRequest key => exact ⟨old, hold, (Option.some.inj h).symm⟩
    | _ => cases h
  | now => cases h
  | sleep time => cases h

end Effect

namespace System

variable {ι : Type} {ρ : ι → Type} [DecidableEq ι]

/-- The state after a choice; one that cannot be made leaves it as it is.  So every list of choices
can be played, and none is wrong but those that the surroundings do not permit. -/
def next (s : System ι ρ) : Choice ι → System ι ρ
  | .serve i =>
    match s.pool i with
    | .done _ => s
    | .step effect rest =>
      let (answer, t) := effect.serve s.store s.now
      s.acted i (effect.act answer) (rest answer) t
  | .fail i error =>
    match s.pool i with
    | .done _ => s
    | .step effect rest =>
      match effect.fail? error with
      | none => s
      | some answer => s.acted i (effect.act answer) (rest answer) s.store
  | .stale i n =>
    match s.pool i, s.past[n]? with
    | .step effect rest, some old =>
      match effect.stale? old with
      | none => s
      | some answer => s.acted i (effect.act answer) (rest answer) s.store
    | _, _ => s
  | .deed deed => s.did deed
  | .tick now => s.ticked now

/-- The state after a list of choices. -/
def play (s : System ι ρ) (choices : List (Choice ι)) : System ι ρ := choices.foldl next s

/-- The surroundings permit what a list of choices has others and the clock do. -/
def Permits (w : Surroundings) : System ι ρ → List (Choice ι) → Prop
  | _, [] => True
  | s, choice :: rest =>
    (match choice with
      | .deed deed => w.allows s.store deed
      | .tick now => w.ticks s.now now
      | _ => True) ∧ Permits w (s.next choice) rest

instance Permits.decidable (w : Surroundings) [∀ s d, Decidable (w.allows s d)]
    [∀ t t', Decidable (w.ticks t t')] :
    (s : System ι ρ) → (choices : List (Choice ι)) → Decidable (Permits w s choices)
  | _, [] => .isTrue trivial
  | s, choice :: rest =>
    have := Permits.decidable w (s.next choice) rest
    match choice with
    | .deed deed => inferInstanceAs (Decidable (w.allows s.store deed ∧ _))
    | .tick now => inferInstanceAs (Decidable (w.ticks s.now now ∧ _))
    | .serve _ => inferInstanceAs (Decidable (True ∧ _))
    | .fail _ _ => inferInstanceAs (Decidable (True ∧ _))
    | .stale _ _ => inferInstanceAs (Decidable (True ∧ _))

variable {w : Surroundings} {s₀ s : System ι ρ}

/-- A choice that is permitted is a step, or none.  Programs need no permission, for any program may
go on at any time. -/
theorem Reaches.next (h : Reaches w s₀ s) (choice : Choice ι) (hpermits : Permits w s [choice]) :
    Reaches w s₀ (s.next choice) := by
  cases choice with
  | serve i =>
    simp only [System.next]
    split
    · exact h
    · -- the store answers
      rename_i effect rest hpool
      exact h.step (.act _ _ hpool (Or.inl (effect.served s.store s.now)))
  | fail i error =>
    simp only [System.next]
    split
    · exact h
    · rename_i effect rest hpool
      split
      · exact h
      · -- the call fails
        rename_i answer hanswer
        exact h.step (.act answer _ hpool (Or.inr ⟨rfl, Or.inl (Effect.failed hanswer)⟩))
  | stale i n =>
    simp only [System.next]
    split
    · -- the answer is that of a store that was there once
      rename_i effect rest old hpool hold
      split
      · exact h
      · rename_i answer hanswer
        have houtdated := Effect.outdated (List.mem_of_getElem? hold) hanswer
        exact h.step (.act answer _ hpool (Or.inr ⟨rfl, Or.inr houtdated⟩))
    · exact h
  | deed deed => exact h.step (.deed deed hpermits.1)
  | tick now => exact h.step (.tick now hpermits.1)

/-- **What is played is reached.** -/
theorem reaches_play (choices : List (Choice ι)) (hpermits : Permits w s choices) :
    Reaches w s (s.play choices) := by
  suffices h : ∀ s', Reaches w s s' → Permits w s' choices → Reaches w s (s'.play choices) from
    h s .refl hpermits
  clear hpermits
  induction choices with
  | nil => exact fun _ h _ => h
  | cons choice rest ih => exact fun s' h hp => ih _ (h.next choice ⟨hp.1, trivial⟩) hp.2

end System

end PushBuild
