import PushBuild.Proofs.Store.Version

/-!
# What a generation tells

A request has a generation, which is the next one after each change of its specification.  Nothing
else changes generations, so they tell which specification a request has, and how often it was
changed.

1. **Edits.**  `Event.edits` are the events that change the specification of a request.
2. **The invariant** (`Generations`).  The generation counts the edits; no request that was ever
   stored has a greater one than the request has now; and of one generation there is one
   specification.
3. **Runs.**  It holds in every state that is reached (`Reaches.generations`).
-/

namespace PushBuild

/-- The generation of a request, zero if it has none. -/
def BuildRequest.generation (r : BuildRequest) : Int := r.metadata.generation.getD 0

/-- Another specification is the next generation. -/
theorem BuildRequest.generation_withSpec (r : BuildRequest) (spec : BuildRequestSpec) (n : Nat) :
    ((r.withSpec spec).withVersion n).generation = r.generation + 1 := rfl

/-- Whether the event changes the specification of the request under this key. -/
def Event.edits {ι : Type} (key : ObjectKey) (e : Event ι) : Bool :=
  match e.cause with
  | .deed (.updateSpec k _) => k == key
  | _ => false

/-- Programs do not edit. -/
theorem Event.edits_act {ι : Type} {key : ObjectKey} {e : Event ι} {i : ι} {act : Act}
    (h : e.cause = .act i act) : e.edits key = false := by
  unfold edits
  rw [h]

namespace System

variable {ι : Type} {ρ : ι → Type} {key : ObjectKey} {initial : Int} {s : System ι ρ}
  {r : BuildRequest}

/-- The request under `key` is `r`, whose generation was `initial`. -/
structure Generations (key : ObjectKey) (initial : Int) (s : System ι ρ) (r : BuildRequest) :
    Prop where
  current : s.store.requests.get? key = some r
  counted : r.generation = initial + s.log.countP (·.edits key)
  le : ∀ {r'}, s.Stored key r' → r'.generation ≤ r.generation
  spec_eq : ∀ {r' r''}, s.Stored key r' → s.Stored key r'' → r'.generation = r''.generation →
    r'.spec = r''.spec

/-- At the start there is one request, and nothing was edited. -/
theorem generations_start {store : MemoryStore} (hr : store.requests.get? key = some r)
    (now : Instant) (pool : (i : ι) → Program (ρ i)) :
    Generations key r.generation (start store now pool) r := by
  have hstored : ∀ {r'}, (start store now pool).Stored key r' → r' = r := by
    rintro r' ⟨t, ht, hr'⟩
    rw [List.mem_singleton.mp ht] at hr'
    exact Option.some.inj (hr'.symm.trans hr)
  refine ⟨hr, (Int.add_zero _).symm, fun hr' => ?_, fun hr' hr'' _ => ?_⟩
  · exact Int.le_of_eq (congrArg BuildRequest.generation (hstored hr'))
  · rw [hstored hr', hstored hr'']

/-- What is left to check when one more store was seen: the specification is the same if the
generation is, and else the generation is a new one. -/
theorem Generations.advance (h : Generations key initial s r) {s' : System ι ρ} {r' : BuildRequest}
    (hpast : s'.past = s'.store :: s.past) (hcurrent : s'.store.requests.get? key = some r')
    (hcounted : r'.generation = initial + s'.log.countP (·.edits key))
    (hnew : r'.generation = r.generation ∧ r'.spec = r.spec ∨ r.generation < r'.generation) :
    Generations key initial s' r' := by
  have hr : s.Stored key r := stored_of_get? h.current
  have hstored : ∀ {r''}, s'.Stored key r'' → s.Stored key r'' ∨ r'' = r' := by
    intro r'' hr''
    rcases (stored_cons hpast).mp hr'' with hnow | hbefore
    · exact Or.inr (Option.some.inj (hnow.symm.trans hcurrent))
    · exact Or.inl hbefore
  -- what was stored before has the specification of the new request if it has its generation
  have hagree : ∀ {r''}, s.Stored key r'' → r''.generation = r'.generation →
      r''.spec = r'.spec := by
    intro r'' hr'' heq
    rcases hnew with ⟨hgeneration, hspec⟩ | hlt
    · rw [hspec]
      exact h.spec_eq hr'' hr (heq.trans hgeneration)
    · have hle := h.le hr''
      omega
  refine ⟨hcurrent, hcounted, fun hr'' => ?_, fun hr'' hr''' heq => ?_⟩
  · rcases hstored hr'' with hr'' | rfl
    · have hle := h.le hr''
      rcases hnew with ⟨hgeneration, -⟩ | hlt <;> omega
    · exact Int.le_refl _
  · rcases hstored hr'' with hr'' | rfl <;> rcases hstored hr''' with hr''' | rfl
    · exact h.spec_eq hr'' hr''' heq
    · exact hagree hr'' heq
    · exact (hagree hr''' heq.symm).symm
    · rfl

/-- The step lemma: an edit makes a new generation, and nothing else that others do concerns it. -/
theorem Generations.did (h : Generations key initial s r) {deed : Deed}
    (hdeed : ¬ deed.Inserts key) : ∃ r', Generations key initial (s.did deed) r' := by
  by_cases hedit : ∃ spec, deed = .updateSpec key spec
  · -- an edit of this request
    obtain ⟨spec, rfl⟩ := hedit
    rcases (Deed.updateSpec key spec).requestEffect s.store with ⟨hnone, -⟩ |
      ⟨stored, hstored, ht, -⟩
    · cases hnone.symm.trans h.current
    · obtain rfl := Option.some.inj (h.current.symm.trans hstored)
      refine ⟨_, h.advance rfl (by rw [store_did, ht, SortedMap.get?_insert, if_pos rfl]) ?_
        (Or.inr (Int.lt_succ _))⟩
      rw [BuildRequest.generation_withSpec, h.counted, log_did,
        List.countP_cons_of_pos (by simp [Event.edits])]
      omega
  · -- anything else leaves specification and generation alone
    obtain ⟨r', hr', hcases⟩ := Deed.request h.current hdeed
    have hsame : r'.generation = r.generation ∧ r'.spec = r.spec := by
      rcases hcases with rfl | ⟨_, _, _, rfl⟩ | ⟨spec, _, hspec, -⟩
      · exact ⟨rfl, rfl⟩
      · exact ⟨rfl, rfl⟩
      · exact absurd ⟨spec, hspec⟩ hedit
    refine ⟨r', h.advance rfl hr' ?_ (Or.inl hsame)⟩
    rw [hsame.1, log_did, List.countP_cons_of_neg]
    · exact h.counted
    · -- an edit that counts would be one of this request
      intro hedits
      unfold Event.edits at hedits
      dsimp only at hedits
      split at hedits
      · next k spec hcause =>
        exact hedit ⟨spec, by rw [Cause.deed.inj hcause, beq_iff_eq.mp hedits]⟩
      · cases hedits

/-- From a state of a run to a later one the generation goes up by the number of edits. -/
theorem Generations.ahead {s' : System ι ρ} {r' : BuildRequest} (h : Generations key initial s r)
    (h' : Generations key initial s' r') {since : List (Event ι)} {e : Event ι}
    (hlog : s'.log = since ++ e :: s.log) (he : e.edits key = false) :
    r'.generation = r.generation + since.countP (·.edits key) := by
  have hbefore := h.counted
  have hafter := h'.counted
  rw [hlog, List.countP_append, List.countP_cons_of_neg (by rw [he]; decide)] at hafter
  omega

variable [DecidableEq ι]

/-- The step lemma: no act changes a specification. -/
theorem Generations.acted (h : Generations key initial s r) {i : ι} {act : Act} {t : MemoryStore}
    (hanswer : s.Answers act t) (rest : Program (ρ i)) :
    ∃ r', Generations key initial (s.acted i act rest t) r' := by
  obtain ⟨r', hr', hcases⟩ := hanswer.requestEffect.request h.current
  have hsame : r'.generation = r.generation ∧ r'.spec = r.spec := by
    rcases hcases with rfl | ⟨_, _, _, _, -, rfl⟩ | ⟨_, _, -, -, -, rfl⟩ <;> exact ⟨rfl, rfl⟩
  refine ⟨r', h.advance rfl hr' ?_ (Or.inl hsame)⟩
  rw [hsame.1, log_acted, List.countP_cons_of_neg (by rw [Event.edits_act rfl]; decide)]
  exact h.counted

/-- **The run lemma**: the invariant holds in every state that is reached. -/
theorem Reaches.generations {w : Surroundings} {store : MemoryStore} {now : Instant}
    {pool : (i : ι) → Program (ρ i)} {first : BuildRequest}
    (hrun : Reaches w (start store now pool) s) (hr : store.requests.get? key = some first)
    (hallows : ∀ t deed, w.allows t deed → ¬ deed.Inserts key) :
    ∃ r, Generations key first.generation s r := by
  refine hrun.invariant (J := fun s => ∃ r, Generations key first.generation s r)
    ⟨first, generations_start hr now pool⟩ ?_ ?_ ?_
  · rintro s i act rest t ⟨r, h⟩ hanswer
    exact h.acted hanswer rest
  · rintro s deed ⟨r, h⟩ hdeed
    exact h.did (hallows _ _ hdeed)
  · rintro s now ⟨r, h⟩
    exact ⟨r, h.current, h.counted, h.le, h.spec_eq⟩

/-- What was stored only later is of no earlier generation than what was stored before. -/
theorem Reaches.generation_le {w : Surroundings} {store : MemoryStore} {now : Instant}
    {pool : (i : ι) → Program (ρ i)} {first b p : BuildRequest} {s₁ : System ι ρ}
    (hrun : Reaches w (start store now pool) s) (hfirst : store.requests.get? key = some first)
    (hallows : ∀ t deed, w.allows t deed → ¬ deed.Inserts key) (hpast : s₁.past <:+ s.past)
    (hb : s₁.Stored key b) (hp : s.Stored key p) (hnew : ¬ s₁.Stored key p) :
    b.generation ≤ p.generation := by
  have hstored : ∀ {s : System ι ρ}, s₁.past <:+ s.past → s.Stored key b := fun hpast => by
    obtain ⟨t, ht, hr⟩ := hb
    exact ⟨t, hpast.mem ht, hr⟩
  -- of what is stored the latest has the greatest generation
  have hnext : ∀ {s s' : System ι ρ}, Reaches w (start store now pool) s' →
      s'.past = s'.store :: s.past →
      (s₁.past <:+ s.past → s.Stored key p → b.generation ≤ p.generation) →
      s₁.past <:+ s'.past → s'.Stored key p → b.generation ≤ p.generation := by
    intro s s' hrun heq ih hpast hp
    obtain ⟨r, hgenerations⟩ := hrun.generations hfirst hallows
    rcases (stored_cons heq).mp hp with hnow | hbefore
    · obtain rfl := Option.some.inj (hgenerations.current.symm.trans hnow)
      exact hgenerations.le (hstored hpast)
    · rw [heq] at hpast
      rcases List.suffix_cons_iff.mp hpast with hsame | hpast
      · refine absurd ?_ hnew
        obtain ⟨t, ht, hr⟩ := hbefore
        exact ⟨t, hsame ▸ List.mem_cons_of_mem _ ht, hr⟩
      · exact ih hpast hbefore
  induction hrun with
  | refl =>
    -- nothing was stored only later
    obtain ⟨t, ht, hr⟩ := hp
    obtain ⟨t', ht', -⟩ := hb
    rw [List.mem_singleton.mp ht] at hr
    have hmem := hpast.mem ht'
    rw [List.mem_singleton.mp hmem] at ht'
    exact absurd ⟨_, ht', hr⟩ hnew
  | step hrun hstep ih =>
    have hreached := hrun.step hstep
    cases hstep with
    | act answer t hpool hanswer => exact hnext hreached rfl ih hpast hp
    | deed d hd => exact hnext hreached rfl ih hpast hp
    | tick n hn => exact ih hpast hp

end System

end PushBuild
