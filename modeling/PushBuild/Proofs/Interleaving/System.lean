import Mathlib.Logic.Function.Basic
import PushBuild.Proofs.Interleaving.Act
import PushBuild.Store.Memory

/-!
# Programs that share a store

Any number of programs run against one store in memory and one clock, in any order, one effect at a
time; between their effects others act on the store, and the clock moves.

1. **State.**  `System` has the store, the clock, what is left of each program, and a log of what
   happened.  The log changes nothing; it is what theorems about a run are stated about.
2. **Steps.**  A program does its next effect (`Step.act`), others do something (`Step.deed`), or
   the clock moves (`Step.tick`).  What others do, and how the clock moves, is bounded by
   `Surroundings`.  A call is answered by the store; or it fails and changes nothing; or, if it
   reads requests, it may be answered with requests as they once were.
3. **The rule.**  Whatever the order, an act of a program satisfies the duty that the program obeys
   alone (`Reaches.induction`).  So an invariant has to be checked only for acts that do their duty.
4. **Moments.**  Just before each event of a log the run was in a state that is reached too
   (`Reaches.moment`), so an invariant tells of every event what held when it happened.
-/

namespace PushBuild

/-! ## What others do -/

/-- What users, the build system and others do to a store.  None of this is an act of a program, so
no duty bounds it; only the surroundings of a run do. -/
inductive Deed where
  | insertRequest (request : BuildRequest)
  | updateSpec (key : ObjectKey) (spec : BuildRequestSpec)
  | setLabel (key : ObjectKey) (label : String) (value : Option String)
  | putTemplate (template : BuildTemplate)
  | putExecution (execution : BuildExecution)
  /-- the build system reports on an execution -/
  | report (key : ObjectKey) (status : BuildExecutionStatus)
  | setPolicy (policy : Option ClusterPolicy)
  | insertStrategy (name : String)
  | insertSecret (key : ObjectKey) (dataKey : String) (value : Bytes)
  /-- the next status writes are refused as if another writer were faster -/
  | injectConflicts (count : Nat)
  | setUnavailable (unavailable : Bool)

/-- The store after a deed. -/
def Deed.apply : Deed → MemoryStore → MemoryStore
  | insertRequest request, s => s.insertRequest request
  | updateSpec key spec, s => (s.updateSpec key spec).2
  | setLabel key label value, s => (s.setRequestLabel key label value).2
  | putTemplate template, s => s.putTemplate template
  | putExecution execution, s => s.putExecution execution
  | report key status, s => s.setExecutionStatus key status
  | setPolicy policy, s => { s with policy }
  | insertStrategy name, s => s.insertStrategy name
  | insertSecret key dataKey value, s => s.insertSecret key dataKey value
  | injectConflicts count, s => { s with conflicts := count }
  | setUnavailable unavailable, s => { s with unavailable }

/-! ## How an act is answered -/

namespace Act

/-- The answer is the store's, which is `t` then; and the time is that of the clock.  A pause takes
its time elsewhere, as the clock moves by itself. -/
def Served (s : MemoryStore) (now : Instant) (t : MemoryStore) : Act → Prop
  | .getRequest key answer => s.call (.getRequest key) = (answer, t)
  | .listRequests selector answer => s.call (.listRequests selector) = (answer, t)
  | .updateRequestStatus request answer => s.call (.updateRequestStatus request) = (answer, t)
  | .setRequestLabel key label value answer =>
    s.call (.setRequestLabel key label value) = (answer, t)
  | .getTemplate key answer => s.call (.getTemplate key) = (answer, t)
  | .createTemplate template answer => s.call (.createTemplate template) = (answer, t)
  | .replaceTemplate template answer => s.call (.replaceTemplate template) = (answer, t)
  | .getExecution key answer => s.call (.getExecution key) = (answer, t)
  | .createExecution execution answer => s.call (.createExecution execution) = (answer, t)
  | .getStrategy name answer => s.call (.getStrategy name) = (answer, t)
  | .getPolicy answer => s.call .getPolicy = (answer, t)
  | .getSecret key answer => s.call (.getSecret key) = (answer, t)
  | .now time => time = now ∧ t = s
  | .sleep _ => t = s

/-- The call failed.  Whether the store would have answered it makes no difference. -/
def Failed : Act → Prop
  | .getRequest _ answer => ∃ e, answer = .error e
  | .listRequests _ answer => ∃ e, answer = .error e
  | .updateRequestStatus _ answer => ∃ e, answer = .error e
  | .setRequestLabel _ _ _ answer => ∃ e, answer = .error e
  | .getTemplate _ answer => ∃ e, answer = .error e
  | .createTemplate _ answer => ∃ e, answer = .error e
  | .replaceTemplate _ answer => ∃ e, answer = .error e
  | .getExecution _ answer => ∃ e, answer = .error e
  | .createExecution _ answer => ∃ e, answer = .error e
  | .getStrategy _ answer => ∃ e, answer = .error e
  | .getPolicy answer => ∃ e, answer = .error e
  | .getSecret _ answer => ∃ e, answer = .error e
  | .now _ | .sleep _ => False

/-- The call reads requests and the answer is from `past`: a request as some store held it, or any
requests, each as some store held it. -/
def Outdated (past : List MemoryStore) : Act → Prop
  | .getRequest key answer => ∃ old ∈ past, answer = .ok (old.requests.get? key)
  | .listRequests _ answer =>
    ∃ rs, answer = .ok rs ∧ ∀ r ∈ rs, ∃ old ∈ past, old.requests.get? r.key = some r
  | _ => False

end Act

/-! ## States -/

/-- Who did what. -/
inductive Cause (ι : Type) where
  | act (i : ι) (act : Act)
  | deed (deed : Deed)

/-- What happened: when, and what the store was before and after. -/
structure Event (ι : Type) where
  cause : Cause ι
  now : Instant
  before : MemoryStore
  after : MemoryStore

/-- The program that acted, if the event is an act. -/
def Event.actor? {ι : Type} (e : Event ι) : Option ι :=
  match e.cause with
  | .act i _ => some i
  | .deed _ => none

/-- A program acted if the event is an act of it. -/
theorem Event.actor?_eq_some {ι : Type} {e : Event ι} {i : ι} :
    e.actor? = some i ↔ ∃ act, e.cause = .act i act := by
  unfold actor?
  cases e.cause with
  | act j act =>
    refine ⟨fun h => ⟨act, by rw [Option.some.inj h]⟩, ?_⟩
    rintro ⟨_, h⟩
    rw [(Cause.act.inj h).1]
  | deed deed => exact ⟨nofun, fun ⟨_, h⟩ => nomatch h⟩

/-- The acts of program `i` in a log. -/
def actsOf {ι : Type} [DecidableEq ι] (i : ι) (log : List (Event ι)) : List Act :=
  log.filterMap fun e => match e.cause with
    | .act j act => if j = i then some act else none
    | .deed _ => none

/-- Programs with results in `ρ`, and what they share. -/
structure System (ι : Type) (ρ : ι → Type) where
  store : MemoryStore
  now : Instant
  /-- what is left of each program -/
  pool : (i : ι) → Program (ρ i)
  /-- what happened, latest first -/
  log : List (Event ι)

/-- What may happen besides the programs. -/
structure Surroundings where
  /-- what others may do to the store as it is -/
  allows : MemoryStore → Deed → Prop
  /-- where the clock may move to -/
  ticks : Instant → Instant → Prop

namespace System

variable {ι : Type} {ρ : ι → Type}

/-- The programs before their first effects. -/
def start (store : MemoryStore) (now : Instant) (pool : (i : ι) → Program (ρ i)) : System ι ρ :=
  ⟨store, now, pool, []⟩

/-- The store as it is, and as it was before each event. -/
def past (s : System ι ρ) : List MemoryStore := s.store :: s.log.map (·.before)

/-- `r` is, or once was, stored under `key`. -/
def Stored (s : System ι ρ) (key : ObjectKey) (r : BuildRequest) : Prop :=
  ∃ t ∈ s.past, t.requests.get? key = some r

/-- What a program returned, if it ended. -/
def result? (s : System ι ρ) (i : ι) : Option (ρ i) :=
  match s.pool i with
  | .done result => some result
  | .step _ _ => none

/-- An act may be answered in this way, the store being `t` then. -/
def Answers (s : System ι ρ) (act : Act) (t : MemoryStore) : Prop :=
  act.Served s.store s.now t ∨ (t = s.store ∧ (act.Failed ∨ act.Outdated s.past))

/-- A time that was told is that of the clock. -/
theorem Answers.now_eq {s : System ι ρ} {time : Instant} {t : MemoryStore}
    (h : s.Answers (.now time) t) : time = s.now := by
  rcases h with h | ⟨-, h | h⟩
  · exact h.1
  · exact h.elim
  · exact h.elim

/-- The state after others did something. -/
def did (s : System ι ρ) (deed : Deed) : System ι ρ :=
  { s with store := deed.apply s.store
           log := ⟨.deed deed, s.now, s.store, deed.apply s.store⟩ :: s.log }

/-- The state at a later time. -/
def ticked (s : System ι ρ) (now : Instant) : System ι ρ := { s with now }

section

variable {s : System ι ρ} {deed : Deed} {now : Instant}

@[simp] theorem store_did : (s.did deed).store = deed.apply s.store := rfl
@[simp] theorem now_did : (s.did deed).now = s.now := rfl
@[simp] theorem log_did :
    (s.did deed).log = ⟨.deed deed, s.now, s.store, deed.apply s.store⟩ :: s.log := rfl
@[simp] theorem past_did : (s.did deed).past = deed.apply s.store :: s.past := rfl

@[simp] theorem store_ticked : (s.ticked now).store = s.store := rfl
@[simp] theorem now_ticked : (s.ticked now).now = now := rfl
@[simp] theorem log_ticked : (s.ticked now).log = s.log := rfl
@[simp] theorem past_ticked : (s.ticked now).past = s.past := rfl

end

variable [DecidableEq ι]

/-- What program `i` did so far, latest first. -/
def acts (s : System ι ρ) (i : ι) : List Act := actsOf i s.log

/-- The state after program `i` did something that left the store `t` and the program `rest`. -/
def acted (s : System ι ρ) (i : ι) (act : Act) (rest : Program (ρ i)) (t : MemoryStore) :
    System ι ρ :=
  { s with store := t
           pool := Function.update s.pool i rest
           log := ⟨.act i act, s.now, s.store, t⟩ :: s.log }

/-- One step. -/
inductive Step (w : Surroundings) : System ι ρ → System ι ρ → Prop
  | act {s : System ι ρ} {i : ι} {β : Type} {effect : Effect β} {next : β → Program (ρ i)}
      (answer : β) (t : MemoryStore) (hpool : s.pool i = .step effect next)
      (hanswer : s.Answers (effect.act answer) t) :
      Step w s (s.acted i (effect.act answer) (next answer) t)
  | deed {s : System ι ρ} (deed : Deed) (hallows : w.allows s.store deed) : Step w s (s.did deed)
  | tick {s : System ι ρ} (now : Instant) (hticks : w.ticks s.now now) : Step w s (s.ticked now)

/-- Any number of steps. -/
inductive Reaches (w : Surroundings) (s₀ : System ι ρ) : System ι ρ → Prop
  | refl : Reaches w s₀ s₀
  | step {s s' : System ι ρ} : Reaches w s₀ s → Step w s s' → Reaches w s₀ s'

/-! ## What a step leaves behind -/

section

variable {s : System ι ρ} {i j : ι} {act : Act} {rest : Program (ρ i)} {t : MemoryStore}
  {deed : Deed} {now : Instant}

@[simp] theorem store_acted : (s.acted i act rest t).store = t := rfl
@[simp] theorem now_acted : (s.acted i act rest t).now = s.now := rfl
@[simp] theorem log_acted :
    (s.acted i act rest t).log = ⟨.act i act, s.now, s.store, t⟩ :: s.log := rfl
@[simp] theorem past_acted : (s.acted i act rest t).past = t :: s.past := rfl

/-- An act is added to those of the program that did it, -/
@[simp] theorem acts_acted_self : (s.acted i act rest t).acts i = act :: s.acts i := by
  simp [acts, actsOf]

/-- and to no others. -/
theorem acts_acted_ne (h : i ≠ j) : (s.acted i act rest t).acts j = s.acts j := by
  simp [acts, actsOf, h]

@[simp] theorem acts_did : (s.did deed).acts i = s.acts i := rfl

@[simp] theorem acts_ticked : (s.ticked now).acts i = s.acts i := rfl

end

/-- The acts of a program are those of the events before an act of it, that act, and those after. -/
theorem actsOf_append_cons {i : ι} {later earlier : List (Event ι)} {e : Event ι} {act : Act}
    (hcause : e.cause = .act i act) :
    actsOf i (later ++ e :: earlier) = actsOf i later ++ act :: actsOf i earlier := by
  simp [actsOf, hcause]

/-- A new act of `i` is all that tells the acts after from those before. -/
theorem mem_acts_acted {s : System ι ρ} {i j : ι} {act a : Act} {rest : Program (ρ i)}
    {t : MemoryStore} (h : a ∈ (s.acted i act rest t).acts j) : a = act ∨ a ∈ s.acts j := by
  by_cases hij : i = j
  · subst hij
    simpa using h
  · rw [acts_acted_ne hij] at h
    exact Or.inr h

end System

/-! ## Duties in a system -/

namespace System

variable {ι : Type} {ρ : ι → Type} [DecidableEq ι] {w : Surroundings} {s₀ s : System ι ρ}
  {duty : ι → Duty} {post : (i : ι) → ρ i → List Act → Prop}

/-- Every program, having done what it did, goes on to do its duty. -/
def Obeys (duty : ι → Duty) (post : (i : ι) → ρ i → List Act → Prop) (s : System ι ρ) : Prop :=
  ∀ i, (s.pool i).Obeys (duty i) (post i) (s.acts i)

/-- What is left of a program still does its duty when some program acts: the program itself, for
which this was the next act, or another one, which leaves it as it was. -/
theorem obeys_acted {i j : ι} {duty : Duty} {post : ρ i → List Act → Prop} {β : Type}
    {effect : Effect β} {next : β → Program (ρ j)} (h : (s.pool i).Obeys duty post (s.acts i))
    (hpool : s.pool j = .step effect next) (answer : β) (t : MemoryStore) :
    ((s.acted j (effect.act answer) (next answer) t).pool i).Obeys duty post
      ((s.acted j (effect.act answer) (next answer) t).acts i) := by
  by_cases hji : j = i
  · subst hji
    rw [hpool] at h
    rw [acts_acted_self]
    simpa [System.acted] using (h answer).2
  · rw [acts_acted_ne hji]
    simpa [System.acted, Function.update_of_ne (Ne.symm hji)] using h

/-- The program that acts does its duty, and afterwards they all still do. -/
theorem Obeys.acted {i : ι} {β : Type} {effect : Effect β} {next : β → Program (ρ i)}
    (h : s.Obeys duty post) (hpool : s.pool i = .step effect next) (answer : β) (t : MemoryStore) :
    duty i (s.acts i) (effect.act answer) ∧
      (s.acted i (effect.act answer) (next answer) t).Obeys duty post := by
  -- the program obeys for every answer, so for the one it got
  have hi := h i
  rw [hpool] at hi
  exact ⟨(hi answer).1, fun j => obeys_acted (h j) hpool answer t⟩

/-- In every state that is reached a program still does its duty, whatever the others do. -/
theorem Reaches.obeys_one {i : ι} {duty : Duty} {post : ρ i → List Act → Prop}
    (hrun : Reaches w s₀ s) (h : (s₀.pool i).Obeys duty post (s₀.acts i)) :
    (s.pool i).Obeys duty post (s.acts i) := by
  induction hrun with
  | refl => exact h
  | step _ hstep ih =>
    cases hstep with
    | act answer t hpool _ => exact obeys_acted ih hpool answer t
    | deed d _ => exact ih
    | tick n _ => exact ih

/-- In every state that is reached, every program still does its duty. -/
theorem Reaches.obeys (hrun : Reaches w s₀ s) (hobeys : s₀.Obeys duty post) : s.Obeys duty post :=
  fun i => hrun.obeys_one (hobeys i)

/-- What a program returned is what it ends with alone. -/
theorem Reaches.returned {i : ι} {duty : Duty} {post : ρ i → List Act → Prop} {result : ρ i}
    (hrun : Reaches w s₀ s) (h : (s₀.pool i).Obeys duty post (s₀.acts i))
    (hresult : s.result? i = some result) :
    post result (s.acts i) := by
  have hend := hrun.obeys_one h
  unfold result? at hresult
  split at hresult
  · next hpool =>
    rw [hpool] at hend
    obtain rfl := Option.some.inj hresult
    exact hend
  · cases hresult

/-- **The rule of invariants.**  What holds at the start, and is kept by acts that do their duty, by
what others may do and by the clock, holds in every state that is reached. -/
theorem Reaches.induction {J : System ι ρ → Prop} (hrun : Reaches w s₀ s)
    (hobeys : s₀.Obeys duty post) (start : J s₀)
    (act : ∀ s i act rest t, Reaches w s₀ s → J s → s.Answers act t → duty i (s.acts i) act →
      J (s.acted i act rest t))
    (deed : ∀ s deed, Reaches w s₀ s → J s → w.allows s.store deed → J (s.did deed))
    (tick : ∀ s now, Reaches w s₀ s → J s → w.ticks s.now now → J (s.ticked now)) : J s := by
  induction hrun with
  | refl => exact start
  | step hrun hstep ih =>
    cases hstep with
    | act answer t hpool hanswer =>
      -- the program does its duty in every state that is reached, and so does this act
      exact act _ _ _ _ _ hrun ih hanswer ((hrun.obeys hobeys).acted hpool answer t).1
    | deed d hallows => exact deed _ _ hrun ih hallows
    | tick n hticks => exact tick _ _ hrun ih hticks

/-- The same for what every act keeps, whether or not it does a duty. -/
theorem Reaches.invariant {J : System ι ρ → Prop} (hrun : Reaches w s₀ s) (start : J s₀)
    (act : ∀ s i act rest t, J s → s.Answers act t → J (s.acted i act rest t))
    (deed : ∀ s deed, J s → w.allows s.store deed → J (s.did deed))
    (tick : ∀ s now, J s → J (s.ticked now)) : J s := by
  induction hrun with
  | refl => exact start
  | step _ hstep ih =>
    cases hstep with
    | act answer t _ hanswer => exact act _ _ _ _ _ ih hanswer
    | deed d hallows => exact deed _ _ ih hallows
    | tick n _ => exact tick _ _ ih

/-- What narrow surroundings allow, wider ones do. -/
theorem Reaches.mono {w' : Surroundings} (hrun : Reaches w s₀ s)
    (hallows : ∀ t deed, w.allows t deed → w'.allows t deed)
    (hticks : ∀ a b, w.ticks a b → w'.ticks a b) : Reaches w' s₀ s := by
  induction hrun with
  | refl => exact .refl
  | step _ hstep ih =>
    refine ih.step ?_
    cases hstep with
    | act answer t hpool hanswer => exact .act answer t hpool hanswer
    | deed d hd => exact .deed d (hallows _ _ hd)
    | tick n hn => exact .tick n (hticks _ _ hn)

/-! ## Moments of a run -/

/-- `s` is the state of a run just before the event `e`, which came after the events `earlier`. -/
structure Moment (w : Surroundings) (s₀ : System ι ρ) (duty : ι → Duty) (e : Event ι)
    (earlier : List (Event ι)) (s : System ι ρ) : Prop where
  reaches : Reaches w s₀ s
  log_eq : s.log = earlier
  store_eq : s.store = e.before
  now_eq : s.now = e.now
  act : ∀ i act, e.cause = .act i act → s.Answers act e.after ∧ duty i (s.acts i) act
  deed : ∀ deed, e.cause = .deed deed → w.allows s.store deed ∧ e.after = deed.apply s.store

/-- Before every event of a log the run was in some state. -/
theorem Reaches.moment (hrun : Reaches w s₀ s) (hobeys : s₀.Obeys duty post) (hstart : s₀.log = [])
    {later earlier : List (Event ι)} {e : Event ι} (hlog : s.log = later ++ e :: earlier) :
    ∃ s₁, Moment w s₀ duty e earlier s₁ := by
  induction hrun generalizing later with
  | refl =>
    rw [hstart] at hlog
    cases later <;> cases hlog
  | step hrun hstep ih =>
    cases hstep with
    | act answer t hpool hanswer =>
      cases later with
      | nil =>
        obtain ⟨rfl, rfl⟩ := List.cons.inj hlog
        refine ⟨_, hrun, rfl, rfl, rfl, fun i act hcause => ?_, fun _ hcause => by cases hcause⟩
        obtain ⟨rfl, rfl⟩ := Cause.act.inj hcause
        exact ⟨hanswer, ((hrun.obeys hobeys).acted hpool answer t).1⟩
      | cons a later => exact ih (List.cons.inj hlog).2
    | deed d hd =>
      cases later with
      | nil =>
        obtain ⟨rfl, rfl⟩ := List.cons.inj hlog
        refine ⟨_, hrun, rfl, rfl, rfl, fun _ _ hcause => (by cases hcause), fun deed hcause => ?_⟩
        obtain rfl := Cause.deed.inj hcause
        exact ⟨hd, rfl⟩
      | cons a later => exact ih (List.cons.inj hlog).2
    -- the clock leaves no event
    | tick n hn => exact ih hlog

/-- An act of a program is an event, after the events of the program's acts before. -/
theorem exists_event {i : ι} {act : Act} {acts : List Act} :
    ∀ {log : List (Event ι)}, act :: acts <:+ actsOf i log →
      ∃ later e earlier, log = later ++ e :: earlier ∧ e.cause = .act i act ∧
        actsOf i earlier = acts
  | [], h => absurd (List.suffix_nil.mp h) (List.cons_ne_nil _ _)
  | ⟨cause, now, before, after⟩ :: log, h => by
    -- an event that is not the act in question is passed over
    have hskip : act :: acts <:+ actsOf i log → ∃ later e earlier,
        ⟨cause, now, before, after⟩ :: log = later ++ e :: earlier ∧ e.cause = .act i act ∧
          actsOf i earlier = acts := by
      intro h
      obtain ⟨later, e, earlier, rfl, hcause, hacts⟩ := exists_event h
      exact ⟨_ :: later, e, earlier, rfl, hcause, hacts⟩
    cases cause with
    | deed d => exact hskip h
    | act j other =>
      by_cases hij : j = i
      · subst hij
        have hcons : actsOf j (⟨.act j other, now, before, after⟩ :: log) =
            other :: actsOf j log := by
          simp [actsOf]
        rw [hcons] at h
        rcases List.suffix_cons_iff.mp h with heq | h
        · obtain ⟨rfl, rfl⟩ := List.cons.inj heq
          exact ⟨[], _, log, rfl, rfl, rfl⟩
        · exact hskip h
      · have hcons : actsOf i (⟨.act j other, now, before, after⟩ :: log) = actsOf i log := by
          simp [actsOf, hij]
        exact hskip (hcons ▸ h)

/-- The act that a program did last is an event, after which it did nothing more. -/
theorem exists_last_event {i : ι} {log : List (Event ι)} {act : Act} {acts : List Act}
    (h : actsOf i log = act :: acts) : ∃ later e earlier, log = later ++ e :: earlier ∧
      e.cause = .act i act ∧ actsOf i earlier = acts ∧ actsOf i later = [] := by
  have hsuffix : act :: acts <:+ actsOf i log := h ▸ List.suffix_rfl
  obtain ⟨later, e, earlier, rfl, hcause, hacts⟩ := exists_event hsuffix
  refine ⟨later, e, earlier, rfl, hcause, hacts, ?_⟩
  rw [actsOf_append_cons hcause, hacts] at h
  exact List.append_left_eq_self.mp h

/-- Before every act of a program the run was in some state. -/
theorem Reaches.moment_act (hrun : Reaches w s₀ s) (hobeys : s₀.Obeys duty post)
    (hstart : s₀.log = []) {i : ι} {act : Act} {acts : List Act} (h : act :: acts <:+ s.acts i) :
    ∃ later e earlier s₁, s.log = later ++ e :: earlier ∧ e.cause = .act i act ∧
      Moment w s₀ duty e earlier s₁ ∧ s₁.acts i = acts := by
  obtain ⟨later, e, earlier, hlog, hcause, hacts⟩ := exists_event h
  obtain ⟨s₁, h₁⟩ := hrun.moment hobeys hstart hlog
  exact ⟨later, e, earlier, s₁, hlog, hcause, h₁, by rw [System.acts, h₁.log_eq, hacts]⟩

/-- The stores that were seen at a moment of a run were seen before what came after it. -/
theorem Moment.past {e : Event ι} {later earlier : List (Event ι)} {s₁ : System ι ρ}
    (h : Moment w s₀ duty e earlier s₁) (hlog : s.log = later ++ e :: earlier) :
    s₁.past <:+ s.past := by
  refine ⟨s.store :: later.map (·.before), ?_⟩
  rw [System.past, System.past, hlog, h.store_eq, h.log_eq, List.map_append, List.map_cons]
  rfl

/-- What was stored at a moment of a run was stored. -/
theorem Moment.stored {e : Event ι} {later earlier : List (Event ι)} {s₁ : System ι ρ}
    (h : Moment w s₀ duty e earlier s₁) (hlog : s.log = later ++ e :: earlier) {key : ObjectKey}
    {r : BuildRequest} (hr : s₁.Stored key r) : s.Stored key r := by
  obtain ⟨t, ht, hr⟩ := hr
  exact ⟨t, (h.past hlog).mem ht, hr⟩

/-- The store that an event of a log left is among those that were seen: the one after it starts
from there, and the last one left the store as it is. -/
theorem Reaches.after_mem_past (hrun : Reaches w s₀ s) (hstart : s₀.log = []) {e : Event ι}
    (he : e ∈ s.log) : e.after ∈ s.past := by
  induction hrun with
  | refl =>
    rw [hstart] at he
    cases he
  | step hrun hstep ih =>
    cases hstep with
    | act answer t hpool hanswer =>
      rcases List.mem_cons.mp he with rfl | he
      · exact List.mem_cons_self
      · exact List.mem_cons_of_mem _ (ih he)
    | deed d hd =>
      rcases List.mem_cons.mp he with rfl | he
      · exact List.mem_cons_self
      · exact List.mem_cons_of_mem _ (ih he)
    | tick n hn => exact ih he

end System

end PushBuild
