import PushBuild.Program
import PushBuild.Retry

/-!
# What one program does, whatever it is answered

A program alone is a tree: at each effect it goes on with the answer.  This file says what a program
does WITHOUT saying anything about the store it runs against, so that the same facts can be used of
every interleaving.

1. **Acts.**  An `Act` is an effect together with its answer.  What a program has done is the list
   of its acts, latest first.
2. **Duties.**  A duty is a condition on the next act, given the acts before it.  `Obeys` says that
   every act of a program, for every possible answer, satisfies a duty, and that the program ends in
   an allowed way.
3. **Rules.**  `Obeys` of a sequence is `Obeys` of its parts (`obeys_bind`).  The programs here can
   all fail, so the rules that are used are those of `Meets`, which tells the two ways to end apart.
4. **Rules without results.**  Where a program only has to do its duty, `Keeps` leaves its end open.
   What is done stays done, so the acts before any part of the program start with those before the
   program.
5. **Reads.**  `lastRead?` is the request that a program acts for, as far as its acts tell.
-/

namespace PushBuild

/-- An effect together with its answer.  The answer may be anything, also one that no store would
give; what a store answers is said where programs run against one. -/
inductive Act where
  | getRequest (key : ObjectKey) (answer : Except StoreError (Option BuildRequest))
  | listRequests (selector : String) (answer : Except StoreError (List BuildRequest))
  | updateRequestStatus (request : BuildRequest) (answer : Except StoreError BuildRequest)
  | setRequestLabel (key : ObjectKey) (label : String) (value : Option String)
      (answer : Except StoreError Unit)
  | getTemplate (key : ObjectKey) (answer : Except StoreError (Option BuildTemplate))
  | createTemplate (template : BuildTemplate) (answer : Except StoreError BuildTemplate)
  | replaceTemplate (template : BuildTemplate) (answer : Except StoreError BuildTemplate)
  | getExecution (key : ObjectKey) (answer : Except StoreError (Option BuildExecution))
  | createExecution (execution : BuildExecution) (answer : Except StoreError BuildExecution)
  | getStrategy (name : String) (answer : Except StoreError (Option BuildStrategy))
  | getPolicy (answer : Except StoreError (Option ClusterPolicy))
  | getSecret (key : ObjectKey) (answer : Except StoreError (Option SecretData))
  | now (time : Instant)
  | sleep (time : Duration)

/-- A call with its answer. -/
def StoreCall.act {α : Type} : StoreCall α → Except StoreError α → Act
  | .getRequest key => .getRequest key
  | .listRequests selector => .listRequests selector
  | .updateRequestStatus request => .updateRequestStatus request
  | .setRequestLabel key label value => .setRequestLabel key label value
  | .getTemplate key => .getTemplate key
  | .createTemplate template => .createTemplate template
  | .replaceTemplate template => .replaceTemplate template
  | .getExecution key => .getExecution key
  | .createExecution execution => .createExecution execution
  | .getStrategy name => .getStrategy name
  | .getPolicy => .getPolicy
  | .getSecret key => .getSecret key

/-- An effect with its answer. -/
def Effect.act {β : Type} : Effect β → β → Act
  | .store call => call.act
  | .now => .now
  | .sleep time => fun _ => .sleep time

/-- A condition on the next act of a program, given those before it, latest first. -/
abbrev Duty := List Act → Act → Prop

namespace Program

variable {α β : Type} {duty : Duty}

/-- After `acts`, whatever it is answered, every act of the program satisfies `duty`, and when it is
done `post` holds of its result and all acts. -/
def Obeys (duty : Duty) : Program α → (α → List Act → Prop) → List Act → Prop
  | done a, post, acts => post a acts
  | step effect next, post, acts => ∀ answer,
    duty acts (effect.act answer) ∧ (next answer).Obeys duty post (effect.act answer :: acts)

/-- A sequence obeys when its first part obeys and ends so that the second does. -/
theorem obeys_bind (p : Program α) (f : α → Program β) (post : β → List Act → Prop) :
    ∀ acts, (p.bind f).Obeys duty post acts ↔
      p.Obeys duty (fun a => (f a).Obeys duty post) acts := by
  induction p with
  | done a => exact fun _ => Iff.rfl
  | step effect next ih =>
    -- the sequence goes on inside the first part, below every answer
    intro acts
    exact forall_congr' fun answer => and_congr_right fun _ => ih answer _

/-- What follows from the end of a program holds at its end. -/
theorem Obeys.mono {p : Program α} {post post' : α → List Act → Prop}
    (hpost : ∀ a acts, post a acts → post' a acts) :
    ∀ {acts}, p.Obeys duty post acts → p.Obeys duty post' acts := by
  induction p with
  | done a => exact hpost a _
  | step effect next ih => exact fun h answer => ⟨(h answer).1, ih answer (h answer).2⟩

/-- Who does a duty does one that asks for less. -/
theorem Obeys.weaken {duty' : Duty} {p : Program α} {post : α → List Act → Prop}
    (hduty : ∀ acts act, duty acts act → duty' acts act) :
    ∀ {acts}, p.Obeys duty post acts → p.Obeys duty' post acts := by
  induction p with
  | done a => exact fun h => h
  | step effect next ih => exact fun h answer => ⟨hduty _ _ (h answer).1, ih answer (h answer).2⟩

/-- What was done before a program is still done when it ends. -/
theorem Obeys.suffix {p : Program α} {post : α → List Act → Prop} :
    ∀ {acts}, p.Obeys duty post acts →
      p.Obeys duty (fun a later => acts <:+ later ∧ post a later) acts := by
  induction p with
  | done a => exact fun h => ⟨List.suffix_rfl, h⟩
  | step effect next ih =>
    refine fun h answer => ⟨(h answer).1, (ih answer (h answer).2).mono fun a later hpost => ?_⟩
    exact ⟨(List.suffix_cons _ _).trans hpost.1, hpost.2⟩

/-- Who does two duties does both. -/
theorem Obeys.and {duty' : Duty} {p : Program α} {post : α → List Act → Prop} :
    ∀ {acts}, p.Obeys duty post acts → p.Obeys duty' post acts →
      p.Obeys (fun acts act => duty acts act ∧ duty' acts act) post acts := by
  induction p with
  | done a => exact fun h _ => h
  | step effect next ih =>
    exact fun h h' answer =>
      ⟨⟨(h answer).1, (h' answer).1⟩, ih answer (h answer).2 (h' answer).2⟩

/-- What holds of the acts so far, and is kept by every act of a program, holds all along. -/
theorem Obeys.along {P : List Act → Prop} {p : Program α} {post : α → List Act → Prop} :
    ∀ {acts}, p.Obeys (fun acts act => P acts → duty acts act ∧ P (act :: acts)) post acts →
      P acts →
      p.Obeys duty (fun a later => P later ∧ post a later) acts := by
  induction p with
  | done a => exact fun h hP => ⟨hP, h⟩
  | step effect next ih =>
    exact fun h hP answer =>
      ⟨((h answer).1 hP).1, ih answer (h answer).2 ((h answer).1 hP).2⟩

/-- A program of which nothing is asked. -/
theorem obeys_of_forall {post : α → List Act → Prop} (hduty : ∀ acts act, duty acts act)
    (hpost : ∀ a acts, post a acts) (p : Program α) : ∀ acts, p.Obeys duty post acts := by
  induction p with
  | done a => exact hpost a
  | step effect next ih => exact fun acts answer => ⟨hduty _ _, ih answer _⟩

end Program

/-! ## Programs that may fail -/

section Meets

variable {α β ε ε' : Type} {duty : Duty}

/-- `Obeys` of a program that may fail: what holds when it succeeds, and what when it fails. -/
def Meets (duty : Duty) (p : ExceptT ε Program α) (ok : α → List Act → Prop)
    (fails : ε → List Act → Prop) : List Act → Prop :=
  Program.Obeys duty p.run fun
    | .ok a => ok a
    | .error e => fails e

variable {ok : α → List Act → Prop} {fails : ε → List Act → Prop} {acts : List Act}

/-- The same for both ways to end. -/
theorem Meets.mono {p : ExceptT ε Program α} {ok' : α → List Act → Prop}
    {fails' : ε → List Act → Prop} (h : Meets duty p ok fails acts)
    (hok : ∀ a acts, ok a acts → ok' a acts) (hfails : ∀ e acts, fails e acts → fails' e acts) :
    Meets duty p ok' fails' acts := by
  refine Program.Obeys.mono ?_ h
  rintro (e | a) acts hr
  · exact hfails e acts hr
  · exact hok a acts hr

/-- The result of a function that has no effects, as part of a program. -/
@[simp] theorem meets_monadLift (r : Except ε α) :
    Meets duty (MonadLift.monadLift r : ExceptT ε Program α) ok fails acts ↔
      (∀ a, r = .ok a → ok a acts) ∧ ∀ e, r = .error e → fails e acts := by
  cases r with
  | ok a => exact ⟨fun h => ⟨fun _ hb => Except.ok.inj hb ▸ h, nofun⟩, fun h => h.1 a rfl⟩
  | error e => exact ⟨fun h => ⟨nofun, fun _ he => Except.error.inj he ▸ h⟩, fun h => h.2 e rfl⟩

/-- What was done before is still done. -/
theorem Meets.suffix {p : ExceptT ε Program α} (h : Meets duty p ok fails acts) :
    Meets duty p (fun a later => acts <:+ later ∧ ok a later)
      (fun e later => acts <:+ later ∧ fails e later) acts := by
  refine Program.Obeys.mono ?_ (Program.Obeys.suffix h)
  rintro (e | a) later hr <;> exact hr

/-- What every act keeps holds all along. -/
theorem Meets.along {P : List Act → Prop} {p : ExceptT ε Program α}
    (h : Meets (fun acts act => P acts → duty acts act ∧ P (act :: acts)) p ok fails acts)
    (hP : P acts) :
    Meets duty p (fun a later => P later ∧ ok a later)
      (fun e later => P later ∧ fails e later) acts := by
  refine Program.Obeys.mono ?_ (Program.Obeys.along h hP)
  rintro (e | a) later hr <;> exact hr

/-- **A sequence** goes on where its first part succeeded, and fails where that failed. -/
theorem meets_bind (p : ExceptT ε Program α) (f : α → ExceptT ε Program β)
    {ok : β → List Act → Prop} :
    Meets duty (p >>= f) ok fails acts ↔
      Meets duty p (fun a => Meets duty (f a) ok fails) fails acts := by
  refine (Program.obeys_bind p.run _ _ acts).trans ?_
  unfold Meets
  constructor <;> refine Program.Obeys.mono ?_ <;> rintro (e | a) acts h <;> exact h

/-- A result that is only changed. -/
theorem meets_map (p : ExceptT ε Program α) (f : α → β) {ok : β → List Act → Prop} :
    Meets duty (f <$> p) ok fails acts ↔ Meets duty p (fun a => ok (f a)) fails acts := by
  refine (Program.obeys_bind p.run _ _ acts).trans ?_
  unfold Meets
  constructor <;> refine Program.Obeys.mono ?_ <;> rintro (e | a) acts h <;> exact h

/-- A program that is caught goes on where it failed. -/
theorem meets_tryCatch (p : ExceptT ε Program α) (f : ε → ExceptT ε Program α) :
    Meets duty (tryCatch p f) ok fails acts ↔
      Meets duty p ok (fun e => Meets duty (f e) ok fails) acts := by
  refine (Program.obeys_bind p.run _ _ acts).trans ?_
  unfold Meets
  constructor <;> refine Program.Obeys.mono ?_ <;> rintro (e | a) acts h <;> exact h

/-- A program whose failures are renamed. -/
theorem meets_adapt (f : ε → ε') (p : ExceptT ε Program α) {fails : ε' → List Act → Prop} :
    Meets duty (ExceptT.adapt f p) ok fails acts ↔ Meets duty p ok (fun e => fails (f e)) acts := by
  refine (Program.obeys_bind p.run _ _ acts).trans ?_
  unfold Meets
  constructor <;> refine Program.Obeys.mono ?_ <;> rintro (e | a) acts h <;> exact h

/-- **A call** may be answered in any way, and succeeds or fails accordingly. -/
theorem meets_call (call : StoreCall α) {fails : StoreError → List Act → Prop} :
    Meets duty call.program ok fails acts ↔ ∀ answer, duty acts (call.act answer) ∧
      (∀ a, answer = .ok a → ok a (call.act answer :: acts)) ∧
      ∀ e, answer = .error e → fails e (call.act answer :: acts) := by
  refine forall_congr' fun answer => and_congr_right fun _ => ?_
  cases answer with
  | ok a => exact ⟨fun h => ⟨fun _ hb => Except.ok.inj hb ▸ h, nofun⟩, fun h => h.1 a rfl⟩
  | error e => exact ⟨fun h => ⟨nofun, fun _ he => Except.error.inj he ▸ h⟩, fun h => h.2 e rfl⟩

/-- In a pass its failure is one of the store. -/
theorem meets_callPass (call : StoreCall α) {fails : BuildError → List Act → Prop} :
    Meets duty call.pass ok fails acts ↔ ∀ answer, duty acts (call.act answer) ∧
      (∀ a, answer = .ok a → ok a (call.act answer :: acts)) ∧
      ∀ e, answer = .error e → fails (.store e) (call.act answer :: acts) :=
  (meets_adapt _ _).trans (meets_call call)

/-- Reading the clock. -/
theorem meets_now {ok : Instant → List Act → Prop} :
    Meets duty (ExceptT.lift (Program.ask .now) : ExceptT ε Program Instant) ok fails acts ↔
      ∀ time, duty acts (.now time) ∧ ok time (.now time :: acts) := Iff.rfl

/-- A sequence that reads the clock first. -/
theorem meets_now_bind {f : Instant → ExceptT ε Program β} {ok : β → List Act → Prop}
    (hduty : ∀ time, duty acts (.now time))
    (hf : ∀ time, Meets duty (f time) ok fails (.now time :: acts)) :
    Meets duty ((ExceptT.lift (Program.ask .now) : ExceptT ε Program Instant) >>= f) ok
      fails acts :=
  (meets_bind _ _).mpr (meets_now.mpr fun time => ⟨hduty time, hf time⟩)

/-- A sequence that calls the store first, where nothing is asked of failures. -/
theorem meets_callPass_bind {call : StoreCall α} {f : α → ExceptT BuildError Program β}
    {ok : β → List Act → Prop} (hduty : ∀ answer, duty acts (call.act answer))
    (hf : ∀ a, Meets duty (f a) ok (fun _ _ => True) (call.act (.ok a) :: acts)) :
    Meets duty (call.pass >>= f) ok (fun _ _ => True) acts := by
  refine (meets_bind _ _).mpr ((meets_callPass _).mpr fun answer => ⟨hduty answer, ?_, ?_⟩)
  · rintro a rfl
    exact hf a
  · exact fun _ _ => trivial

/-- A sequence that starts with a function that has no effects, where nothing is asked of
failures. -/
theorem meets_monadLift_bind {r : Except ε α} {f : α → ExceptT ε Program β}
    {ok : β → List Act → Prop} (hf : ∀ a, r = .ok a → Meets duty (f a) ok (fun _ _ => True) acts) :
    Meets duty ((MonadLift.monadLift r : ExceptT ε Program α) >>= f) ok (fun _ _ => True) acts :=
  (meets_bind _ _).mpr ((meets_monadLift _).mpr ⟨hf, fun _ _ => trivial⟩)

/-- Trying again: what holds before the first attempt holds before every one, if it holds again
after an attempt that lost a race and a pause. -/
theorem meets_retryOnConflict (before : List Act → Prop) {policy : RetryPolicy}
    {isConflict : ε → Bool} {op : ExceptT ε Program α}
    (hop : ∀ {acts}, before acts → Meets duty op ok (fun e later => fails e later ∧
      ∀ time, duty later (.sleep time) ∧ before (.sleep time :: later)) acts)
    (h : before acts) :
    Meets duty (ExceptT.mk (retryOnConflict policy Program.sleep isConflict op.run)) ok
      fails acts := by
  unfold retryOnConflict
  -- the number of further attempts and the next pause do not matter
  generalize policy.maxAttempts - 1 = more
  generalize policy.initialBackoff = backoff
  induction more generalizing backoff acts with
  | zero => exact (hop h).mono (fun _ _ ha => ha) fun _ _ he => he.1
  | succ more ih =>
    refine (Program.obeys_bind _ _ _ acts).mpr (Program.Obeys.mono ?_ (hop h))
    rintro (e | a) later hend
    · -- only an attempt that lost a race is followed by a pause and another one
      show Meets duty (if isConflict e then _ else _ : ExceptT _ _ _) _ _ later
      split
      · exact fun _ => ⟨(hend.2 _).1, ih (hend.2 _).2 _⟩
      · exact hend.1
    · exact hend

end Meets

/-! ## However a program ends -/

section Keeps

variable {α β ε ε' : Type} {duty : Duty} {acts : List Act}

/-- After `acts` the program does its duty, however it ends. -/
def Keeps (duty : Duty) (p : ExceptT ε Program α) : List Act → Prop :=
  Meets duty p (fun _ _ => True) fun _ _ => True

/-- Who ends in some way does the duty. -/
theorem Meets.keeps {p : ExceptT ε Program α} {ok : α → List Act → Prop}
    {fails : ε → List Act → Prop} (h : Meets duty p ok fails acts) : Keeps duty p acts :=
  h.mono (fun _ _ _ => trivial) fun _ _ _ => trivial

/-- What has no effects has no duty. -/
@[simp] theorem keeps_monadLift (r : Except ε α) :
    Keeps duty (MonadLift.monadLift r : ExceptT ε Program α) acts :=
  (meets_monadLift r).mpr ⟨fun _ _ => trivial, fun _ _ => trivial⟩

/-- What follows a program may use how that ended, and that the acts before it are there still. -/
theorem Meets.bind_keeps {p : ExceptT ε Program α} {f : α → ExceptT ε Program β}
    {ok : α → List Act → Prop} {fails : ε → List Act → Prop} (h : Meets duty p ok fails acts)
    (hf : ∀ a later, acts <:+ later → ok a later → Keeps duty (f a) later) :
    Keeps duty (p >>= f) acts :=
  (meets_bind p f).mpr (h.suffix.mono (fun a later ha => hf a later ha.1 ha.2) fun _ _ _ => trivial)

/-- So it is when nothing is known of how that ended, -/
theorem Keeps.bind {p : ExceptT ε Program α} {f : α → ExceptT ε Program β} (h : Keeps duty p acts)
    (hf : ∀ a later, acts <:+ later → Keeps duty (f a) later) : Keeps duty (p >>= f) acts :=
  h.bind_keeps fun a later hlater _ => hf a later hlater

/-- and where it failed. -/
theorem Keeps.tryCatch {p : ExceptT ε Program α} {f : ε → ExceptT ε Program α}
    (h : Keeps duty p acts) (hf : ∀ e later, acts <:+ later → Keeps duty (f e) later) :
    Keeps duty (tryCatch p f) acts :=
  (meets_tryCatch p f).mpr ((Meets.suffix h).mono (fun _ _ _ => trivial) fun e later he =>
    hf e later he.1)

/-- The name of a failure makes no difference, -/
theorem keeps_adapt (f : ε → ε') (p : ExceptT ε Program α) :
    Keeps duty (ExceptT.adapt f p) acts ↔ Keeps duty p acts := meets_adapt f p

/-- and a call has to be one that the duty allows, whatever its answer. -/
theorem keeps_call (call : StoreCall α) :
    Keeps duty call.program acts ↔ ∀ answer, duty acts (call.act answer) :=
  (meets_call call).trans (forall_congr' fun _ =>
    ⟨fun h => h.1, fun h => ⟨h, fun _ _ => trivial, fun _ _ => trivial⟩⟩)

end Keeps

/-! ## Reads -/

/-- The request that was read last. -/
def lastRead? : List Act → Option BuildRequest
  | [] => none
  | .getRequest _ (.ok (some r)) :: _ => some r
  | _ :: acts => lastRead? acts

end PushBuild
