import PushBuild.Error
import PushBuild.Resource.Execution
import PushBuild.Resource.Policy
import PushBuild.Resource.Request
import PushBuild.Resource.Strategy
import PushBuild.Resource.Template
import PushBuild.Text.Bytes

/-!
Programs over a store.

A pass of the controller reads and writes a store that others write too, and it reads a clock.  So
that all the orders in which several passes may go can be spoken about, a pass is a value: either it
is done, or it asks for one effect and goes on with the answer.  Every call of the store is one
effect.
-/

namespace PushBuild

/-- The data of a secret. -/
abbrev SecretData := SortedMap String Bytes

/-- The calls a store answers, with the type of the answer. -/
inductive StoreCall : Type → Type where
  | getRequest (key : ObjectKey) : StoreCall (Option BuildRequest)
  /-- the requests whose labels satisfy a selector -/
  | listRequests (selector : String) : StoreCall (List BuildRequest)
  /-- writes the status, if the version is still the one that was read -/
  | updateRequestStatus (request : BuildRequest) : StoreCall BuildRequest
  /-- sets a label, or takes it away -/
  | setRequestLabel (key : ObjectKey) (label : String) (value : Option String) : StoreCall Unit
  | getTemplate (key : ObjectKey) : StoreCall (Option BuildTemplate)
  | createTemplate (template : BuildTemplate) : StoreCall BuildTemplate
  /-- replaces a template, if the version is still the one that was read -/
  | replaceTemplate (template : BuildTemplate) : StoreCall BuildTemplate
  | getExecution (key : ObjectKey) : StoreCall (Option BuildExecution)
  | createExecution (execution : BuildExecution) : StoreCall BuildExecution
  | getStrategy (name : String) : StoreCall (Option BuildStrategy)
  | getPolicy : StoreCall (Option ClusterPolicy)
  | getSecret (key : ObjectKey) : StoreCall (Option SecretData)

/-- What a program asks for. -/
inductive Effect : Type → Type 1 where
  | store {α : Type} (call : StoreCall α) : Effect (Except StoreError α)
  | now : Effect Instant
  | sleep (time : Duration) : Effect Unit

/-- A program with a result in `α`. -/
inductive Program (α : Type) : Type 1 where
  | done (result : α)
  | step {β : Type} (effect : Effect β) (next : β → Program α)

namespace Program

variable {α β : Type}

/-- The program that goes on with the result of another. -/
def bind : Program α → (α → Program β) → Program β
  | done a, f => f a
  | step effect next, f => step effect fun b => (next b).bind f

instance : Monad Program where
  pure := done
  bind := bind

/-- The program that asks for one effect. -/
def ask (effect : Effect α) : Program α := step effect done

/-- Runs a program, given an answer to every effect. -/
def run {m : Type → Type} [Monad m] (answer : {β : Type} → Effect β → m β) : Program α → m α
  | done a => pure a
  | step effect next => do (next (← answer effect)).run answer

/-- Waits. -/
def sleep (time : Duration) : Program Unit := ask (.sleep time)

theorem bind_done (p : Program α) : p.bind done = p := by
  induction p with
  | done a => rfl
  | step effect next ih => simp only [bind, ih]

theorem bind_assoc {γ : Type} (p : Program α) (f : α → Program β) (g : β → Program γ) :
    (p.bind f).bind g = p.bind fun a => (f a).bind g := by
  induction p with
  | done a => rfl
  | step effect next ih => simp only [bind, ih]

end Program

/-- A program that a failing store stops. -/
abbrev StoreProgram := ExceptT StoreError Program

/-- A program of the controller. -/
abbrev Pass := ExceptT BuildError Program

/-- The program of one call. -/
def StoreCall.program {α : Type} (call : StoreCall α) : StoreProgram α :=
  ExceptT.mk (Program.ask (.store call))

/-- A store program as part of a pass. -/
def StoreProgram.pass {α : Type} (p : StoreProgram α) : Pass α :=
  ExceptT.adapt BuildError.store p

/-- One call as part of a pass. -/
def StoreCall.pass {α : Type} (call : StoreCall α) : Pass α :=
  call.program.pass

/-- The time, in a pass. -/
def Pass.now : Pass Instant :=
  ExceptT.lift (Program.ask .now)

end PushBuild
