import PushBuild.Store.Memory

/-!
A world to run programs in: a store in memory, a clock that moves only when it is moved, and faults
between the programs and the store.

A fault waits for calls of one method.  It lets some pass and then acts on some: the call fails,
finds nothing, finds an old version, or goes through after others have acted.  A fault that is used
up gives way to the next one for its method.  Waiting takes no time of the clock; how long programs
waited is kept apart.
-/

namespace PushBuild

/-- The calls without their arguments. -/
inductive StoreMethod where
  | getRequest
  | listRequests
  | updateRequestStatus
  | setRequestLabel
  | getTemplate
  | createTemplate
  | replaceTemplate
  | getExecution
  | createExecution
  | getStrategy
  | getPolicy
  | getSecret
deriving Repr, DecidableEq

/-- The method of a call. -/
def StoreCall.method {α : Type} : StoreCall α → StoreMethod
  | .getRequest _ => .getRequest
  | .listRequests _ => .listRequests
  | .updateRequestStatus _ => .updateRequestStatus
  | .setRequestLabel .. => .setRequestLabel
  | .getTemplate _ => .getTemplate
  | .createTemplate _ => .createTemplate
  | .replaceTemplate _ => .replaceTemplate
  | .getExecution _ => .getExecution
  | .createExecution _ => .createExecution
  | .getStrategy _ => .getStrategy
  | .getPolicy => .getPolicy
  | .getSecret _ => .getSecret

/-- A store and a clock. -/
structure World where
  store : MemoryStore := {}
  now : Instant
  /-- how long programs waited -/
  slept : Duration := ⟨0⟩
  /-- requests as they once were, by a name -/
  snapshots : SortedMap String BuildRequest := SortedMap.empty

/-- What a fault does to a call. -/
inductive FaultEffect where
  /-- the call fails -/
  | fail (error : StoreError)
  /-- a call that asks for a resource finds none -/
  | absent
  /-- a call that asks for a request finds the one kept under a name -/
  | stale (snapshot : String)
  /-- others act first -/
  | before (others : World → World)

/-- A fault. -/
structure Fault where
  method : StoreMethod
  /-- how many calls it still lets pass -/
  skip : Nat
  /-- on how many calls it still acts -/
  times : Nat
  effect : FaultEffect

/-- A world and its faults. -/
structure Simulation where
  world : World
  faults : List Fault := []

/-- The effect that faults have on the next call of a method, and the faults after it. -/
def nextEffect (method : StoreMethod) : List Fault → Option FaultEffect × List Fault
  | [] => (none, [])
  | fault :: rest =>
    if fault.method = method ∧ 0 < fault.times then
      if 0 < fault.skip then (none, { fault with skip := fault.skip - 1 } :: rest)
      else (some fault.effect, { fault with times := fault.times - 1 } :: rest)
    else
      let (effect, rest) := nextEffect method rest
      (effect, fault :: rest)

/-- The answer that a call gets when it finds nothing, if it is one that asks for a resource. -/
def StoreCall.nothing? {α : Type} : StoreCall α → Option α
  | .getRequest _ => some none
  | .getTemplate _ => some none
  | .getExecution _ => some none
  | .getStrategy _ => some none
  | .getPolicy => some none
  | .getSecret _ => some none
  | _ => none

/-- The answer that a call gets from a request as it once was, if it is one that asks for one. -/
def StoreCall.old? {α : Type} (old : Option BuildRequest) : StoreCall α → Option α
  | .getRequest _ => some old
  | _ => none

namespace World

/-- The store's answer to a call. -/
def call {α : Type} (w : World) (c : StoreCall α) : Except StoreError α × World :=
  let (answer, store) := w.store.call c
  (answer, { w with store })

/-- The answer to a call on which a fault acts. -/
def faultyCall {α : Type} (w : World) (c : StoreCall α) :
    Option FaultEffect → Except StoreError α × World
  | none => w.call c
  | some (.fail error) => (.error error, w)
  | some .absent =>
    match c.nothing? with
    | some answer => (.ok answer, w)
    | none => w.call c
  | some (.stale name) =>
    match c.old? (w.snapshots.get? name) with
    | some answer => (.ok answer, w)
    | none => w.call c
  | some (.before others) => (others w).call c

end World

namespace Simulation

/-- The answer to an effect. -/
def answer {α : Type} : Effect α → StateM Simulation α
  | .store c => fun s =>
    let (effect, faults) := nextEffect c.method s.faults
    let (answer, world) := s.world.faultyCall c effect
    (answer, { world, faults })
  | .now => fun s => (s.world.now, s)
  | .sleep time => fun s =>
    ((), { s with world.slept := ⟨s.world.slept.nanoseconds + time.nanoseconds⟩ })

/-- Runs a program. -/
def run {α : Type} (p : Program α) : StateM Simulation α :=
  p.run answer

end Simulation

end PushBuild
