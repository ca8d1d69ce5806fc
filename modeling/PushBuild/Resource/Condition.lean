import PushBuild.Document

/-!
Conditions: what is observed about a resource, one entry for each type.

`put` is the only way entries come about.  It keeps one entry for a type in the place where the type
first appeared, and the time of an entry moves only when its status does.  `set` is what is left
when nobody asks whether anything changed.
-/

namespace PushBuild

/-- The truth of a condition. -/
inductive ConditionStatus where
  | true
  | false
  | unknown
deriving Repr, DecidableEq, Inhabited

namespace ConditionStatus

/-- The name of a status. -/
def name : ConditionStatus → String
  | .true => "True"
  | .false => "False"
  | .unknown => "Unknown"

/-- The status of that name. -/
def ofName? : String → Option ConditionStatus
  | "True" => some .true
  | "False" => some .false
  | "Unknown" => some .unknown
  | _ => none

end ConditionStatus

/-- One observation. -/
structure Condition where
  type : String
  status : ConditionStatus := .unknown
  /-- a word for programs -/
  reason : String := ""
  /-- a sentence for people -/
  message : String := ""
  /-- the generation of the resource that was observed -/
  observedGeneration : Option Int := none
  /-- since when the status is what it is -/
  lastTransitionTime : Option Instant := none
deriving Repr, DecidableEq

namespace Condition

/-- Whether a request is in the state its specification asks for. -/
def ready : String := "Ready"

/-- How the latest execution of a request ended. -/
def buildSucceeded : String := "BuildSucceeded"

/-- How an execution ended, as the build system reports it. -/
def succeeded : String := "Succeeded"

/-- The condition of a type. -/
def find? (conditions : List Condition) (type : String) : Option Condition :=
  conditions.find? (·.type == type)

/-- The entry that takes the place of `old` when `new` is set at `now`. -/
def succeeding (old new : Condition) (now : Instant) : Condition :=
  let since := if old.status = new.status then old.lastTransitionTime.getD now else now
  { new with lastTransitionTime := some since }

@[simp] theorem type_succeeding (old new : Condition) (now : Instant) :
    (succeeding old new now).type = new.type := rfl

/-- Sets `new` at `now`, and tells whether this changed anything. -/
def put (new : Condition) (now : Instant) : List Condition → Bool × List Condition
  | [] => (true, [{ new with lastTransitionTime := some now }])
  | old :: rest =>
    if old.type = new.type then
      let next := succeeding old new now
      if old = next then (false, old :: rest) else (true, next :: rest)
    else
      let (changed, rest) := put new now rest
      (changed, old :: rest)

/-- The conditions after `new` is set at `now`. -/
def set (new : Condition) (now : Instant) (conditions : List Condition) : List Condition :=
  (put new now conditions).2

theorem set_nil (new : Condition) (now : Instant) :
    set new now [] = [{ new with lastTransitionTime := some now }] := rfl

theorem set_cons (new old : Condition) (now : Instant) (rest : List Condition) :
    set new now (old :: rest) =
      if old.type = new.type then succeeding old new now :: rest else old :: set new now rest := by
  simp only [set, put]
  split
  · split
    · next hsame => rw [← hsame]
    · rfl
  · rfl

/-- The condition as JSON; what it lacks is null. -/
def toJson (c : Condition) : Json :=
  .obj [("type", .str c.type), ("status", .str c.status.name), ("reason", .str c.reason),
    ("message", .str c.message), ("observedGeneration", .ofOption .int c.observedGeneration),
    ("lastTransitionTime", .ofOption .ofInstant c.lastTransitionTime)]

variable {ν : Type} [Document ν]

/-- Reads a condition; everything but the type may be missing. -/
def read? (d : ν) : Option Condition := do
  let r ← Record.at? ["type", "status", "reason", "message", "observedGeneration",
    "lastTransitionTime"] d
  return {
    type := ← r.required "type" Document.text?
    status := ← r.withDefault "status" .unknown
      (fun d => Document.choice? d >>= ConditionStatus.ofName?)
    reason := ← r.withDefault "reason" "" Document.text?
    message := ← r.withDefault "message" "" Document.text?
    observedGeneration := ← r.optional "observedGeneration" Document.int64?
    lastTransitionTime := ← r.optional "lastTransitionTime" Document.instant? }

end Condition

end PushBuild
