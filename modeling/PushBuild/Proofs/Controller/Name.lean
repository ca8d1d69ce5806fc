import PushBuild.Controller.Execution
import PushBuild.Proofs.Text.Integer

/-!
# What the names of executions tell

An execution is found by its name alone, so the name has to give back what it was made from.
Nothing in a name is escaped: a request may itself be called `app-buildrun-1`, and a number may have
a minus sign, so it does not help to look for the mark between them.  The end of the name decides.

1. **Ends.**  Both kinds of names end in a letter, a minus sign and the number, but in one the
   letter is the last of `buildrun` (`endsIn_buildrun`), and in the other the last of `oncommit`
   (`endsIn_oncommit`).
2. **Names.**  So a name tells the request, the number and the kind (`executionName_unambiguous`).
-/

namespace PushBuild

variable {request other : String} {m n : Int}

/-- The mark of one kind ends in `n`, -/
theorem endsIn_buildrun (request : String) : EndsIn (request ++ "-buildrun") 'n' :=
  EndsIn.append ⟨by decide, by decide⟩ request

/-- and that of the other in `t`. -/
theorem endsIn_oncommit (request : String) : EndsIn (request ++ "-buildrun-oncommit") 't' :=
  EndsIn.append ⟨by decide, by decide⟩ request

/-- A name is the request with its mark, a minus sign, and the number; the minus sign of the mark is
the one in front of the number. -/
theorem plainExecutionName_eq (request : String) (n : Int) :
    plainExecutionName request n = request ++ "-buildrun" ++ "-" ++ toString n := by
  have hmark : "-buildrun-" = "-buildrun" ++ "-" := by decide
  rw [plainExecutionName, hmark, ← String.append_assoc]

example : plainExecutionName "app-buildrun-1" (-2) = "app-buildrun-1-buildrun--2" := by decide

theorem onCommitExecutionName_eq (request : String) (n : Int) :
    onCommitExecutionName request n = request ++ "-buildrun-oncommit" ++ "-" ++ toString n := by
  have hmark : "-buildrun-oncommit-" = "-buildrun-oncommit" ++ "-" := by decide
  rw [onCommitExecutionName, hmark, ← String.append_assoc]

/-- Changes of the specification start executions of one name only for one request and one
number. -/
theorem plainExecutionName_eq_iff :
    plainExecutionName request m = plainExecutionName other n ↔ request = other ∧ m = n := by
  rw [plainExecutionName_eq, plainExecutionName_eq,
    numbered_inj (endsIn_buildrun request) (endsIn_buildrun other), String.append_left_inj]

/-- Pushes start executions of one name only for one request and one number. -/
theorem onCommitExecutionName_eq_iff :
    onCommitExecutionName request m = onCommitExecutionName other n ↔ request = other ∧ m = n := by
  rw [onCommitExecutionName_eq, onCommitExecutionName_eq,
    numbered_inj (endsIn_oncommit request) (endsIn_oncommit other), String.append_left_inj]

/-- Changes of the specification never start two executions of one name under different numbers. -/
theorem plainExecutionName_inj :
    plainExecutionName request m = plainExecutionName request n ↔ m = n := by
  rw [plainExecutionName_eq_iff, and_iff_right rfl]

/-- Pushes never start two executions of one name under different numbers. -/
theorem onCommitExecutionName_inj :
    onCommitExecutionName request m = onCommitExecutionName request n ↔ m = n := by
  rw [onCommitExecutionName_eq_iff, and_iff_right rfl]

/-- What a change of the specification starts is never named like what a push starts, whatever the
requests are. -/
theorem plainExecutionName_ne_onCommit (other : String) (m n : Int) :
    plainExecutionName request m ≠ onCommitExecutionName other n := by
  intro h
  rw [plainExecutionName_eq, onCommitExecutionName_eq,
    numbered_inj (endsIn_buildrun request) (endsIn_oncommit other)] at h
  have hletter : 'n' = 't' := (endsIn_buildrun request).unique (h.1 ▸ endsIn_oncommit other)
  exact absurd hletter (by decide)

/-- **Names never collide.**  For all requests and numbers, each kind of name tells the request and
the number it was made from, and no name is of both kinds. -/
theorem executionName_unambiguous (request other : String) (m n : Int) :
    (plainExecutionName request m = plainExecutionName other n ↔ request = other ∧ m = n) ∧
    (onCommitExecutionName request m = onCommitExecutionName other n ↔ request = other ∧ m = n) ∧
    plainExecutionName request m ≠ onCommitExecutionName other n :=
  ⟨plainExecutionName_eq_iff, onCommitExecutionName_eq_iff,
    plainExecutionName_ne_onCommit other m n⟩

end PushBuild
