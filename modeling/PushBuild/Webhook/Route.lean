import PushBuild.Text.Cut

/-!
Patterns of paths.

A pattern is text with parameters in braces: a named one stands for the rest of a segment, one with
a star for all that is left of the path, and neither for nothing.  A brace that is written twice
stands for itself.
-/

namespace PushBuild

/-- A part of a pattern. -/
inductive RoutePart where
  | char (c : Char)
  /-- the rest of a segment -/
  | segment
  /-- the rest of the path -/
  | rest
deriving Repr, DecidableEq

/-- A pattern of paths. -/
structure Route where
  parts : List RoutePart
deriving Repr, DecidableEq

namespace Route

/-- The parts of a pattern; none if a brace is left open, a parameter has no name, or something
follows a parameter where nothing may. -/
def parse? : (fuel : Nat) → List Char → Option (List RoutePart)
  | _, [] => some []
  | 0, _ => none
  | fuel + 1, '\x7b' :: '\x7b' :: cs => (parse? fuel cs).map (.char '\x7b' :: ·)
  | fuel + 1, '\x7d' :: '\x7d' :: cs => (parse? fuel cs).map (.char '\x7d' :: ·)
  | _ + 1, '\x7d' :: _ => none
  | fuel + 1, '\x7b' :: cs =>
    match Text.cut? '\x7d' cs with
    | none => none
    | some (name, after) =>
      match name with
      | [] => none
      | ['*'] => none
      | '*' :: _ => if after.isEmpty then some [.rest] else none
      | _ =>
        if after.isEmpty || after.head? == some '/' then (parse? fuel after).map (.segment :: ·)
        else none
  | fuel + 1, c :: cs => (parse? fuel cs).map (.char c :: ·)

/-- The pattern that a text writes; it has to start with a slash. -/
def ofText? (s : String) : Option Route :=
  match s.toList with
  | '/' :: _ => (parse? s.length s.toList).map Route.mk
  | _ => none

/-- Whether a path fits the parts of a pattern. -/
def fits : List RoutePart → List Char → Bool
  | [], path => path.isEmpty
  | .char c :: parts, path =>
    match path with
    | d :: path => c == d && fits parts path
    | [] => false
  | .segment :: parts, path =>
    !(Text.before '/' path).isEmpty && fits parts (path.drop (Text.before '/' path).length)
  | .rest :: _, path => !path.isEmpty

/-- Whether a path fits a pattern. -/
def isMatch (r : Route) (path : String) : Bool :=
  fits r.parts path.toList

end Route

end PushBuild
