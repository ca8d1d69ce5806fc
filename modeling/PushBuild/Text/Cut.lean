/-!
Cutting text at characters: all the pieces between separators, the two sides of the first
separator, the piece after the last one.
-/

namespace PushBuild.Text

/-- The pieces of `cs` between the characters in `p`: one more than there are such characters. -/
def pieces (p : Char → Bool) : List Char → List (List Char)
  | [] => [[]]
  | c :: cs =>
    if p c then [] :: pieces p cs
    else
      match pieces p cs with
      | [] => [[c]]
      | piece :: rest => (c :: piece) :: rest

/-- The pieces of `cs` between occurrences of `sep`. -/
def split (sep : Char) (cs : List Char) : List (List Char) :=
  pieces (· == sep) cs

/-- What stands before and after the first `sep`, if there is one. -/
def cut? (sep : Char) : List Char → Option (List Char × List Char)
  | [] => none
  | c :: cs =>
    if c == sep then some ([], cs)
    else (cut? sep cs).map fun (before, after) => (c :: before, after)

/-- What stands before the first `sep`; all of `cs` if there is none. -/
def before (sep : Char) (cs : List Char) : List Char :=
  cs.takeWhile (· != sep)

/-- What stands after the last `sep`; all of `cs` if there is none. -/
def afterLast (sep : Char) (cs : List Char) : List Char :=
  (cs.reverse.takeWhile (· != sep)).reverse

/-- `cs` without `tail` at its end, if it ends so. -/
def dropSuffix? (tail cs : List Char) : Option (List Char) :=
  (tail.reverse.isPrefixOf? cs.reverse).map List.reverse

/-- Whether `s` ends in `tail`. -/
def endsIn (tail s : String) : Bool :=
  tail.toList.isSuffixOf s.toList

/-- `texts` with `sep` between neighbours. -/
def join (sep : String) : List String → String
  | [] => ""
  | [s] => s
  | s :: rest => s ++ sep ++ join sep rest

end PushBuild.Text
