import PushBuild.Text.Blank
import PushBuild.Text.Cut

/-!
Pushes, whoever reports them, and when two addresses name one repository.
-/

namespace PushBuild

open PushBuild.Text

/-- A push to a repository. -/
structure PushEvent where
  url : String := ""
  /-- the full ref, with its leading directories -/
  ref : String := ""
  commit : String := ""
deriving Repr, DecidableEq

/-- The characters that mark the address of a bare repository. -/
def dotGit : List Char := ['.', 'g', 'i', 't']

/-- Without the slashes at its end. -/
def dropEndSlashes (cs : List Char) : List Char :=
  dropEndWhile (· == '/') cs

/-- The part of a repository's address that tells it from others: without blanks around it, slashes
at its end, one `.git` before these, and slashes before that. -/
def canonicalUrl (url : String) : String :=
  let cs := dropEndSlashes (trimBlanks url.toList)
  String.ofList (dropEndSlashes ((dropSuffix? dotGit cs).getD cs))

/-- Whether the push went to this ref of this repository. -/
def PushEvent.concerns (event : PushEvent) (url ref : String) : Bool :=
  event.ref == ref && canonicalUrl event.url == canonicalUrl url

end PushBuild
