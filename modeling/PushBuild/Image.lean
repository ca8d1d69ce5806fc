import PushBuild.Text.Blank
import PushBuild.Text.Cut

/-!
The reference under which a built image can be pulled.
-/

namespace PushBuild

open PushBuild.Text

/-- Whether an image reference names a tag or a digest: it has an at sign, or a colon after its last
slash. -/
def Image.isPinned (image : List Char) : Bool :=
  image.contains '@' || (afterLast '/' image).contains ':'

/-- The reference of an image for which a build reported `digest`, if it did.  A digest that is not
blank pins the repository; without one only a reference that names a tag or digest can be used. -/
def resolveImage (image : String) (digest : Option String) : Option String :=
  match trimBlanks image.toList with
  | [] => none
  | image =>
    match (digest.map fun d => trimBlanks d.toList).filter (!·.isEmpty) with
    | some digest => some (String.ofList (before '@' image ++ '@' :: digest))
    | none => if Image.isPinned image then some (String.ofList image) else none

end PushBuild
