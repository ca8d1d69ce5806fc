import PushBuild.Text.Blank
import PushBuild.Text.Bytes

/-!
The headers of a request: names without regard to case, values of bytes, in the order they came in.
-/

namespace PushBuild

/-- Headers, their names in small letters. -/
structure Headers where
  fields : List (String × Bytes) := []
deriving Repr, DecidableEq, Inhabited

namespace Headers

/-- The characters a name is made of. -/
def isNameChar (c : Char) : Bool :=
  Text.isDigit c || ('a' ≤ c && c ≤ 'z') || ('A' ≤ c && c ≤ 'Z') ||
    ['!', '#', '$', '%', '&', '\'', '*', '+', '-', '.', '^', '_', '\x60', '|', '~'].contains c

/-- Whether a text is a header name. -/
def isName (s : String) : Bool :=
  !s.isEmpty && s.toList.all isNameChar && s.length < 65536

/-- Whether bytes are a header value: no controls but the tab. -/
def isValue (bytes : Bytes) : Bool :=
  bytes.all fun b => (32 ≤ b && b != 127) || b == 9

/-- The headers with these names and values, if they are names and values of headers. -/
def ofList? (fields : List (String × Bytes)) : Option Headers :=
  if fields.all fun (name, value) => isName name && isValue value then
    some ⟨fields.map fun (name, value) => (String.ofList (name.toList.map Char.toLower), value)⟩
  else none

/-- The first value under a name, which is in small letters. -/
def first? (h : Headers) (name : String) : Option Bytes :=
  h.fields.lookup name

/-- Whether there is a value under a name. -/
def contains (h : Headers) (name : String) : Bool :=
  (h.first? name).isSome

/-- The first value under a name, if it is of printable ASCII and tabs. -/
def text? (h : Headers) (name : String) : Option (List Char) := do
  let bytes ← h.first? name
  if bytes.all fun b => (32 ≤ b && b < 127) || b == 9 then
    some (bytes.map fun b => Char.ofNat b.toNat)
  else none

end Headers

end PushBuild
