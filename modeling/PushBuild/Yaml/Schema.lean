import PushBuild.Document
import PushBuild.Json.Binary
import PushBuild.Yaml.Node

/-!
What the nodes of a YAML text mean.

A plain scalar can be read as a null, a truth value, a number or a text, and the data wanted decide:
a text takes any scalar as it stands, a number only one that is written as one.  Only data of no
particular type ask the scalar itself, and then the first reading that fits counts.
-/

namespace PushBuild.Yaml

open PushBuild.Text

/-! ## Plain scalars -/

/-- Whether a scalar is written as a null. -/
def isNull (cs : List Char) : Bool :=
  ["null", "Null", "NULL", "~"].contains (String.ofList cs)

/-- The truth value a scalar is written as. -/
def truthOf? (cs : List Char) : Option Bool :=
  let text := String.ofList cs
  if ["true", "True", "TRUE"].contains text then some true
  else if ["false", "False", "FALSE"].contains text then some false
  else none

/-- Digits with a zero too many in front, perhaps after a sign; these are no number. -/
def isZeroFilled (cs : List Char) : Bool :=
  let digits := match cs with
    | '-' :: rest | '+' :: rest => rest
    | _ => cs
  1 < digits.length && digits.head? == some '0' && digits.all isDigit

/-- The number that digits of a radix stand for; there is at least one. -/
def ofDigits? (radix : Nat) (cs : List Char) : Option Nat := do
  let values ← cs.mapM hexValue?
  if values.isEmpty || values.any (radix ≤ ·) then none
  else return values.foldl (fun n v => n * radix + v) 0

/-- The number a scalar without a sign is written as: hexadecimal, octal or binary with a mark for
it, else decimal. -/
def unsignedOf? (cs : List Char) : Option Nat :=
  match cs with
  | '0' :: 'x' :: digits => ofDigits? 16 digits
  | '0' :: 'o' :: digits => ofDigits? 8 digits
  | '0' :: 'b' :: digits => ofDigits? 2 digits
  | digits => if isZeroFilled digits then none else ofDigits? 10 digits

/-- The natural number a scalar is written as, perhaps with a plus sign. -/
def naturalOf? (cs : List Char) : Option Nat :=
  match cs with
  | '+' :: rest => unsignedOf? rest
  | _ => unsignedOf? cs

/-- The integer a scalar is written as. -/
def integerOf? (cs : List Char) : Option Int :=
  match cs with
  | '-' :: rest => (unsignedOf? rest).map fun n => -(n : Int)
  | _ => (naturalOf? cs).map Int.ofNat

/-- The value of `digits * 10 ^ exponent` as the nearest binary number of 64 bits, in its shortest
digits; none if it is too large.  A value far too small for the format is zero. -/
def nearestReal? (negative : Bool) (digits : Nat) (exponent : Int) : Option Json.Number :=
  let size := exponent + (toString digits).length
  if digits = 0 || size < -400 then some (.real negative 0 0)
  else if 400 < size then none
  else do
    let x ←
      if 0 ≤ exponent then Json.Binary.nearest (digits * Nat.pow 10 exponent.toNat) 1
      else Json.Binary.nearest digits (Nat.pow 10 (-exponent).toNat)
    let (digits, exponent) := x.toDecimal
    return .real negative digits exponent

/-- The exponent at the end of a real. -/
def exponentOf? (cs : List Char) : Option Int :=
  match cs with
  | [] => some 0
  | e :: rest =>
    if e == 'e' || e == 'E' then
      match rest with
      | '-' :: digits => (ofDigits? 10 digits).map fun n => -(n : Int)
      | '+' :: digits => (ofDigits? 10 digits).map Int.ofNat
      | digits => (ofDigits? 10 digits).map Int.ofNat
    else none

/-- The finite real a scalar without a sign is written as: digits with a point anywhere among them
or without one, and perhaps an exponent. -/
def finiteOf? (negative : Bool) (cs : List Char) : Option Json.Number := do
  let whole := cs.takeWhile isDigit
  let rest := cs.dropWhile isDigit
  let (fraction, rest) := match rest with
    | '.' :: rest => (rest.takeWhile isDigit, rest.dropWhile isDigit)
    | rest => ([], rest)
  let digits ← ofDigits? 10 (whole ++ fraction)
  let exponent ← exponentOf? rest
  nearestReal? negative digits (exponent - fraction.length)

/-- A real: a finite one, or one of those that no digits stand for. -/
inductive Real where
  | finite (value : Json.Number)
  | special

/-- The real a scalar is written as. -/
def realOf? (cs : List Char) : Option Real :=
  let unsigned := match cs with
    | '+' :: rest | '-' :: rest => rest
    | _ => cs
  if [".inf", ".Inf", ".INF"].contains (String.ofList unsigned) ||
      [".nan", ".NaN", ".NAN"].contains (String.ofList cs) then some .special
  else (finiteOf? (cs.head? == some '-') unsigned).map .finite

/-- What a plain scalar is when nothing is wanted in particular. -/
inductive Meaning where
  | null
  | truth (value : Bool)
  | integer (value : Int)
  | real (value : Real)
  | text

/-- Whether an integer is of 128 bits; beyond those it is a real. -/
def isIntegral (n : Int) : Bool := -(Int.pow 2 127) ≤ n && n < Int.pow 2 128

/-- The first meaning that fits. -/
def meaning (cs : List Char) : Meaning :=
  if cs.isEmpty || isNull cs then .null
  else if let some b := truthOf? cs then .truth b
  else if let some n := (integerOf? cs).filter isIntegral then .integer n
  else if isZeroFilled cs then .text
  else if let some x := realOf? cs then .real x
  else .text

/-! ## Nodes -/

/-- The tag of a type that every YAML text knows. -/
def coreTag (name : String) : String := "tag:yaml.org,2002:" ++ name

/-- The name in a tag of the text's own. -/
def localName? (tag : Option String) : Option String := do
  match (← tag).toList with
  | '!' :: name => some (String.ofList name)
  | _ => none

/-- The content of a scalar that may be read as the type of that core tag: a plain one, or a literal
one with the tag. -/
def content? (typeName : String) : Yaml → Option (List Char)
  | .scalar text .plain _ => some text.toList
  | .scalar text .literal tag => if tag == some (coreTag typeName) then some text.toList else none
  | _ => none

/-- The text of a scalar. -/
def text? : Yaml → Option String
  | .scalar text _ _ => some text
  | _ => none

/-- Whether an optional value is absent: nothing is written, or a null. -/
def isAbsent : Yaml → Bool
  | .scalar text .plain none => text.isEmpty || isNull text.toList
  | .scalar text .plain (some tag) => tag == coreTag "null" && isNull text.toList
  | _ => false

/-- Whether nothing is written. -/
def isEmpty : Yaml → Bool
  | .scalar text .plain _ => text.isEmpty
  | _ => false

/-- The items of a sequence, or none if nothing is written. -/
def items? : Yaml → Option (List Yaml)
  | .sequence items _ => some items
  | y => if isEmpty y then some [] else none

/-- The entries of a mapping whose keys are scalars, or none if nothing is written. -/
def members? : Yaml → Option (List (String × Yaml))
  | .mapping entries _ => entries.mapM fun (key, value) => do return (← text? key, value)
  | y => if isEmpty y then some [] else none

/-- The name of an alternative: a scalar, or a tag of the text's own with a null after it. -/
def choice? : Yaml → Option String
  | .scalar text style tag =>
    match localName? tag with
    | some name =>
      if style == .plain && (text.isEmpty || isNull text.toList) then some name else none
    | none => some text
  | _ => none

/-- An integer among data of no particular type; it has to be of 64 bits. -/
def opaqueInteger? (n : Int) : Option Json :=
  if Json.isExact n then some (.int n) else none

/-- A real among data of no particular type; one that no digits stand for becomes null. -/
def opaqueReal : Real → Json
  | .finite x => .num x
  | .special => .null

/-- A scalar as data of no particular type. -/
def opaqueScalar? (text : String) (style : ScalarStyle) (tag : Option String) : Option Json :=
  let cs := text.toList
  match tag with
  | some tag =>
    if tag.startsWith "!" then none
    else if tag == coreTag "null" then (if isNull cs then some .null else none)
    else if tag == coreTag "bool" then (truthOf? cs).map .bool
    else if tag == coreTag "int" then (integerOf? cs).bind opaqueInteger?
    else if tag == coreTag "float" then (realOf? cs).map opaqueReal
    else some (.str text)
  | none =>
    if style == .plain then
      match meaning cs with
      | .null => some .null
      | .truth b => some (.bool b)
      | .integer n => opaqueInteger? n
      | .real x => some (opaqueReal x)
      | .text => some (.str text)
    else some (.str text)

mutual

/-- A node as data of no particular type, its collections nested at most `depth` deep.  Of entries
with one key the last counts. -/
def opaqueIn? (depth : Nat) : Yaml → Option Json
  | .scalar text style tag => opaqueScalar? text style tag
  | .sequence items tag =>
    if depth = 0 || (localName? tag).isSome then none
    else (opaqueItems? (depth - 1) items).map .arr
  | .mapping entries tag =>
    if depth = 0 || (localName? tag).isSome then none
    else (opaqueEntries? (depth - 1) entries).map fun ms => .obj (Json.lastMembers ms)

/-- Each item as such data. -/
def opaqueItems? (depth : Nat) : List Yaml → Option (List Json)
  | [] => some []
  | item :: rest => do return (← opaqueIn? depth item) :: (← opaqueItems? depth rest)

/-- Each entry's value as such data; the keys have to be scalars. -/
def opaqueEntries? (depth : Nat) : List (Yaml × Yaml) → Option (List (String × Json))
  | [] => some []
  | (key, value) :: rest => do
    return (← text? key, ← opaqueIn? depth value) :: (← opaqueEntries? depth rest)

end

/-- How deep data of no particular type may nest inside a record. -/
def maxDepth : Nat := 127

instance : Document Yaml where
  text? := text?
  integer? y := (content? "int" y).bind integerOf?
  natural? y := (content? "int" y).bind naturalOf?
  truth? y := (content? "bool" y).bind truthOf?
  items? := items?
  members? := members?
  fields? _ := members?
  choice? := choice?
  isAbsent := isAbsent
  opaque? := opaqueIn? maxDepth

end PushBuild.Yaml
