import PushBuild.Text.Blank
import PushBuild.Text.Bytes
import PushBuild.Json.Binary

/-!
Reading JSON text.

Each reader takes the characters that are left and gives back a result with what is left after it.
`value?` descends on a count that is larger than the text is long, so the count never ends a
reading that the text does not end; how deep arrays and objects may nest is a bound of its own.
-/

namespace PushBuild.Json

open PushBuild.Text

/-- The blanks of JSON, which are fewer than those of Unicode. -/
def isSpace (c : Char) : Bool :=
  c == ' ' || c == '\n' || c == '\t' || c == '\r'

/-- What is left after blanks. -/
def skipSpace (cs : List Char) : List Char :=
  cs.dropWhile isSpace

/-- Four hexadecimal digits. -/
def readUnit? : List Char → Option (Nat × List Char)
  | a :: b :: c :: d :: rest => do
    let a ← hexValue? a
    let b ← hexValue? b
    let c ← hexValue? c
    let d ← hexValue? d
    return (((a * 16 + b) * 16 + c) * 16 + d, rest)
  | _ => none

/-- The character a backslash and `c` stand for. -/
def namedEscape? (c : Char) : Option Char :=
  match c with
  | '"' => some '"'
  | '\\' => some '\\'
  | '/' => some '/'
  | 'b' => some '\x08'
  | 'f' => some '\x0c'
  | 'n' => some '\n'
  | 'r' => some '\r'
  | 't' => some '\t'
  | _ => none

/-- The rest of a string after its opening quote.  `acc` holds the characters so far, the last one
first; it is none once half of a surrogate pair was named. -/
def readString? : (fuel : Nat) → Option (List Char) → List Char →
    Option (Option (List Char) × List Char)
  | 0, _, _ => none
  | _ + 1, _, [] => none
  | _ + 1, acc, '"' :: rest => some (acc.map List.reverse, rest)
  | fuel + 1, acc, '\\' :: 'u' :: rest =>
    match readUnit? rest with
    | none => none
    | some (unit, rest) =>
      if unit < 0xD800 || 0xDFFF < unit then
        readString? fuel (acc.map (Char.ofNat unit :: ·)) rest
      else if 0xDC00 ≤ unit then readString? fuel none rest
      else
        match rest with
        | '\\' :: 'u' :: rest' =>
          match readUnit? rest' with
          | none => none
          | some (low, rest') =>
            if 0xDC00 ≤ low && low ≤ 0xDFFF then
              let code := 0x10000 + (unit - 0xD800) * 0x400 + (low - 0xDC00)
              readString? fuel (acc.map (Char.ofNat code :: ·)) rest'
            else readString? fuel none rest
        | rest => readString? fuel none rest
  | fuel + 1, acc, '\\' :: c :: rest =>
    match namedEscape? c with
    | some c => readString? fuel (acc.map (c :: ·)) rest
    | none => none
  | fuel + 1, acc, c :: rest =>
    if c.toNat < 0x20 then none else readString? fuel (acc.map (c :: ·)) rest

/-- The digits at the front, and what follows them. -/
def spanDigits (cs : List Char) : List Char × List Char :=
  (cs.takeWhile isDigit, cs.dropWhile isDigit)

/-- The exponent of a number, if there is one; none if it has no digits. -/
def readExponent? (cs : List Char) : Option (Option Int × List Char) :=
  match cs with
  | e :: rest =>
    if e == 'e' || e == 'E' then
      let (negative, rest) : Bool × List Char :=
        match rest with
        | '+' :: rest => (false, rest)
        | '-' :: rest => (true, rest)
        | rest => (false, rest)
      let (digits, rest) := spanDigits rest
      if digits.isEmpty then none
      else
        let n : Nat := digits.foldl (fun n c => n * 10 + digitValue c) 0
        some (some (if negative then -(n : Int) else n), rest)
    else some (none, cs)
  | [] => some (none, cs)

/-- The most leading digits that make a number of 64 bits, continuing from `acc`, and how many
digits were left over. -/
def leadingDigits : Nat → List Char → Nat × Nat
  | acc, [] => (acc, 0)
  | acc, c :: cs =>
    let next := acc * 10 + digitValue c
    if next ≤ 18446744073709551615 then leadingDigits next cs else (acc, cs.length + 1)

/-- The number made of an integer part, a fraction and an exponent.  Integers that are exact stay
so; of the others, digits past those that fit 64 bits are dropped, those of the integer part
counting as powers of ten. -/
def makeNumber (negative : Bool) (whole : List Char) (fraction : Option (List Char))
    (exponent : Option Int) : Number :=
  let (digits, dropped) := leadingDigits 0 whole
  let value : Int := if negative then -(digits : Int) else digits
  if fraction.isNone && exponent.isNone && dropped == 0 && !(negative && digits == 0) &&
      isExact value then
    .int value
  else
    let after := fraction.getD []
    let (digits, left) := leadingDigits digits after
    .real negative digits (dropped - (after.length - left : Nat) + exponent.getD 0)

/-- A number, `cs` starting at its sign or first digit. -/
def readNumber? (cs : List Char) : Option (Number × List Char) :=
  let (negative, cs) : Bool × List Char :=
    match cs with
    | '-' :: rest => (true, rest)
    | cs => (false, cs)
  let (whole, rest) := spanDigits cs
  match whole with
  | [] => none
  | '0' :: _ :: _ => none
  | whole =>
    match rest with
    | '.' :: rest =>
      let (fraction, rest) := spanDigits rest
      if fraction.isEmpty then none
      else (readExponent? rest).map fun (exponent, rest) =>
        (makeNumber negative whole (some fraction) exponent, rest)
    | rest => (readExponent? rest).map fun (exponent, rest) =>
      (makeNumber negative whole none exponent, rest)

mutual

/-- A value, `cs` starting at its first character.  `depth` more levels may be opened. -/
def readValue? : (fuel depth : Nat) → List Char → Option (Json × List Char)
  | 0, _, _ => none
  | fuel + 1, depth, cs =>
    match cs with
    | 'n' :: 'u' :: 'l' :: 'l' :: rest => some (.null, rest)
    | 't' :: 'r' :: 'u' :: 'e' :: rest => some (.bool true, rest)
    | 'f' :: 'a' :: 'l' :: 's' :: 'e' :: rest => some (.bool false, rest)
    | '"' :: rest =>
      (readString? (rest.length + 1) (some []) rest).map fun
        | (some s, rest) => (.str (String.ofList s), rest)
        | (none, rest) => (.unpaired, rest)
    | '[' :: rest =>
      match depth with
      | 0 => none
      | depth + 1 =>
        match skipSpace rest with
        | ']' :: rest => some (.arr [], rest)
        | rest => (readItems? fuel depth [] rest).map fun (items, rest) => (.arr items, rest)
    | '{' :: rest =>
      match depth with
      | 0 => none
      | depth + 1 =>
        match skipSpace rest with
        | '}' :: rest => some (.obj [], rest)
        | rest =>
          (readMembers? fuel depth [] rest).map fun (members, rest) => (.obj members, rest)
    | cs => (readNumber? cs).map fun (n, rest) => (.num n, rest)

/-- The items from the next one to the closing bracket, after those of `acc` in reverse. -/
def readItems? : (fuel depth : Nat) → List Json → List Char → Option (List Json × List Char)
  | 0, _, _, _ => none
  | fuel + 1, depth, acc, cs => do
    let (item, rest) ← readValue? fuel depth cs
    match skipSpace rest with
    | ',' :: rest => readItems? fuel depth (item :: acc) (skipSpace rest)
    | ']' :: rest => some ((item :: acc).reverse, rest)
    | _ => none

/-- The members from the next one to the closing brace, after those of `acc` in reverse. -/
def readMembers? : (fuel depth : Nat) → List (String × Json) → List Char →
    Option (List (String × Json) × List Char)
  | 0, _, _, _ => none
  | fuel + 1, depth, acc, cs =>
    match cs with
    | '"' :: rest => do
      let (name, rest) ← readString? (rest.length + 1) (some []) rest
      let name ← name
      match skipSpace rest with
      | ':' :: rest =>
        let (value, rest) ← readValue? fuel depth (skipSpace rest)
        let acc := (String.ofList name, value) :: acc
        match skipSpace rest with
        | ',' :: rest => readMembers? fuel depth acc (skipSpace rest)
        | '}' :: rest => some (acc.reverse, rest)
        | _ => none
      | _ => none
    | _ => none

end

/-- The value that the whole of `cs` is, with arrays and objects nested at most `depth` deep. -/
def ofChars? (depth : Nat) (cs : List Char) : Option Json := do
  let (value, rest) ← readValue? (cs.length + 1) depth (skipSpace cs)
  if (skipSpace rest).isEmpty then some value else none

/-- The value a text is, however deep it nests. -/
def ofText? (s : String) : Option Json :=
  ofChars? (s.toList.length + 1) s.toList

mutual

/-- The value with its numbers rounded to what 64 bits hold; none if a real is too large or a string
denotes no text.  Of members of one name the last is kept. -/
def settled? : Json → Option Json
  | .num n => n.rounded?.map .num
  | .unpaired => none
  | .arr items => (settledItems? items).map .arr
  | .obj members => (settledMembers? members).map fun ms => .obj (lastMembers ms)
  | v => some v

/-- Each item settled. -/
def settledItems? : List Json → Option (List Json)
  | [] => some []
  | item :: rest => do return (← settled? item) :: (← settledItems? rest)

/-- Each member's value settled. -/
def settledMembers? : List (String × Json) → Option (List (String × Json))
  | [] => some []
  | (name, value) :: rest => do return (name, ← settled? value) :: (← settledMembers? rest)

end

/-- How deep a text may nest when it is read as a value of its own. -/
def maxDepth : Nat := 127

/-- The value of a text that stands for itself and not for typed data. -/
def document? (cs : List Char) : Option Json := do
  settled? (← ofChars? maxDepth cs)

example : ofChars? 1 ['[', '-', '2', ',', ' ', '1', 'e', '3', ']'] =
    some (.arr [.int (-2), .num (.real false 1 3)]) := rfl
example : ofChars? 0 ['[', ']'] = none := rfl
example : ofChars? 0 ['"', '\\', 'u', 'd', '8', '0', '0', '"'] = some .unpaired := rfl
example : (Number.real false 1 (-1)).rounded? = some (.real false 1 (-1)) := by decide +kernel

end PushBuild.Json
