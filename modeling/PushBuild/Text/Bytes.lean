/-!
Byte strings and numbers as text: bytes in hexadecimal digits and in UTF-8, both ways, code points
in hexadecimal digits, and numbers in decimal ones.

Writing uses small letters; reading takes either case and refuses an odd number of digits.
-/

namespace PushBuild

/-- A byte string. -/
abbrev Bytes := List UInt8

namespace Text

/-- The digit of value `n`, for `n` below 16, with a small letter from ten on. -/
def hexDigit (n : Nat) : Char :=
  Char.ofNat (if n < 10 then '0'.toNat + n else 'a'.toNat + (n - 10))

/-- The value of a hexadecimal digit of either case. -/
def hexValue? (c : Char) : Option Nat :=
  if '0' ≤ c && c ≤ '9' then some (c.toNat - '0'.toNat)
  else if 'a' ≤ c && c ≤ 'f' then some (c.toNat - 'a'.toNat + 10)
  else if 'A' ≤ c && c ≤ 'F' then some (c.toNat - 'A'.toNat + 10)
  else none

/-- `n` in as few hexadecimal digits as it takes, and at least one. -/
def hexOfNat (n : Nat) : List Char :=
  if n < 16 then [hexDigit n] else hexOfNat (n / 16) ++ [hexDigit (n % 16)]
termination_by n
decreasing_by omega

/-- Two digits for each byte, the high one first. -/
def hexOfBytes : Bytes → List Char
  | [] => []
  | b :: rest => hexDigit (b.toNat / 16) :: hexDigit (b.toNat % 16) :: hexOfBytes rest

/-- The bytes written as `cs`; none if a character is not a digit or one digit is left over. -/
def bytesOfHex? : List Char → Option Bytes
  | [] => some []
  | [_] => none
  | high :: low :: rest => do
    let h ← hexValue? high
    let l ← hexValue? low
    let bytes ← bytesOfHex? rest
    return UInt8.ofNat (16 * h + l) :: bytes

/-- `n` in decimal, with zeros in front up to `width` digits. -/
def padded (width n : Nat) : String :=
  let digits := (toString n).toList
  String.ofList (List.replicate (width - digits.length) '0' ++ digits)

/-- The bytes of a text, in UTF-8. -/
def utf8 (s : String) : Bytes := s.toUTF8.toList

/-- The text that bytes are in UTF-8, if they are one. -/
def ofUtf8? (bytes : Bytes) : Option String :=
  String.fromUTF8? ⟨bytes.toArray⟩

end Text

end PushBuild
