import PushBuild.Text.Blank

/-!
Unsigned decimal numbers as a person writes them in a setting: an optional plus sign and digits,
nothing else.  The first character that is wrong decides the error, and a character that is no digit
is reported before the digits so far are found too large.
-/

namespace PushBuild.Text

/-- Why a text is not a number up to a bound. -/
inductive NumberError where
  | empty
  | invalidDigit
  | tooLarge
deriving Repr, DecidableEq

/-- The words for each cause. -/
def NumberError.message : NumberError → String
  | .empty => "cannot parse integer from empty string"
  | .invalidDigit => "invalid digit found in string"
  | .tooLarge => "number too large to fit in target type"

/-- Reads the digits after the value `acc`, which may not grow past `max`. -/
def readDigits (max : Nat) : Nat → List Char → Except NumberError Nat
  | acc, [] => .ok acc
  | acc, c :: cs =>
    if isDigit c then
      let next := acc * 10 + digitValue c
      if next ≤ max then readDigits max next cs else .error .tooLarge
    else .error .invalidDigit

/-- Reads an unsigned number of at most `max`. -/
def readNat (max : Nat) (s : String) : Except NumberError Nat :=
  match s.toList with
  | [] => .error .empty
  | ['+'] => .error .invalidDigit
  | '+' :: digits => readDigits max 0 digits
  | digits => readDigits max 0 digits

end PushBuild.Text
