/-!
Blank characters and the trimming of text.

A character is blank when Unicode gives it the property `White_Space`.  Trimming works on lists of
characters, because everything that reads text here does; `trim` is the same operation on strings.
-/

namespace PushBuild.Text

/-- The characters with the Unicode property `White_Space`: 25 of them, and no others. -/
def isBlank (c : Char) : Bool :=
  let n := c.toNat
  (9 ≤ n && n ≤ 13) || n == 0x20 || n == 0x85 || n == 0xA0 || n == 0x1680 ||
  (0x2000 ≤ n && n ≤ 0x200A) || n == 0x2028 || n == 0x2029 || n == 0x202F ||
  n == 0x205F || n == 0x3000

/-- What is left of `cs` once the longest run of characters in `p` at its end is dropped. -/
def dropEndWhile (p : Char → Bool) (cs : List Char) : List Char :=
  (cs.reverse.dropWhile p).reverse

/-- `cs` without the blanks at its two ends. -/
def trimBlanks (cs : List Char) : List Char :=
  dropEndWhile isBlank (cs.dropWhile isBlank)

/-- `s` without the blanks at its two ends. -/
def trim (s : String) : String :=
  String.ofList (trimBlanks s.toList)

/-- Whether `s` holds nothing but blanks. -/
def isAllBlank (s : String) : Bool :=
  s.toList.all isBlank

/-- The ASCII digits; `Char.isDigit` is the same set under another name in the core library. -/
def isDigit (c : Char) : Bool := '0' ≤ c && c ≤ '9'

/-- The value of an ASCII digit. -/
def digitValue (c : Char) : Nat := c.toNat - '0'.toNat

end PushBuild.Text
