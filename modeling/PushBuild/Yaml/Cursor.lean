import PushBuild.Text.Blank

/-!
A place in a YAML text.

YAML is read by lines and columns: what a character means depends on where its line starts and on
the characters just after it.  A cursor holds the text that is left together with the place it
starts at.
-/

namespace PushBuild.Yaml

/-- The characters a text may hold. -/
def isAllowed (c : Char) : Bool :=
  let n := c.toNat
  n == 9 || n == 10 || n == 13 || (0x20 ≤ n && n ≤ 0x7E) || n == 0x85 || (0xA0 ≤ n && n ≤ 0xD7FF) ||
    (0xE000 ≤ n && n ≤ 0xFFFD) || 0x10000 ≤ n

/-- The characters that end a line. -/
def isBreak (c : Char) : Bool :=
  c == '\n' || c == '\r' || c == '\u0085' || c == '\u2028' || c == '\u2029'

/-- The characters that separate within a line. -/
def isBlank (c : Char) : Bool := c == ' ' || c == '\t'

/-- The characters of names: of anchors, of tag handles. -/
def isWordChar (c : Char) : Bool :=
  Text.isDigit c || ('a' ≤ c && c ≤ 'z') || ('A' ≤ c && c ≤ 'Z') || c == '_' || c == '-'

/-- A text, and where it starts in the whole of it. -/
structure Cursor where
  rest : List Char
  index : Nat := 0
  line : Nat := 0
  column : Nat := 0

namespace Cursor

/-- The character `n` places on. -/
def at? (c : Cursor) (n : Nat) : Option Char := c.rest[n]?

/-- Whether `ch` is the character `n` places on. -/
def hasAt (c : Cursor) (n : Nat) (ch : Char) : Bool := c.at? n == some ch

/-- Whether `ch` is the next character. -/
def has (c : Cursor) (ch : Char) : Bool := c.hasAt 0 ch

/-- Whether the text is at its end. -/
def isEnd (c : Cursor) : Bool := c.rest.isEmpty

/-- Whether the next character ends the line. -/
def isAtBreak (c : Cursor) : Bool := (c.at? 0).any isBreak

/-- Whether the next character is a blank. -/
def isAtBlank (c : Cursor) : Bool := (c.at? 0).any isBlank

/-- Whether a blank, the end of the line or the end of the text is `n` places on. -/
def isGapAt (c : Cursor) (n : Nat) : Bool :=
  match c.at? n with
  | some ch => isBlank ch || isBreak ch
  | none => true

/-- Whether the line, or the text, ends here. -/
def isLineEnd (c : Cursor) : Bool := c.isEnd || c.isAtBreak

/-- The place `n` characters on in the same line. -/
def advance (c : Cursor) (n : Nat) : Cursor :=
  { c with rest := c.rest.drop n, index := c.index + n, column := c.column + n }

/-- The place after the characters in `p`, which end no line. -/
def skipWhile (p : Char → Bool) (c : Cursor) : Cursor :=
  c.advance (c.rest.takeWhile p).length

/-- The place at the start of the next line, for a cursor at the end of one. -/
def nextLine (c : Cursor) : Cursor :=
  let width := if c.has '\r' && c.hasAt 1 '\n' then 2 else if c.isAtBreak then 1 else 0
  if width = 0 then c
  else { rest := c.rest.drop width, index := c.index + width, line := c.line + 1, column := 0 }

/-- The line break here, as content has it. -/
def breakText (c : Cursor) : List Char :=
  match c.rest with
  | '\u2028' :: _ => ['\u2028']
  | '\u2029' :: _ => ['\u2029']
  | ch :: _ => if isBreak ch then ['\n'] else []
  | [] => []

/-- Whether a line starts here with a mark of three characters between documents. -/
def isAtMark (c : Cursor) (ch : Char) : Bool :=
  c.column == 0 && c.hasAt 0 ch && c.hasAt 1 ch && c.hasAt 2 ch && c.isGapAt 3

/-- Whether a document ends or starts here. -/
def isAtDocumentMark (c : Cursor) : Bool := c.isAtMark '-' || c.isAtMark '.'

/-- The place after a comment, if there is one. -/
def skipComment (c : Cursor) : Cursor :=
  if c.has '#' then c.skipWhile fun ch => !isBreak ch else c

end Cursor

end PushBuild.Yaml
