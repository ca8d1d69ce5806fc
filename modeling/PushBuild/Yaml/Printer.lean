import PushBuild.Text.Bytes
import PushBuild.Yaml.Schema

/-!
Writing settings as YAML.

A text is written plain when it reads back as that text and nothing in it means something else
there.  One that would read as a null, a truth value or a number is quoted; one of several lines is
written as a literal block.  What neither form can show is escaped between double quotes.
-/

namespace PushBuild.Yaml

open PushBuild.Text

/-- Settings as they are written: a value as it stands, a text, or a group of named settings. -/
inductive Outline where
  | value (text : String)
  | text (content : String)
  | group (members : List (String × Outline))
deriving Repr

/-! ## Texts -/

/-- The characters that show as themselves. -/
def isPlainlyShown (c : Char) : Bool :=
  let n := c.toNat
  n == 0x0A || (0x20 ≤ n && n ≤ 0x7E) || (0xA0 ≤ n && n ≤ 0xD7FF) ||
    (0xE000 ≤ n && n ≤ 0xFFFD && n != 0xFEFF)

/-- Whether a blank, a break or the end comes first. -/
def startsGap : List Char → Bool
  | [] => true
  | c :: _ => isBlank c || isBreak c || c == '\x00'

/-- Whether what follows a text's first character, or comes later in it, means something in a block:
a colon before a gap, a number sign after one. -/
def hasInnerMark : (afterGap : Bool) → List Char → Bool
  | _, [] => false
  | afterGap, c :: rest =>
    (c == ':' && startsGap rest) || (c == '#' && afterGap) || hasInnerMark (startsGap [c]) rest

/-- The characters that mean something at the start of a text, whatever follows. -/
def startMarks : List Char :=
  ['#', ',', '[', ']', '{', '}', '&', '*', '!', '|', '>', '\'', '"', '%', '@', '\x60']

/-- Whether the start of a text, or a mark in it, means something in a block. -/
def hasMark (cs : List Char) : Bool :=
  cs.take 3 == ['-', '-', '-'] || cs.take 3 == ['.', '.', '.'] ||
    match cs with
    | [] => false
    | c :: rest =>
      startMarks.contains c || (['?', ':', '-'].contains c && startsGap rest) ||
        hasInnerMark (startsGap [c]) rest

/-- Whether a character in `p` is followed by one in `q` somewhere. -/
def hasPair (p q : Char → Bool) : List Char → Bool
  | c :: d :: rest => (p c && q d) || hasPair p q (d :: rest)
  | _ => false

/-- How a text is written. -/
inductive TextForm where
  | plain
  | single
  | double
  | literal
deriving Repr, DecidableEq

/-- The form of a text.  A space before a break, or a character that does not show, leaves only
double quotes; so does a space at the end of several lines. -/
def textForm (cs : List Char) : TextForm :=
  let isSpace (c : Char) : Bool := c == ' '
  let isOpen (c : Char) : Bool := isSpace c || isBreak c
  let hidden := hasPair isSpace isBreak cs || !cs.all isPlainlyShown
  if cs.contains '\n' then
    if hidden || cs.getLast?.any isSpace then .double else .literal
  else if hidden then .double
  else
    let isText := match meaning cs with
      | .text => !isZeroFilled cs
      | _ => false
    let hasOpenEnd := cs.head?.any isOpen || cs.getLast?.any isOpen
    if isText && !hasMark cs && !cs.any isBreak && !hasOpenEnd then .plain
    else if hasPair isBreak isSpace cs then .double
    else .single

/-- A digit of a numeric escape. -/
def upperHexDigit (n : Nat) : Char := (hexDigit n).toUpper

/-- `n` in `width` hexadecimal digits. -/
def fixedHex : (width : Nat) → Nat → List Char
  | 0, _ => []
  | width + 1, n => fixedHex width (n / 16) ++ [upperHexDigit (n % 16)]

/-- A character between double quotes. -/
def escaped (c : Char) : List Char :=
  match c with
  | '\x00' => ['\\', '0']
  | '\x07' => ['\\', 'a']
  | '\x08' => ['\\', 'b']
  | '\t' => ['\\', 't']
  | '\n' => ['\\', 'n']
  | '\x0b' => ['\\', 'v']
  | '\x0c' => ['\\', 'f']
  | '\r' => ['\\', 'r']
  | '\x1b' => ['\\', 'e']
  | '"' => ['\\', '"']
  | '\\' => ['\\', '\\']
  | '\u0085' => ['\\', 'N']
  | '\u2028' => ['\\', 'L']
  | '\u2029' => ['\\', 'P']
  | c =>
    let n := c.toNat
    if isPlainlyShown c then [c]
    else if n ≤ 0xFF then '\\' :: 'x' :: fixedHex 2 n
    else if n ≤ 0xFFFF then '\\' :: 'u' :: fixedHex 4 n
    else '\\' :: 'U' :: fixedHex 8 n

/-- A text whose lines after the first are indented; `broken` if a break comes before it. -/
def indented (indent : Nat) : (broken : Bool) → List Char → List Char
  | _, [] => []
  | broken, c :: rest =>
    if isBreak c then c :: indented indent true rest
    else (if broken then List.replicate indent ' ' else []) ++ c :: indented indent false rest

/-- What follows the bar of a literal block: the indentation if the first line starts with a gap,
and what becomes of the breaks at the end. -/
def literalHints (cs : List Char) : List Char :=
  let first := if cs.head?.any fun c => c == ' ' || isBreak c then ['2'] else []
  let chomping := match cs.reverse with
    | c :: rest =>
      if !isBreak c then ['-'] else if rest.isEmpty || rest.head?.any isBreak then ['+'] else []
    | [] => ['-']
  first ++ chomping

/-- A text after its name, with the break that ends it; `indent` is where its further lines start.
-/
def printText (indent : Nat) (text : String) : List Char :=
  let cs := text.toList
  match textForm cs with
  | .plain => ' ' :: cs ++ ['\n']
  | .single =>
    let quotes := cs.flatMap fun c => if c == '\'' then ['\'', '\''] else [c]
    ' ' :: '\'' :: indented indent false (quotes ++ ['\'']) ++ ['\n']
  | .double => ' ' :: '"' :: cs.flatMap escaped ++ ['"', '\n']
  | .literal =>
    let close := if cs.getLast?.any isBreak then [] else ['\n']
    ' ' :: '|' :: literalHints cs ++ '\n' :: indented indent true cs ++ close

/-! ## Settings -/

mutual

/-- Settings after their name. -/
def Outline.print (indent : Nat) : Outline → List Char
  | .value text => ' ' :: text.toList ++ ['\n']
  | .text content => printText indent content
  | .group [] => [' ', '{', '}', '\n']
  | .group (member :: members) => '\n' :: printMembers indent (member :: members)

/-- Named settings, one below the other. -/
def printMembers (indent : Nat) : List (String × Outline) → List Char
  | [] => []
  | (name, setting) :: rest =>
    List.replicate indent ' ' ++ name.toList ++ ':' :: setting.print (indent + 2) ++
      printMembers indent rest

end

/-- The text of settings that have names. -/
def printDocument (members : List (String × Outline)) : String :=
  String.ofList (if members.isEmpty then ['{', '}', '\n'] else printMembers 0 members)

example : textForm ['t', 'r', 'u', 'e'] = .single := by decide +kernel
example : textForm ['a', ':', 'b'] = .plain := by decide +kernel
example : textForm ['a', ':'] = .single := by decide +kernel
example : textForm ['a', '\n'] = .literal := by decide +kernel

end PushBuild.Yaml
