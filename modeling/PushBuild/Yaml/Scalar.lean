import PushBuild.Text.Bytes
import PushBuild.Yaml.Cursor

/-!
Reading the content of scalars.

Each reader starts at the scalar and gives its content and the place after it, or none where the
scalar is not well formed.  What breaks lines in a scalar that is not literal is folded: one break
is a blank, further ones stay.
-/

namespace PushBuild.Yaml

open PushBuild.Text

/-- The way a scalar is written. -/
inductive ScalarStyle where
  | plain
  | quoted
  | literal
  | folded
deriving Repr, DecidableEq

/-- What separates two pieces of content: blanks in a line, or a first break and those after it. -/
structure Gap where
  blanks : List Char := []
  /-- whether the line ended, so that blanks no longer count -/
  broken : Bool := false
  first : List Char := []
  more : List Char := []

namespace Gap

/-- What a gap leaves in the content. -/
def folded (g : Gap) : List Char :=
  if g.broken then
    if g.first == ['\n'] then (if g.more.isEmpty then [' '] else g.more) else g.first ++ g.more
  else g.blanks

end Gap

/-- The gap from here on, continuing `g`.  In a plain scalar, `indent` is the column before which a
line may not have tabs. -/
def readGap? : (fuel : Nat) → (indent : Nat) → Gap → Cursor → Option (Gap × Cursor)
  | 0, _, _, _ => none
  | fuel + 1, indent, g, c =>
    if c.isAtBlank then
      if g.broken then
        if c.column < indent && c.has '\t' then none else readGap? fuel indent g (c.advance 1)
      else readGap? fuel indent { g with blanks := g.blanks ++ c.rest.take 1 } (c.advance 1)
    else if c.isAtBreak then
      if g.broken then readGap? fuel indent { g with more := g.more ++ c.breakText } c.nextLine
      else readGap? fuel indent { broken := true, first := c.breakText } c.nextLine
    else some (g, c)

/-! ## Plain scalars -/

/-- The characters that end a plain scalar in a flow collection, besides a colon. -/
def isFlowIndicator (ch : Char) : Bool :=
  ch == ',' || ch == '[' || ch == ']' || ch == '{' || ch == '}'

/-- The place after the characters of a piece of a plain scalar; none if a colon is followed by what
may not follow it. -/
def skipPlain? : (fuel : Nat) → (flow : Bool) → Cursor → Option Cursor
  | 0, _, _ => none
  | fuel + 1, flow, c =>
    if c.isGapAt 0 then some c
    else if flow && c.has ':' && (c.at? 1).any (fun ch => isFlowIndicator ch || ch == '?') then none
    else if c.has ':' && c.isGapAt 1 then some c
    else if flow && (c.at? 0).any isFlowIndicator then some c
    else skipPlain? fuel flow (c.advance 1)

/-- The content of a plain scalar after `acc`, with the gap before the next piece.  Tells also
whether the scalar ended after a line break. -/
def readPlain? : (fuel : Nat) → (flow : Bool) → (indent : Nat) → (acc : List Char) → Gap → Cursor →
    Option (List Char × Bool × Cursor)
  | 0, _, _, _, _, _ => none
  | fuel + 1, flow, indent, acc, g, c =>
    if c.isAtDocumentMark || c.has '#' then some (acc, g.broken, c)
    else do
      let after ← skipPlain? (c.rest.length + 1) flow c
      let piece := c.rest.take (after.index - c.index)
      let (acc, g) := if piece.isEmpty then (acc, g) else (acc ++ g.folded ++ piece, {})
      if after.isAtBlank || after.isAtBreak then
        let (g, next) ← readGap? (after.rest.length + 1) indent g after
        if !flow && next.column < indent then some (acc, g.broken, next)
        else readPlain? fuel flow indent acc g next
      else some (acc, g.broken, after)

/-! ## Quoted scalars -/

/-- The character that a backslash and `ch` stand for. -/
def escape? (ch : Char) : Option Char :=
  match ch with
  | '0' => some '\x00'
  | 'a' => some '\x07'
  | 'b' => some '\x08'
  | 't' => some '\t'
  | '\t' => some '\t'
  | 'n' => some '\n'
  | 'v' => some '\x0b'
  | 'f' => some '\x0c'
  | 'r' => some '\r'
  | 'e' => some '\x1b'
  | ' ' => some ' '
  | '"' => some '"'
  | '/' => some '/'
  | '\\' => some '\\'
  | 'N' => some '\u0085'
  | '_' => some '\u00a0'
  | 'L' => some '\u2028'
  | 'P' => some '\u2029'
  | _ => none

/-- How many digits follow the letter of a numeric escape. -/
def escapeWidth? (ch : Char) : Option Nat :=
  match ch with
  | 'x' => some 2
  | 'u' => some 4
  | 'U' => some 8
  | _ => none

/-- The character at an escape, and the place after it. -/
def readEscape? (c : Cursor) : Option (Char × Cursor) := do
  let ch ← c.at? 1
  match escapeWidth? ch with
  | none => return (← escape? ch, c.advance 2)
  | some width =>
    let digits := (c.rest.drop 2).take width
    let values ← digits.mapM hexValue?
    let code := values.foldl (fun n v => n * 16 + v) 0
    if values.length = width ∧ Nat.isValidChar code then
      return (Char.ofNat code, c.advance (2 + width))
    else none

/-- A piece of a quoted scalar without gaps, after `acc`.  Tells whether a backslash at the end of a
line ended it, which joins the line with the next one. -/
def readQuotedPiece? : (fuel : Nat) → (single : Bool) → (acc : List Char) → Cursor →
    Option (List Char × Bool × Cursor)
  | 0, _, _, _ => none
  | fuel + 1, single, acc, c =>
    if c.isGapAt 0 then some (acc, false, c)
    else if single then
      if c.has '\'' then
        if c.hasAt 1 '\'' then readQuotedPiece? fuel single (acc ++ ['\'']) (c.advance 2)
        else some (acc, false, c)
      else readQuotedPiece? fuel single (acc ++ c.rest.take 1) (c.advance 1)
    else if c.has '"' then some (acc, false, c)
    else if c.has '\\' then
      if (c.at? 1).any isBreak then some (acc, true, (c.advance 1).nextLine)
      else
        match readEscape? c with
        | some (ch, next) => readQuotedPiece? fuel single (acc ++ [ch]) next
        | none => none
    else readQuotedPiece? fuel single (acc ++ c.rest.take 1) (c.advance 1)

/-- The content of a quoted scalar after `acc`, up to the closing quote. -/
def readQuoted? : (fuel : Nat) → (single : Bool) → (acc : List Char) → Cursor →
    Option (List Char × Cursor)
  | 0, _, _, _ => none
  | fuel + 1, single, acc, c =>
    if c.isAtDocumentMark || c.isEnd then none
    else do
      let (acc, joined, c) ← readQuotedPiece? (c.rest.length + 1) single acc c
      if c.has (if single then '\'' else '"') && !joined then some (acc, c.advance 1)
      else
        let (g, c) ← readGap? (c.rest.length + 1) 0 { broken := joined } c
        readQuoted? fuel single (acc ++ g.folded) c

/-! ## Block scalars -/

/-- What becomes of the line breaks at the end of a block scalar. -/
inductive Chomping where
  | strip
  | clip
  | keep
deriving DecidableEq

/-- The chomping at a sign, if there is one, and the place after it. -/
def readChomping (c : Cursor) : Option Chomping × Cursor :=
  if c.has '+' then (some .keep, c.advance 1)
  else if c.has '-' then (some .strip, c.advance 1)
  else (none, c)

/-- The indentation at a digit, 0 if there is none; none for the digit 0. -/
def readIncrement? (c : Cursor) : Option (Nat × Cursor) :=
  match c.at? 0 with
  | some ch =>
    if isDigit ch then (if ch == '0' then none else some (digitValue ch, c.advance 1))
    else some (0, c)
  | none => some (0, c)

/-- What follows the indicator of a block scalar: the chomping and the indentation, in either order,
and nothing but a comment after them. -/
def readBlockHeader? (c : Cursor) : Option (Chomping × Nat × Cursor) := do
  let (chomping, c) := readChomping c
  let (increment, c) ← readIncrement? c
  let (chomping, c) :=
    match chomping with
    | none => if increment = 0 then (none, c) else readChomping c
    | some chomping => (some chomping, c)
  let c := (c.skipWhile isBlank).skipComment
  if c.isLineEnd then return (chomping.getD .clip, increment, c.nextLine) else none

/-- Empty lines and the indentation of the next line.  `indent` is 0 as long as it is not known;
then `widest` is the widest indentation so far.  Gives the breaks after `acc`, the widest
indentation and the place at the content. -/
def readEmptyLines? : (fuel indent widest : Nat) → (acc : List Char) → Cursor →
    Option (List Char × Nat × Cursor)
  | 0, _, _, _, _ => none
  | fuel + 1, indent, widest, acc, c =>
    let spaces := (c.rest.takeWhile (· == ' ')).length
    let c := c.advance (if indent = 0 then spaces else min spaces (indent - c.column))
    let widest := max widest c.column
    if (indent = 0 || c.column < indent) && c.has '\t' then none
    else if c.isAtBreak then readEmptyLines? fuel indent widest (acc ++ c.breakText) c.nextLine
    else some (acc, widest, c)

/-- What is known of a block scalar while its lines are read. -/
structure BlockState where
  content : List Char := []
  /-- the break after the last line -/
  pending : List Char := []
  /-- the breaks of the empty lines after it -/
  empties : List Char := []
  /-- whether the last line started with a blank -/
  afterBlank : Bool := false

/-- The state after the breaks before a line are put into the content: folded if the scalar is
folded and neither the line before nor this one starts with a blank. -/
def BlockState.joined (s : BlockState) (literal startsBlank : Bool) : BlockState :=
  let first :=
    if !literal && s.pending == ['\n'] && !s.afterBlank && !startsBlank then
      if s.empties.isEmpty then [' '] else []
    else s.pending
  { content := s.content ++ first ++ s.empties, afterBlank := startsBlank }

/-- The lines of a block scalar that are indented by `indent`. -/
def readBlockLines? : (fuel : Nat) → (literal : Bool) → (indent : Nat) → BlockState → Cursor →
    Option (BlockState × Cursor)
  | 0, _, _, _, _ => none
  | fuel + 1, literal, indent, s, c =>
    if c.column = indent && !c.isEnd then do
      let s := s.joined literal c.isAtBlank
      let line := c.rest.takeWhile fun ch => !isBreak ch
      let c := c.advance line.length
      let pending := c.breakText
      let (empties, _, c) ← readEmptyLines? (c.rest.length + 1) indent 0 [] c.nextLine
      readBlockLines? fuel literal indent
        { s with content := s.content ++ line, pending, empties } c
    else some (s, c)

/-- The content of a block scalar, the cursor after its indicator.  `parent` is the column of the
block it stands in, counted from one. -/
def readBlock? (literal : Bool) (parent : Nat) (c : Cursor) : Option (List Char × Cursor) := do
  let (chomping, increment, c) ← readBlockHeader? c
  let known := if increment = 0 then 0 else (parent - 1) + increment
  let (empties, widest, c) ← readEmptyLines? (c.rest.length + 1) known 0 [] c
  let indent := if known = 0 then max widest (max parent 1) else known
  let (s, c) ← readBlockLines? (c.rest.length + 1) literal indent { empties } c
  let tail :=
    match chomping with
    | .strip => []
    | .clip => s.pending
    | .keep => s.pending ++ s.empties
  return (s.content ++ tail, c)

end PushBuild.Yaml
