import PushBuild.Yaml.Scalar

/-!
The tokens of a YAML text.

Blocks are made of lines that start in one column.  A block starts with a line further in than the
block around it, and ends before a line further out; both are tokens although nothing is written for
them.  That something was a key is known only at the colon after it, so the places where a key could
have started are remembered, one for each level of flow collections, and the tokens that say so are
put in there.
-/

namespace PushBuild.Yaml

/-- A token. -/
inductive Token where
  | version (major minor : Nat)
  /-- what a tag handle stands for -/
  | tagHandle (handle meaning : String)
  | documentStart
  | documentEnd
  | blockSequence
  | blockMapping
  | blockEnd
  | flowSequence
  | flowSequenceEnd
  | flowMapping
  | flowMappingEnd
  | blockEntry
  | flowEntry
  | key
  | value
  | alias (name : String)
  | anchor (name : String)
  | tag (handle suffix : String)
  | scalar (text : String) (style : ScalarStyle)
deriving Repr, DecidableEq

/-- A place where a key may have started. -/
structure PossibleKey where
  /-- whether it has to be one, being where the block's keys are -/
  required : Bool
  /-- how many tokens there were before it -/
  position : Nat
  index : Nat
  line : Nat
  column : Nat

/-- What is known while tokens are read. -/
structure Scanner where
  cursor : Cursor
  tokens : List Token := []
  /-- the columns of the open blocks, the innermost first -/
  blocks : List Nat := []
  /-- the possible key of this level -/
  possible : Option PossibleKey := none
  /-- the possible keys of the levels around it, one for each open flow collection -/
  outer : List (Option PossibleKey) := []
  /-- whether a key may start here -/
  keyAllowed : Bool := true

namespace Scanner

/-- Whether a flow collection is open. -/
def isFlow (s : Scanner) : Bool := !s.outer.isEmpty

/-- The column of the innermost block, counted from one, and 0 outside blocks. -/
def indent (s : Scanner) : Nat :=
  match s.blocks with
  | column :: _ => column + 1
  | [] => 0

/-- The state with one token more. -/
def push (s : Scanner) (t : Token) : Scanner := { s with tokens := s.tokens ++ [t] }

/-- The state with a token put in after the first `position` ones. -/
def putIn (s : Scanner) (position : Nat) (t : Token) : Scanner :=
  { s with tokens := s.tokens.take position ++ t :: s.tokens.drop position }

/-- The state after `n` characters. -/
def advance (s : Scanner) (n : Nat) : Scanner := { s with cursor := s.cursor.advance n }

/-- The place after blanks, comments and line breaks; outside flow collections a key may start after
a break.  Tabs count as blanks only where no key may start. -/
def skipGaps : (fuel : Nat) → Scanner → Scanner
  | 0, s => s
  | fuel + 1, s =>
    let tabs := s.isFlow || !s.keyAllowed
    let c := (s.cursor.skipWhile fun ch => ch == ' ' || (tabs && ch == '\t')).skipComment
    if c.isAtBreak then
      skipGaps fuel { s with cursor := c.nextLine, keyAllowed := s.keyAllowed || !s.isFlow }
    else { s with cursor := c }

/-- A possible key, unless the text has gone past where its colon may be; fails if it had to be
one. -/
def fresh? (c : Cursor) : Option PossibleKey → Option (Option PossibleKey)
  | none => some none
  | some key =>
    if key.line < c.line || key.index + 1024 < c.index then
      if key.required then none else some none
    else some (some key)

/-- The state without the possible keys that can no longer be any. -/
def dropStale? (s : Scanner) : Option Scanner := do
  let possible ← fresh? s.cursor s.possible
  let outer ← s.outer.mapM (fresh? s.cursor)
  return { s with possible, outer }

/-- The state without the possible key of this level; fails if it had to be one. -/
def dropKey? (s : Scanner) : Option Scanner :=
  match s.possible with
  | some key => if key.required then none else some { s with possible := none }
  | none => some s

/-- The state in which a key may have started here. -/
def saveKey? (s : Scanner) : Option Scanner :=
  if s.keyAllowed then do
    let required := !s.isFlow && s.indent == s.cursor.column + 1
    let s ← s.dropKey?
    let c := s.cursor
    let key : PossibleKey := ⟨required, s.tokens.length, c.index, c.line, c.column⟩
    return { s with possible := some key }
  else some s

/-- The state without the blocks that start further in than `column`, counted from one. -/
def closeBlocks (column : Nat) (s : Scanner) : Scanner :=
  if s.isFlow then s
  else
    let closed := s.blocks.takeWhile fun b => column < b + 1
    { s with
      blocks := s.blocks.drop closed.length
      tokens := s.tokens ++ List.replicate closed.length .blockEnd }

/-- The state in which a block is open at `column`, its start put in at `position`. -/
def openBlock (column position : Nat) (start : Token) (s : Scanner) : Scanner :=
  if !s.isFlow && s.indent < column + 1 then
    { s.putIn position start with blocks := column :: s.blocks }
  else s

/-- What comes between documents: no block stays open, and no key may start. -/
def leaveDocument? (s : Scanner) : Option Scanner := do
  let s ← (s.closeBlocks 0).dropKey?
  return { s with keyAllowed := false }

/-! ## Directives, anchors and tags -/

/-- The digits at a place, as a number; at least one. -/
def readNumber? (c : Cursor) : Option (Nat × Cursor) :=
  let digits := c.rest.takeWhile Text.isDigit
  if digits.isEmpty || 9 < digits.length then none
  else some (digits.foldl (fun n ch => n * 10 + Text.digitValue ch) 0, c.advance digits.length)

/-- The characters of a tag; in a verbatim one brackets and commas too. -/
def isUriChar (verbatim : Bool) (ch : Char) : Bool :=
  isWordChar ch || [';', '/', '?', ':', '@', '&', '=', '+', '$', '.', '%', '!', '~', '*', '\'', '(',
    ')'].contains ch || (verbatim && (ch == ',' || ch == '[' || ch == ']'))

/-- The bytes of an escaped character of a tag, and the place after them. -/
def readUriBytes : (fuel : Nat) → Cursor → Bytes × Cursor
  | 0, c => ([], c)
  | fuel + 1, c =>
    match c.rest with
    | '%' :: a :: b :: _ =>
      match Text.hexValue? a, Text.hexValue? b with
      | some a, some b =>
        let (bytes, c) := readUriBytes fuel (c.advance 3)
        (UInt8.ofNat (a * 16 + b) :: bytes, c)
      | _, _ => ([], c)
    | _ => ([], c)

/-- The characters of a tag from here on. -/
def readUri? : (fuel : Nat) → (verbatim : Bool) → Cursor → Option (List Char × Cursor)
  | 0, _, _ => none
  | fuel + 1, verbatim, c =>
    match c.at? 0 with
    | some '%' => do
      let (bytes, next) := readUriBytes (c.rest.length + 1) c
      let text ← if bytes.isEmpty then none else String.fromUTF8? ⟨bytes.toArray⟩
      let (more, c) ← readUri? fuel verbatim next
      return (text.toList ++ more, c)
    | some ch =>
      if isUriChar verbatim ch then do
        let (more, c) ← readUri? fuel verbatim (c.advance 1)
        return (ch :: more, c)
      else some ([], c)
    | none => some ([], c)

/-- A tag handle: an exclamation mark, and perhaps a name with another one.  In a directive a name
has to have one. -/
def readHandle? (inDirective : Bool) (c : Cursor) : Option (List Char × Cursor) :=
  if c.has '!' then
    let name := (c.rest.drop 1).takeWhile isWordChar
    let next := c.advance (1 + name.length)
    if next.has '!' then some ('!' :: name ++ ['!'], next.advance 1)
    else if inDirective && !name.isEmpty then none
    else some ('!' :: name, next)
  else none

/-- A directive with what ends its line. -/
def readDirective? (c : Cursor) : Option (Token × Cursor) := do
  let name := (c.rest.drop 1).takeWhile isWordChar
  let next := c.advance (1 + name.length)
  if name.isEmpty || !next.isGapAt 0 then none
  else
    let next := next.skipWhile isBlank
    let (token, next) ←
      if name == ['Y', 'A', 'M', 'L'] then do
        let (major, next) ← readNumber? next
        if next.has '.' then
          let (minor, next) ← readNumber? (next.advance 1)
          some (Token.version major minor, next)
        else none
      else if name == ['T', 'A', 'G'] then do
        let (handle, next) ← readHandle? true next
        if next.isAtBlank then
          let (meaning, next) ← readUri? (next.rest.length + 1) true (next.skipWhile isBlank)
          if meaning.isEmpty || !next.isGapAt 0 then none
          else some (Token.tagHandle (String.ofList handle) (String.ofList meaning), next)
        else none
      else none
    let next := (next.skipWhile isBlank).skipComment
    if next.isLineEnd then some (token, next.nextLine) else none

/-- The name of an anchor or alias, the cursor at its indicator. -/
def readAnchor? (c : Cursor) : Option (String × Cursor) :=
  let name := (c.rest.drop 1).takeWhile isWordChar
  let next := c.advance (1 + name.length)
  if !name.isEmpty && (next.isGapAt 0 ||
      (next.at? 0).any fun ch => ['?', ':', ',', ']', '}', '%', '@', '\x60'].contains ch) then
    some (String.ofList name, next)
  else none

/-- A tag: verbatim, with a handle, or local. -/
def readTag? (flow : Bool) (c : Cursor) : Option (Token × Cursor) := do
  let (token, next) ←
    if c.hasAt 1 '<' then do
      let (uri, next) ← readUri? (c.rest.length + 1) true (c.advance 2)
      if uri.isEmpty || !next.has '>' then none
      else some (Token.tag "" (String.ofList uri), next.advance 1)
    else do
      let (handle, next) ← readHandle? false c
      if 1 < handle.length && handle.getLast? == some '!' then
        let (suffix, next) ← readUri? (c.rest.length + 1) false next
        if suffix.isEmpty then none
        else some (Token.tag (String.ofList handle) (String.ofList suffix), next)
      else
        let (more, next) ← readUri? (c.rest.length + 1) false next
        let suffix := handle.drop 1 ++ more
        if suffix.isEmpty then some (Token.tag "" "!", next)
        else some (Token.tag "!" (String.ofList suffix), next)
  if next.isGapAt 0 || (flow && next.has ',') then some (token, next) else none

/-! ## Tokens -/

/-- A token that may be a key, read by `read`. -/
def scanKeyLike? (s : Scanner) (read : Cursor → Option (Token × Cursor)) : Option Scanner := do
  let s ← s.saveKey?
  let (token, cursor) ← read s.cursor
  return { s.push token with cursor, keyAllowed := false }

/-- The start of a flow collection. -/
def scanFlowStart? (s : Scanner) (token : Token) : Option Scanner := do
  let s ← s.saveKey?
  return { (s.push token).advance 1 with
    outer := s.possible :: s.outer, possible := none, keyAllowed := true }

/-- The end of a flow collection. -/
def scanFlowEnd? (s : Scanner) (token : Token) : Option Scanner := do
  let s ← s.dropKey?
  let s := (s.push token).advance 1
  match s.outer with
  | possible :: outer => return { s with possible, outer, keyAllowed := false }
  | [] => return { s with keyAllowed := false }

/-- The dash of a block sequence. -/
def scanBlockEntry? (s : Scanner) : Option Scanner :=
  if s.isFlow || s.keyAllowed then do
    let s ← (s.openBlock s.cursor.column s.tokens.length .blockSequence).dropKey?
    return { (s.push .blockEntry).advance 1 with keyAllowed := true }
  else none

/-- The question mark before a key. -/
def scanKey? (s : Scanner) : Option Scanner :=
  if s.isFlow || s.keyAllowed then do
    let s ← (s.openBlock s.cursor.column s.tokens.length .blockMapping).dropKey?
    return { (s.push .key).advance 1 with keyAllowed := !s.isFlow }
  else none

/-- The colon before a value. -/
def scanValue? (s : Scanner) : Option Scanner :=
  match s.possible with
  | some key =>
    let s := (s.putIn key.position .key).openBlock key.column key.position .blockMapping
    some { (s.push .value).advance 1 with possible := none, keyAllowed := false }
  | none =>
    if s.isFlow || s.keyAllowed then
      let s := s.openBlock s.cursor.column s.tokens.length .blockMapping
      some { (s.push .value).advance 1 with keyAllowed := !s.isFlow }
    else none

/-- A block scalar. -/
def scanBlockScalar? (s : Scanner) (literal : Bool) : Option Scanner := do
  let s ← s.dropKey?
  let (text, cursor) ← readBlock? literal s.indent (s.cursor.advance 1)
  let style := if literal then ScalarStyle.literal else .folded
  return { s.push (.scalar (String.ofList text) style) with cursor, keyAllowed := true }

/-- A quoted scalar. -/
def scanQuoted? (s : Scanner) (single : Bool) : Option Scanner :=
  s.scanKeyLike? fun c => do
    let (text, next) ← readQuoted? (c.rest.length + 1) single [] (c.advance 1)
    return (.scalar (String.ofList text) .quoted, next)

/-- A plain scalar; after one that ends with a line break a key may start. -/
def scanPlain? (s : Scanner) : Option Scanner := do
  let s ← s.saveKey?
  let fuel := s.cursor.rest.length + 1
  let (text, broken, cursor) ← readPlain? fuel s.isFlow s.indent [] {} s.cursor
  return { s.push (.scalar (String.ofList text) .plain) with cursor, keyAllowed := broken }

/-- Whether a plain scalar may start here. -/
def startsPlain (s : Scanner) : Bool :=
  let c := s.cursor
  match c.at? 0 with
  | none => false
  | some '-' => !(c.at? 1).any isBlank
  | some '?' => !s.isFlow && !c.isGapAt 1
  | some ':' => !s.isFlow && !c.isGapAt 1
  | some ch =>
    !c.isGapAt 0 && !(isFlowIndicator ch || ['#', '&', '*', '!', '|', '>', '\'', '"', '%', '@',
      '\x60'].contains ch)

/-- The next token, the cursor at its start. -/
def scanToken? (s : Scanner) : Option Scanner :=
  let c := s.cursor
  let isMark (ch : Char) : Bool := c.has ch && c.isGapAt 1
  if c.column = 0 && c.has '%' then do
    let s ← s.leaveDocument?
    let (token, cursor) ← readDirective? s.cursor
    return { s.push token with cursor }
  else if c.isAtMark '-' then do
    return ((← s.leaveDocument?).push .documentStart).advance 3
  else if c.isAtMark '.' then do
    return ((← s.leaveDocument?).push .documentEnd).advance 3
  else if c.has '[' then s.scanFlowStart? .flowSequence
  else if c.has '{' then s.scanFlowStart? .flowMapping
  else if c.has ']' then s.scanFlowEnd? .flowSequenceEnd
  else if c.has '}' then s.scanFlowEnd? .flowMappingEnd
  else if c.has ',' then do
    let s ← s.dropKey?
    return { (s.push .flowEntry).advance 1 with keyAllowed := true }
  else if isMark '-' then s.scanBlockEntry?
  else if c.has '?' && (s.isFlow || c.isGapAt 1) then s.scanKey?
  else if c.has ':' && (s.isFlow || c.isGapAt 1) then s.scanValue?
  else if c.has '*' then
    s.scanKeyLike? fun c => (readAnchor? c).map fun (name, next) => (.alias name, next)
  else if c.has '&' then
    s.scanKeyLike? fun c => (readAnchor? c).map fun (name, next) => (.anchor name, next)
  else if c.has '!' then s.scanKeyLike? (readTag? s.isFlow)
  else if c.has '|' && !s.isFlow then s.scanBlockScalar? true
  else if c.has '>' && !s.isFlow then s.scanBlockScalar? false
  else if c.has '\'' then s.scanQuoted? true
  else if c.has '"' then s.scanQuoted? false
  else if s.startsPlain then s.scanPlain?
  else none

/-- All tokens from here on. -/
def scan? : (fuel : Nat) → Scanner → Option (List Token)
  | 0, _ => none
  | fuel + 1, s => do
    let s := s.skipGaps (s.cursor.rest.length + 1)
    let s ← s.dropStale?
    let s := s.closeBlocks (s.cursor.column + 1)
    if s.cursor.isEnd then
      let s ← s.leaveDocument?
      some s.tokens
    else scan? fuel (← s.scanToken?)

end Scanner

/-- The tokens of a text.  A mark of the byte order before it does not count. -/
def tokens? (cs : List Char) : Option (List Token) :=
  let cs := if cs.head? == some '\ufeff' then cs.drop 1 else cs
  if cs.all isAllowed then Scanner.scan? (cs.length + 1) { cursor := { rest := cs } } else none

end PushBuild.Yaml
