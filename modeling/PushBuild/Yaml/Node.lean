import PushBuild.Yaml.Token

/-!
The data of a YAML text.

A text is one node: a scalar, a sequence or a mapping.  A node may be named by an anchor, and an
alias stands for the node last named so.  Where a node is left out, an empty plain scalar stands.
What a scalar means is not decided here; that depends on the data wanted.
-/

namespace PushBuild

/-- A node, with its tag if it has one. -/
inductive Yaml where
  | scalar (text : String) (style : Yaml.ScalarStyle) (tag : Option String)
  | sequence (items : List Yaml) (tag : Option String)
  | mapping (entries : List (Yaml × Yaml)) (tag : Option String)
deriving Repr

namespace Yaml

/-- The node that stands where none is written. -/
def empty : Yaml := .scalar "" .plain none

/-- The tokens that are left, and the nodes named so far, the last first. -/
structure NodeSource where
  tokens : List Token
  anchors : List (String × Yaml) := []

/-- Where a node stands. -/
inductive Place where
  | block
  /-- as key or value in a block, where a sequence needs no further indentation -/
  | entry
  | flow
deriving DecidableEq

/-- A reader of nodes. -/
abbrev NodeReader := NodeSource → Option (Yaml × NodeSource)

namespace NodeSource

/-- The source without its first token. -/
def tail (s : NodeSource) : NodeSource := { s with tokens := s.tokens.drop 1 }

/-- Whether the first token is one of these. -/
def isAt (s : NodeSource) (tokens : List Token) : Bool :=
  s.tokens.head?.any tokens.contains

/-- The node that `read` reads, or the empty node before one of these tokens. -/
def orEmpty (stops : List Token) (read : NodeReader) : NodeReader := fun s =>
  if s.isAt stops then some (empty, s) else read s

/-- The node after a token that announces it; the empty node if the token is not there or one of
`stops` follows it. -/
def after (announcement : Token) (stops : List Token) (read : NodeReader) : NodeReader := fun s =>
  if s.isAt [announcement] then orEmpty stops read s.tail else some (empty, s)

/-! ## Collections

Each reader starts after the collection's first token and reads the last one too, except that a
sequence without indentation ends before the first token that is no entry. -/

/-- The items of a block sequence. -/
def blockItems? (read : NodeReader) : (fuel : Nat) → NodeSource → Option (List Yaml × NodeSource)
  | 0, _ => none
  | fuel + 1, s =>
    if s.isAt [.blockEntry] then do
      let (item, s) ← orEmpty [.blockEntry, .blockEnd] read s.tail
      let (items, s) ← blockItems? read fuel s
      return (item :: items, s)
    else if s.isAt [.blockEnd] then some ([], s.tail)
    else none

/-- The items of a sequence that is not indented. -/
def bareItems? (read : NodeReader) : (fuel : Nat) → NodeSource → Option (List Yaml × NodeSource)
  | 0, _ => none
  | fuel + 1, s =>
    if s.isAt [.blockEntry] then do
      let (item, s) ← orEmpty [.blockEntry, .key, .value, .blockEnd] read s.tail
      let (items, s) ← bareItems? read fuel s
      return (item :: items, s)
    else some ([], s)

/-- The entries of a block mapping. -/
def blockEntries? (read : NodeReader) : (fuel : Nat) → NodeSource →
    Option (List (Yaml × Yaml) × NodeSource)
  | 0, _ => none
  | fuel + 1, s =>
    let stops := [Token.key, .value, .blockEnd]
    if s.isAt [.key] then do
      let (key, s) ← orEmpty stops read s.tail
      let (value, s) ← after .value stops read s
      let (entries, s) ← blockEntries? read fuel s
      return ((key, value) :: entries, s)
    else if s.isAt [.blockEnd] then some ([], s.tail)
    else none

/-- The next item of a flow sequence; one with a key mark is a mapping with one entry.  A key that
is left out takes the next token with it. -/
def flowItem? (read : NodeReader) : NodeReader := fun s =>
  if s.isAt [.key] then do
    let s := s.tail
    let (key, s) ←
      if s.isAt [.value, .flowEntry, .flowSequenceEnd] then some (empty, s.tail) else read s
    let (value, s) ← after .value [.flowEntry, .flowSequenceEnd] read s
    return (.mapping [(key, value)] none, s)
  else read s

/-- The items of a flow sequence. -/
def flowItems? (read : NodeReader) : (fuel : Nat) → (first : Bool) → NodeSource →
    Option (List Yaml × NodeSource)
  | 0, _, _ => none
  | fuel + 1, first, s =>
    if s.isAt [.flowSequenceEnd] then some ([], s.tail)
    else if first || s.isAt [.flowEntry] then
      let s := if first then s else s.tail
      if s.isAt [.flowSequenceEnd] then some ([], s.tail)
      else do
        let (item, s) ← flowItem? read s
        let (items, s) ← flowItems? read fuel false s
        return (item :: items, s)
    else none

/-- The next entry of a flow mapping; without a key mark it has no value. -/
def flowPair? (read : NodeReader) (s : NodeSource) : Option ((Yaml × Yaml) × NodeSource) :=
  if s.isAt [.key] then do
    let (key, s) ← orEmpty [.value, .flowEntry, .flowMappingEnd] read s.tail
    let (value, s) ← after .value [.flowEntry, .flowMappingEnd] read s
    return ((key, value), s)
  else do
    let (key, s) ← read s
    return ((key, empty), s)

/-- The entries of a flow mapping. -/
def flowEntries? (read : NodeReader) : (fuel : Nat) → (first : Bool) → NodeSource →
    Option (List (Yaml × Yaml) × NodeSource)
  | 0, _, _ => none
  | fuel + 1, first, s =>
    if s.isAt [.flowMappingEnd] then some ([], s.tail)
    else if first || s.isAt [.flowEntry] then
      let s := if first then s else s.tail
      if s.isAt [.flowMappingEnd] then some ([], s.tail)
      else do
        let (entry, s) ← flowPair? read s
        let (entries, s) ← flowEntries? read fuel false s
        return (entry :: entries, s)
    else none

/-! ## Nodes -/

/-- What tag handles stand for. -/
abbrev Handles := List (String × String)

/-- The tag that a handle and a suffix make; none for a handle that stands for nothing. -/
def tag? (handles : Handles) (handle suffix : String) : Option String :=
  if handle.isEmpty then some suffix else (handles.lookup handle).map (· ++ suffix)

/-- The anchor and the tag before a node, in either order. -/
def properties? (handles : Handles) (s : NodeSource) :
    Option (Option String × Option String × NodeSource) :=
  match s.tokens with
  | .anchor name :: .tag handle suffix :: rest | .tag handle suffix :: .anchor name :: rest => do
    return (some name, some (← tag? handles handle suffix), { s with tokens := rest })
  | .anchor name :: rest => some (some name, none, { s with tokens := rest })
  | .tag handle suffix :: rest => do
    return (none, some (← tag? handles handle suffix), { s with tokens := rest })
  | _ => some (none, none, s)

/-- The content of a node whose parts are read by `read`. -/
def content? (read : Place → NodeReader) (place : Place) (tag : Option String) : NodeReader :=
  fun s =>
  let fuel := s.tokens.length + 1
  match s.tokens with
  | .scalar text style :: _ => some (.scalar text style (tag.filter (· != "!")), s.tail)
  | .flowSequence :: _ => do
    let (items, s) ← flowItems? (read .flow) fuel true s.tail
    return (.sequence items tag, s)
  | .flowMapping :: _ => do
    let (entries, s) ← flowEntries? (read .flow) fuel true s.tail
    return (.mapping entries tag, s)
  | .blockSequence :: _ =>
    if place = .flow then none
    else do
      let (items, s) ← blockItems? (read .block) fuel s.tail
      return (.sequence items tag, s)
  | .blockMapping :: _ =>
    if place = .flow then none
    else do
      let (entries, s) ← blockEntries? (read .entry) fuel s.tail
      return (.mapping entries tag, s)
  | .blockEntry :: _ =>
    if place = .entry then do
      let (items, s) ← bareItems? (read .block) fuel s
      return (.sequence items tag, s)
    else none
  | _ => none

/-- The next node.  An anchor or a tag with nothing after it is on the empty node; an alias has to
stand for a node before it. -/
def node? (handles : Handles) : (fuel : Nat) → (place : Place) → NodeReader
  | 0, _, _ => none
  | fuel + 1, place, s =>
    match s.tokens with
    | .alias name :: _ => do return (← s.anchors.lookup name, s.tail)
    | _ => do
      let (anchor, tag, s) ← properties? handles s
      let isMarked := anchor.isSome || tag.isSome
      let startsContent :=
        match s.tokens with
        | .scalar _ _ :: _ | .flowSequence :: _ | .flowMapping :: _ => true
        | .blockSequence :: _ | .blockMapping :: _ => place != .flow
        | .blockEntry :: _ => place == .entry
        | _ => false
      let (y, s) ←
        if isMarked && !startsContent then some (.scalar "" .plain tag, s)
        else content? (node? handles fuel) place tag s
      match anchor with
      | some name => return (y, { s with anchors := (name, y) :: s.anchors })
      | none => return (y, s)

/-! ## Documents -/

/-- The directives before a document, up to its start: a version at most once and one that is known,
and what tag handles stand for, each at most once. -/
def directives? : List Token → (versioned : Bool) → Handles → Option (Handles × NodeSource)
  | .version major minor :: rest, versioned, handles =>
    if !versioned && major = 1 && (minor = 1 || minor = 2) then directives? rest true handles
    else none
  | .tagHandle handle meaning :: rest, versioned, handles =>
    if (handles.lookup handle).isSome then none
    else directives? rest versioned ((handle, meaning) :: handles)
  | .documentStart :: rest, _, handles => some (handles, { tokens := rest })
  | _, _, _ => none

/-- The handles that need no directive. -/
def commonHandles : Handles := [("!", "!"), ("!!", "tag:yaml.org,2002:")]

/-- Whether nothing stands where a document's node would be. -/
def isDocumentEmpty (s : NodeSource) : Bool :=
  match s.tokens with
  | [] | .version _ _ :: _ | .tagHandle _ _ :: _ | .documentStart :: _ | .documentEnd :: _ => true
  | _ => false

/-- The node of the one document that the tokens hold. -/
def document? (tokens : List Token) : Option Yaml := do
  let fuel := tokens.length + 1
  let (y, s) ←
    match tokens with
    | [] => some (empty, { tokens })
    | .version _ _ :: _ | .tagHandle _ _ :: _ | .documentStart :: _ => do
      let (handles, s) ← directives? tokens false []
      if isDocumentEmpty s then some (empty, s) else node? (handles ++ commonHandles) fuel .block s
    | _ => node? commonHandles fuel .block { tokens }
  if s.tokens.all (· == .documentEnd) then some y else none

end NodeSource

/-- The node of a text that holds one document. -/
def ofText? (text : String) : Option Yaml := do
  NodeSource.document? (← tokens? text.toList)

end Yaml

end PushBuild
