import PushBuild.Text.Blank
import PushBuild.Text.Bytes

/-!
Internet addresses and the addresses of sockets, as text.

An address of version 4 is four numbers without zeros in front.  One of version 6 is eight groups of
hexadecimal digits, of which two colons may leave out a run of zeros, and the last two of which may
be written as an address of version 4.  It is written back with the longest run of zeros left out.
-/

namespace PushBuild

open PushBuild.Text

/-- An internet address: four bytes, or eight groups of 16 bits. -/
inductive IpAddress where
  | v4 (a b c d : Nat)
  | v6 (groups : List Nat)
deriving Repr, DecidableEq

/-- The address of a socket.  The scope is for addresses of version 6, and 0 if there is none. -/
structure SocketAddress where
  address : IpAddress
  scope : Nat := 0
  port : Nat
deriving Repr, DecidableEq

namespace IpAddress

/-! ## Reading -/

/-- A decimal number below `bound` at the front; zeros in front only if `zeros`. -/
def readDecimal? (bound : Nat) (zeros : Bool) (cs : List Char) : Option (Nat × List Char) :=
  let digits := cs.takeWhile isDigit
  let n := digits.foldl (fun n c => n * 10 + digitValue c) 0
  if digits.isEmpty || bound ≤ n || (!zeros && digits.head? == some '0' && 1 < digits.length) then
    none
  else some (n, cs.drop digits.length)

/-- One number of an address of version 4, of at most three digits. -/
def readByte? (cs : List Char) : Option (Nat × List Char) :=
  if 3 < (cs.takeWhile isDigit).length then none else readDecimal? 256 false cs

/-- The character `c` at the front. -/
def readMark? (c : Char) : List Char → Option (List Char)
  | d :: rest => if d = c then some rest else none
  | [] => none

/-- An address of version 4 at the front. -/
def readV4? (cs : List Char) : Option ((Nat × Nat × Nat × Nat) × List Char) := do
  let (a, cs) ← readByte? cs
  let (b, cs) ← readByte? (← readMark? '.' cs)
  let (c, cs) ← readByte? (← readMark? '.' cs)
  let (d, cs) ← readByte? (← readMark? '.' cs)
  return ((a, b, c, d), cs)

/-- One group of an address of version 6: one to four digits. -/
def readGroup? (cs : List Char) : Option (Nat × List Char) :=
  let digits := cs.takeWhile fun c => (hexValue? c).isSome
  if digits.isEmpty || 4 < digits.length then none
  else some (digits.foldl (fun n c => n * 16 + (hexValue? c).getD 0) 0, cs.drop digits.length)

/-- Up to `limit` groups with colons between them, `first` saying that none came before.  The last
two may be an address of version 4, which ends the groups; whether it did is told as well. -/
def readGroups : (limit : Nat) → (first : Bool) → List Char → List Nat × Bool × List Char
  | 0, _, cs => ([], false, cs)
  | limit + 1, first, cs =>
    let start := if first then some cs else readMark? ':' cs
    match (if 0 < limit then start.bind readV4? else none) with
    | some ((a, b, c, d), rest) => ([a * 256 + b, c * 256 + d], true, rest)
    | none =>
      match start.bind readGroup? with
      | none => ([], false, cs)
      | some (group, rest) =>
        let (groups, embedded, rest) := readGroups limit false rest
        (group :: groups, embedded, rest)

/-- An address of version 6 at the front. -/
def readV6? (cs : List Char) : Option (List Nat × List Char) := do
  let (head, embedded, rest) := readGroups 8 true cs
  if head.length = 8 then return (head, rest)
  else if embedded then none
  else
    let rest ← readMark? ':' (← readMark? ':' rest)
    let (tail, _, rest) := readGroups (7 - head.length) true rest
    return (head ++ List.replicate (8 - head.length - tail.length) 0 ++ tail, rest)

/-- The address that a text writes. -/
def ofChars? (cs : List Char) : Option IpAddress :=
  match readV4? cs with
  | some ((a, b, c, d), []) => some (.v4 a b c d)
  | _ =>
    match readV6? cs with
    | some (groups, []) => some (.v6 groups)
    | _ => none

/-! ## Classes -/

/-- Whether an address is the host's own: of version 4 a whole network, of version 6 one address. -/
def isLoopback : IpAddress → Bool
  | v4 a _ _ _ => a == 127
  | v6 groups => groups == [0, 0, 0, 0, 0, 0, 0, 1]

/-- Whether an address of version 4 is in one of the networks for private use. -/
def isPrivate : IpAddress → Bool
  | v4 a b _ _ => a == 10 || (a == 172 && 16 ≤ b && b ≤ 31) || (a == 192 && b == 168)
  | v6 _ => false

/-! ## Writing -/

/-- Four numbers with points between them. -/
def v4Text (a b c d : Nat) : String :=
  toString a ++ "." ++ toString b ++ "." ++ toString c ++ "." ++ toString d

/-- How many zeros the groups start with. -/
def zerosAt (groups : List Nat) : Nat := (groups.takeWhile (· == 0)).length

/-- Where the first of the longest runs of zeros starts, and how long it is. -/
def longestZeros : List Nat → Nat × Nat
  | [] => (0, 0)
  | g :: gs =>
    let here := zerosAt (g :: gs)
    let (start, length) := longestZeros gs
    if here ≠ 0 ∧ length ≤ here then (0, here) else (start + 1, length)

/-- Groups with colons between them. -/
def groupsText : List Nat → String
  | [] => ""
  | [g] => String.ofList (hexOfNat g)
  | g :: gs => String.ofList (hexOfNat g) ++ ":" ++ groupsText gs

/-- The text of an address. -/
def toText : IpAddress → String
  | v4 a b c d => v4Text a b c d
  | v6 groups =>
    match groups with
    | [0, 0, 0, 0, 0, 0xffff, high, low] =>
      "::ffff:" ++ v4Text (high / 256) (high % 256) (low / 256) (low % 256)
    | groups =>
      let (start, length) := longestZeros groups
      if 1 < length then
        groupsText (groups.take start) ++ "::" ++ groupsText (groups.drop (start + length))
      else groupsText groups

end IpAddress

namespace SocketAddress

open IpAddress

/-- A port after a colon, and nothing more. -/
def readPort? (cs : List Char) : Option Nat := do
  let (port, rest) ← readDecimal? 65536 true (← readMark? ':' cs)
  if rest.isEmpty then some port else none

/-- An address of version 4 and a port. -/
def readV4? (cs : List Char) : Option SocketAddress := do
  let ((a, b, c, d), rest) ← IpAddress.readV4? cs
  return { address := .v4 a b c d, port := ← readPort? rest }

/-- A scope after a percent sign, or none. -/
def readScope (cs : List Char) : Nat × List Char :=
  ((readMark? '%' cs).bind (readDecimal? 4294967296 true)).getD (0, cs)

/-- An address of version 6 in brackets, perhaps with a scope, and a port. -/
def readV6? (cs : List Char) : Option SocketAddress := do
  let (groups, rest) ← IpAddress.readV6? (← readMark? '[' cs)
  let (scope, rest) := readScope rest
  return { address := .v6 groups, scope, port := ← readPort? (← readMark? ']' rest) }

/-- The socket address that a text writes. -/
def ofText? (s : String) : Option SocketAddress :=
  readV4? s.toList <|> readV6? s.toList

/-- The text of a socket address. -/
def toText (a : SocketAddress) : String :=
  match a.address with
  | .v4 .. => a.address.toText ++ ":" ++ toString a.port
  | .v6 _ =>
    let scope := if a.scope = 0 then "" else "%" ++ toString a.scope
    "[" ++ a.address.toText ++ scope ++ "]:" ++ toString a.port

example : (ofText? "127.0.0.1:080").map toText = some "127.0.0.1:80" := by decide +kernel
example : ofText? "127.0.0.01:80" = none := by decide +kernel

end SocketAddress

end PushBuild
