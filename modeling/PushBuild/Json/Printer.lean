import PushBuild.Text.Bytes
import PushBuild.Json.Value

/-!
JSON text without blanks.

A string escapes the quote, the backslash and the controls and nothing else; reals are positional
between 1e-5 and 1e16 and have an exponent outside.
-/

namespace PushBuild.Json

open PushBuild.Text

/-- One character between quotes. -/
def escapeChar (c : Char) : List Char :=
  match c with
  | '"' => ['\\', '"']
  | '\\' => ['\\', '\\']
  | '\x08' => ['\\', 'b']
  | '\x0c' => ['\\', 'f']
  | '\n' => ['\\', 'n']
  | '\r' => ['\\', 'r']
  | '\t' => ['\\', 't']
  | c =>
    if c.toNat < 0x20 then
      ['\\', 'u', '0', '0', hexDigit (c.toNat / 16), hexDigit (c.toNat % 16)]
    else [c]

/-- A string with its quotes. -/
def printString (s : String) : List Char :=
  '"' :: s.toList.flatMap escapeChar ++ ['"']

/-- A real: its digits with the point where the exponent puts it, or with an exponent. -/
def printReal (negative : Bool) (digits : Nat) (exponent : Int) : List Char :=
  let ds := (toString digits).toList
  let point : Int := ds.length + exponent
  let body :=
    if digits = 0 then ['0', '.', '0']
    else if 0 ≤ exponent ∧ point ≤ 16 then ds ++ List.replicate exponent.toNat '0' ++ ['.', '0']
    else if 0 < point ∧ point ≤ 16 then ds.take point.toNat ++ '.' :: ds.drop point.toNat
    else if -5 < point ∧ point ≤ 0 then ['0', '.'] ++ List.replicate (-point).toNat '0' ++ ds
    else
      let rest := ds.drop 1
      ds.take 1 ++ (if rest.isEmpty then [] else '.' :: rest) ++
        'e' :: (toString (point - 1)).toList
  if negative then '-' :: body else body

/-- A number. -/
def Number.print : Number → List Char
  | .int n => (toString n).toList
  | .real negative digits exponent => printReal negative digits exponent

mutual

/-- A value. -/
def print : Json → List Char
  | .null => ['n', 'u', 'l', 'l']
  | .bool true => ['t', 'r', 'u', 'e']
  | .bool false => ['f', 'a', 'l', 's', 'e']
  | .num n => n.print
  | .str s => printString s
  | .unpaired => ['"', '\\', 'u', 'd', '8', '0', '0', '"']
  | .arr items => '[' :: printItems items ++ [']']
  | .obj members => '{' :: printMembers members ++ ['}']

/-- Items with commas between them. -/
def printItems : List Json → List Char
  | [] => []
  | [item] => print item
  | item :: rest => print item ++ ',' :: printItems rest

/-- Members with commas between them. -/
def printMembers : List (String × Json) → List Char
  | [] => []
  | [(name, value)] => printString name ++ ':' :: print value
  | (name, value) :: rest => printString name ++ ':' :: print value ++ ',' :: printMembers rest

end

/-- The text of a value. -/
def toText (v : Json) : String :=
  String.ofList v.print

end PushBuild.Json
