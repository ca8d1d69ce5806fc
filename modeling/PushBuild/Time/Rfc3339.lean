import PushBuild.Text.Blank
import PushBuild.Text.Bytes
import PushBuild.Time.Instant

/-!
Instants as text, after RFC 3339.

Writing is strict: universal time with `Z`, and as few groups of three fraction digits as show the
instant exactly.  Reading is relaxed: blanks before each part, one-digit parts, years with a sign
and any number of digits, a small `t` or a blank between date and time, any number of fraction
digits (past the ninth they are dropped), and a zone that is `Z`, `UTC` or an offset whose hours and
minutes may be separated by colons and blanks.  The zone has to be there.
-/

namespace PushBuild.Instant

open PushBuild.Text PushBuild.Calendar

/-- The year in at least four digits; with a sign outside the years 0 to 9999. -/
def yearText (year : Int) : String :=
  if year < 0 then "-" ++ padded 4 year.natAbs
  else if 9999 < year then "+" ++ padded 4 year.natAbs
  else padded 4 year.natAbs

/-- The fraction of a second, in no, three, six or nine digits. -/
def fractionText (nanos : Nat) : String :=
  if nanos = 0 then ""
  else if nanos % 1000000 = 0 then "." ++ padded 3 (nanos / 1000000)
  else if nanos % 1000 = 0 then "." ++ padded 6 (nanos / 1000)
  else "." ++ padded 9 nanos

/-- `t` in universal time with this text for the fraction.  A leap second is written as second
60. -/
def textWith (fraction : String) (t : Instant) : String :=
  let date := Date.ofDays (t.seconds / 86400)
  let second := t.secondOfDay.toNat
  let inLeap := 1000000000 ≤ t.nanos
  yearText date.year ++ "-" ++ padded 2 date.month ++ "-" ++ padded 2 date.day ++ "T" ++
    padded 2 (second / 3600) ++ ":" ++ padded 2 (second / 60 % 60) ++ ":" ++
    padded 2 (second % 60 + if inLeap then 1 else 0) ++ fraction ++ "Z"

/-- `t` in universal time, exactly. -/
def toText (t : Instant) : String :=
  t.textWith (fractionText (t.nanos % 1000000000))

/-- `t` in universal time to the second, what is beyond it left off. -/
def toSecondsText (t : Instant) : String :=
  t.textWith ""

/-- The digits at the front of `cs`, at most `width` of them, as a number; at least one is needed.
-/
def readNumber? (width : Nat) (cs : List Char) : Option (Nat × List Char) :=
  let digits := (cs.take width).takeWhile isDigit
  if digits.isEmpty then none
  else some (digits.foldl (fun n c => n * 10 + digitValue c) 0, cs.drop digits.length)

/-- A number of one or two digits, with blanks before it. -/
def readTwo? (cs : List Char) : Option (Nat × List Char) :=
  readNumber? 2 (cs.dropWhile isBlank)

/-- The character `c`, with blanks before it. -/
def readMark? (c : Char) (cs : List Char) : Option (List Char) :=
  match cs.dropWhile isBlank with
  | d :: rest => if d = c then some rest else none
  | [] => none

/-- The year: up to four digits, or a sign and any number of them. -/
def readYear? (cs : List Char) : Option (Int × List Char) :=
  match cs.dropWhile isBlank with
  | '-' :: rest => (readNumber? rest.length rest).map fun (n, rest) => (-n, rest)
  | '+' :: rest => (readNumber? rest.length rest).map fun (n, rest) => (n, rest)
  | cs => (readNumber? 4 cs).map fun (n, rest) => (n, rest)

/-- The fraction of a second in nanoseconds, 0 if there is none. -/
def readFraction? : List Char → Option (Nat × List Char)
  | '.' :: cs =>
    let digits := cs.takeWhile isDigit
    if digits.isEmpty then none
    else
      let kept := digits.take 9
      let n := kept.foldl (fun n c => n * 10 + digitValue c) 0
      some (n * Nat.pow 10 (9 - kept.length), cs.drop digits.length)
  | cs => some (0, cs)

/-- The minutes of an offset, after any colons and blanks; below 60. -/
def readOffsetMinutes? (cs : List Char) : Option (Nat × List Char) :=
  match cs.dropWhile (fun c => c == ':' || isBlank c) with
  | a :: b :: rest =>
    if '0' ≤ a && a ≤ '5' && isDigit b then some (digitValue a * 10 + digitValue b, rest) else none
  | _ => none

/-- The seconds by which local time is ahead of universal time. -/
def readZone? (cs : List Char) : Option (Int × List Char) :=
  match cs with
  | 'Z' :: rest | 'z' :: rest => some (0, rest)
  | [] => none
  | sign :: rest =>
    if cs.take 3 |>.map Char.toLower |> (· == ['u', 't', 'c']) then some (0, cs.drop 3)
    else if sign == '+' || sign == '-' || sign == '\u2212' then
      match rest with
      | a :: b :: rest =>
        if isDigit a && isDigit b then do
          let (minutes, rest) ← readOffsetMinutes? rest
          let seconds : Int := (digitValue a * 10 + digitValue b) * 3600 + minutes * 60
          if seconds < 86400 then some (if sign == '+' then seconds else -seconds, rest) else none
        else none
      | _ => none
    else none

/-- The instant of a date and time of day in a zone. -/
def ofLocal? (date : Date) (hour minute second nanos : Nat) (offset : Int) : Option Instant :=
  if date.isValid && hour ≤ 23 && minute ≤ 59 && second ≤ 60 then
    let days := date.toDays
    let clock : Nat := hour * 3600 + minute * 60 + min second 59
    let nanos := if second = 60 then nanos + 1000000000 else nanos
    match ofParts? (days * 86400 + clock) nanos with
    | some _ => ofParts? (days * 86400 + clock - offset) nanos
    | none => none
  else none

/-- The instant that `s` writes, if it writes one. -/
def ofText? (s : String) : Option Instant := do
  let (year, cs) ← readYear? s.toList
  let cs ← readMark? '-' cs
  let (month, cs) ← readTwo? cs
  let cs ← readMark? '-' cs
  let (day, cs) ← readTwo? cs
  let cs ← match cs with
    | c :: cs => if c == 'T' || c == 't' || c == ' ' then some cs else none
    | [] => none
  let (hour, cs) ← readTwo? cs
  let cs ← readMark? ':' cs
  let (minute, cs) ← readTwo? cs
  let cs ← readMark? ':' cs
  let (second, cs) ← readTwo? cs
  let (nanos, cs) ← readFraction? cs
  let (offset, cs) ← readZone? (cs.dropWhile isBlank)
  if cs.all isBlank then ofLocal? ⟨year, month, day⟩ hour minute second nanos offset else none

end PushBuild.Instant
