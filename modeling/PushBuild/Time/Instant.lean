import PushBuild.Time.Calendar
import PushBuild.Time.Duration

/-!
Instants of universal time, exact to the nanosecond, with leap seconds.

A leap second lengthens the last second of a minute: its instants carry that second and more than
a thousand million nanoseconds.  The years an instant can lie in are bounded, so adding a window may
have no result; `deadline` then takes the latest instant.
-/

namespace PushBuild

/-- An instant, as seconds since the start of 1970 and nanoseconds since that second. -/
structure Instant where
  seconds : Int
  nanos : Nat
  nanos_lt : nanos < 2000000000
  leap : 1000000000 ≤ nanos → seconds % 60 = 59
  earliest_le : -8334601228800 ≤ seconds
  le_latest : seconds ≤ 8210266876799
deriving Repr, DecidableEq

namespace Instant

/-- The instant with the given parts, if there is one. -/
def ofParts? (seconds : Int) (nanos : Nat) : Option Instant :=
  if h : nanos < 2000000000 ∧ (1000000000 ≤ nanos → seconds % 60 = 59) ∧
      -8334601228800 ≤ seconds ∧ seconds ≤ 8210266876799 then
    some ⟨seconds, nanos, h.1, h.2.1, h.2.2.1, h.2.2.2⟩
  else none

/-- The last nanosecond of the year 262142. -/
def latest : Instant :=
  ⟨8210266876799, 999999999, by decide, by decide, by decide, by decide⟩

/-- The start of 1970. -/
def epoch : Instant := ⟨0, 0, by decide, by decide, by decide, by decide⟩

/-- The second of the day, from 0 to 86399. -/
def secondOfDay (t : Instant) : Int := t.seconds % 86400

/-- Nanoseconds from `earlier` to `t`.  A leap second counts if the clock time of the other instant
lies beyond it, whatever the two dates. -/
def since (t earlier : Instant) : Int :=
  let extra : Int :=
    if earlier.secondOfDay < t.secondOfDay ∧ 1000000000 ≤ earlier.nanos then 1
    else if t.secondOfDay < earlier.secondOfDay ∧ 1000000000 ≤ t.nanos then -1
    else 0
  (t.seconds - earlier.seconds + extra) * 1000000000 + ((t.nanos : Int) - earlier.nanos)

/-- `t` moved by a window, if that is still an instant.  From within a leap second, a move that
leaves it counts the whole leap second as passed when moving on, and none of it when moving back. -/
def plus? (t : Instant) (w : Window) : Option Instant :=
  let wholeSeconds := w.millis.tdiv 1000
  let rest := w.millis.tmod 1000 * 1000000
  if 1000000000 ≤ t.nanos ∧ wholeSeconds = 0 ∧ (t.nanos : Int) + rest < 2000000000 then
    ofParts? t.seconds ((t.nanos : Int) + rest).toNat
  else
    let start : Int × Int :=
      if 1000000000 ≤ t.nanos then
        (if wholeSeconds < 0 then t.seconds + 1 else t.seconds, (t.nanos : Int) - 1000000000)
      else (t.seconds, t.nanos)
    let nanos := start.2 + rest
    ofParts? (start.1 + wholeSeconds + nanos / 1000000000) (nanos % 1000000000).toNat

/-- When a window that opens at `start` closes, and the latest instant if it never does. -/
def deadline (start : Instant) (w : Window) : Instant :=
  (start.plus? w).getD latest

/-- How long it is from `now` until `t`, if `t` is still to come. -/
def remaining? (t now : Instant) : Option Duration :=
  if 0 < t.since now then some ⟨(t.since now).toNat⟩ else none

end Instant

end PushBuild
