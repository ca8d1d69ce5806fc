/-!
Lengths of time: `Duration`, which is never negative and exact to the nanosecond, for waits and
backoffs; and `Window`, a whole number of milliseconds of either sign, for the spans a trigger
policy is made of.
-/

namespace PushBuild

/-- A length of time, never negative. -/
structure Duration where
  nanoseconds : Nat
deriving Repr, DecidableEq

namespace Duration

def ofSeconds (n : Nat) : Duration := ⟨n * 1000000000⟩

def ofMillis (n : Nat) : Duration := ⟨n * 1000000⟩

/-- The whole seconds of `d`. -/
def seconds (d : Duration) : Nat := d.nanoseconds / 1000000000

/-- What `d` has beyond its whole seconds, in nanoseconds. -/
def subsecond (d : Duration) : Nat := d.nanoseconds % 1000000000

/-- The whole milliseconds of `d`. -/
def millis (d : Duration) : Nat := d.nanoseconds / 1000000

/-- The shorter of two. -/
def shorter (a b : Duration) : Duration :=
  if a.nanoseconds ≤ b.nanoseconds then a else b

/-- Twice as long. -/
def doubled (d : Duration) : Duration := ⟨d.nanoseconds * 2⟩

end Duration

/-- A span of time in whole milliseconds, of either sign. -/
structure Window where
  millis : Int
deriving Repr, DecidableEq

namespace Window

/-- The longest span there is. -/
def longest : Window := ⟨9223372036854775807⟩

/-- The most negative span there is. -/
def shortest : Window := ⟨-9223372036854775807⟩

/-- A number of seconds as a span; the longest span if it is longer than that. -/
def ofSeconds (n : Nat) : Window :=
  if (n : Int) * 1000 ≤ longest.millis then ⟨n * 1000⟩ else longest

end Window

end PushBuild
