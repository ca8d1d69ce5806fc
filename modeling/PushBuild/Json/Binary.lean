import PushBuild.Json.Value

/-!
Real numbers of a JSON text as binary floating point of 64 bits.

A positive number of that format is `m * 2 ^ q` with `m` below `2 ^ 53` and `q` at least -1074.
`nearest` rounds a quotient of natural numbers to one, halves to even.  A decimal is read in two
steps, digits first and then the power of ten, each rounded; it is written with the fewest digits
that read back, and of those with the nearest.
-/

namespace PushBuild.Json

/-- `m * 2 ^ q`. -/
structure Binary where
  m : Nat
  q : Int
deriving Repr, DecidableEq

namespace Binary

/-- `n / d` to the nearest integer, halves to even. -/
def roundDiv (n d : Nat) : Nat :=
  let quotient := n / d
  let twice := 2 * (n % d)
  if twice < d then quotient
  else if d < twice then quotient + 1
  else quotient + quotient % 2

/-- `n * 2 ^ k / d` as a quotient of natural numbers. -/
def scaled (n d : Nat) (k : Int) : Nat × Nat :=
  if 0 ≤ k then (n * Nat.pow 2 k.toNat, d) else (n, d * Nat.pow 2 (-k).toNat)

/-- The binary number nearest to `n / d`, or none if it is too large for the format. -/
def nearest (n d : Nat) : Option Binary :=
  if n = 0 then some ⟨0, 0⟩
  else
    let guess : Int := (Nat.log2 n : Int) - Nat.log2 d
    let top := scaled n d (-guess)
    let log := if top.2 ≤ top.1 then guess else guess - 1
    let q := max (log - 52) (-1074)
    let (a, b) := scaled n d (-q)
    let m := roundDiv a b
    if q + (Nat.log2 m : Int) < 1024 then some ⟨m, q⟩ else none

/-- The value as a quotient of natural numbers. -/
def toQuotient (x : Binary) : Nat × Nat := scaled x.m 1 x.q

/-- The product, rounded. -/
def mul (x y : Binary) : Option Binary :=
  let (a, b) := scaled (x.m * y.m) 1 (x.q + y.q)
  nearest a b

/-- The quotient, rounded. -/
def div (x y : Binary) : Option Binary :=
  let (a, b) := scaled x.m y.m (x.q - y.q)
  nearest a b

/-- `10 ^ k`, rounded. -/
def tenTo (k : Nat) : Option Binary := nearest (Nat.pow 10 k) 1

/-- Divides by `10 ^ k`, 308 powers of ten at a time; a number that has become zero stays so. -/
def shiftDown (x : Binary) (k : Nat) : Option Binary :=
  if k ≤ 308 then do div x (← tenTo k)
  else if x.m = 0 then some x
  else do shiftDown (← div x (← tenTo 308)) (k - 308)
termination_by k

/-- `digits * 10 ^ exponent`, rounding the digits first and the result again. -/
def ofDecimal (digits : Nat) (exponent : Int) : Option Binary := do
  let x ← nearest digits 1
  if 0 ≤ exponent then
    if exponent ≤ 308 then mul x (← tenTo exponent.toNat)
    else if x.m = 0 then some x
    else none
  else shiftDown x (-exponent).toNat

/-- Whether the decimal `d * 10 ^ k` reads back as `x`: it lies between the middles of the gaps on
the two sides of `x`, the middles themselves included when `x` is even. -/
def readsBack (x : Binary) (d : Nat) (k : Int) : Bool :=
  -- everything times four, so that the gap below a power of two has an integer quarter
  let (a, b) := scaled (4 * x.m) 1 x.q
  let (p, s) := if 0 ≤ k then (4 * d * Nat.pow 10 k.toNat, 1) else (4 * d, Nat.pow 10 (-k).toNat)
  let below := if x.m = Nat.pow 2 52 ∧ -1074 < x.q then 1 else 2
  let (low, _) := scaled (4 * x.m - below) 1 x.q
  let (high, _) := scaled (4 * x.m + 2) 1 x.q
  -- `a / b` is the value; `low / b` and `high / b` are the ends
  if a = 0 then d = 0
  else if x.m % 2 = 0 then low * s ≤ p * b && p * b ≤ high * s
  else low * s < p * b && p * b < high * s

/-- The power of ten at or below `x`, for `x` not zero. -/
def log10 (x : Binary) : Int :=
  let (a, b) := x.toQuotient
  let guess := ((Nat.log2 x.m : Int) + x.q) * 30103 / 100000
  let reaches (k : Int) : Bool :=
    if 0 ≤ k then b * Nat.pow 10 k.toNat ≤ a else b ≤ a * Nat.pow 10 (-k).toNat
  if reaches (guess + 1) then guess + 1 else if reaches guess then guess else guess - 1

/-- The nearest decimal of `n` digits that reads back as `x`, if one of that many digits does. -/
def withDigits? (x : Binary) (n : Nat) : Option (Nat × Int) :=
  let k := log10 x - (n : Int) + 1
  let (a, b) := x.toQuotient
  let (p, s) := if 0 ≤ k then (a, b * Nat.pow 10 k.toNat) else (a * Nat.pow 10 (-k).toNat, b)
  let d := p / s
  let twice := 2 * (p % s)
  let up := d + 1
  let first := if twice < s then d else if s < twice then up else d + d % 2
  let second := if first = d then up else d
  if readsBack x first k then some (first, k)
  else if readsBack x second k then some (second, k)
  else none

/-- The same decimal without zeros at the end of its digits. -/
def dropZeros (d : Nat) (k : Int) : Nat × Int :=
  if h : 0 < d ∧ d % 10 = 0 then dropZeros (d / 10) (k + 1) else (d, k)
termination_by d
decreasing_by omega

/-- Digits and power of ten with the fewest digits that read back as `x`; 17 always do. -/
def toDecimal (x : Binary) : Nat × Int :=
  if x.m = 0 then (0, 0)
  else
    let (d, k) := ((List.range 17).findSome? fun n => withDigits? x (n + 1)).getD (0, 0)
    dropZeros d k

end Binary

/-- A number as the 64-bit format holds it; none for a real that is too large for it. -/
def Number.rounded? : Number → Option Number
  | .int n => some (.int n)
  | .real negative digits exponent => do
    let x ← Binary.ofDecimal digits exponent
    let (digits, exponent) := x.toDecimal
    return .real negative digits exponent

end PushBuild.Json
