/-!
JSON values as trees.

Numbers keep the distinction the readers of typed data need: an integer that fits 64 bits, signed or
unsigned, is exact; every other number is a real, given by the leading decimal digits that fit 64
bits and a power of ten.  Objects keep their members in the order of the text and keep repetitions;
whoever reads an object decides what a repetition means.
-/

namespace PushBuild

namespace Json

/-- A number: `real neg digits exponent` stands for `digits * 10 ^ exponent`, negated if `neg`. -/
inductive Number where
  | int (value : Int)
  | real (negative : Bool) (digits : Nat) (exponent : Int)
deriving Repr, DecidableEq

/-- The integers that are kept exact: those of 64 bits, signed or unsigned. -/
def isExact (n : Int) : Bool :=
  -9223372036854775808 ≤ n && n ≤ 18446744073709551615

end Json

/-- A JSON value.  `unpaired` is a string whose escapes name half of a surrogate pair: it is well
formed but denotes no text. -/
inductive Json where
  | null
  | bool (value : Bool)
  | num (value : Json.Number)
  | str (value : String)
  | unpaired
  | arr (items : List Json)
  | obj (members : List (String × Json))
deriving Repr, Inhabited

namespace Json

/-- An integer as a value. -/
abbrev int (n : Int) : Json := .num (.int n)

/-- The last member of that name. -/
def field? (name : String) : Json → Option Json
  | .obj members => (members.reverse.find? (·.1 == name)).map (·.2)
  | _ => none

/-- The text of a string. -/
def text? : Json → Option String
  | .str s => some s
  | _ => none

/-- A value, or null. -/
def ofOption {α : Type} (encode : α → Json) : Option α → Json
  | some a => encode a
  | none => .null

/-- A member that is left out when it has no value. -/
def member? {α : Type} (name : String) (encode : α → Json) : Option α → List (String × Json)
  | some a => [(name, encode a)]
  | none => []

/-- The members by name, each with the value it has last, in the order of the names' first
appearance. -/
def lastMembers {α : Type} : List (String × α) → List (String × α)
  | [] => []
  | (name, value) :: rest =>
    let value := ((rest.reverse.find? (·.1 == name)).map (·.2)).getD value
    (name, value) :: (lastMembers rest).filter (·.1 != name)

/-! ## Equality

Two values are equal when they are written alike: members are compared in their order. -/

mutual

/-- Whether two values are the same. -/
def same : Json → Json → Bool
  | .null, .null => true
  | .bool x, .bool y => x == y
  | .num x, .num y => x == y
  | .str x, .str y => x == y
  | .unpaired, .unpaired => true
  | .arr x, .arr y => sameItems x y
  | .obj x, .obj y => sameMembers x y
  | _, _ => false

/-- Whether two lists of values are the same. -/
def sameItems : List Json → List Json → Bool
  | [], [] => true
  | x :: xs, y :: ys => same x y && sameItems xs ys
  | _, _ => false

/-- Whether two lists of members are the same. -/
def sameMembers : List (String × Json) → List (String × Json) → Bool
  | [], [] => true
  | (n, x) :: xs, (m, y) :: ys => n == m && same x y && sameMembers xs ys
  | _, _ => false

end

mutual

theorem same_iff : ∀ v w : Json, same v w = true ↔ v = w
  | .null, w => by cases w <;> simp [same]
  | .bool x, w => by cases w <;> simp [same]
  | .num x, w => by cases w <;> simp [same]
  | .str x, w => by cases w <;> simp [same]
  | .unpaired, w => by cases w <;> simp [same]
  | .arr x, w => by cases w <;> simp [same, sameItems_iff x]
  | .obj x, w => by cases w <;> simp [same, sameMembers_iff x]

theorem sameItems_iff : ∀ v w : List Json, sameItems v w = true ↔ v = w
  | [], w => by cases w <;> simp [sameItems]
  | x :: xs, w => by cases w <;> simp [sameItems, same_iff x, sameItems_iff xs]

theorem sameMembers_iff : ∀ v w : List (String × Json), sameMembers v w = true ↔ v = w
  | [], w => by cases w <;> simp [sameMembers]
  | (n, x) :: xs, w => by
    cases w with
    | nil => simp [sameMembers]
    | cons y ys => obtain ⟨m, y⟩ := y; simp [sameMembers, same_iff x, sameMembers_iff xs]

end

instance : DecidableEq Json := fun v w => decidable_of_iff _ (same_iff v w)

end Json

end PushBuild
