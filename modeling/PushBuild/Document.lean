import PushBuild.Json.Reader
import PushBuild.SortedMap
import PushBuild.Time.Rfc3339

/-!
What typed data are read from.

Settings and resources come as documents of more than one format.  A reader of typed data does not
care which: it asks a node of the document for what it needs, a text, an integer, a record, and the
format decides what counts as one.  `Document` lists these questions, `Record` is what a reader of
records works on.  Every failure is the same: the document does not hold such data.
-/

namespace PushBuild

/-- A format whose nodes have type `ν`, as typed data see it. -/
class Document (ν : Type) where
  /-- a text -/
  text? : ν → Option String
  /-- an integer, of any size the format can tell from other numbers -/
  integer? : ν → Option Int
  /-- an integer that is not negative, in the way the format writes those -/
  natural? : ν → Option Nat
  /-- a truth value -/
  truth? : ν → Option Bool
  /-- a list -/
  items? : ν → Option (List ν)
  /-- the members of a map from text -/
  members? : ν → Option (List (String × ν))
  /-- a record with fields of these names, in a format that can also list their values in order -/
  fields? : List String → ν → Option (List (String × ν))
  /-- the name of an alternative without data -/
  choice? : ν → Option String
  /-- whether an optional value is absent here -/
  isAbsent : ν → Bool
  /-- data of no particular type -/
  opaque? : ν → Option Json

/-- The fields of a record as the document gives them, in its order, repetitions included. -/
structure Record (ν : Type) where
  fields : List (String × ν)

namespace Record

variable {ν α : Type} [Document ν]

/-- The record at `d`, whose fields are among `names`; other fields are ignored. -/
def at? (names : List String) (d : ν) : Option (Record ν) := do
  let fields ← Document.fields? names d
  return ⟨fields.filter fun f => names.contains f.1⟩

/-- The record at `d`, which may have no fields but `names`. -/
def closed? (names : List String) (d : ν) : Option (Record ν) := do
  let fields ← Document.fields? names d
  if fields.all fun f => names.contains f.1 then some ⟨fields⟩ else none

/-- The record at `d` in a format where only maps are records and the last of several fields of
one name counts. -/
def lastOf? (d : ν) : Option (Record ν) := do
  return ⟨Json.lastMembers (← Document.members? d)⟩

omit [Document ν] in
/-- Whether the record has two fields of one name. -/
def hasRepetition (r : Record ν) (name : String) : Bool :=
  1 < (r.fields.filter (·.1 == name)).length

omit [Document ν] in
/-- The field of that name, if there is one; a repetition is a failure. -/
def find? (r : Record ν) (name : String) : Option (Option ν) :=
  if r.hasRepetition name then none else some ((r.fields.find? (·.1 == name)).map (·.2))

omit [Document ν] in
/-- A field that has to be there. -/
def required (r : Record ν) (name : String) (read : ν → Option α) : Option α := do
  read (← (← r.find? name))

omit [Document ν] in
/-- A field with a value to take if it is missing. -/
def withDefault (r : Record ν) (name : String) (value : α) (read : ν → Option α) : Option α := do
  match ← r.find? name with
  | some d => read d
  | none => some value

/-- A field that may be missing or absent. -/
def optional (r : Record ν) (name : String) (read : ν → Option α) : Option (Option α) := do
  match ← r.find? name with
  | some d => if Document.isAbsent d then some none else (read d).map some
  | none => some none

end Record

namespace Document

variable {ν α : Type} [Document ν]

/-- A signed integer of 64 bits. -/
def int64? (d : ν) : Option Int := do
  let n ← integer? d
  if -9223372036854775808 ≤ n ∧ n ≤ 9223372036854775807 then some n else none

/-- An unsigned integer of 64 bits. -/
def uint64? (d : ν) : Option UInt64 := do
  let n ← natural? d
  if n < UInt64.size then some (UInt64.ofNat n) else none

/-- An unsigned integer of 32 bits. -/
def uint32? (d : ν) : Option UInt32 := do
  let n ← natural? d
  if n < UInt32.size then some (UInt32.ofNat n) else none

/-- A list of which every item reads. -/
def list? (read : ν → Option α) (d : ν) : Option (List α) := do
  (← items? d).mapM read

/-- A map from text of which every value reads; of two members of one name the later counts. -/
def map? (read : ν → Option α) (d : ν) : Option (SortedMap String α) := do
  let entries ← (← members? d).mapM fun (name, value) => do return (name, ← read value)
  return SortedMap.ofList entries

/-- An instant, as a text. -/
def instant? (d : ν) : Option Instant := do
  Instant.ofText? (← text? d)

end Document

namespace Json

/-- An integer of a JSON text; a number that is written as a real is none. -/
def integer? : Json → Option Int
  | .num (.int n) => some n
  | _ => none

/-- An integer that is not negative. -/
def natural? : Json → Option Nat
  | .num (.int n) => if 0 ≤ n then some n.toNat else none
  | _ => none

/-- A record of a JSON text: an object, or an array of the values of its fields in order, which may
stop early. -/
def fields? (names : List String) : Json → Option (List (String × Json))
  | .obj members => some members
  | .arr items => if items.length ≤ names.length then some (names.zip items) else none
  | _ => none

/-- The name of an alternative: a string, or an object with that one name and no data. -/
def choice? : Json → Option String
  | .str name => some name
  | .obj [(name, .null)] => some name
  | _ => none

instance : Document Json where
  text? := Json.text?
  integer? := integer?
  natural? := natural?
  truth? | .bool b => some b | _ => none
  items? | .arr items => some items | _ => none
  members? | .obj members => some members | _ => none
  fields? := fields?
  choice? := choice?
  isAbsent | .null => true | _ => false
  opaque? := settled?

/-- An instant as JSON. -/
def ofInstant (t : Instant) : Json := .str t.toText

/-- A map as JSON. -/
def ofMap {α : Type} (encode : α → Json) (m : SortedMap String α) : Json :=
  .obj (m.mapValues encode).entries

/-- A list as JSON. -/
def ofList {α : Type} (encode : α → Json) (items : List α) : Json :=
  .arr (items.map encode)

end Json

end PushBuild
