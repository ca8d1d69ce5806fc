/-!
Finite maps kept as lists of entries in the order of their keys.

The order makes two maps with the same entries the same list when both were built by `insert`, and
it is the order in which a store lists what it holds.  Lookups do not depend on it.
-/

namespace PushBuild

/-- Entries by key. -/
structure SortedMap (κ α : Type) where
  entries : List (κ × α)
deriving Repr, DecidableEq

namespace SortedMap

variable {κ α β : Type} [DecidableEq κ] [LT κ] [DecidableLT κ]

/-- The map with no entries. -/
def empty : SortedMap κ α := ⟨[]⟩

instance : Inhabited (SortedMap κ α) := ⟨empty⟩

/-- The value under `k`. -/
def get? (m : SortedMap κ α) (k : κ) : Option α :=
  m.entries.lookup k

/-- Whether something is under `k`. -/
def contains (m : SortedMap κ α) (k : κ) : Bool :=
  (m.get? k).isSome

/-- Puts `(k, v)` into a list of entries: in place of the entry under `k`, else before the first
entry with a greater key. -/
def insertEntry (k : κ) (v : α) : List (κ × α) → List (κ × α)
  | [] => [(k, v)]
  | (j, w) :: rest =>
    if j = k then (k, v) :: rest
    else if k < j then (k, v) :: (j, w) :: rest
    else (j, w) :: insertEntry k v rest

/-- The map with `v` under `k`. -/
def insert (m : SortedMap κ α) (k : κ) (v : α) : SortedMap κ α :=
  ⟨insertEntry k v m.entries⟩

/-- The map with nothing under `k`. -/
def erase (m : SortedMap κ α) (k : κ) : SortedMap κ α :=
  ⟨m.entries.filter (fun e => ¬ e.1 = k)⟩

/-- The map of a list of entries; of two under one key the later counts. -/
def ofList (entries : List (κ × α)) : SortedMap κ α :=
  entries.foldl (fun m e => m.insert e.1 e.2) empty

/-- The values in the order of their keys. -/
def values (m : SortedMap κ α) : List α :=
  m.entries.map (·.2)

/-- The map with `f` applied to every value. -/
def mapValues (f : α → β) (m : SortedMap κ α) : SortedMap κ β :=
  ⟨m.entries.map fun e => (e.1, f e.2)⟩

omit [LT κ] [DecidableLT κ] in
@[simp] theorem get?_empty (k : κ) : (empty : SortedMap κ α).get? k = none := rfl

omit [LT κ] [DecidableLT κ] in
/-- Looking up in a list with an entry in front. -/
theorem lookup_cons_eq (j i : κ) (w : α) (rest : List (κ × α)) :
    List.lookup j ((i, w) :: rest) = if j = i then some w else List.lookup j rest := by
  by_cases h : j = i
  · simp [h]
  · have hne : (j == i) = false := by simpa using h
    rw [List.lookup_cons, hne, if_neg h]

/-- After an insertion the key holds the new value and every other key what it held. -/
@[simp] theorem get?_insert (m : SortedMap κ α) (k j : κ) (v : α) :
    (m.insert k v).get? j = if j = k then some v else m.get? j := by
  obtain ⟨entries⟩ := m
  simp only [insert, get?]
  induction entries with
  | nil => simp [insertEntry, lookup_cons_eq]
  | cons e rest ih =>
    obtain ⟨i, w⟩ := e
    simp only [insertEntry]
    split
    · next hik => subst hik; simp only [lookup_cons_eq]; split <;> rfl
    · split
      · simp only [lookup_cons_eq]
      · next hik _ =>
        simp only [lookup_cons_eq, ih]
        by_cases hj : j = i
        · subst hj; simp [hik]
        · simp [hj]

end SortedMap

end PushBuild
