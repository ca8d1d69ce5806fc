import PushBuild.Document

/-!
# Merge patches

The server keeps resources as JSON and is sent changes as merge patches (RFC 7396): an object
changes the members that it has, null takes a member away, and any other value takes the place of
what was there.

1. **The merge.**  `Json.merge` follows the document rule by rule.  The order of the members of an
   object does not count, and a member that is changed goes to the end.
2. **Members.**  What a merge leaves under a name is told by the change of that name alone
   (`only_mergeMembers`), and without such a change it is what was there
   (`only_mergeMembers_of_not_mem`).
3. **Records.**  A record shows of a field what is left under its name (`Record.find?_eq`).
   `Record.Follows` says that it shows the fields of an object after a merge, `Record.Shows` that it
   shows those of an object as it is.
4. **Encodings that replace.**  `Replaces` says of an encoding that it is read back whatever it was
   merged into.  A value that is no object replaces what was there as a whole; an object does if
   each of its fields does (`Replaces.of_record`).
-/

namespace PushBuild

namespace Json

/-! ## The merge -/

/-- The members of an object, and none of any other value. -/
def objectMembers : Json → List (String × Json)
  | .obj members => members
  | _ => []

mutual

/-- A value after a merge patch. -/
def merge : Json → Json → Json
  | target, .obj changes => .obj (mergeMembers target.objectMembers changes)
  | _, patch => patch

/-- The members of an object after some changes, one after the other. -/
def mergeMembers : List (String × Json) → List (String × Json) → List (String × Json)
  | members, [] => members
  | members, (name, patch) :: rest =>
    let others := members.filter (·.1 != name)
    if patch = .null then mergeMembers others rest
    else mergeMembers
      (others ++ [(name, merge (((Json.obj members).field? name).getD .null) patch)]) rest

end

/-- An object merges its members into those that were there; what was no object had none. -/
theorem merge_obj (target : Json) (changes : List (String × Json)) :
    merge target (.obj changes) = .obj (mergeMembers target.objectMembers changes) := by
  rw [merge]

/-- What is no object takes the place of what was there. -/
theorem merge_of_not_obj {patch : Json} (h : ∀ changes, patch = .obj changes → False) (old : Json) :
    merge old patch = patch := by
  rw [merge]
  exact h

example :
    merge (.obj [("a", .obj [("b", .str "c")])])
      (.obj [("a", .obj [("b", .str "d"), ("c", .null)])]) =
    .obj [("a", .obj [("b", .str "d")])] := by decide

/-! ## Members -/

/-- The members of that name. -/
def only (name : String) (members : List (String × Json)) : List (String × Json) :=
  members.filter (·.1 == name)

section

variable {name other : String} {members changes : List (String × Json)} {value patch : Json}

/-- Members of a name are told part by part, which is how lists of members are gone through
below. -/
theorem only_append (name : String) (members more : List (String × Json)) :
    only name (members ++ more) = only name members ++ only name more := List.filter_append ..

theorem only_singleton (name : String) (value : Json) :
    only name [(name, value)] = [(name, value)] := by
  simp [only]

/-- A member of another name is none of that name. -/
theorem only_singleton_of_ne (h : other ≠ name) (value : Json) :
    only name [(other, value)] = [] := by
  simp [only, h]

/-- Nothing is left of a name that is taken away, and all of another one. -/
theorem only_filter_self (name : String) (members : List (String × Json)) :
    only name (members.filter (·.1 != name)) = [] := by
  rw [only, List.filter_filter, List.filter_eq_nil_iff]
  intro m _
  simp

theorem only_filter_of_ne (h : other ≠ name) (members : List (String × Json)) :
    only name (members.filter (·.1 != other)) = only name members := by
  rw [only, List.filter_filter]
  refine List.filter_congr fun m _ => ?_
  by_cases hm : m.1 = name
  · simp [hm, Ne.symm h]
  · simp [hm]

/-- The value under a name is that of the last member of that name. -/
theorem field?_eq (name : String) (members : List (String × Json)) :
    (Json.obj members).field? name = ((only name members).getLast?).map (·.2) := by
  rw [field?, only, ← List.head?_filter, List.filter_reverse, List.head?_reverse]

/-- **A name that is not changed** keeps its members. -/
theorem only_mergeMembers_of_not_mem (h : name ∉ changes.map (·.1)) :
    only name (mergeMembers members changes) = only name members := by
  induction changes generalizing members with
  | nil => rw [mergeMembers]
  | cons change rest ih =>
    obtain ⟨other, patch⟩ := change
    rw [List.map_cons, List.mem_cons, not_or] at h
    obtain ⟨hother, hrest⟩ := h
    rw [mergeMembers]
    split
    · rw [ih hrest, only_filter_of_ne (Ne.symm hother)]
    · rw [ih hrest, only_append, only_filter_of_ne (Ne.symm hother),
        only_singleton_of_ne (Ne.symm hother), List.append_nil]

/-- **A name that is changed once** has no member then, or one with the merged value. -/
theorem only_mergeMembers (hdistinct : (changes.map (·.1)).Nodup) (h : (name, patch) ∈ changes) :
    only name (mergeMembers members changes) =
      if patch = .null then []
      else [(name, merge (((Json.obj members).field? name).getD .null) patch)] := by
  induction changes generalizing members with
  | nil => exact absurd h List.not_mem_nil
  | cons change rest ih =>
    obtain ⟨other, patch'⟩ := change
    rw [List.map_cons, List.nodup_cons] at hdistinct
    obtain ⟨hfirst, hrest⟩ := hdistinct
    rw [mergeMembers]
    rcases List.mem_cons.mp h with heq | h
    · -- the change of this name comes first, and no later one concerns it
      obtain ⟨rfl, rfl⟩ := Prod.mk.inj heq
      split
      · rw [only_mergeMembers_of_not_mem hfirst, only_filter_self]
      · rw [only_mergeMembers_of_not_mem hfirst, only_append, only_filter_self, only_singleton,
          List.nil_append]
    · -- an earlier change of another name leaves what is under this one
      have hother : other ≠ name := by
        rintro rfl
        exact hfirst (List.mem_map.mpr ⟨_, h, rfl⟩)
      split
      · rw [ih hrest h, field?_eq, only_filter_of_ne hother, ← field?_eq]
      · rw [ih hrest h, field?_eq, only_append, only_filter_of_ne hother,
          only_singleton_of_ne hother, List.append_nil, ← field?_eq]

/-- Of members with distinct names, one has the name of each.  So the fields of an encoding, whose
names are written down, are found wherever they stand. -/
theorem only_of_mem (hdistinct : (members.map (·.1)).Nodup) (h : (name, value) ∈ members) :
    only name members = [(name, value)] := by
  induction members with
  | nil => exact absurd h List.not_mem_nil
  | cons member rest ih =>
    obtain ⟨other, value'⟩ := member
    rw [List.map_cons, List.nodup_cons] at hdistinct
    obtain ⟨hfirst, hrest⟩ := hdistinct
    rw [← List.singleton_append, only_append]
    rcases List.mem_cons.mp h with heq | h
    · -- the first member is the one, and no other has its name
      obtain ⟨rfl, rfl⟩ := Prod.mk.inj heq
      have hnone : only name rest = [] := by
        rw [only, List.filter_eq_nil_iff]
        intro m hm hname
        exact hfirst (List.mem_map.mpr ⟨m, hm, beq_iff_eq.mp hname⟩)
      rw [only_singleton, hnone, List.append_nil]
    · -- it is among the others, so the first member has another name
      have hother : other ≠ name := by
        rintro rfl
        exact hfirst (List.mem_map.mpr ⟨_, h, rfl⟩)
      rw [only_singleton_of_ne hother, ih hrest h, List.nil_append]

/-- What is left under a name that is changed to a value. -/
theorem field?_mergeMembers (hdistinct : (changes.map (·.1)).Nodup) (h : (name, patch) ∈ changes)
    (hnull : patch ≠ .null) : (Json.obj (mergeMembers members changes)).field? name =
      some (merge (((Json.obj members).field? name).getD .null) patch) := by
  rw [field?_eq, only_mergeMembers hdistinct h, if_neg hnull]
  rfl

/-- The last members of each name are told name by name.  An object that repeats a name is read by
its last members only, so what it shows under one name does not hang on the repetitions of
another. -/
theorem only_lastMembers (name : String) (members : List (String × Json)) :
    only name (lastMembers members) = lastMembers (only name members) := by
  induction members with
  | nil => rfl
  | cons member rest ih =>
    obtain ⟨other, value⟩ := member
    have hlast : (only other rest).reverse.find? (·.1 == other) =
        rest.reverse.find? (·.1 == other) := by
      rw [← List.head?_filter, ← List.head?_filter, List.filter_reverse, List.filter_reverse, only,
        List.filter_filter]
      simp only [Bool.and_self]
    rw [lastMembers, ← List.singleton_append, only_append]
    by_cases hname : other = name
    · -- this name: the first member takes the value of the last one, and the rest of them go
      subst hname
      have honly : only other ((other, value) :: rest) = (other, value) :: only other rest := by
        simp [only]
      have hothers : (only other (lastMembers rest)).filter (·.1 != other) = [] := by
        rw [List.filter_eq_nil_iff]
        intro m hm
        have hname := (List.mem_filter.mp hm).2
        simpa using hname
      rw [honly, lastMembers, hlast, ← ih, hothers, only_singleton, only_filter_self]
      rfl
    · -- another name: neither side has a member of it here
      have honly : only name ((other, value) :: rest) = only name rest := by
        simp [only, hname]
      rw [honly, only_singleton_of_ne hname, only_filter_of_ne hname, ih, List.nil_append]

end

end Json

/-! ## Records -/

namespace Record

variable {α : Type} {r r' : Record Json} {name : String} {value : Json} {read : Json → Option α}

/-- A field is what is left under its name. -/
theorem find?_eq (r : Record Json) (name : String) :
    r.find? name = if 1 < (Json.only name r.fields).length then none
      else some ((Json.only name r.fields).head?.map (·.2)) := by
  unfold find? hasRepetition Json.only
  rw [List.head?_filter]
  simp only [decide_eq_true_eq]

/-- Under a name without a member there is no field, -/
theorem find?_of_only_nil (h : Json.only name r.fields = []) : r.find? name = some none := by
  rw [find?_eq, h]
  rfl

/-- and under a name with one member there is its value. -/
theorem find?_of_only (h : Json.only name r.fields = [(name, value)]) :
    r.find? name = some (some value) := by
  rw [find?_eq, h]
  rfl

/-- A field is told by the members of its name alone; so are the readings of it below. -/
theorem find?_congr (h : Json.only name r'.fields = Json.only name r.fields) :
    r'.find? name = r.find? name := by
  rw [find?_eq, find?_eq, h]

theorem required_of_find? (h : r.find? name = some (some value)) :
    r.required name read = read value := by
  unfold required
  rw [h]
  rfl

/-- A field that has to be there is the only one of its name.  None is not enough, and a name that
is repeated is refused. -/
theorem required_eq_some {a : α} (h : r.required name read = some a) :
    ∃ value, Json.only name r.fields = [(name, value)] ∧ read value = some a := by
  unfold required at h
  rw [find?_eq] at h
  cases honly : Json.only name r.fields with
  | nil =>
    rw [honly] at h
    cases h
  | cons member rest =>
    obtain ⟨other, value⟩ := member
    rw [honly] at h
    cases rest with
    | nil =>
      have hname : (other, value) ∈ Json.only name r.fields := by
        rw [honly]
        exact List.mem_cons_self
      obtain rfl : other = name := by simpa using (List.mem_filter.mp hname).2
      exact ⟨value, rfl, h⟩
    | cons _ _ => cases h

theorem required_congr (h : r'.find? name = r.find? name) :
    r'.required name read = r.required name read := by
  unfold required
  rw [h]

theorem withDefault_of_find? {default : α} (h : r.find? name = some (some value)) :
    r.withDefault name default read = read value := by
  unfold withDefault
  rw [h]
  rfl

/-- A field that may be missing is read where it is there and not null, -/
theorem optional_of_find? {a : α} (h : r.find? name = some (some value)) (hvalue : value ≠ .null)
    (hread : read value = some a) : r.optional name read = some (some a) := by
  have hpresent : Document.isAbsent value = false := by
    cases value <;> first
      | rfl
      | exact absurd rfl hvalue
  unfold optional
  rw [h]
  simp [hpresent, hread]

/-- and is none where it is missing or null: a reader does not tell these apart. -/
theorem optional_of_absent (h : r.find? name = some none ∨ r.find? name = some (some .null)) :
    r.optional name read = some none := by
  unfold optional
  rcases h with h | h
  · rw [h]
    rfl
  · rw [h]
    rfl

theorem optional_congr (h : r'.find? name = r.find? name) :
    r'.optional name read = r.optional name read := by
  unfold optional
  rw [h]

/-- A record of an object is made of its members of certain names. -/
theorem at?_obj (names : List String) (members : List (String × Json)) :
    Record.at? names (Json.obj members) = some ⟨members.filter fun f => names.contains f.1⟩ := rfl

/-- Dropping the members that a record has no names for leaves those of each of its names. -/
theorem only_filter_contains {names : List String} (h : name ∈ names)
    (members : List (String × Json)) :
    Json.only name (members.filter fun f => names.contains f.1) = Json.only name members := by
  rw [Json.only, List.filter_filter]
  refine List.filter_congr fun f _ => ?_
  by_cases hf : f.1 = name
  · simp [hf, h]
  · simp [hf]

end Record

open Json (merge mergeMembers only)

/-! ## Encodings that replace -/

/-- The encoding of `a` is read back from any value that it is merged into. -/
structure Replaces {α : Type} (read : Json → Option α) (encode : α → Json) (a : α) : Prop where
  encodes : encode a ≠ .null
  merges : ∀ old, merge old (encode a) ≠ .null
  reads : ∀ old, read (merge old (encode a)) = some a

/-- A record shows of each field what a change made of some older value. -/
def Record.Follows (r : Record Json) (changes : List (String × Json)) : Prop :=
  ∀ name patch, (name, patch) ∈ changes →
    (patch = .null ∧ r.find? name = some none) ∨
    (patch ≠ .null ∧ ∃ old, r.find? name = some (some (merge old patch)))

section

variable {α : Type} {read : Json → Option α} {encode : α → Json} {a : α} {r : Record Json}
  {changes : List (String × Json)}

/-- A value that is no object takes the place of what was there. -/
theorem Replaces.of_value (hvalue : ∀ old, merge old (encode a) = encode a)
    (hnull : encode a ≠ .null) (hread : read (encode a) = some a) : Replaces read encode a := by
  refine ⟨hnull, fun old => ?_, fun old => ?_⟩
  · rw [hvalue]
    exact hnull
  · rw [hvalue]
    exact hread

/-- What is read of an object after a merge follows the changes. -/
theorem follows_merge {names : List String} (hdistinct : (changes.map (·.1)).Nodup)
    (hnames : ∀ name ∈ changes.map (·.1), name ∈ names) (members : List (String × Json)) :
    ∃ r, Record.at? names (Json.obj (mergeMembers members changes)) = some r ∧
      r.Follows changes := by
  refine ⟨_, Record.at?_obj _ _, fun name patch h => ?_⟩
  have hname : name ∈ names := hnames name (List.mem_map.mpr ⟨_, h, rfl⟩)
  have honly : only name (mergeMembers members changes) = _ := Json.only_mergeMembers hdistinct h
  rw [← Record.only_filter_contains hname] at honly
  by_cases hnull : patch = .null
  · rw [if_pos hnull] at honly
    exact Or.inl ⟨hnull, Record.find?_of_only_nil honly⟩
  · rw [if_neg hnull] at honly
    exact Or.inr ⟨hnull, _, Record.find?_of_only honly⟩

/-- **An object replaces** what was there if it is read field by field, and each field is.  The
names of the fields are those that are sent, so that nothing older than the change is read. -/
theorem Replaces.of_record {names : List String} {body : Record Json → Option α}
    (hencode : encode a = .obj changes) (hread : ∀ d, read d = (Record.at? names d).bind body)
    (hnames : changes.map (·.1) = names) (hdistinct : names.Nodup)
    (hbody : ∀ r : Record Json, r.Follows changes → body r = some a) : Replaces read encode a := by
  refine ⟨?_, fun old => ?_, fun old => ?_⟩
  · rw [hencode]
    exact nofun
  · rw [hencode, Json.merge_obj]
    exact nofun
  · -- what the merge left is read as a record that follows the changes, and of such a record the
    -- reader makes `a`
    have hdistinct : (changes.map (·.1)).Nodup := by
      rw [hnames]
      exact hdistinct
    have hsame : ∀ name ∈ changes.map (·.1), name ∈ names := fun name h => hnames ▸ h
    obtain ⟨r, hr, hfollows⟩ := follows_merge hdistinct hsame old.objectMembers
    rw [hencode, Json.merge_obj, hread, hr]
    exact hbody r hfollows

/-- A value that replaces what was there is read back from the field that it was sent in. -/
theorem Record.Follows.shows (h : r.Follows changes) {name : String}
    (hreplaces : Replaces read encode a) (hmem : (name, encode a) ∈ changes) :
    ∃ value, r.find? name = some (some value) ∧ value ≠ .null ∧
      read value = some a := by
  rcases h name _ hmem with ⟨hnull, -⟩ | ⟨-, old, hfind⟩
  · exact absurd hnull hreplaces.encodes
  · exact ⟨_, hfind, hreplaces.merges old, hreplaces.reads old⟩

theorem Record.Follows.required (h : r.Follows changes) (name : String)
    (hreplaces : Replaces read encode a) (hmem : (name, encode a) ∈ changes) :
    r.required name read = some a := by
  obtain ⟨value, hfind, -, hread⟩ := h.shows hreplaces hmem
  exact (Record.required_of_find? hfind).trans hread

theorem Record.Follows.withDefault (h : r.Follows changes) (name : String) (default : α)
    (hreplaces : Replaces read encode a) (hmem : (name, encode a) ∈ changes) :
    r.withDefault name default read = some a := by
  obtain ⟨value, hfind, -, hread⟩ := h.shows hreplaces hmem
  exact (Record.withDefault_of_find? hfind).trans hread

/-- A field without a value is sent as null, and nothing is left of it. -/
theorem Record.Follows.optional (h : r.Follows changes) (name : String) {o : Option α}
    (hreplaces : ∀ a ∈ o, Replaces read encode a)
    (hmem : (name, Json.ofOption encode o) ∈ changes) :
    r.optional name read = some o := by
  cases o with
  | none =>
    rcases h name _ hmem with ⟨-, hfind⟩ | ⟨hsome, -⟩
    · exact Record.optional_of_absent (Or.inl hfind)
    · exact absurd rfl hsome
  | some a =>
    obtain ⟨value, hfind, hvalue, hread⟩ := h.shows (hreplaces a rfl) hmem
    exact Record.optional_of_find? hfind hvalue hread

end

/-- A record shows the members of an object as they are. -/
def Record.Shows (r : Record Json) (members : List (String × Json)) : Prop :=
  ∀ name value, (name, value) ∈ members → r.find? name = some (some value)

section

variable {α : Type} {read : Json → Option α} {a : α} {r : Record Json}
  {members : List (String × Json)}

/-- An object with distinct names shows each of its members. -/
theorem shows_obj {names : List String} (hnames : members.map (·.1) = names)
    (hdistinct : names.Nodup) :
    ∃ r, Record.at? names (Json.obj members) = some r ∧ r.Shows members := by
  refine ⟨_, Record.at?_obj _ _, fun name value h => ?_⟩
  have hname : name ∈ names := by
    rw [← hnames]
    exact List.mem_map.mpr ⟨_, h, rfl⟩
  have honly := Json.only_of_mem (hnames ▸ hdistinct) h
  rw [← Record.only_filter_contains hname] at honly
  exact Record.find?_of_only honly

theorem Record.Shows.required (h : r.Shows members) (name : String) (value : Json)
    (hmem : (name, value) ∈ members) (hread : read value = some a) :
    r.required name read = some a :=
  (Record.required_of_find? (h name value hmem)).trans hread

theorem Record.Shows.withDefault (h : r.Shows members) (name : String) (default : α) (value : Json)
    (hmem : (name, value) ∈ members) (hread : read value = some a) :
    r.withDefault name default read = some a :=
  (Record.withDefault_of_find? (h name value hmem)).trans hread

theorem Record.Shows.optional (h : r.Shows members) (name : String) (encode : α → Json)
    {o : Option α} (hmem : (name, Json.ofOption encode o) ∈ members)
    (hread : ∀ a ∈ o, encode a ≠ .null ∧ read (encode a) = some a) :
    r.optional name read = some o := by
  cases o with
  | none => exact Record.optional_of_absent (Or.inr (h name .null hmem))
  | some a =>
    obtain ⟨hnull, hread⟩ := hread a rfl
    exact Record.optional_of_find? (h name _ hmem) hnull hread

end

end PushBuild
