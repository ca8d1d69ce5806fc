import PushBuild.Proofs.Text.Integer
import PushBuild.Store.Memory

/-!
# One version, one object

A write that is made on the basis of a version is refused when another write came in between.  That
the version is enough to notice it rests on one fact, which is the same for every kind of object: of
all that was ever stored under one key, one version has one.

1. **One step.**  `MemoryStore.Renews` says how a store may change: of the objects of a kind, each
   is what it was, or has a version above all earlier ones.
2. **All stores** (`Dated`).  Of the objects in a number of stores every version was given, and of
   one key one version has one.  A store that is renewed may be added (`Dated.next`).
-/

namespace PushBuild

variable {α : Type} {held : MemoryStore → SortedMap ObjectKey α} {version : α → Option String}

/-- From the store `s` to the store `t`, an object is what it was, or has a version above all
before. -/
structure MemoryStore.Renews (held : MemoryStore → SortedMap ObjectKey α)
    (version : α → Option String) (s t : MemoryStore) : Prop where
  lastVersion_le : s.lastVersion ≤ t.lastVersion
  object : ∀ key, (held t).get? key = (held s).get? key ∨ ∃ a, (held t).get? key = some a ∧
    version a = some (toString t.lastVersion) ∧ s.lastVersion < t.lastVersion

namespace MemoryStore.Renews

variable {s t : MemoryStore}

/-- Objects that are left alone are renewed, in this weak sense. -/
theorem of_eq (hle : s.lastVersion ≤ t.lastVersion) (h : held t = held s) :
    Renews held version s t := ⟨hle, fun key => Or.inl (by rw [h])⟩

/-- An object with a new version is stored. -/
theorem of_insert {key : ObjectKey} {a : α} (hversion : version a = some (toString t.lastVersion))
    (hlt : s.lastVersion < t.lastVersion) (h : held t = (held s).insert key a) :
    Renews held version s t := by
  refine ⟨Nat.le_of_lt hlt, fun other => ?_⟩
  rw [h, SortedMap.get?_insert]
  split
  · exact Or.inr ⟨a, rfl, hversion, hlt⟩
  · exact Or.inl rfl

end MemoryStore.Renews

/-- Of the objects in these stores every version was given, up to `last`, and of one key one version
has one. -/
structure Dated (held : MemoryStore → SortedMap ObjectKey α) (version : α → Option String)
    (last : Nat) (stores : List MemoryStore) : Prop where
  given : ∀ {s key a}, s ∈ stores → (held s).get? key = some a →
    ∃ n ≤ last, version a = some (toString n)
  unique : ∀ {s s' key a a'}, s ∈ stores → s' ∈ stores → (held s).get? key = some a →
    (held s').get? key = some a' → version a = version a' → a = a'

namespace Dated

variable {s t : MemoryStore} {stores : List MemoryStore} {last : Nat}

/-- In one store a key has one object. -/
theorem one
    (h : ∀ {key a}, (held s).get? key = some a → ∃ n ≤ last, version a = some (toString n)) :
    Dated held version last [s] := by
  constructor
  · intro s' key a hs' ha
    rw [List.mem_singleton.mp hs'] at ha
    exact h ha
  · intro s' s'' key a a' hs' hs'' ha ha' _
    rw [List.mem_singleton.mp hs'] at ha
    rw [List.mem_singleton.mp hs''] at ha'
    exact Option.some.inj (ha.symm.trans ha')

/-- **A store that is renewed keeps the versions apart.**  A new object of the store has a version
above all that were given, so it shares none with an older one. -/
theorem next (h : Dated held version s.lastVersion stores) (hs : s ∈ stores)
    (hrenews : s.Renews held version t) : Dated held version t.lastVersion (t :: stores) := by
  -- an object of the new store was stored before, or has the new version
  have hobject : ∀ {s' key a}, s' ∈ t :: stores → (held s').get? key = some a →
      (∃ s' ∈ stores, (held s').get? key = some a) ∨ ((held t).get? key = some a ∧
        version a = some (toString t.lastVersion) ∧ s.lastVersion < t.lastVersion) := by
    intro s' key a hs' ha
    rcases List.mem_cons.mp hs' with rfl | hs'
    · rcases hrenews.object key with heq | ⟨a', ha', hnew⟩
      · exact Or.inl ⟨s, hs, heq ▸ ha⟩
      · rw [ha] at ha'
        exact Or.inr ⟨ha, Option.some.inj ha' ▸ hnew⟩
    · exact Or.inl ⟨s', hs', ha⟩
  -- a version that was given before is not the new one
  have hfresh : ∀ {s' key a}, s' ∈ stores → (held s').get? key = some a →
      s.lastVersion < t.lastVersion → version a ≠ some (toString t.lastVersion) := by
    intro s' key a hs' ha hlt heq
    obtain ⟨n, hn, hversion⟩ := h.given hs' ha
    rw [hversion, Option.some_inj, Nat.toString_eq_repr, Nat.toString_eq_repr, repr_inj] at heq
    omega
  constructor
  · intro s' key a hs' ha
    rcases hobject hs' ha with ⟨s', hs', ha⟩ | ⟨-, hversion, -⟩
    · obtain ⟨n, hn, hversion⟩ := h.given hs' ha
      exact ⟨n, Nat.le_trans hn hrenews.lastVersion_le, hversion⟩
    · exact ⟨_, Nat.le_refl _, hversion⟩
  · intro s₁ s₂ key a a' hs₁ hs₂ ha ha' heq
    rcases hobject hs₁ ha with ⟨s₁, hs₁, ha⟩ | ⟨ha, hversion, hlt⟩ <;>
      rcases hobject hs₂ ha' with ⟨s₂, hs₂, ha'⟩ | ⟨ha', hversion', hlt'⟩
    · exact h.unique hs₁ hs₂ ha ha' heq
    · exact absurd (heq.trans hversion') (hfresh hs₁ ha hlt')
    · exact absurd (heq.symm.trans hversion) (hfresh hs₂ ha' hlt)
    · exact Option.some.inj (ha.symm.trans ha')

end Dated

end PushBuild
