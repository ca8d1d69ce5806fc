import PushBuild.Proofs.Store.Version

/-!
# The order in which a store lists

A store keeps its requests in the order of their keys, by namespace and then by name.

1. **Keys.**  Keys are ordered as pairs of texts (`ObjectKey.lt_trans`, `ObjectKey.lt_of_not_lt`).
2. **Maps.**  An insertion keeps the entries in order (`SortedMap.Sorted.insert`), and where they
   are in order an entry is what its key is looked up to (`SortedMap.Sorted.get?_of_mem`).
3. **Stores.**  Every store that the operations make has its requests in order
   (`MemoryStore.Made.sorted`), so it lists each of them once, in order
   (`MemoryStore.Made.keys_increase`).
-/

namespace PushBuild

namespace ObjectKey

variable {a b c : ObjectKey}

/-- Keys are compared by namespace, and by name within one. -/
theorem lt_def :
    a < b ↔ a.namespace < b.namespace ∨ (a.namespace = b.namespace ∧ a.name < b.name) :=
  Iff.rfl

/-- No key is before itself, -/
theorem lt_irrefl (a : ObjectKey) : ¬ a < a := by
  rintro (h | ⟨-, h⟩)
  · exact String.lt_irrefl _ h
  · exact String.lt_irrefl _ h

/-- nor is it the same as one that is before it. -/
theorem ne_of_lt (h : a < b) : a ≠ b := by
  rintro rfl
  exact lt_irrefl _ h

/-- The order is transitive -/
theorem lt_trans (h : a < b) (h' : b < c) : a < c := by
  rw [lt_def] at *
  rcases h with h | ⟨heq, h⟩ <;> rcases h' with h' | ⟨heq', h'⟩
  · exact Or.inl (String.lt_trans h h')
  · exact Or.inl (heq' ▸ h)
  · exact Or.inl (heq ▸ h')
  · exact Or.inr ⟨heq.trans heq', String.lt_trans h h'⟩

/-- and total. -/
theorem lt_of_not_lt (hne : a ≠ b) (h : ¬ a < b) : b < a := by
  rw [lt_def, not_or, not_and] at h
  obtain ⟨hnamespace, hname⟩ := h
  by_cases heq : a.namespace = b.namespace
  · have hother : a.name ≠ b.name := by
      intro hsame
      cases a
      cases b
      cases heq
      cases hsame
      exact hne rfl
    exact Or.inr ⟨heq.symm, Std.lt_of_le_of_ne (String.not_lt.mp (hname heq)) (Ne.symm hother)⟩
  · exact Or.inl (Std.lt_of_le_of_ne (String.not_lt.mp hnamespace) (Ne.symm heq))

end ObjectKey

/-! ## Maps -/

namespace SortedMap

variable {α : Type}

/-- The entries are in the order of their keys. -/
def Sorted (m : SortedMap ObjectKey α) : Prop := m.entries.Pairwise fun a b => a.1 < b.1

/-- An entry after an insertion is the new one or an old one. -/
theorem mem_insertEntry {k : ObjectKey} {v : α} {e : ObjectKey × α} {l : List (ObjectKey × α)}
    (h : e ∈ insertEntry k v l) : e = (k, v) ∨ e ∈ l := by
  induction l with
  | nil => exact Or.inl (List.mem_singleton.mp h)
  | cons a l ih =>
    unfold insertEntry at h
    split at h
    · rcases List.mem_cons.mp h with h | h
      · exact Or.inl h
      · exact Or.inr (List.mem_cons_of_mem _ h)
    · split at h
      · exact List.mem_cons.mp h
      · rcases List.mem_cons.mp h with rfl | h
        · exact Or.inr List.mem_cons_self
        · exact (ih h).imp id (List.mem_cons_of_mem _)

/-- An insertion into entries in order leaves them in order. -/
theorem pairwise_insertEntry {l : List (ObjectKey × α)} (h : l.Pairwise fun a b => a.1 < b.1)
    (k : ObjectKey) (v : α) : (insertEntry k v l).Pairwise fun a b => a.1 < b.1 := by
  induction l with
  | nil => exact List.pairwise_singleton _ _
  | cons a rest ih =>
    obtain ⟨j, w⟩ := a
    obtain ⟨hfirst, hrest⟩ := List.pairwise_cons.mp h
    unfold insertEntry
    split
    · -- the entry of this key is replaced
      next hjk => exact List.Pairwise.cons (fun e he => hjk ▸ hfirst e he) hrest
    · next hjk =>
      split
      · -- the new entry comes first
        next hlt =>
        refine List.Pairwise.cons (fun e he => ?_) h
        rcases List.mem_cons.mp he with rfl | he
        · exact hlt
        · exact ObjectKey.lt_trans hlt (hfirst e he)
      · -- the new entry comes later
        next hge =>
        refine List.Pairwise.cons (fun e he => ?_) (ih hrest)
        rcases mem_insertEntry he with rfl | he
        · exact ObjectKey.lt_of_not_lt (Ne.symm hjk) hge
        · exact hfirst e he

/-- So a map stays in order. -/
theorem Sorted.insert {m : SortedMap ObjectKey α} (h : m.Sorted) (k : ObjectKey) (v : α) :
    (m.insert k v).Sorted := pairwise_insertEntry h k v

/-- Among entries in order none hides another. -/
theorem lookup_of_mem {l : List (ObjectKey × α)} (h : l.Pairwise fun a b => a.1 < b.1)
    {k : ObjectKey} {v : α} (hmem : (k, v) ∈ l) : l.lookup k = some v := by
  induction l with
  | nil => exact absurd hmem List.not_mem_nil
  | cons a rest ih =>
    obtain ⟨j, w⟩ := a
    obtain ⟨hfirst, hrest⟩ := List.pairwise_cons.mp h
    rw [lookup_cons_eq]
    rcases List.mem_cons.mp hmem with heq | hmem
    · obtain ⟨rfl, rfl⟩ := Prod.mk.inj heq
      rw [if_pos rfl]
    · have hne : k ≠ j := fun heq => ObjectKey.lt_irrefl j (heq ▸ hfirst _ hmem)
      rw [if_neg hne]
      exact ih hrest hmem

/-- An entry of a map in order is what its key is looked up to. -/
theorem Sorted.get?_of_mem {m : SortedMap ObjectKey α} (h : m.Sorted) {k : ObjectKey} {v : α}
    (hmem : (k, v) ∈ m.entries) : m.get? k = some v := lookup_of_mem h hmem

end SortedMap

/-! ## Stores -/

/-- What acts do keeps the requests in order. -/
theorem Act.RequestEffect.sorted {act : Act} {s t : MemoryStore} (h : act.RequestEffect s t)
    (hs : s.requests.Sorted) : t.requests.Sorted := by
  have hsame : t.requests = s.requests → t.requests.Sorted := fun heq => heq ▸ hs
  cases act with
  | updateRequestStatus request answer =>
    cases answer with
    | error e => exact hsame h
    | ok written =>
      obtain ⟨_, _, _, _, ht, _⟩ := h
      exact ht ▸ hs.insert _ _
  | setRequestLabel key label value answer =>
    cases answer with
    | error e => exact hsame h
    | ok _ =>
      obtain ⟨_, _, ht, _⟩ := h
      exact ht ▸ hs.insert _ _
  | _ => exact hsame h

/-- What others do keeps the requests in order. -/
theorem Deed.sorted (deed : Deed) {s : MemoryStore} (hs : s.requests.Sorted) :
    (deed.apply s).requests.Sorted := by
  have heffect := deed.requestEffect s
  have hsame : (deed.apply s).requests = s.requests → (deed.apply s).requests.Sorted :=
    fun heq => heq ▸ hs
  cases deed with
  | insertRequest request =>
    obtain ⟨_, _, _, ht, _⟩ := heffect
    exact ht ▸ hs.insert _ _
  | updateSpec key spec =>
    rcases heffect with ⟨-, ht⟩ | ⟨_, _, ht, _⟩
    · exact hsame ht
    · exact ht ▸ hs.insert _ _
  | setLabel key label value =>
    rcases heffect with ⟨-, ht⟩ | ⟨_, _, ht, _⟩
    · exact hsame ht
    · exact ht ▸ hs.insert _ _
  | _ => exact hsame heffect

namespace MemoryStore

variable {s : MemoryStore}

/-- **Stores list in order**, whatever made them. -/
theorem Made.sorted (h : s.Made) : s.requests.Sorted := by
  induction h with
  | empty => exact List.Pairwise.nil
  | call call _ ih =>
    obtain ⟨-, heffect, -⟩ := (call.act_served _ Instant.epoch).effects []
    exact heffect.sorted ih
  | deed deed _ ih => exact deed.sorted ih

/-- A request that is listed is found under its key. -/
theorem Made.get?_of_listed (h : s.Made) {r : BuildRequest} (hr : r ∈ s.requests.values) :
    s.requests.get? r.key = some r := by
  obtain ⟨⟨k, r'⟩, hmem, rfl⟩ := List.mem_map.mp hr
  have hget := h.sorted.get?_of_mem hmem
  rw [h.wellFormed.key_eq hget]
  exact hget

/-- The keys of the requests increase as they are listed. -/
theorem Made.keys_increase (h : s.Made) :
    s.requests.values.Pairwise fun r r' => r.key < r'.key := by
  refine List.pairwise_map.mpr (h.sorted.imp_of_mem fun {a b} ha hb hlt => ?_)
  have ha := h.wellFormed.key_eq (h.sorted.get?_of_mem ha)
  have hb := h.wellFormed.key_eq (h.sorted.get?_of_mem hb)
  rw [ha, hb]
  exact hlt

end MemoryStore

end PushBuild
