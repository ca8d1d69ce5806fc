import Mathlib.Data.List.DropRight
import PushBuild.Text.Blank
import PushBuild.Text.Cut

/-!
# What trimming and cutting leave

Each operation on text that drops or cuts is described by what it leaves: the text is put together
again from what is left and what was dropped, and what is left could not be cut further.  Such a
description determines the result, so it is stated as an equivalence, and whoever trims or cuts
needs nothing else.

1. **Ends.**  Dropping from the front (`dropWhile_eq_iff`) and from the end (`dropEndWhile_eq_iff`).
2. **Blanks.**  A text is `Neat` if it has no blank at either end.  Trimming leaves the neat text
   between blanks (`trimBlanks_eq_iff`), and nothing exactly of blanks (`trimBlanks_eq_nil_iff`).
3. **Cuts.**  A suffix (`dropSuffix?_eq_some_iff`), what stands before the first separator
   (`before_eq_iff`), and what stands after the last one (`mem_afterLast_iff`).
-/

namespace PushBuild.Text

section

variable {p : Char → Bool} {cs kept : List Char}

/-! ## Ends -/

/-- Dropping from the front leaves what begins with a character that is not dropped. -/
theorem dropWhile_eq_iff : cs.dropWhile p = kept ↔
    ∃ dropped, cs = dropped ++ kept ∧ (∀ c ∈ dropped, p c = true) ∧
      ∀ c ∈ kept.head?, p c = false := by
  constructor
  · -- what is dropped is the longest start of such characters
    rintro rfl
    refine ⟨cs.takeWhile p, List.takeWhile_append_dropWhile.symm,
      fun c hc => List.mem_takeWhile_imp hc, fun c hc => ?_⟩
    have hhead := List.head?_dropWhile_not p cs
    rw [Option.mem_def.mp hc] at hhead
    exact hhead
  · rintro ⟨dropped, rfl, hdropped, hkept⟩
    rw [List.dropWhile_append_of_pos hdropped]
    cases kept with
    | nil => rfl
    | cons c rest => exact List.dropWhile_cons_of_neg (Bool.eq_false_iff.mp (hkept c rfl))

/-- Dropping from the end leaves what ends in a character that is not dropped. -/
theorem dropEndWhile_eq_iff : dropEndWhile p cs = kept ↔
    ∃ dropped, cs = kept ++ dropped ∧ (∀ c ∈ dropped, p c = true) ∧
      ∀ c ∈ kept.getLast?, p c = false := by
  rw [dropEndWhile, List.reverse_eq_iff, dropWhile_eq_iff, List.head?_reverse]
  constructor
  · rintro ⟨dropped, hcs, hdropped, hkept⟩
    refine ⟨dropped.reverse, ?_, fun c hc => hdropped c (List.mem_reverse.mp hc), hkept⟩
    rw [List.reverse_eq_iff.mp hcs, List.reverse_append, List.reverse_reverse]
  · rintro ⟨dropped, rfl, hdropped, hkept⟩
    exact ⟨dropped.reverse, List.reverse_append,
      fun c hc => hdropped c (List.mem_reverse.mp hc), hkept⟩

/-! ## Blanks -/

/-- Text without a blank at either end. -/
structure Neat (cs : List Char) : Prop where
  /-- it does not begin with a blank -/
  head : ∀ c ∈ cs.head?, isBlank c = false
  /-- it does not end in one -/
  last : ∀ c ∈ cs.getLast?, isBlank c = false

instance : Decidable (Neat cs) :=
  decidable_of_iff (cs.head?.all (!isBlank ·) = true ∧ cs.getLast?.all (!isBlank ·) = true) (by
    simp only [Option.all_eq_true, Bool.not_eq_true']
    exact ⟨fun ⟨hhead, hlast⟩ => ⟨hhead, hlast⟩, fun h => ⟨h.head, h.last⟩⟩)

/-- A text is neat if it begins with no blank and goes on with neat text to its end. -/
theorem Neat.append {tail : List Char} (hhead : ∀ c ∈ cs.head?, isBlank c = false)
    (htail : Neat tail) (hne : tail ≠ []) : Neat (cs ++ tail) where
  head c hc := by
    rw [List.head?_append] at hc
    rcases Option.or_eq_some_iff.mp hc with hc | ⟨-, hc⟩
    · exact hhead c hc
    · exact htail.head c hc
  last c hc := by
    rw [List.getLast?_append_of_ne_nil _ hne] at hc
    exact htail.last c hc

/-- **Trimming** leaves the neat text between blanks. -/
theorem trimBlanks_eq_iff : trimBlanks cs = kept ↔
    ∃ front back, cs = front ++ kept ++ back ∧ (∀ c ∈ front, isBlank c = true) ∧
      (∀ c ∈ back, isBlank c = true) ∧ Neat kept := by
  rw [trimBlanks, dropEndWhile_eq_iff]
  constructor
  · rintro ⟨back, hmiddle, hback, hlast⟩
    obtain ⟨front, hcs, hfront, hhead⟩ := dropWhile_eq_iff.mp hmiddle
    refine ⟨front, back, by rw [hcs, List.append_assoc], hfront, hback,
      fun c hc => hhead c ?_, hlast⟩
    rw [List.head?_append, Option.mem_def.mp hc]
    rfl
  · rintro ⟨front, back, rfl, hfront, hback, hneat⟩
    cases kept with
    | nil =>
      -- nothing is kept, so all of it is dropped from the front
      have hall : ∀ c ∈ front ++ back, isBlank c = true :=
        fun c hc => (List.mem_append.mp hc).elim (hfront c) (hback c)
      rw [List.append_nil, List.dropWhile_eq_nil_iff.mpr hall]
      exact ⟨[], rfl, nofun, nofun⟩
    | cons c rest =>
      refine ⟨back, ?_, hback, hneat.last⟩
      exact dropWhile_eq_iff.mpr ⟨front, List.append_assoc .., hfront, fun d hd => hneat.head d hd⟩

/-- Trimmed text is neat. -/
theorem neat_trimBlanks (cs : List Char) : Neat (trimBlanks cs) := by
  obtain ⟨_, _, _, _, _, hneat⟩ := trimBlanks_eq_iff.mp (Eq.refl (trimBlanks cs))
  exact hneat

/-- Neat text is left as it is. -/
theorem Neat.trimBlanks_eq (h : Neat cs) : trimBlanks cs = cs :=
  trimBlanks_eq_iff.mpr ⟨[], [], (List.append_nil _).symm, nofun, nofun, h⟩

/-- Trimming leaves nothing exactly of blanks. -/
theorem trimBlanks_eq_nil_iff : trimBlanks cs = [] ↔ ∀ c ∈ cs, isBlank c = true := by
  rw [trimBlanks_eq_iff]
  constructor
  · rintro ⟨front, back, rfl, hfront, hback, -⟩ c hc
    rw [List.append_nil] at hc
    exact (List.mem_append.mp hc).elim (hfront c) (hback c)
  · exact fun h => ⟨cs, [], by simp, h, nofun, nofun, nofun⟩

/-- A text is all blank exactly if nothing of it is left. -/
theorem isAllBlank_iff {s : String} : isAllBlank s = true ↔ trimBlanks s.toList = [] := by
  rw [trimBlanks_eq_nil_iff, isAllBlank, List.all_eq_true]

end

/-! ## Cuts -/

section

variable {cs kept : List Char}

/-- A suffix that is dropped stood at the end. -/
theorem dropSuffix?_eq_some_iff {tail : List Char} :
    dropSuffix? tail cs = some kept ↔ cs = kept ++ tail := by
  rw [dropSuffix?, Option.map_eq_some_iff]
  constructor
  · rintro ⟨rest, hrest, rfl⟩
    rw [List.isPrefixOf?_eq_some_iff_append_eq] at hrest
    rw [← List.reverse_reverse cs, ← hrest, List.reverse_append, List.reverse_reverse]
  · rintro rfl
    exact ⟨kept.reverse, List.isPrefixOf?_eq_some_iff_append_eq.mpr List.reverse_append.symm,
      List.reverse_reverse _⟩

/-- What stands before the first separator has none, and is all of the text or followed by one. -/
theorem before_eq_iff {sep : Char} : before sep cs = kept ↔
    sep ∉ kept ∧ (cs = kept ∨ ∃ after, cs = kept ++ sep :: after) := by
  constructor
  · rintro rfl
    have hkept : ∀ c ∈ cs.takeWhile (· != sep), (c != sep) = true := by
      intro c hc
      exact List.mem_takeWhile_imp (p := (· != sep)) hc
    refine ⟨fun hmem => bne_iff_ne.mp (hkept sep hmem) rfl, ?_⟩
    have hsplit : before sep cs ++ cs.dropWhile (· != sep) = cs := List.takeWhile_append_dropWhile
    -- either no separator comes at all, or what is left begins with one
    cases hafter : cs.dropWhile (· != sep) with
    | nil =>
      rw [hafter, List.append_nil] at hsplit
      exact Or.inl hsplit.symm
    | cons c after =>
      obtain ⟨_, _, _, hhead⟩ := dropWhile_eq_iff.mp hafter
      obtain rfl : c = sep := bne_eq_false_iff_eq.mp (hhead c rfl)
      exact Or.inr ⟨after, hafter ▸ hsplit.symm⟩
  · rintro ⟨hsep, hcs⟩
    have hkept : ∀ c ∈ kept, (c != sep) = true := fun c hc => bne_iff_ne.mpr fun heq =>
      hsep (heq ▸ hc)
    rcases hcs with rfl | ⟨after, rfl⟩
    · exact List.takeWhile_eq_self_iff.mpr hkept
    · rw [before, List.takeWhile_append_of_pos hkept, List.takeWhile_cons_of_neg (by simp),
        List.append_nil]

/-- No separator stands before the first one. -/
theorem not_mem_before (sep : Char) (cs : List Char) : sep ∉ before sep cs :=
  (before_eq_iff.mp (Eq.refl (before sep cs))).1

/-- Text without a separator comes whole after the last one. -/
theorem afterLast_append {sep : Char} {tail : List Char} (h : sep ∉ tail) :
    afterLast sep (cs ++ tail) = afterLast sep cs ++ tail := by
  have htail : ∀ c ∈ tail.reverse, (c != sep) = true := fun c hc =>
    bne_iff_ne.mpr fun heq => h (heq ▸ List.mem_reverse.mp hc)
  rw [afterLast, List.reverse_append, List.takeWhile_append_of_pos htail, List.reverse_append,
    List.reverse_reverse]
  rfl

/-- No separator stands after the last one. -/
theorem not_mem_afterLast (sep : Char) (cs : List Char) : sep ∉ afterLast sep cs := fun hmem =>
  not_mem_before sep cs.reverse (List.mem_reverse.mp hmem)

/-- A character stands after the last separator exactly if no separator follows it. -/
theorem mem_afterLast_iff {sep c : Char} (hc : c ≠ sep) : c ∈ afterLast sep cs ↔
    ∃ front back, cs = front ++ c :: back ∧ sep ∉ back := by
  constructor
  · intro hmem
    obtain ⟨more, back, hsplit⟩ := List.append_of_mem hmem
    obtain ⟨front, hcs⟩ : afterLast sep cs <:+ cs := List.reverse_prefix.mp (by
      rw [afterLast, List.reverse_reverse]
      exact List.takeWhile_prefix _)
    refine ⟨front ++ more, back, by rw [← hcs, hsplit, List.append_assoc], fun hback => ?_⟩
    exact not_mem_afterLast sep cs (hsplit ▸ List.mem_append_right _ (List.mem_cons_of_mem _ hback))
  · rintro ⟨front, back, rfl, hback⟩
    rw [afterLast_append fun hmem => (List.mem_cons.mp hmem).elim (fun heq => hc heq.symm) hback]
    exact List.mem_append_right _ List.mem_cons_self

end

end PushBuild.Text
