/-!
# Integers at the end of a text

A text may have digits and minus signs of its own, so a number that is put after it can be told from
it only where the number cannot have begun earlier.

1. **Numbers.**  The decimal text of a number determines it (`repr_inj`, `toString_inj`), and has no
   characters but digits and the minus sign (`isNumeric_of_mem_toString`).
2. **Ends.**  A text that ends in a letter and the number after it, with a minus sign between them,
   can be read back, because the last letter says where the number begins (`numbered_inj`).
-/

namespace PushBuild

/-! ## Numbers -/

/-- A natural number can be read back from its digits. -/
theorem repr_inj {m n : Nat} : m.repr = n.repr ↔ m = n := by
  refine ⟨fun h => ?_, fun h => by rw [h]⟩
  have hdigits : Nat.toDigits 10 m = Nat.toDigits 10 n := by
    rw [← Nat.toList_repr, ← Nat.toList_repr, h]
  have hm := Nat.ofDigitChars_ten_toDigits (n := m)
  rw [hdigits, Nat.ofDigitChars_ten_toDigits] at hm
  exact hm.symm

/-- The characters that the text of an integer may have. -/
def isNumeric (c : Char) : Bool := c.isDigit || c == '-'

/-- The digits of a number are characters that the text of an integer may have. -/
theorem isNumeric_of_mem_toDigits {c : Char} {n : Nat} (h : c ∈ Nat.toDigits 10 n) :
    isNumeric c = true := by
  rw [isNumeric, Nat.isDigit_of_mem_toDigits (by decide) (by decide) h, Bool.true_or]

/-- The text of an integer has no characters but digits and the minus sign. -/
theorem isNumeric_of_mem_toString {c : Char} {n : Int} (h : c ∈ (toString n).toList) :
    isNumeric c = true := by
  rw [Int.toString_eq_repr, Int.repr_eq_if] at h
  split at h
  · rw [Nat.toList_repr] at h
    exact isNumeric_of_mem_toDigits h
  · rw [String.toList_append, List.mem_append] at h
    rcases h with hsign | hdigit
    · rw [List.mem_singleton.mp hsign]
      rfl
    · rw [Nat.toList_repr] at hdigit
      exact isNumeric_of_mem_toDigits hdigit

/-- The text of a natural number does not start with a minus sign. -/
theorem repr_ne_minus (m : Nat) (s : String) : m.repr ≠ "-" ++ s := by
  intro h
  have hmem : '-' ∈ m.repr.toList := by rw [h]; simp
  rw [Nat.toList_repr] at hmem
  have := Nat.isDigit_of_mem_toDigits (by decide) (by decide) hmem
  revert this
  decide

/-- An integer can be read back from its text. -/
theorem toString_inj {m n : Int} : toString m = toString n ↔ m = n := by
  refine ⟨fun h => ?_, fun h => by rw [h]⟩
  rw [Int.toString_eq_repr, Int.toString_eq_repr, Int.repr_eq_if, Int.repr_eq_if] at h
  split at h <;> split at h
  · have := repr_inj.mp h
    omega
  · exact absurd h (repr_ne_minus _ _)
  · exact absurd h.symm (repr_ne_minus _ _)
  · have := repr_inj.mp ((String.append_right_inj _).mp h)
    omega

/-! ## Ends -/

section

variable {front back rest tail gap : List Char} {c d : Char} {s t : String} {m n : Int}

/-- Nothing stands between the last letters of two texts that are the same. -/
theorem gap_eq_nil (hd : isNumeric d = false) (hrest : ∀ x ∈ rest, isNumeric x = true)
    (h : c :: rest = gap ++ d :: tail) : gap = [] := by
  cases gap with
  | nil => rfl
  | cons x gap =>
    have hmem : d ∈ rest := by
      rw [(List.cons.inj h).2]
      exact List.mem_append_right gap List.mem_cons_self
    exact absurd (hd.symm.trans (hrest d hmem)) Bool.false_ne_true

/-- Texts that are the same have the same last letter at the same place. -/
theorem append_cons_inj (hc : isNumeric c = false) (hd : isNumeric d = false)
    (hrest : ∀ x ∈ rest, isNumeric x = true) (htail : ∀ x ∈ tail, isNumeric x = true) :
    front ++ c :: rest = back ++ d :: tail ↔ front = back ∧ c = d ∧ rest = tail := by
  constructor
  · intro h
    -- one of the two fronts goes on where the other ends
    rcases List.append_eq_append_iff.mp h with ⟨gap, hback, hgap⟩ | ⟨gap, hfront, hgap⟩
    · obtain rfl := gap_eq_nil hd hrest hgap
      rw [List.append_nil] at hback
      exact ⟨hback.symm, List.cons.inj hgap⟩
    · obtain rfl := gap_eq_nil hc htail hgap
      rw [List.append_nil] at hfront
      obtain ⟨hletter, hafter⟩ := List.cons.inj hgap
      exact ⟨hfront, hletter.symm, hafter.symm⟩
  · rintro ⟨rfl, rfl, rfl⟩
    rfl

/-- A text that ends in a letter: in a character that no number has, so that a number after it keeps
apart from it. -/
structure EndsIn (s : String) (c : Char) : Prop where
  /-- the character is the last one -/
  last : s.toList.getLast? = some c
  /-- it is neither a digit nor a minus sign -/
  letter : isNumeric c = false

/-- What stands in front of a text does not change the letter in which it ends. -/
theorem EndsIn.append (h : EndsIn t c) (s : String) : EndsIn (s ++ t) c where
  last := by rw [String.toList_append, List.getLast?_append, h.last, Option.some_or]
  letter := h.letter

/-- A text ends in one letter. -/
theorem EndsIn.unique (hc : EndsIn s c) (hd : EndsIn s d) : c = d :=
  Option.some.inj (hc.last.symm.trans hd.last)

/-- A numbered text, cut behind its last letter. -/
theorem toList_numbered (n : Int) (h : s.toList = front ++ [c]) :
    (s ++ "-" ++ toString n).toList = front ++ c :: '-' :: (toString n).toList := by
  rw [String.toList_append, String.toList_append, h, List.append_assoc, List.append_assoc]
  rfl

/-- **Ends.**  A text that ends in a letter and the number after it can be read back. -/
theorem numbered_inj (hs : EndsIn s c) (ht : EndsIn t d) :
    s ++ "-" ++ toString m = t ++ "-" ++ toString n ↔ s = t ∧ m = n := by
  obtain ⟨front, hfront⟩ := List.getLast?_eq_some_iff.mp hs.last
  obtain ⟨back, hback⟩ := List.getLast?_eq_some_iff.mp ht.last
  -- behind the last letter there is the minus sign and the number: no letter, so the cut is the
  -- same in both texts
  have hnumeric : ∀ k : Int, ∀ x ∈ '-' :: (toString k).toList, isNumeric x = true := fun k =>
    List.forall_mem_cons.mpr ⟨rfl, fun _ hx => isNumeric_of_mem_toString hx⟩
  constructor
  · intro h
    rw [← String.toList_inj, toList_numbered m hfront, toList_numbered n hback,
      append_cons_inj hs.letter ht.letter (hnumeric m) (hnumeric n)] at h
    obtain ⟨hbefore, hletter, hafter⟩ := h
    refine ⟨String.toList_inj.mp ?_,
      toString_inj.mp (String.toList_inj.mp (List.cons.inj hafter).2)⟩
    rw [hfront, hback, hbefore, hletter]
  · rintro ⟨rfl, rfl⟩
    rfl

end

end PushBuild
