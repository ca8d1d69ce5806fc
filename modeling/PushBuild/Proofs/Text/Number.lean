import PushBuild.Proofs.Text.Digits
import PushBuild.Text.Number

/-!
# Numbers as a person writes them

A number may be written with a plus sign and with zeros in front, so many texts stand for one
number.  What they have in common is the decimal normal form (`decimal`).

1. **Normal form.**  The digits of a number are any digits that write it, less the zeros in front
   (`digits_number`); the one lemma on digits here, by induction on them from the right.
2. **Reading.**  `readNat` takes exactly the digits of a number up to its bound
   (`readNat_eq_ok_iff`).  So what is read is printed as the normal form of its text
   (`toString_of_readNat`), and what is printed is read back (`readNat_toString`).
-/

namespace PushBuild.Text

/-! ## The normal form -/

/-- The characters of a text after a plus sign. -/
def unsigned : List Char → List Char
  | '+' :: digits => digits
  | digits => digits

/-- Digits without the zeros in front; all zeros leave one. -/
def significant (digits : List Char) : List Char :=
  match digits.dropWhile (· == '0') with
  | [] => ['0']
  | rest => rest

/-- The decimal normal form of a number as it is written: no plus sign, no zeros in front. -/
def decimal (s : String) : String := String.ofList (significant (unsigned s.toList))

example : decimal "+007" = "7" := by decide
example : decimal "00" = "0" := by decide

/-- One more digit at the end is a step of the value to the next place. -/
theorem number_append_singleton (digits : List Char) (c : Char) :
    number (digits ++ [c]) = number digits * 10 + digitValue c := List.foldl_append ..

/-- A digit is the one that is written of its value. -/
theorem digitChar_digitValue {c : Char} (h : isDigit c = true) :
    digitValue c < 10 ∧ Nat.digitChar (digitValue c) = c := by
  have hdigit : ∀ n < 58, 48 ≤ n → digitValue (Char.ofNat n) < 10 ∧
      Nat.digitChar (digitValue (Char.ofNat n)) = Char.ofNat n := by
    decide
  obtain ⟨hlow, hhigh⟩ := toNat_of_isDigit h
  have hc := hdigit c.toNat (by omega) hlow
  rwa [Char.ofNat_toNat] at hc

/-- **Normal form.**  Digits that are all zeros write zero, and any others the number with these
digits but the zeros in front. -/
theorem digits_number {digits : List Char} (h : ∀ c ∈ digits, isDigit c = true) :
    (digits.dropWhile (· == '0') = [] ∧ number digits = 0) ∨
    (digits.dropWhile (· == '0') = Nat.toDigits 10 (number digits) ∧ 0 < number digits) := by
  induction digits using List.reverseRecOn with
  | nil => exact Or.inl ⟨rfl, rfl⟩
  | append_singleton digits c ih =>
    obtain ⟨hvalue, hc⟩ := digitChar_digitValue (h c (List.mem_append_right _ List.mem_cons_self))
    rw [number_append_singleton, List.dropWhile_append]
    rcases ih fun d hd => h d (List.mem_append_left _ hd) with ⟨hzeros, hnumber⟩ | ⟨hdigits, hpos⟩
    · -- only zeros so far: the last digit is the first one that counts, unless it is a zero too
      rw [hzeros, hnumber, if_pos List.isEmpty_nil, Nat.zero_mul, Nat.zero_add]
      by_cases hzero : c = '0'
      · subst hzero
        exact Or.inl ⟨rfl, rfl⟩
      · refine Or.inr ⟨?_, Nat.pos_of_ne_zero fun h0 => hzero ?_⟩
        · rw [Nat.toDigits_of_lt_base hvalue, hc]
          simp [hzero]
        · rw [← hc, h0]
          rfl
    · refine Or.inr ⟨?_, by omega⟩
      have hne : (Nat.toDigits 10 (number digits)).isEmpty = false := by
        rw [List.isEmpty_eq_false_iff]
        exact Nat.toDigits_ne_nil
      rw [hdigits, hne, if_neg Bool.false_ne_true, Nat.mul_comm,
        ← Nat.toDigits_append_toDigits (by decide) hpos hvalue, Nat.toDigits_of_lt_base hvalue, hc]

/-- The digits of a number are those that write it, less the zeros in front. -/
theorem significant_eq_toDigits {digits : List Char} (h : ∀ c ∈ digits, isDigit c = true) :
    significant digits = Nat.toDigits 10 (number digits) := by
  unfold significant
  rcases digits_number h with ⟨hzeros, hnumber⟩ | ⟨hdigits, -⟩
  · rw [hzeros, hnumber]
    rfl
  · rw [hdigits]
    split
    · next hnil => exact absurd hnil Nat.toDigits_ne_nil
    · rfl

/-! ## Reading -/

section

variable {max n acc : Nat} {cs : List Char} {s : String}

/-- The number only grows with more digits, so it is within the bound exactly if it always was. -/
theorem le_foldl_digits (acc : Nat) (cs : List Char) :
    acc ≤ cs.foldl (fun n c => n * 10 + digitValue c) acc := by
  induction cs generalizing acc with
  | nil => exact Nat.le_refl acc
  | cons c cs ih => exact Nat.le_trans (by omega) (ih (acc * 10 + digitValue c))

/-- Digits are read on from the value `acc` exactly if all of them are digits and what they write,
from there on, is within the bound. -/
theorem readDigits_eq_ok_iff (hacc : acc ≤ max) : readDigits max acc cs = .ok n ↔
    (∀ c ∈ cs, isDigit c = true) ∧ cs.foldl (fun n c => n * 10 + digitValue c) acc = n ∧
    n ≤ max := by
  induction cs generalizing acc with
  | nil =>
    constructor
    · rintro ⟨⟩
      exact ⟨nofun, rfl, hacc⟩
    · rintro ⟨-, rfl, -⟩
      rfl
  -- the reader compares with the bound at each digit, the statement only at the end; as the value
  -- only grows (`le_foldl_digits`), it comes to the same
  | cons c cs ih =>
    rw [readDigits, List.forall_mem_cons, List.foldl_cons]
    by_cases hdigit : isDigit c = true
    · rw [if_pos hdigit]
      by_cases hnext : acc * 10 + digitValue c ≤ max
      · rw [if_pos hnext, ih hnext]
        exact ⟨fun ⟨hcs, hn⟩ => ⟨⟨hdigit, hcs⟩, hn⟩, fun ⟨⟨_, hcs⟩, hn⟩ => ⟨hcs, hn⟩⟩
      · rw [if_neg hnext]
        refine ⟨nofun, fun ⟨_, hn, hle⟩ => absurd (Nat.le_trans (le_foldl_digits _ cs) ?_) hnext⟩
        exact Nat.le_trans (Nat.le_of_eq hn) hle
    · rw [if_neg hdigit]
      exact ⟨nofun, fun ⟨⟨hc, _⟩, _⟩ => absurd hc hdigit⟩

/-- **Reading.**  What is read are the digits of a number up to the bound, after a plus sign or
not. -/
theorem readNat_eq_ok_iff : readNat max s = .ok n ↔ unsigned s.toList ≠ [] ∧
    (∀ c ∈ unsigned s.toList, isDigit c = true) ∧ number (unsigned s.toList) = n ∧ n ≤ max := by
  unfold readNat
  split
  · next hs => simp [hs, unsigned]
  · next hs => simp [hs, unsigned]
  -- after a plus sign the digits are read that follow it
  · next digits hne hs =>
    have hdigits : digits ≠ [] := fun h => hne (h ▸ rfl)
    rw [hs, unsigned, readDigits_eq_ok_iff (Nat.zero_le max)]
    exact (and_iff_right hdigits).symm
  -- without one the whole text is
  · next hnil _ hplus =>
    have hself : unsigned s.toList = s.toList := by
      unfold unsigned
      split
      · next digits hs => exact absurd hs (hplus digits)
      · rfl
    rw [hself, readDigits_eq_ok_iff (Nat.zero_le max)]
    exact (and_iff_right hnil).symm

/-- **What is read is printed in normal form.** -/
theorem toString_of_readNat (h : readNat max s = .ok n) : toString n = decimal s := by
  obtain ⟨-, hdigits, rfl, -⟩ := readNat_eq_ok_iff.mp h
  rw [decimal, significant_eq_toDigits hdigits]
  rfl

/-- **What is printed is read back.** -/
theorem readNat_toString (h : n ≤ max) : readNat max (toString n) = .ok n := by
  have htext : (toString n).toList = Nat.toDigits 10 n := Nat.toList_repr
  have hunsigned : unsigned (Nat.toDigits 10 n) = Nat.toDigits 10 n := by
    unfold unsigned
    split
    · next hs => exact absurd (isDigit_toDigits (hs ▸ List.mem_cons_self)) (by decide)
    · rfl
  rw [readNat_eq_ok_iff, htext, hunsigned]
  exact ⟨Nat.toDigits_ne_nil, fun c hc => isDigit_toDigits hc, number_toDigits n, h⟩

end

end PushBuild.Text
