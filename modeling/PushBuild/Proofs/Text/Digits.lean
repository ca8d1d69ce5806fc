import Mathlib.Data.List.Induction
import Mathlib.Data.Nat.Digits.Defs
import PushBuild.Text.Blank
import PushBuild.Text.Bytes

/-!
# Digits

1. **Hexadecimal digits.**  A digit is read in either case (`hexValue?_eq_some_iff`), so bytes are
   read from text exactly if, in small letters, it is the text that is written of them
   (`bytesOfHex?_eq_some_iff`).
2. **Decimal digits.**  A number is what its digits write (`number_paddedDigits`), with zeros in
   front or without.
-/

namespace PushBuild.Text

/-! ## Hexadecimal digits -/

/-- Every digit is read back, and is a character of ASCII that may stand in a header. -/
theorem hexDigit_read : ∀ n < 16, hexValue? (hexDigit n) = some n ∧
    32 ≤ (hexDigit n).toNat ∧ (hexDigit n).toNat < 127 := by
  decide

/-- What is written is in small letters. -/
theorem toLower_hexDigit : ∀ n < 16, (hexDigit n).toLower = hexDigit n := by decide

/-- All hexadecimal digits are characters of ASCII, so for these the table `hexValue?_ascii` is
enough. -/
theorem toNat_lt_of_hexValue? {c : Char} {n : Nat} (h : hexValue? c = some n) : c.toNat < 128 := by
  -- a digit lies in one of three ranges, and each of them ends below 128
  have hrange : ∀ {low high : Char}, high.toNat < 128 →
      (decide (low ≤ c) && decide (c ≤ high)) = true →
      c.toNat < 128 := by
    intro low high hhigh hc
    simp only [Bool.and_eq_true, decide_eq_true_eq] at hc
    exact Nat.lt_of_le_of_lt hc.2 hhigh
  unfold hexValue? at h
  split at h
  · next hc => exact hrange (by decide) hc
  · split at h
    · next hc => exact hrange (by decide) hc
    · split at h
      · next hc => exact hrange (by decide) hc
      · cases h

/-- Among the characters of ASCII, case makes no difference to a digit, and a digit is the one that
is written of its value, but for its case. -/
theorem hexValue?_ascii : ∀ k < 128, hexValue? (Char.ofNat k).toLower = hexValue? (Char.ofNat k) ∧
    ∀ n ∈ hexValue? (Char.ofNat k), n < 16 ∧ (Char.ofNat k).toLower = hexDigit n := by
  decide

/-- Characters beyond ASCII have no case here. -/
theorem toNat_lt_of_toLower {c : Char} (h : c.toLower.toNat < 128) : c.toNat < 128 := by
  unfold Char.toLower at h
  split at h
  · next hc => exact Nat.lt_of_le_of_lt hc.2 (by decide)
  · exact h

/-- **Digits.**  A character is a digit exactly if it is the one that is written of its value, in
either case. -/
theorem hexValue?_eq_some_iff {c : Char} {n : Nat} :
    hexValue? c = some n ↔ n < 16 ∧ c.toLower = hexDigit n := by
  constructor
  · intro h
    have hdigit := (hexValue?_ascii c.toNat (toNat_lt_of_hexValue? h)).2
    rw [Char.ofNat_toNat] at hdigit
    exact hdigit n h
  · rintro ⟨hn, hlower⟩
    obtain ⟨hread, -, hprintable⟩ := hexDigit_read n hn
    have hcase := (hexValue?_ascii c.toNat (toNat_lt_of_toLower (hlower ▸ by omega))).1
    rw [Char.ofNat_toNat, hlower] at hcase
    exact hcase.symm.trans hread

/-- A digit of bytes is a character of ASCII. -/
theorem printable_of_mem_hexOfBytes {bytes : Bytes} {c : Char} (h : c ∈ hexOfBytes bytes) :
    32 ≤ c.toNat ∧ c.toNat < 127 := by
  induction bytes with
  | nil => cases h
  | cons b rest ih =>
    have hlt := b.toNat_lt
    rcases List.mem_cons.mp h with rfl | h
    · exact (hexDigit_read (b.toNat / 16) (by omega)).2
    · rcases List.mem_cons.mp h with rfl | h
      · exact (hexDigit_read (b.toNat % 16) (by omega)).2
      · exact ih h

/-- There are two digits for each byte. -/
theorem length_hexOfBytes (bytes : Bytes) : (hexOfBytes bytes).length = 2 * bytes.length := by
  induction bytes with
  | nil => rfl
  | cons b rest ih =>
    rw [hexOfBytes, List.length_cons, List.length_cons, List.length_cons, ih]
    omega

/-- The digits that are written of bytes are in small letters already. -/
theorem map_toLower_hexOfBytes (bytes : Bytes) :
    (hexOfBytes bytes).map Char.toLower = hexOfBytes bytes := by
  induction bytes with
  | nil => rfl
  | cons b rest ih =>
    have hlt := b.toNat_lt
    rw [hexOfBytes, List.map_cons, List.map_cons, ih, toLower_hexDigit _ (by omega),
      toLower_hexDigit _ (by omega)]

/-- **Bytes** are read from text exactly if, in small letters, it is the text that is written of
them. -/
theorem bytesOfHex?_eq_some_iff {cs : List Char} {bytes : Bytes} :
    bytesOfHex? cs = some bytes ↔ cs.map Char.toLower = hexOfBytes bytes := by
  induction cs using bytesOfHex?.induct generalizing bytes with
  | case1 => cases bytes <;> simp [bytesOfHex?, hexOfBytes]
  | case2 => cases bytes <;> simp [bytesOfHex?, hexOfBytes]
  -- the induction is that of the reader, which takes two digits at a time; with one digit left over
  -- it reads nothing, and the digits of bytes are never odd in number
  | case3 high low rest ih =>
    simp only [bytesOfHex?, Option.bind_eq_bind, Option.bind_eq_some_iff, hexValue?_eq_some_iff, ih,
      List.map_cons]
    constructor
    · rintro ⟨h, ⟨hh, hhigh⟩, l, ⟨hl, hlow⟩, tail, hrest, hbytes⟩
      obtain rfl := Option.some.inj hbytes
      -- two digits make a number below 256, so its halves are found again in the byte
      have hvalue : (UInt8.ofNat (16 * h + l)).toNat = 16 * h + l := by
        rw [UInt8.toNat_ofNat', Nat.mod_eq_of_lt (by omega)]
      have hdiv : (16 * h + l) / 16 = h := by omega
      have hmod : (16 * h + l) % 16 = l := by omega
      rw [hexOfBytes, hvalue, hdiv, hmod, hhigh, hlow, hrest]
    · intro hdigits
      cases bytes with
      | nil => cases hdigits
      | cons b tail =>
        rw [hexOfBytes] at hdigits
        obtain ⟨hhigh, hdigits⟩ := List.cons.inj hdigits
        obtain ⟨hlow, hrest⟩ := List.cons.inj hdigits
        have hlt := b.toNat_lt
        refine ⟨b.toNat / 16, ⟨by omega, hhigh⟩, b.toNat % 16, ⟨by omega, hlow⟩, tail, hrest, ?_⟩
        rw [Nat.div_add_mod, UInt8.ofNat_toNat]
        rfl

/-- Bytes are read back from their digits. -/
theorem bytesOfHex?_hexOfBytes (bytes : Bytes) : bytesOfHex? (hexOfBytes bytes) = some bytes :=
  bytesOfHex?_eq_some_iff.mpr (map_toLower_hexOfBytes bytes)

/-! ## Decimal digits -/

/-- The decimal digits are the characters from 48 to 57. -/
theorem toNat_of_isDigit {c : Char} (h : isDigit c = true) : 48 ≤ c.toNat ∧ c.toNat ≤ 57 := by
  simp only [isDigit, Bool.and_eq_true, decide_eq_true_eq] at h
  exact h

/-- A digit is no blank. -/
theorem isBlank_of_isDigit {c : Char} (h : isDigit c = true) : isBlank c = false := by
  obtain ⟨hlow, hhigh⟩ := toNat_of_isDigit h
  unfold isBlank
  simp only [Bool.or_eq_false_iff, Bool.and_eq_false_iff, decide_eq_false_iff_not,
    beq_eq_false_iff_ne]
  omega

/-- The characters of a number in decimal, with zeros in front. -/
def paddedDigits (width n : Nat) : List Char :=
  List.replicate (width - (Nat.toDigits 10 n).length) '0' ++ Nat.toDigits 10 n

/-- What is written is these characters. -/
theorem toList_padded (width n : Nat) : (padded width n).toList = paddedDigits width n := by
  simp only [padded, paddedDigits, String.toList_ofList]
  rw [show toString n = n.repr from rfl, Nat.toList_repr]

/-- There is nothing but digits among them. -/
theorem isDigit_paddedDigits (width n : Nat) : ∀ c ∈ paddedDigits width n, isDigit c = true := by
  intro c hc
  rcases List.mem_append.mp hc with hc | hc
  · rw [List.eq_of_mem_replicate hc]
    rfl
  · have h := Nat.isDigit_of_mem_toDigits (by decide) (by decide) hc
    simp only [Char.isDigit, Bool.and_eq_true, decide_eq_true_eq] at h
    simp only [isDigit, Bool.and_eq_true, decide_eq_true_eq]
    exact h

/-- Even zero in no places has a digit. -/
theorem paddedDigits_ne_nil (width n : Nat) : paddedDigits width n ≠ [] := by
  intro h
  exact Nat.toDigits_ne_nil (List.append_eq_nil_iff.mp h).2

/-- A number begins with a digit. -/
theorem paddedDigits_eq_cons (width n : Nat) :
    ∃ c cs, paddedDigits width n = c :: cs ∧ isDigit c = true := by
  obtain ⟨c, cs, hdigits⟩ := List.exists_cons_of_ne_nil (paddedDigits_ne_nil width n)
  refine ⟨c, cs, hdigits, isDigit_paddedDigits width n c ?_⟩
  rw [hdigits]
  exact List.mem_cons_self

/-- A number that fits into so many places takes all of them. -/
theorem length_paddedDigits {width n : Nat} (hwidth : 0 < width) (h : n < 10 ^ width) :
    (paddedDigits width n).length = width := by
  have hle := (Nat.length_toDigits_le_iff (b := 10) (by decide) hwidth).mpr h
  rw [paddedDigits, List.length_append, List.length_replicate]
  omega

/-- The number that digits write. -/
def number (digits : List Char) : Nat := digits.foldl (fun n c => n * 10 + digitValue c) 0

/-- **A number is what its digits write.** -/
theorem number_paddedDigits (width n : Nat) : number (paddedDigits width n) = n := by
  -- zeros in front leave the value from which the digits are counted at zero
  have hzeros : ∀ k, number (List.replicate k '0') = 0 := by
    intro k
    induction k with
    | zero => rfl
    | succ k ih => exact ih
  have hdigits := Nat.ofDigitChars_toDigits (b := 10) (n := n) (by decide) (by decide)
  rw [Nat.ofDigitChars_eq_foldl] at hdigits
  unfold number at hzeros ⊢
  rw [paddedDigits, List.foldl_append, hzeros]
  conv_rhs => rw [← hdigits]
  -- the library multiplies by the base on the other side
  refine congrArg (fun f => List.foldl f 0 (Nat.toDigits 10 n)) (funext fun k => funext fun c => ?_)
  rw [Nat.mul_comm]
  rfl

/-! ### Without zeros in front -/

/-- In no places at all there are no zeros in front. -/
theorem paddedDigits_zero (n : Nat) : paddedDigits 0 n = Nat.toDigits 10 n := by
  rw [paddedDigits, Nat.zero_sub, List.replicate_zero, List.nil_append]

/-- The digits of a number are decimal digits. -/
theorem isDigit_toDigits {n : Nat} {c : Char} (h : c ∈ Nat.toDigits 10 n) : isDigit c = true := by
  rw [← paddedDigits_zero] at h
  exact isDigit_paddedDigits 0 n c h

/-- A number is what its digits write, without zeros in front as well. -/
theorem number_toDigits (n : Nat) : number (Nat.toDigits 10 n) = n := by
  rw [← paddedDigits_zero, number_paddedDigits]

/-- So many digits write a number with no more digits. -/
theorem number_lt {digits : List Char} (h : ∀ c ∈ digits, isDigit c = true) :
    number digits < 10 ^ digits.length := by
  induction digits using List.reverseRecOn with
  | nil => exact Nat.one_pos
  | append_singleton digits c ih =>
    have hrest := ih fun d hd => h d (List.mem_append_left _ hd)
    obtain ⟨hlow, hhigh⟩ := toNat_of_isDigit (h c (List.mem_append_right _ List.mem_cons_self))
    have hvalue : digitValue c = c.toNat - 48 := rfl
    have hnumber : number (digits ++ [c]) = number digits * 10 + digitValue c :=
      List.foldl_append ..
    rw [hnumber, List.length_append, List.length_singleton, Nat.pow_succ]
    omega

/-- **Only zero begins with a zero**, and it has no other digit. -/
theorem eq_nil_of_toDigits {n : Nat} {cs : List Char} (h : Nat.toDigits 10 n = '0' :: cs) :
    cs = [] := by
  by_contra hne
  have hpos := List.length_pos_iff.mpr hne
  -- without the zero the same number has fewer digits than it needs
  have hlt : n < 10 ^ cs.length := by
    have hall : ∀ c ∈ cs, isDigit c = true :=
      fun c hc => isDigit_toDigits (h ▸ List.mem_cons_of_mem _ hc)
    have hnumber : number ('0' :: cs) = n := h ▸ number_toDigits n
    rw [← hnumber]
    exact number_lt hall
  have hle := (Nat.length_toDigits_le_iff (b := 10) (by decide) hpos).mpr hlt
  rw [h, List.length_cons] at hle
  omega

end PushBuild.Text
