import PushBuild.Proofs.Text.Digits
import PushBuild.Proofs.Time.Calendar
import PushBuild.Time.Rfc3339

/-!
# Instants that are written and read

1. **Digits.**  A number that is written in so many digits is read from as many
   (`readNumber?_padded`).
2. **Parts.**  Each part of an instant is read back by the reader of that part, which stops where
   the next part begins: the year with its sign (`readYear?_yearText`), the fraction with its three,
   six or nine digits (`readFraction?_fractionText`).
3. **Local times.**  The date and the time of day of an instant, with second 60 for a leap second,
   are those of this instant (`ofLocal?_clock`).
4. **Texts.**  So an instant that is written is read as itself (`ofText?_toText`).
-/

namespace PushBuild

open Text Calendar

namespace Instant

/-! ## Digits -/

/-- Digits are read as the number they write, as far as the reader goes or the digits do. -/
theorem readNumber?_digits {width : Nat} {digits rest : List Char}
    (hdigits : ∀ c ∈ digits, isDigit c = true) (hne : digits ≠ []) (hle : digits.length ≤ width)
    (hrest : (rest.take (width - digits.length)).takeWhile isDigit = []) :
    readNumber? width (digits ++ rest) = some (number digits, rest) := by
  have hread : ((digits ++ rest).take width).takeWhile isDigit = digits := by
    rw [List.take_append, List.take_of_length_le hle, List.takeWhile_append_of_pos hdigits, hrest,
      List.append_nil]
  have hempty : digits.isEmpty = false := by
    rw [List.isEmpty_eq_false_iff]
    exact hne
  unfold readNumber?
  simp only [hread, hempty, Bool.false_eq_true, if_false, List.drop_left]
  rfl

/-- **A number in so many digits** is read from as many. -/
theorem readNumber?_padded {width n : Nat} (hwidth : 0 < width) (h : n < 10 ^ width)
    (rest : List Char) :
    readNumber? width (paddedDigits width n ++ rest) = some (n, rest) := by
  have hlength := length_paddedDigits hwidth h
  rw [readNumber?_digits (isDigit_paddedDigits width n) (paddedDigits_ne_nil width n)
    (Nat.le_of_eq hlength), number_paddedDigits]
  rw [hlength, Nat.sub_self, List.take_zero]
  rfl

/-- There are no blanks before digits. -/
theorem dropWhile_paddedDigits (width n : Nat) (rest : List Char) :
    (paddedDigits width n ++ rest).dropWhile isBlank = paddedDigits width n ++ rest := by
  obtain ⟨c, cs, hdigits, hc⟩ := paddedDigits_eq_cons width n
  rw [hdigits, List.cons_append, List.dropWhile_cons, isBlank_of_isDigit hc]
  rfl

/-! ## Parts -/

/-- Two digits are read back, and the reader stops behind them. -/
theorem readTwo?_padded {n : Nat} (h : n < 100) (rest : List Char) :
    readTwo? (paddedDigits 2 n ++ rest) = some (n, rest) := by
  rw [readTwo?, dropWhile_paddedDigits]
  exact readNumber?_padded (by decide) h rest

/-- A mark is read where it stands. -/
theorem readMark?_cons {c : Char} (h : isBlank c = false) (rest : List Char) :
    readMark? c (c :: rest) = some rest := by
  rw [readMark?, List.dropWhile_cons, h]
  exact if_pos rfl

/-- A year with a sign is read to the mark after it. -/
theorem readNumber?_year (n : Nat) (rest : List Char) :
    readNumber? (paddedDigits 4 n ++ '-' :: rest).length (paddedDigits 4 n ++ '-' :: rest) =
      some (n, '-' :: rest) := by
  have hle : (paddedDigits 4 n).length ≤ (paddedDigits 4 n ++ '-' :: rest).length := by
    rw [List.length_append]
    exact Nat.le_add_right _ _
  rw [readNumber?_digits (isDigit_paddedDigits 4 n) (paddedDigits_ne_nil 4 n) hle,
    number_paddedDigits]
  rw [List.length_append, Nat.add_sub_cancel_left, List.length_cons, List.take_succ_cons]
  rfl

/-- **A year** is read back, before the mark that follows it. -/
theorem readYear?_yearText (year : Int) (rest : List Char) :
    readYear? ((yearText year).toList ++ '-' :: rest) = some (year, '-' :: rest) := by
  unfold yearText
  split
  · next hneg =>
    rw [String.toList_append, toList_padded]
    refine (congrArg (Option.map _) (readNumber?_year year.natAbs rest)).trans ?_
    simp only [Option.map_some]
    rw [show -((year.natAbs : Nat) : Int) = year by omega]
  · next hnonneg =>
    split
    · rw [String.toList_append, toList_padded]
      refine (congrArg (Option.map _) (readNumber?_year year.natAbs rest)).trans ?_
      simp only [Option.map_some]
      rw [show ((year.natAbs : Nat) : Int) = year by omega]
    · next hshort =>
      have hread : readNumber? 4 (paddedDigits 4 year.natAbs ++ '-' :: rest) = _ :=
        readNumber?_padded (by decide) (by omega) ('-' :: rest)
      rw [toList_padded]
      unfold readYear?
      rw [dropWhile_paddedDigits]
      obtain ⟨c, cs, hdigits, hc⟩ := paddedDigits_eq_cons 4 year.natAbs
      rw [hdigits, List.cons_append] at hread ⊢
      -- a digit is no sign
      split
      · next heq =>
        obtain ⟨rfl, -⟩ := List.cons.inj heq
        exact absurd hc (by decide)
      · next heq =>
        obtain ⟨rfl, -⟩ := List.cons.inj heq
        exact absurd hc (by decide)
      · rw [hread]
        simp only [Option.map_some]
        rw [show ((year.natAbs : Nat) : Int) = year by omega]

/-- The digits of a fraction are read as the fraction. -/
theorem readFraction?_padded {width n : Nat} (hwidth : 0 < width) (hnine : width ≤ 9)
    (h : n < 10 ^ width) {rest : List Char} (hrest : rest.takeWhile isDigit = []) :
    readFraction? ('.' :: (paddedDigits width n ++ rest)) = some (n * 10 ^ (9 - width), rest) := by
  have hlength := length_paddedDigits hwidth h
  have hdigits : (paddedDigits width n ++ rest).takeWhile isDigit = paddedDigits width n := by
    rw [List.takeWhile_append_of_pos (isDigit_paddedDigits width n), hrest, List.append_nil]
  have hempty : (paddedDigits width n).isEmpty = false := by
    rw [List.isEmpty_eq_false_iff]
    exact paddedDigits_ne_nil width n
  -- the reader takes nine digits of the fraction at most, so it takes them all
  have htake : (paddedDigits width n).take 9 = paddedDigits width n :=
    List.take_of_length_le (by omega)
  have hnumber := number_paddedDigits width n
  have hdrop : (paddedDigits width n ++ rest).drop width = rest := List.drop_left' hlength
  unfold number at hnumber
  unfold readFraction?
  simp only [hdigits, hempty, Bool.false_eq_true, if_false, htake, hnumber, hlength, hdrop]
  rfl

/-- **A fraction of a second** is read back, before what is no digit. -/
theorem readFraction?_fractionText {nanos : Nat} (h : nanos < 1000000000) (rest : List Char) :
    readFraction? ((fractionText nanos).toList ++ 'Z' :: rest) = some (nanos, 'Z' :: rest) := by
  have hrest : ('Z' :: rest).takeWhile isDigit = [] := rfl
  unfold fractionText
  split
  · next hzero =>
    rw [hzero]
    rfl
  · -- three, six or nine digits are written: the fewest that leave nothing out, so the rest of the
    -- number is zeros
    split
    · rw [String.toList_append, toList_padded, List.append_assoc]
      refine (readFraction?_padded (by decide) (by decide) (by omega) hrest).trans ?_
      rw [show nanos / 1000000 * 10 ^ (9 - 3) = nanos by omega]
    · split
      · rw [String.toList_append, toList_padded, List.append_assoc]
        refine (readFraction?_padded (by decide) (by decide) (by omega) hrest).trans ?_
        rw [show nanos / 1000 * 10 ^ (9 - 6) = nanos by omega]
      · rw [String.toList_append, toList_padded, List.append_assoc]
        refine (readFraction?_padded (by decide) (by decide) (by omega) hrest).trans ?_
        rw [show nanos * 10 ^ (9 - 9) = nanos by omega]

/-! ## Local times -/

/-- **The date and the time of day** of an instant, with second 60 for a leap second, are those of
the instant. -/
theorem ofLocal?_clock (t : Instant) :
    ofLocal? (Date.ofDays (t.seconds / 86400)) (t.secondOfDay.toNat / 3600)
      (t.secondOfDay.toNat / 60 % 60)
      (t.secondOfDay.toNat % 60 + if 1000000000 ≤ t.nanos then 1 else 0) (t.nanos % 1000000000) 0 =
      some t := by
  obtain ⟨seconds, nanos, hnanos, hleap, hearliest, hlatest⟩ := t
  have hday : seconds = seconds / 86400 * 86400 + (seconds % 86400).toNat := by omega
  have hlt : (seconds % 86400).toNat < 86400 := by omega
  -- in a leap second the last second of a minute is written as the one after it
  have hsecond : (seconds % 86400).toNat / 3600 * 3600 + (seconds % 86400).toNat / 60 % 60 * 60 +
      min ((seconds % 86400).toNat % 60 + if 1000000000 ≤ nanos then 1 else 0) 59 =
        (seconds % 86400).toNat := by
    split_ifs <;> omega
  have hsixty : (if (seconds % 86400).toNat % 60 + (if 1000000000 ≤ nanos then 1 else 0) = 60 then
      nanos % 1000000000 + 1000000000 else nanos % 1000000000) = nanos := by
    split_ifs <;> omega
  have hvalid : (Date.ofDays (seconds / 86400)).isValid = true ∧
      (seconds % 86400).toNat / 3600 ≤ 23 ∧ (seconds % 86400).toNat / 60 % 60 ≤ 59 ∧
      ((seconds % 86400).toNat % 60 + if 1000000000 ≤ nanos then 1 else 0) ≤ 60 :=
    ⟨Date.isValid_ofDays _, by omega, by omega, by split_ifs <;> omega⟩
  have hparts : ofParts? seconds nanos = some ⟨seconds, nanos, hnanos, hleap, hearliest, hlatest⟩ :=
    dif_pos ⟨hnanos, hleap, hearliest, hlatest⟩
  unfold ofLocal? secondOfDay
  simp only [Date.toDays_ofDays, hsecond, hsixty, ← hday, Int.sub_zero, hparts]
  rw [if_pos]
  simp only [Bool.and_eq_true, decide_eq_true_eq]
  exact ⟨⟨⟨hvalid.1, hvalid.2.1⟩, hvalid.2.2.1⟩, hvalid.2.2.2⟩

/-! ## Texts -/

/-- The parts of an instant that is written. -/
theorem toList_textWith (fraction : String) (t : Instant) :
    (t.textWith fraction).toList =
      (yearText (Date.ofDays (t.seconds / 86400)).year).toList ++ '-' ::
        (paddedDigits 2 (Date.ofDays (t.seconds / 86400)).month ++ '-' ::
        (paddedDigits 2 (Date.ofDays (t.seconds / 86400)).day ++ 'T' ::
        (paddedDigits 2 (t.secondOfDay.toNat / 3600) ++ ':' ::
        (paddedDigits 2 (t.secondOfDay.toNat / 60 % 60) ++ ':' ::
        (paddedDigits 2 (t.secondOfDay.toNat % 60 + if 1000000000 ≤ t.nanos then 1 else 0) ++
        (fraction.toList ++ ['Z'])))))) := by
  simp only [textWith, String.toList_append, toList_padded, List.append_assoc]
  rfl

/-- The parts are read one after the other. -/
theorem ofText?_parts {s : String} {year : Int} {month day hour minute second nanos : Nat}
    (hs : s.toList = (yearText year).toList ++ '-' :: (paddedDigits 2 month ++ '-' ::
      (paddedDigits 2 day ++ 'T' :: (paddedDigits 2 hour ++ ':' :: (paddedDigits 2 minute ++ ':' ::
      (paddedDigits 2 second ++ ((fractionText nanos).toList ++ ['Z'])))))))
    (hmonth : month < 100) (hday : day < 100) (hhour : hour < 100) (hminute : minute < 100)
    (hsecond : second < 100) (hnanos : nanos < 1000000000) :
    ofText? s = ofLocal? ⟨year, month, day⟩ hour minute second nanos 0 := by
  -- the reader is a chain of steps, each of which goes on with what the last one left
  have hthen : ∀ {α β : Type} {x : Option α} {a : α} {f : α → Option β}, x = some a →
      (x >>= f) = f a := by
    rintro α β _ a f rfl
    rfl
  unfold ofText?
  rw [hs]
  refine (hthen (readYear?_yearText year _)).trans ?_
  refine (hthen (readMark?_cons (by decide) _)).trans ?_
  refine (hthen (readTwo?_padded hmonth _)).trans ?_
  refine (hthen (readMark?_cons (by decide) _)).trans ?_
  refine (hthen (readTwo?_padded hday _)).trans ?_
  refine (if_pos rfl).trans ?_
  refine (hthen rfl).trans ?_
  refine (hthen (readTwo?_padded hhour _)).trans ?_
  refine (hthen (readMark?_cons (by decide) _)).trans ?_
  refine (hthen (readTwo?_padded hminute _)).trans ?_
  refine (hthen (readMark?_cons (by decide) _)).trans ?_
  refine (hthen (readTwo?_padded hsecond _)).trans ?_
  refine (hthen (readFraction?_fractionText hnanos [])).trans ?_
  rfl

/-- **An instant that is written is read as itself.** -/
theorem ofText?_toText (t : Instant) : ofText? t.toText = some t := by
  have hvalid := Date.isValid_ofDays (t.seconds / 86400)
  have hclock : 0 ≤ t.secondOfDay ∧ t.secondOfDay < 86400 := by
    unfold secondOfDay
    omega
  have hsecond : (t.secondOfDay.toNat % 60 + if 1000000000 ≤ t.nanos then 1 else 0) < 100 := by
    split_ifs <;> omega
  exact (ofText?_parts (toList_textWith _ t) (Date.month_lt_of_isValid hvalid)
    (Date.day_lt_of_isValid hvalid) (by omega) (by omega) hsecond (by omega)).trans
      (ofLocal?_clock t)

end Instant

end PushBuild
