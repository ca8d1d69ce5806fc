import PushBuild.Json.Printer
import PushBuild.Json.Reader
import PushBuild.Proofs.Text.Digits

/-!
# Values that are written and read

What is written of a value is read as this value, whatever follows it in the text.

1. **Strings.**  A character is read back however it was escaped (`readString?_escapeChar`), and so
   is a string up to its closing quote (`readString?_escaped`).
2. **Numbers.**  Exact integers are read back (`readNumber?_int`), for no number but zero begins
   with a zero, and none is written with more digits than are read.
3. **Items and members.**  `ReadsBack` says of a value what its neighbours rely on.  If it holds of
   all parts of an array, then they are read back up to the closing bracket (`readItems?_print`),
   and likewise for an object.
4. **Values.**  `Legible` says that a value has a text that can be read, with so many levels.  Each
   such value is read back (`Legible.readsBack`), so its text is the text of this value only
   (`ofChars?_print`).
-/

namespace PushBuild.Json

open Text

/-! ## Strings -/

/-- Every character takes some room between the quotes, -/
theorem escapeChar_ne_nil (c : Char) : escapeChar c ≠ [] := by
  unfold escapeChar
  split <;> first
    | exact List.cons_ne_nil _ _
    | (split <;> exact List.cons_ne_nil _ _)

/-- The four digits of a control character give its number. -/
theorem readUnit?_control {n : Nat} (h : n < 0x20) (rest : List Char) :
    readUnit? ('0' :: '0' :: hexDigit (n / 16) :: hexDigit (n % 16) :: rest) = some (n, rest) := by
  have hzero : hexValue? '0' = some 0 := by decide
  have hhigh := (hexDigit_read (n / 16) (by omega)).1
  have hlow := (hexDigit_read (n % 16) (by omega)).1
  have hvalue : ((0 * 16 + 0) * 16 + n / 16) * 16 + n % 16 = n := by omega
  simp only [readUnit?, hzero, hhigh, hlow, Option.bind_eq_bind, Option.bind_some, hvalue]
  rfl

/-- **A character between quotes** is read back, however it was escaped. -/
theorem readString?_escapeChar (fuel : Nat) (acc : List Char) (c : Char) (rest : List Char) :
    readString? (fuel + 1) (some acc) (escapeChar c ++ rest) =
      readString? fuel (some (c :: acc)) rest := by
  unfold escapeChar
  split
  case h_8 _ hquote hback _ _ _ _ _ =>
    split
    · next hcontrol =>
      -- a control, by its number
      have hunit : (decide (c.toNat < 0xD800) || decide (0xDFFF < c.toNat)) = true := by
        rw [decide_eq_true (by omega), Bool.true_or]
      rw [List.cons_append, List.cons_append, List.cons_append, List.cons_append, List.cons_append,
        List.cons_append, List.nil_append, readString?, readUnit?_control hcontrol]
      dsimp only
      rw [if_pos hunit, Option.map_some, Char.ofNat_toNat]
    · next hplain =>
      rw [List.cons_append, List.nil_append, readString?, if_neg hplain, Option.map_some]
      · exact hquote
      · exact fun _ h _ => hback h
      · exact fun _ _ h _ => hback h
  all_goals rfl

/-- so that fuel for the text of a string is enough for its characters. -/
theorem length_le_escaped (s : List Char) : s.length ≤ (s.flatMap escapeChar).length := by
  induction s with
  | nil => exact Nat.le_refl 0
  | cons c s ih =>
    have hpos := List.length_pos_iff.mpr (escapeChar_ne_nil c)
    rw [List.flatMap_cons, List.length_append, List.length_cons]
    omega

/-- **A string** is read back up to its closing quote. -/
theorem readString?_escaped {s : List Char} {fuel : Nat} (hfuel : s.length < fuel)
    (acc rest : List Char) :
    readString? fuel (some acc) (s.flatMap escapeChar ++ '"' :: rest) =
      some (some (acc.reverse ++ s), rest) := by
  induction s generalizing fuel acc with
  | nil =>
    obtain ⟨fuel, rfl⟩ := Nat.exists_eq_succ_of_ne_zero (Nat.ne_of_gt hfuel)
    rw [List.append_nil]
    rfl
  -- one unit of fuel goes with each character, however long its escape is
  | cons c s ih =>
    obtain ⟨fuel, rfl⟩ := Nat.exists_eq_succ_of_ne_zero (Nat.ne_of_gt (Nat.zero_lt_of_lt hfuel))
    rw [List.flatMap_cons, List.append_assoc, readString?_escapeChar,
      ih (Nat.lt_of_succ_lt_succ hfuel),
      List.reverse_cons, List.append_assoc, List.singleton_append]

/-! ## Numbers -/

/-- What may follow a value: nothing, or what separates it from the next one or closes what it is
in. -/
def Ends (rest : List Char) : Prop := ∀ c ∈ rest.head?, c = ',' ∨ c = ']' ∨ c = '}'

/-- A text may end after a value. -/
theorem ends_nil : Ends [] := nofun

theorem Ends.cons_cases {c : Char} {cs : List Char} (h : Ends (c :: cs)) :
    c = ',' ∨ c = ']' ∨ c = '}' := h c rfl

/-- Digits are taken up to the end of the value, -/
theorem spanDigits_append {digits rest : List Char} (hdigits : ∀ c ∈ digits, isDigit c = true)
    (hrest : Ends rest) :
    spanDigits (digits ++ rest) = (digits, rest) := by
  have hnone : rest.takeWhile isDigit = [] ∧ rest.dropWhile isDigit = rest := by
    cases rest with
    | nil => exact ⟨rfl, rfl⟩
    | cons c cs => rcases hrest.cons_cases with rfl | rfl | rfl <;> exact ⟨rfl, rfl⟩
  rw [spanDigits, List.takeWhile_append_of_pos hdigits, List.dropWhile_append_of_pos hdigits,
    hnone.1, hnone.2, List.append_nil]

/-- and there is no exponent after them. -/
theorem readExponent?_ends {rest : List Char} (hrest : Ends rest) :
    readExponent? rest = some (none, rest) := by
  cases rest with
  | nil => rfl
  | cons c cs => rcases hrest.cons_cases with rfl | rfl | rfl <;> rfl

/-- More digits make no smaller number. -/
theorem le_foldl_digits (n : Nat) (cs : List Char) :
    n ≤ cs.foldl (fun n c => n * 10 + digitValue c) n := by
  induction cs generalizing n with
  | nil => exact Nat.le_refl n
  | cons c cs ih =>
    have hstep : n ≤ n * 10 + digitValue c := by omega
    exact Nat.le_trans hstep (ih _)

/-- As many digits as fit are all of them, if the number fits. -/
theorem leadingDigits_eq {acc : Nat} {cs : List Char}
    (h : cs.foldl (fun n c => n * 10 + digitValue c) acc ≤ 18446744073709551615) :
    leadingDigits acc cs = (cs.foldl (fun n c => n * 10 + digitValue c) acc, 0) := by
  induction cs generalizing acc with
  | nil => rfl
  | cons c cs ih =>
    rw [List.foldl_cons] at h ⊢
    rw [leadingDigits, if_pos (Nat.le_trans (le_foldl_digits _ cs) h), ih h]

/-- A number of digits alone is made of these digits and of the sign before them.  A zero in front
is refused by the reader unless it is the only digit, which is why `hzero` is asked for. -/
theorem readNumber?_whole (negative : Bool) {c : Char} {cs rest : List Char}
    (hdigits : ∀ d ∈ c :: cs, isDigit d = true) (hzero : c = '0' → cs = []) (hrest : Ends rest) :
    readNumber? ((if negative then ['-'] else []) ++ (c :: (cs ++ rest))) =
      some (makeNumber negative (c :: cs) none none, rest) := by
  have hspan : spanDigits (c :: (cs ++ rest)) = (c :: cs, rest) := spanDigits_append hdigits hrest
  have hsign : c ≠ '-' := by
    rintro rfl
    exact absurd (hdigits '-' List.mem_cons_self) (by decide)
  unfold readNumber?
  split
  next sign cs' hread =>
  -- the sign is told by the first character, and no digit is a minus sign
  obtain ⟨rfl, rfl⟩ : sign = negative ∧ cs' = c :: (cs ++ rest) := by
    cases negative with
    | true =>
      obtain ⟨rfl, rfl⟩ := Prod.mk.inj hread
      exact ⟨rfl, rfl⟩
    | false =>
      have hnone : (if false then ['-'] else []) ++ c :: (cs ++ rest) = c :: (cs ++ rest) := rfl
      rw [hnone] at hread
      split at hread
      · next heq => exact absurd (List.cons.inj heq).1 hsign
      · obtain ⟨rfl, rfl⟩ := Prod.mk.inj hread
        exact ⟨rfl, rfl⟩
  -- then come the digits, no point, and no exponent
  rw [hspan]
  dsimp only
  split
  · next heq => cases heq
  · next heq =>
    obtain ⟨rfl, hcs⟩ := List.cons.inj heq
    rw [hzero rfl] at hcs
    cases hcs
  · split
    · exact absurd hrest.cons_cases (by decide)
    · rw [readExponent?_ends hrest]
      rfl

/-- Digits that write an exact integer make this integer.  A zero with a minus sign would be no
integer to the reader, but no integer is written so. -/
theorem makeNumber_digits (negative : Bool) {n : Nat} (hn : n ≤ 18446744073709551615)
    (hzero : negative = true → n ≠ 0)
    (hexact : isExact (if negative then -(n : Int) else n) = true) :
    makeNumber negative (Nat.toDigits 10 n) none none =
      .int (if negative then -(n : Int) else n) := by
  have hdigits : leadingDigits 0 (Nat.toDigits 10 n) = (n, 0) := by
    have hnumber : (Nat.toDigits 10 n).foldl (fun n c => n * 10 + digitValue c) 0 = n :=
      number_toDigits n
    rw [leadingDigits_eq (hnumber.symm ▸ hn), hnumber]
  have hminus : (!(negative && n == 0)) = true := by
    cases negative with
    | false => rfl
    | true => simpa using hzero rfl
  unfold makeNumber
  rw [hdigits]
  simp only [Option.isNone_none, beq_self_eq_true, Bool.true_and, hminus, hexact, if_true]

/-- **An exact integer** is read back. -/
theorem readNumber?_int {n : Int} (hexact : isExact n = true) {rest : List Char}
    (hrest : Ends rest) :
    readNumber? ((toString n).toList ++ rest) = some (.int n, rest) := by
  have hbounds : -9223372036854775808 ≤ n ∧ n ≤ 18446744073709551615 := by
    simpa only [isExact, Bool.and_eq_true, decide_eq_true_eq] using hexact
  -- a sign and the digits of the magnitude
  obtain ⟨negative, m, hn, hm, hnonzero⟩ : ∃ (negative : Bool) (m : Nat),
      n = (if negative then -(m : Int) else m) ∧
      (toString n).toList = (if negative then ['-'] else []) ++ Nat.toDigits 10 m ∧
        (negative = true → m ≠ 0) := by
    cases n with
    | ofNat m => exact ⟨false, m, rfl, Nat.toList_repr, nofun⟩
    | negSucc m =>
      refine ⟨true, m + 1, rfl, ?_, fun _ => Nat.succ_ne_zero m⟩
      have htext : toString (Int.negSucc m) = "-" ++ (m + 1).repr := rfl
      rw [htext, String.toList_append, Nat.toList_repr]
      rfl
  have hfits : m ≤ 18446744073709551615 := by
    cases negative <;> simp only [Bool.false_eq_true, if_false, if_true] at hn <;> omega
  obtain ⟨c, cs, hdigits⟩ := List.exists_cons_of_ne_nil (Nat.toDigits_ne_nil (n := m) (b := 10))
  have hall : ∀ d ∈ c :: cs, isDigit d = true := fun d hd => isDigit_toDigits (hdigits ▸ hd)
  -- no magnitude but zero begins with a zero
  have hzero : c = '0' → cs = [] := by
    rintro rfl
    exact eq_nil_of_toDigits hdigits
  rw [hm, List.append_assoc, hdigits, List.cons_append,
    readNumber?_whole negative hall hzero hrest, ← hdigits,
    makeNumber_digits negative hfits hnonzero (hn ▸ hexact), ← hn]

/-! ## Items and members -/

/-- The value is read back from its text, whatever follows; no blank and no bracket comes first. -/
structure ReadsBack (depth : Nat) (v : Json) : Prop where
  first : ∃ c cs, v.print = c :: cs ∧ isSpace c = false ∧ c ≠ ']'
  reads : ∀ fuel rest, v.print.length ≤ fuel → Ends rest →
    readValue? fuel depth (v.print ++ rest) = some (v, rest)

/-- No blank is skipped where there is none, -/
theorem skipSpace_cons {c : Char} (h : isSpace c = false) (cs : List Char) :
    skipSpace (c :: cs) = c :: cs := by
  rw [skipSpace, List.dropWhile_cons, h]
  rfl

section

variable {depth fuel : Nat} {v : Json} {items : List Json} {members : List (String × Json)}
  {rest : List Char}

/-- and so none before a value. -/
theorem ReadsBack.skipSpace (h : ReadsBack depth v) (rest : List Char) :
    skipSpace (v.print ++ rest) = v.print ++ rest := by
  obtain ⟨c, cs, hprint, hspace, -⟩ := h.first
  rw [hprint, List.cons_append, skipSpace_cons hspace]

/-- Texts of more than one item begin with that of the first. -/
theorem printItems_cons (v w : Json) (items : List Json) :
    printItems (v :: w :: items) = v.print ++ ',' :: printItems (w :: items) := rfl

/-- Items begin with what the first of them begins with: no blank, and no bracket, which would be
read as the end of an empty array. -/
theorem skipSpace_printItems (h : ∀ v ∈ items, ReadsBack depth v) (hne : items ≠ [])
    (rest : List Char) :
    skipSpace (printItems items ++ rest) = printItems items ++ rest ∧
      ∀ cs, printItems items ++ rest ≠ ']' :: cs := by
  obtain ⟨c, cs, hcs, hspace, hbracket⟩ :
      ∃ c cs, printItems items ++ rest = c :: cs ∧ isSpace c = false ∧ c ≠ ']' := by
    cases items with
    | nil => exact absurd rfl hne
    | cons v items =>
      obtain ⟨c, cs, hprint, hfirst⟩ := (h v List.mem_cons_self).first
      cases items with
      | nil => exact ⟨c, cs ++ rest, by rw [← List.cons_append, ← hprint]; rfl, hfirst⟩
      | cons w items =>
        refine ⟨c, cs ++ ',' :: printItems (w :: items) ++ rest, ?_, hfirst⟩
        rw [printItems_cons, hprint]
        rfl
  rw [hcs]
  exact ⟨skipSpace_cons hspace cs, fun cs' h => hbracket (List.cons.inj h).1⟩

/-- An item before the closing bracket is the last, -/
theorem readItems?_last (h : ReadsBack depth v) (hfuel : v.print.length ≤ fuel) (acc : List Json)
    (rest : List Char) :
    readItems? (fuel + 1) depth acc (v.print ++ ']' :: rest) = some ((v :: acc).reverse, rest) := by
  have hread := h.reads fuel (']' :: rest) hfuel (by simp [Ends])
  rw [readItems?, hread, Option.bind_eq_bind, Option.bind_some]
  dsimp only
  rw [skipSpace_cons (by decide)]
  rfl

/-- and one before a comma is followed by another. -/
theorem readItems?_more (h : ReadsBack depth v) (hfuel : v.print.length ≤ fuel) (acc : List Json)
    (rest : List Char) :
    readItems? (fuel + 1) depth acc (v.print ++ ',' :: rest) = readItems? fuel depth (v :: acc)
      (skipSpace rest) := by
  have hread := h.reads fuel (',' :: rest) hfuel (by simp [Ends])
  rw [readItems?, hread, Option.bind_eq_bind, Option.bind_some]
  dsimp only
  rw [skipSpace_cons (by decide)]
  rfl

/-- **Items** are read back up to the closing bracket. -/
theorem readItems?_print (h : ∀ v ∈ items, ReadsBack depth v) (hne : items ≠ [])
    (hfuel : (printItems items).length < fuel) (acc : List Json) (rest : List Char) :
    readItems? fuel depth acc (printItems items ++ ']' :: rest) =
      some (acc.reverse ++ items, rest) := by
  induction items generalizing fuel acc with
  | nil => exact absurd rfl hne
  | cons v items ih =>
    obtain ⟨fuel, rfl⟩ := Nat.exists_eq_succ_of_ne_zero (Nat.ne_of_gt (Nat.zero_lt_of_lt hfuel))
    have hv := h v List.mem_cons_self
    have hitems : ∀ w ∈ items, ReadsBack depth w := fun w hw => h w (List.mem_cons_of_mem _ hw)
    cases items with
    | nil =>
      -- one item
      have hlast := readItems?_last hv (Nat.le_of_lt_succ hfuel) acc rest
      rwa [List.reverse_cons] at hlast
    | cons w items =>
      -- more than one: after the comma there is fuel for what is left
      rw [printItems_cons, List.length_append, List.length_cons] at hfuel
      have hlength : (printItems (w :: items)).length < fuel := by omega
      have hrest := ih hitems (List.cons_ne_nil _ _) hlength (v :: acc)
      rw [printItems_cons, List.append_assoc, List.cons_append, readItems?_more hv (by omega),
        (skipSpace_printItems hitems (List.cons_ne_nil _ _) _).1, hrest, List.reverse_cons,
        List.append_assoc,
        List.singleton_append]

/-- A name is read back up to its value. -/
theorem readString?_name (name : String) (rest : List Char) :
    readString? ((name.toList.flatMap escapeChar ++ '"' :: rest).length + 1) (some [])
      (name.toList.flatMap escapeChar ++ '"' :: rest) = some (some name.toList, rest) := by
  have hlength := length_le_escaped name.toList
  rw [readString?_escaped (by rw [List.length_append]; omega), List.reverse_nil, List.nil_append]

/-- The text of a member, and of those after it. -/
theorem printMembers_cons (name : String) (v : Json) (member : String × Json)
    (members : List (String × Json)) :
    printMembers ((name, v) :: member :: members) =
      printString name ++ ':' :: v.print ++ ',' :: printMembers (member :: members) := rfl

/-- The text of a string is its characters between two quotes. -/
theorem printString_append (s : String) (rest : List Char) :
    printString s ++ rest = '"' :: (s.toList.flatMap escapeChar ++ '"' :: rest) := by
  rw [printString, List.cons_append, List.cons_append, List.append_assoc, List.singleton_append]

/-- Members begin with a quote. -/
theorem skipSpace_printMembers (hne : members ≠ []) (rest : List Char) :
    skipSpace (printMembers members ++ rest) = printMembers members ++ rest ∧
      ∀ cs, printMembers members ++ rest ≠ '}' :: cs := by
  obtain ⟨cs, hcs⟩ : ∃ cs, printMembers members ++ rest = '"' :: cs := by
    cases members with
    | nil => exact absurd rfl hne
    | cons member members =>
      cases members with
      | nil => exact ⟨_, rfl⟩
      | cons _ _ => exact ⟨_, rfl⟩
  rw [hcs]
  exact ⟨skipSpace_cons (by decide) cs, fun cs' h => absurd (List.cons.inj h).1 (by decide)⟩

/-- The value of a member is read after its name. -/
theorem readMembers?_name (name : String) (acc : List (String × Json)) (h : ReadsBack depth v)
    (hfuel : v.print.length ≤ fuel) (hrest : Ends rest) :
    readMembers? (fuel + 1) depth acc (printString name ++ ':' :: v.print ++ rest) =
      match skipSpace rest with
      | ',' :: rest => readMembers? fuel depth ((name, v) :: acc) (skipSpace rest)
      | '}' :: rest => some (((name, v) :: acc).reverse, rest)
      | _ => none := by
  rw [List.append_assoc, List.cons_append, printString_append, readMembers?, readString?_name]
  simp only [Option.bind_eq_bind, Option.bind_some]
  rw [skipSpace_cons (by decide)]
  show (readValue? fuel depth (skipSpace (v.print ++ rest))).bind _ = _
  rw [h.skipSpace, h.reads fuel rest hfuel hrest, String.ofList_toList]
  rfl

/-- A member before the closing brace is the last, -/
theorem readMembers?_last (name : String) (h : ReadsBack depth v) (hfuel : v.print.length ≤ fuel)
    (acc : List (String × Json)) (rest : List Char) :
    readMembers? (fuel + 1) depth acc (printString name ++ ':' :: v.print ++ '}' :: rest) =
      some (((name, v) :: acc).reverse, rest) := by
  rw [readMembers?_name name acc h hfuel (by simp [Ends]), skipSpace_cons (by decide)]
  rfl

/-- and one before a comma is followed by another. -/
theorem readMembers?_more (name : String) (h : ReadsBack depth v) (hfuel : v.print.length ≤ fuel)
    (acc : List (String × Json)) (rest : List Char) :
    readMembers? (fuel + 1) depth acc (printString name ++ ':' :: v.print ++ ',' :: rest) =
      readMembers? fuel depth ((name, v) :: acc) (skipSpace rest) := by
  rw [readMembers?_name name acc h hfuel (by simp [Ends]), skipSpace_cons (by decide)]
  rfl

/-- **Members** are read back up to the closing brace. -/
theorem readMembers?_print (h : ∀ m ∈ members, ReadsBack depth m.2) (hne : members ≠ [])
    (hfuel : (printMembers members).length < fuel) (acc : List (String × Json)) (rest : List Char) :
    readMembers? fuel depth acc (printMembers members ++ '}' :: rest) =
      some (acc.reverse ++ members, rest) := by
  induction members generalizing fuel acc with
  | nil => exact absurd rfl hne
  | cons m members ih =>
    obtain ⟨name, v⟩ := m
    obtain ⟨fuel, rfl⟩ := Nat.exists_eq_succ_of_ne_zero (Nat.ne_of_gt (Nat.zero_lt_of_lt hfuel))
    have hv : ReadsBack depth v := h _ List.mem_cons_self
    have hmembers : ∀ m ∈ members, ReadsBack depth m.2 :=
      fun m hm => h m (List.mem_cons_of_mem _ hm)
    cases members with
    | nil =>
      -- one member, whose name takes some of the fuel
      have hlength : (printString name ++ ':' :: v.print).length < fuel + 1 := hfuel
      rw [List.length_append, List.length_cons] at hlength
      have hvalue : v.print.length ≤ fuel := by omega
      have hlast := readMembers?_last name hv hvalue acc rest
      rwa [List.reverse_cons] at hlast
    | cons m members =>
      -- more than one
      rw [printMembers_cons, List.length_append, List.length_append, List.length_cons,
        List.length_cons] at hfuel
      have hlength : (printMembers (m :: members)).length < fuel := by omega
      have hrest := ih hmembers (List.cons_ne_nil _ _) hlength ((name, v) :: acc)
      rw [printMembers_cons, List.append_assoc, List.cons_append,
        readMembers?_more name hv (by omega),
        (skipSpace_printMembers (List.cons_ne_nil _ _) _).1, hrest, List.reverse_cons,
        List.append_assoc,
        List.singleton_append]

end

/-! ## Values -/

/-- A value that can be read from its text with so many levels: its strings are texts, its numbers
are exact integers, and no more arrays and objects are nested than there are levels. -/
inductive Legible : Nat → Json → Prop
  | null {depth : Nat} : Legible depth .null
  | bool {depth : Nat} (b : Bool) : Legible depth (.bool b)
  | int {depth : Nat} {n : Int} (h : isExact n = true) : Legible depth (.int n)
  | str {depth : Nat} (s : String) : Legible depth (.str s)
  | arr {depth : Nat} {items : List Json} (h : ∀ v ∈ items, Legible depth v) :
      Legible (depth + 1) (.arr items)
  | obj {depth : Nat} {members : List (String × Json)} (h : ∀ m ∈ members, Legible depth m.2) :
      Legible (depth + 1) (.obj members)

/-- The text of a number begins with its sign or its first digit. -/
theorem toList_toString_int (n : Int) :
    ∃ c cs, (toString n).toList = c :: cs ∧ (c = '-' ∨ isDigit c = true) := by
  cases n with
  | ofNat m =>
    obtain ⟨c, cs, hdigits⟩ := List.exists_cons_of_ne_nil (Nat.toDigits_ne_nil (n := m) (b := 10))
    exact ⟨c, cs, Nat.toList_repr.trans hdigits,
      .inr (isDigit_toDigits (hdigits ▸ List.mem_cons_self))⟩
  | negSucc m =>
    refine ⟨'-', ((m + 1).repr).toList, ?_, .inl rfl⟩
    have htext : toString (Int.negSucc m) = "-" ++ (m + 1).repr := rfl
    rw [htext, String.toList_append]
    rfl

/-- A digit is no blank and no bracket. -/
theorem isSpace_of_isDigit {c : Char} (h : isDigit c = true) : isSpace c = false ∧ c ≠ ']' := by
  constructor
  · refine Bool.eq_false_iff.mpr fun hspace => ?_
    simp only [isSpace, Bool.or_eq_true, beq_iff_eq] at hspace
    rcases hspace with ((rfl | rfl) | rfl) | rfl <;> exact absurd h (by decide)
  · rintro rfl
    exact absurd h (by decide)

/-- A value that begins with a sign or a digit is a number: all other values begin with a character
of their own. -/
theorem readValue?_number {c : Char} (h : c = '-' ∨ isDigit c = true) (fuel depth : Nat)
    (cs : List Char) :
    readValue? (fuel + 1) depth (c :: cs) = (readNumber? (c :: cs)).map fun (n, rest) =>
      (.num n, rest) := by
  have hother : ∀ d, d ∈ ['n', 't', 'f', '"', '[', '{'] → c ≠ d := by
    rintro d hd rfl
    rcases h with rfl | h
    · revert hd
      decide
    · simp only [List.mem_cons, List.not_mem_nil, or_false] at hd
      rcases hd with rfl | rfl | rfl | rfl | rfl | rfl <;> exact absurd h (by decide)
  rw [readValue?]
  · intro rest h
    exact hother 'n' (by decide) (List.cons.inj h).1
  · intro rest h
    exact hother 't' (by decide) (List.cons.inj h).1
  · intro rest h
    exact hother 'f' (by decide) (List.cons.inj h).1
  · intro rest h
    exact hother '"' (by decide) (List.cons.inj h).1
  · intro rest h
    exact hother '[' (by decide) (List.cons.inj h).1
  · intro rest h
    exact hother '{' (by decide) (List.cons.inj h).1

/-- One level of the count is there for every value. -/
theorem ReadsBack.of_succ {depth : Nat} {v : Json}
    (hfirst : ∃ c cs, v.print = c :: cs ∧ isSpace c = false ∧ c ≠ ']')
    (hreads : ∀ fuel rest, v.print.length ≤ fuel + 1 → Ends rest →
      readValue? (fuel + 1) depth (v.print ++ rest) = some (v, rest)) : ReadsBack depth v := by
  refine ⟨hfirst, fun fuel rest hfuel hrest => ?_⟩
  obtain ⟨c, cs, hprint, -⟩ := hfirst
  have hpos : fuel ≠ 0 := by
    rintro rfl
    rw [hprint] at hfuel
    cases hfuel
  obtain ⟨fuel, rfl⟩ := Nat.exists_eq_succ_of_ne_zero hpos
  exact hreads fuel rest hfuel hrest

/-- **A legible value is read back**: by induction on the value, the parts of an array and of an
object before it. -/
theorem Legible.readsBack {depth : Nat} {v : Json} (h : Legible depth v) : ReadsBack depth v := by
  induction h with
  | null => exact .of_succ ⟨_, _, rfl, by decide, by decide⟩ fun fuel rest _ _ => by rfl
  | bool b =>
    cases b with
    | true => exact .of_succ ⟨_, _, rfl, by decide, by decide⟩ fun fuel rest _ _ => by rfl
    | false => exact .of_succ ⟨_, _, rfl, by decide, by decide⟩ fun fuel rest _ _ => by rfl
  | @int _ n hexact =>
    -- the first character tells that it is a number
    obtain ⟨c, cs, htext, hc⟩ := toList_toString_int n
    have hfirst : isSpace c = false ∧ c ≠ ']' := by
      rcases hc with rfl | hc
      · decide
      · exact isSpace_of_isDigit hc
    refine .of_succ ⟨c, cs, htext, hfirst⟩ fun fuel rest _ hrest => ?_
    have hread := readNumber?_int hexact hrest
    show readValue? (fuel + 1) _ ((toString n).toList ++ rest) = _
    rw [htext, List.cons_append] at hread ⊢
    rw [readValue?_number hc, hread]
    rfl
  | str s =>
    refine .of_succ ⟨_, _, rfl, by decide, by decide⟩ fun fuel rest _ _ => ?_
    show readValue? (fuel + 1) _ (printString s ++ rest) = _
    rw [printString_append, readValue?, readString?_name, Option.map_some]
    dsimp only
    rw [String.ofList_toList]
  | @arr depth items h ih =>
    refine .of_succ ⟨_, _, rfl, by decide, by decide⟩ fun fuel rest hfuel _ => ?_
    have hprint : (Json.arr items).print ++ rest = '[' :: (printItems items ++ ']' :: rest) := by
      show '[' :: printItems items ++ [']'] ++ rest = _
      rw [List.cons_append, List.cons_append, List.append_assoc, List.singleton_append]
    have hlength : (Json.arr items).print.length = (printItems items).length + 2 := by
      show ('[' :: printItems items ++ [']']).length = _
      rw [List.length_append, List.length_cons, List.length_singleton]
    rw [hprint, readValue?]
    dsimp only
    cases items with
    | nil => rfl
    | cons v items =>
      -- one level is used up by the array, and the items are read with the rest of them
      obtain ⟨hspace, hbracket⟩ := skipSpace_printItems ih (List.cons_ne_nil _ _) (']' :: rest)
      rw [hspace]
      split
      · next heq => exact absurd heq (hbracket _)
      · rw [readItems?_print ih (List.cons_ne_nil _ _) (by omega)]
        rfl
  | @obj depth members h ih =>
    refine .of_succ ⟨_, _, rfl, by decide, by decide⟩ fun fuel rest hfuel _ => ?_
    have hprint : (Json.obj members).print ++ rest =
        '{' :: (printMembers members ++ '}' :: rest) := by
      show '{' :: printMembers members ++ ['}'] ++ rest = _
      rw [List.cons_append, List.cons_append, List.append_assoc, List.singleton_append]
    have hlength : (Json.obj members).print.length = (printMembers members).length + 2 := by
      show ('{' :: printMembers members ++ ['}']).length = _
      rw [List.length_append, List.length_cons, List.length_singleton]
    rw [hprint, readValue?]
    dsimp only
    cases members with
    | nil => rfl
    | cons m members =>
      -- the same for the members of an object
      obtain ⟨hspace, hbrace⟩ := skipSpace_printMembers (List.cons_ne_nil m members) ('}' :: rest)
      rw [hspace]
      split
      · next heq => exact absurd heq (hbrace _)
      · rw [readMembers?_print ih (List.cons_ne_nil _ _) (by omega)]
        rfl

/-- **A legible value is the one that its text is.** -/
theorem ofChars?_print {depth : Nat} {v : Json} (h : Legible depth v) :
    ofChars? depth v.print = some v := by
  have hv := h.readsBack
  have hspace := hv.skipSpace []
  have hread := hv.reads (v.print.length + 1) [] (Nat.le_succ _) ends_nil
  rw [List.append_nil] at hspace hread
  rw [ofChars?, hspace, hread]
  rfl

end PushBuild.Json
