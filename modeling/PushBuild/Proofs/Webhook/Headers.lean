import PushBuild.Proofs.Text.Utf8
import PushBuild.Webhook.Headers

/-!
# What is read from a header

A name may occur several times among the headers, and a value may be any bytes.  Only the first
value counts (`Headers.FirstIs`), and only if its bytes are printable (`Headers.Printable`); then it
is read as the text whose bytes it is (`Headers.text?_eq_some_iff`).
-/

namespace PushBuild.Headers

open Text

variable {h : Headers} {name : String} {value : Bytes} {cs : List Char}

/-- The value is the first one under the name. -/
def FirstIs (h : Headers) (name : String) (value : Bytes) : Prop :=
  ∃ front back, h.fields = front ++ (name, value) :: back ∧ ∀ field ∈ front, field.1 ≠ name

/-- The bytes are printable ASCII and tabs. -/
def Printable (value : Bytes) : Prop := ∀ b ∈ value, (32 ≤ b ∧ b < 127) ∨ b = 9

instance : Decidable (Printable value) := List.decidableBAll _ value

/-- What is looked up is the first value. -/
theorem first?_eq_some_iff : h.first? name = some value ↔ h.FirstIs name value := by
  rw [first?, List.lookup_eq_some_iff, FirstIs]
  simp only [bne_iff_ne, ne_comm]

/-- There is only one first value. -/
theorem FirstIs.unique {other : Bytes} (hvalue : h.FirstIs name value)
    (hother : h.FirstIs name other) :
    value = other :=
  Option.some.inj ((first?_eq_some_iff.mpr hvalue).symm.trans (first?_eq_some_iff.mpr hother))

/-- Printable bytes are ASCII, and so is a tab. -/
theorem Printable.ascii (hvalue : Printable value) : ∀ b ∈ value, b < 128 := by
  intro b hb
  rcases hvalue b hb with ⟨-, hlt⟩ | rfl
  · exact UInt8.lt_trans hlt (by decide)
  · decide

/-- **What is read** is the text of the first value under the name, and it is printable. -/
theorem text?_eq_some_iff : h.text? name = some cs ↔
    ∃ value, h.FirstIs name value ∧ Printable value ∧ ofAscii value = cs := by
  have hall : ∀ value : Bytes, (value.all fun b => (32 ≤ b && b < 127) || b == 9) = true ↔
      Printable value := by
    intro value
    simp only [List.all_eq_true, Bool.or_eq_true, Bool.and_eq_true, decide_eq_true_eq,
      beq_iff_eq, Printable]
  simp only [text?, Option.bind_eq_bind, Option.bind_eq_some_iff, first?_eq_some_iff,
    Option.ite_none_right_eq_some, hall, Option.some.injEq, ofAscii]

/-- Printable characters of ASCII are printable bytes. -/
theorem printable_utf8 (hcs : ∀ c ∈ cs, 32 ≤ c.toNat ∧ c.toNat < 127) :
    Printable (utf8 (String.ofList cs)) := by
  intro b hb
  rw [utf8_of_ascii fun c hc => Nat.lt_succ_of_lt (hcs c hc).2] at hb
  obtain ⟨c, hc, rfl⟩ := List.mem_map.mp hb
  obtain ⟨hlow, hhigh⟩ := hcs c hc
  have hvalue : (UInt8.ofNat c.toNat).toNat = c.toNat := by
    rw [UInt8.toNat_ofNat', Nat.mod_eq_of_lt (by omega)]
  simp [UInt8.le_iff_toNat_le, UInt8.lt_iff_toNat_lt, hvalue, hlow, hhigh]

/-- Printable characters of ASCII are read from a header as they were written. -/
theorem text?_of_printable (hfirst : h.first? name = some (cs.map fun c => UInt8.ofNat c.toNat))
    (hcs : ∀ c ∈ cs, 32 ≤ c.toNat ∧ c.toNat < 127) : h.text? name = some cs := by
  have hascii : ∀ c ∈ cs, c.toNat < 128 := fun c hc => Nat.lt_succ_of_lt (hcs c hc).2
  rw [← utf8_of_ascii hascii] at hfirst
  exact text?_eq_some_iff.mpr ⟨_, first?_eq_some_iff.mp hfirst, printable_utf8 hcs,
    ofAscii_utf8 hascii⟩

end PushBuild.Headers
