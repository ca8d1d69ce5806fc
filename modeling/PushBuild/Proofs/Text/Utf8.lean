import Mathlib.Data.List.Basic
import PushBuild.Text.Bytes

/-!
# Text and its bytes

The bytes of a text are those of its characters, one after the other (`utf8_ofList`).  A character
of ASCII is one byte, so ASCII text and its bytes determine each other (`utf8_ofAscii`,
`ofAscii_utf8`).
-/

namespace PushBuild.Text

/-- Bytes are listed from the first to the last. -/
theorem toList_loop (bytes : ByteArray) (i : Nat) (acc : Bytes) :
    ByteArray.toList.loop bytes i acc = acc.reverse ++ bytes.data.toList.drop i := by
  fun_induction ByteArray.toList.loop bytes i acc with
  | case1 i acc hlt ih =>
    have hget : bytes.get! i = bytes.data[i] := getElem!_pos bytes.data i hlt
    rw [ih, List.drop_eq_getElem_cons (i := i) (l := bytes.data.toList) hlt, hget,
      List.reverse_cons, List.append_assoc, Array.getElem_toList]
    rfl
  | case2 i acc hge =>
    rw [List.drop_eq_nil_of_le (Nat.le_of_not_lt hge), List.append_nil]

/-- The bytes of an array are listed as they are stored; the library lists them with a loop. -/
theorem toList_data (bytes : ByteArray) : bytes.toList = bytes.data.toList := toList_loop bytes 0 []

/-- The bytes of a text are those of its characters. -/
theorem utf8_ofList (cs : List Char) :
    utf8 (String.ofList cs) = cs.flatMap String.utf8EncodeChar := by
  rw [utf8, toList_data, String.toUTF8_eq_toByteArray, String.toByteArray_ofList, List.utf8Encode,
    List.toList_data_toByteArray]

/-- The bytes of two texts stand one after the other. -/
theorem utf8_append (s t : String) : utf8 (s ++ t) = utf8 s ++ utf8 t := by
  have hlist : ∀ s : String, utf8 s = s.toList.flatMap String.utf8EncodeChar := fun s => by
    rw [← utf8_ofList, String.ofList_toList]
  rw [hlist, hlist, hlist, String.toList_append, List.flatMap_append]

/-! ## ASCII -/

/-- The text of bytes that are ASCII. -/
def ofAscii (bytes : Bytes) : List Char := bytes.map fun b => Char.ofNat b.toNat

/-- A character of ASCII is encoded as the byte of its number. -/
theorem utf8EncodeChar_of_ascii {c : Char} (h : c.toNat < 128) :
    String.utf8EncodeChar c = [UInt8.ofNat c.toNat] :=
  if_pos (Nat.le_of_lt_succ h)

/-- ASCII text has one byte for each character. -/
theorem utf8_of_ascii {cs : List Char} (h : ∀ c ∈ cs, c.toNat < 128) :
    utf8 (String.ofList cs) = cs.map fun c => UInt8.ofNat c.toNat := by
  rw [utf8_ofList]
  induction cs with
  | nil => rfl
  | cons c cs ih =>
    rw [List.flatMap_cons, List.map_cons, utf8EncodeChar_of_ascii (h c List.mem_cons_self),
      ih fun d hd => h d (List.mem_cons_of_mem _ hd)]
    rfl

/-- A byte of ASCII is the number of its character. -/
theorem toNat_char_of_ascii {b : UInt8} (h : b < 128) : (Char.ofNat b.toNat).toNat = b.toNat := by
  have hascii : ∀ n < 128, (Char.ofNat n).toNat = n := by decide
  exact hascii b.toNat (UInt8.lt_iff_toNat_lt.mp h)

/-- The text of such bytes is ASCII. -/
theorem toNat_lt_of_mem_ofAscii {bytes : Bytes} (h : ∀ b ∈ bytes, b < 128) :
    ∀ c ∈ ofAscii bytes, c.toNat < 128 := by
  intro c hc
  obtain ⟨b, hb, rfl⟩ := List.mem_map.mp hc
  rw [toNat_char_of_ascii (h b hb)]
  exact UInt8.lt_iff_toNat_lt.mp (h b hb)

/-- The numbers of its characters are the bytes. -/
theorem map_ofAscii {bytes : Bytes} (h : ∀ b ∈ bytes, b < 128) :
    ((ofAscii bytes).map fun c => UInt8.ofNat c.toNat) = bytes := by
  rw [ofAscii, List.map_map]
  refine (List.map_congr_left fun b hb => ?_).trans (List.map_id bytes)
  rw [Function.comp_apply, toNat_char_of_ascii (h b hb), UInt8.ofNat_toNat, id]

/-- The bytes are those of their text. -/
theorem utf8_ofAscii {bytes : Bytes} (h : ∀ b ∈ bytes, b < 128) :
    utf8 (String.ofList (ofAscii bytes)) = bytes :=
  (utf8_of_ascii (toNat_lt_of_mem_ofAscii h)).trans (map_ofAscii h)

/-- The text is that of its bytes. -/
theorem ofAscii_utf8 {cs : List Char} (h : ∀ c ∈ cs, c.toNat < 128) :
    ofAscii (utf8 (String.ofList cs)) = cs := by
  rw [utf8_of_ascii h, ofAscii, List.map_map]
  refine (List.map_congr_left fun c hc => ?_).trans (List.map_id cs)
  have hlt : c.toNat < 128 := h c hc
  rw [Function.comp_apply, UInt8.toNat_ofNat', Nat.mod_eq_of_lt (by omega), Char.ofNat_toNat, id]

end PushBuild.Text
