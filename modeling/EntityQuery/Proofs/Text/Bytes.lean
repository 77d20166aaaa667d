/-
# Texts as bytes

Stores hold texts as their bytes in UTF-8.  A text of ASCII characters has one byte for each
of them (`toList_toUTF8_of_ascii`), so comparing byte by byte orders such texts as comparing
them character by character does (`toUTF8_lt_iff`).
-/

import EntityQuery.Text.Decimal
import Mathlib.Data.List.Basic

namespace EntityQuery
namespace Text

/-! ### Arrays of bytes -/

/-- The loop that reads the bytes gives those not seen behind those seen. -/
private theorem toList_loop (bs : ByteArray) (i : Nat) (seen : List UInt8) :
    ByteArray.toList.loop bs i seen = seen.reverse ++ bs.data.toList.drop i := by
  fun_induction ByteArray.toList.loop bs i seen with
  | case1 i seen h ih =>
    have hi : i < bs.data.toList.length := by simpa using h
    rw [ih, List.drop_eq_getElem_cons hi]
    simp [ByteArray.get!, h]
  | case2 i seen h =>
    have hi : bs.data.toList.length ≤ i := by simpa using h
    rw [List.drop_eq_nil_of_le hi, List.append_nil]

/-- An array has the bytes that its data has. -/
theorem toList_byteArray (bs : ByteArray) : bs.toList = bs.data.toList := by
  rw [ByteArray.toList, toList_loop]
  rfl

/-- An array is found again from its bytes. -/
theorem toByteArray_toList (bs : ByteArray) : bs.toList.toByteArray = bs := by
  rw [toList_byteArray]
  ext1
  rw [List.data_toByteArray]

/-! ### ASCII -/

/-- A text of ASCII characters. -/
def Ascii (s : List Char) : Prop := ∀ c ∈ s, c.toNat < 128

section Ascii

variable {s t : List Char} {c d : Char}

/-- Two texts of ASCII are one. -/
theorem Ascii.append (hs : Ascii s) (ht : Ascii t) : Ascii (s ++ t) :=
  fun c hc => (List.mem_append.1 hc).elim (hs c) (ht c)

/-- A text of ASCII stays so with a character of ASCII in front. -/
theorem Ascii.cons (hc : c.toNat < 128) (hs : Ascii s) : Ascii (c :: s) :=
  List.forall_mem_cons.2 ⟨hc, hs⟩

/-- Digits are ASCII. -/
theorem ascii_of_isDigit (h : ∀ c ∈ s, c.isDigit) : Ascii s := by
  intro c hc
  have hdigit := h c hc
  simp only [Char.isDigit, Bool.and_eq_true, decide_eq_true_eq] at hdigit
  exact Nat.lt_of_le_of_lt hdigit.2 (by decide)

/-- Padded numbers are ASCII. -/
theorem ascii_padded (w n : Nat) : Ascii (padded w n) :=
  ascii_of_isDigit fun _ hc => isDigit_of_mem_padded hc

/-- A character of ASCII is its own byte. -/
theorem toNat_toUInt8 (hc : c.toNat < 128) : c.toUInt8.toNat = c.toNat := by
  rw [← Char.toUInt8_val, UInt32.toNat_toUInt8]
  exact Nat.mod_eq_of_lt (Nat.lt_trans hc (by decide))

/-- ASCII characters become bytes of the same order. -/
theorem toUInt8_lt_iff (hc : c.toNat < 128) (hd : d.toNat < 128) :
    c.toUInt8 < d.toUInt8 ↔ c < d := by
  rw [UInt8.lt_iff_toNat_lt, toNat_toUInt8 hc, toNat_toUInt8 hd, Char.lt_def,
    UInt32.lt_iff_toNat_lt]
  rfl

/-- Characters of ASCII with the same byte are the same. -/
theorem toUInt8_inj (hc : c.toNat < 128) (hd : d.toNat < 128) :
    c.toUInt8 = d.toUInt8 ↔ c = d := by
  refine ⟨fun h => ?_, congrArg _⟩
  rw [← Char.toNat_inj, ← toNat_toUInt8 hc, ← toNat_toUInt8 hd, h]

/-- **An ASCII text has one byte for each character.** -/
theorem toList_toUTF8_of_ascii (h : Ascii s) :
    (String.ofList s).toUTF8.toList = s.map Char.toUInt8 := by
  have hbytes : s.flatMap String.utf8EncodeChar = s.map Char.toUInt8 := by
    rw [List.map_eq_flatMap]
    refine List.flatMap_congr fun c hc => ?_
    have hsize : c.utf8Size = 1 := by
      rw [Char.utf8Size_eq_one_iff, UInt32.le_iff_toNat_le]
      exact Nat.le_of_lt_succ (h c hc)
    rw [String.utf8EncodeChar_eq_singleton hsize, Char.toUInt8_val]
  rw [String.toUTF8_eq_toByteArray, String.toByteArray_ofList, toList_byteArray,
    List.utf8Encode, List.toList_data_toByteArray, hbytes]

/-- **The bytes of ASCII texts are ordered as the texts are.** -/
theorem toUTF8_lt_iff (hs : Ascii s) (ht : Ascii t) :
    (String.ofList s).toUTF8.toList < (String.ofList t).toUTF8.toList ↔ s < t := by
  rw [toList_toUTF8_of_ascii hs, toList_toUTF8_of_ascii ht]
  induction s generalizing t with
  | nil =>
    cases t with
    | nil => exact iff_of_false (List.lt_irrefl _) (List.lt_irrefl _)
    | cons d t => exact iff_of_true (List.nil_lt_cons _ _) (List.nil_lt_cons _ _)
  | cons c s ih =>
    cases t with
    | nil => exact iff_of_false (List.not_lt_nil _) (List.not_lt_nil _)
    | cons d t =>
      obtain ⟨hc, hs⟩ := List.forall_mem_cons.1 hs
      obtain ⟨hd, ht⟩ := List.forall_mem_cons.1 ht
      rw [List.map_cons, List.map_cons, List.cons_lt_cons_iff, List.cons_lt_cons_iff,
        toUInt8_lt_iff hc hd, toUInt8_inj hc hd, ih hs ht]

end Ascii

end Text
end EntityQuery
