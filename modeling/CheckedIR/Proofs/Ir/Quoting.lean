import CheckedIR.Ir.Printing
import Mathlib.Data.List.Basic

/-!
# Bytes in quotes

The bytes of a text are written in quotes so that they can be read back: a byte stands for itself or
as two hexadecimal digits after a backslash. The definition of a global shows the bytes of its text
and a zero.
-/

namespace CheckedIR.Ir

open CheckedIR.Text

def textBytes (s : String) : List Nat := s.toUTF8.toList.map UInt8.toNat

/-- Reads bytes in quotes. Two hexadecimal digits after a backslash are a byte, and so is any other
character; a quote and a backslash without digits are refused. -/
def quotedBytes? : List Char → Option (List Nat)
  | [] => some []
  | '\\' :: high :: low :: cs => do
    let byte := 16 * (← hexValue? high) + (← hexValue? low)
    return byte :: (← quotedBytes? cs)
  | c :: cs => if c = '"' ∨ c = '\\' then none else (quotedBytes? cs).map (c.toNat :: ·)

/-! ## Reading what was written -/

theorem hexValue?_hexDigit : ∀ n < 16, hexValue? (hexDigit .upper n) = some n := by decide

theorem quotedBytes?_hex {n : Nat} (hn : n < 256) (cs : List Char) :
    quotedBytes? ('\\' :: (hexFixed .upper 2 n ++ cs)) = (quotedBytes? cs).map (n :: ·) := by
  have hhigh : n / 16 % 16 < 16 := Nat.mod_lt _ (by decide)
  have hlow : n % 16 < 16 := Nat.mod_lt _ (by decide)
  have hsum : 16 * (n / 16 % 16) + n % 16 = n := by omega
  simp only [hexFixed, List.nil_append, List.cons_append, quotedBytes?, hexValue?_hexDigit _ hhigh,
    hexValue?_hexDigit _ hlow]
  cases quotedBytes? cs <;> simp [hsum]

theorem quotedBytes?_char {c : Char} (hquote : c ≠ '"') (hslash : c ≠ '\\') (cs : List Char) :
    quotedBytes? (c :: cs) = (quotedBytes? cs).map (c.toNat :: ·) := by
  rw [quotedBytes?, if_neg (not_or.2 ⟨hquote, hslash⟩)]
  exact fun _ _ _ hc _ => hslash hc

theorem quotedBytes?_escapedByte (b : UInt8) (cs : List Char) :
    quotedBytes? (escapedByte b ++ cs) = (quotedBytes? cs).map (b.toNat :: ·) := by
  unfold escapedByte
  split
  · rename_i h
    simp only [Bool.and_eq_true, decide_eq_true_eq, UInt8.le_iff_toNat_le, bne_iff_ne,
      ne_eq, ← UInt8.toNat_inj] at h
    have hchar : (Char.ofNat b.toNat).toNat = b.toNat := by
      rw [Char.ofNat, dif_pos (.inl (Nat.lt_of_lt_of_le b.toNat_lt (by decide)))]
      rfl
    rw [List.singleton_append, quotedBytes?_char, hchar]
    · exact fun he => h.1.2 (hchar ▸ congrArg Char.toNat he)
    · exact fun he => h.2 (hchar ▸ congrArg Char.toNat he)
  · exact quotedBytes?_hex b.toNat_lt cs

theorem quotedBytes?_escaped (s : String) :
    quotedBytes? (escaped s).toList = some (textBytes s) := by
  unfold escaped textBytes
  rw [String.toList_ofList]
  induction s.toUTF8.toList with
  | nil => rfl
  | cons b bs ih =>
    rw [List.flatMap_cons, quotedBytes?_escapedByte, ih, Option.map_some, List.map_cons]

/-! ## Bytes of texts -/

theorem toList_loop (bs : ByteArray) (i : Nat) (r : List UInt8) :
    ByteArray.toList.loop bs i r = r.reverse ++ bs.data.toList.drop i := by
  fun_induction ByteArray.toList.loop bs i r with
  | case1 i r h ih =>
    have hi : i < bs.data.size := h
    rw [ih, List.reverse_cons, List.append_assoc, List.singleton_append,
      List.drop_eq_getElem_cons hi, ByteArray.get!, getElem!_pos bs.data i hi, Array.getElem_toList]
  | case2 i r h => rw [List.drop_eq_nil_of_le (Nat.le_of_not_lt h), List.append_nil]

theorem toList_toUTF8 (s : String) : s.toUTF8.toList = s.toByteArray.data.toList :=
  toList_loop _ 0 []

theorem textBytes_append (s t : String) : textBytes (s ++ t) = textBytes s ++ textBytes t := by
  simp only [textBytes, toList_toUTF8, String.toByteArray_append, ByteArray.data_append,
    Array.toList_append, List.map_append]

theorem textBytes_zero : textBytes "\x00" = [0] := by
  rw [textBytes, toList_toUTF8]
  decide

theorem length_textBytes (s : String) : (textBytes s).length = s.utf8ByteSize := by
  rw [textBytes, toList_toUTF8, List.length_map]
  rfl

/-! ## Names and definitions -/

theorem spelledName_numbered {start : String} {c : Char} (hc : c ∈ start.toList)
    (hdigit : c.isDigit = false) (hstart : start.toList.all isNameChar = true) (i : Nat) :
    spelledName (start ++ toString i) = start ++ toString i := by
  have hchars : (start ++ toString i).toList.all isNameChar = true := by
    rw [String.toList_append, List.all_append, hstart, Bool.true_and, List.all_eq_true,
      Nat.toString_eq_ofList_toDigits, String.toList_ofList]
    intro d hd
    simp [isNameChar, Char.isAlphanum, Nat.isDigit_of_mem_toDigits (by decide) (by decide) hd]
  have hnumber : (start ++ toString i).toList.all Char.isDigit = false := by
    refine List.all_eq_false.2 ⟨c, ?_, by simp [hdigit]⟩
    rw [String.toList_append]
    exact List.mem_append_left _ hc
  simp only [spelledName, unsigned?, typeName, hnumber, hchars, Bool.and_false, Bool.false_eq_true,
    if_false, if_true, Option.isSome_none]

/-- A definition gives an array of the bytes of the text and a zero, and says how many these are. -/
theorem definition_bytes (g : Global) : ∃ quoted : String,
    g.definition = g.ident ++ " = private unnamed_addr constant [" ++
    toString (textBytes g.text ++ [0]).length ++
      " x i8] c\"" ++ quoted ++ "\"" ∧
      quotedBytes? quoted.toList = some (textBytes g.text ++ [0]) := by
  refine ⟨escaped (g.text ++ "\x00"), ?_, ?_⟩
  · rw [List.length_append, length_textBytes]
    rfl
  · rw [quotedBytes?_escaped, textBytes_append, textBytes_zero]

end CheckedIR.Ir
