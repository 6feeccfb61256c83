import SyntaxPaint.Color.Written
import SyntaxPaint.Proofs.Text.Trimming
/-!
# Colours in hexadecimal digits

A byte is two digits and a colour three or four bytes, and every colour is read from what is printed
of it.
-/
namespace SyntaxPaint

theorem hexValue?_hexDigit : ∀ n < 16, hexValue? (hexDigit n) = some n := by decide

theorem not_isBlank_hexDigit : ∀ n < 16, isBlank (hexDigit n) = false := by decide +kernel

theorem hexByteValue?_hexDigit (b : UInt8) :
    hexByteValue? (hexDigit (b.toNat / 16)) (hexDigit (b.toNat % 16)) = some b := by
  have hb := b.toNat_lt
  have hhigh := hexValue?_hexDigit (b.toNat / 16) (by omega)
  have hlow := hexValue?_hexDigit (b.toNat % 16) (by omega)
  rw [hexByteValue?, hhigh, hlow]
  show some (UInt8.ofNat (16 * (b.toNat / 16) + b.toNat % 16)) = some b
  rw [Nat.div_add_mod, UInt8.ofNat_toNat]

namespace Color

theorem ofHexDigits?_hexDigits (c : Color) : ofHexDigits? c.hexDigits = some c := by
  obtain ⟨r, g, b, a⟩ := c
  by_cases ha : a = 255
  · subst ha
    simp [hexDigits, hexByte, ofHexDigits?, hexByteValue?_hexDigit, solid]
  · simp [hexDigits, ha, hexByte, ofHexDigits?, hexByteValue?_hexDigit]

theorem trimmed_hex (c : Color) : trimmed c.hex = c.hex := by
  apply trimmed_eq_self
  · intro first hfirst
    simp only [hex, String.toList_ofList, List.head?_cons, Option.mem_some_iff] at hfirst
    subst hfirst
    decide +kernel
  · intro last hlast
    simp only [hex, hexDigits, hexByte, String.toList_ofList, List.getLast?_cons,
      List.getLast?_append, List.getLast?_nil, Option.some_or, Option.getD_some,
      Option.mem_some_iff] at hlast
    subst hlast
    exact not_isBlank_hexDigit _ (Nat.mod_lt _ (by decide))

theorem read_hex (c : Color) : read c.hex = .ok c := by
  rw [read, trimmed_hex]
  simp [hex, ofHexDigits?_hexDigits]

theorem ofName?_empty : ofName? "" = none := by decide

theorem read_of_isAllBlank {s : String} (h : IsAllBlank s) : read s = .error (.unknownName "") := by
  rw [read, trimmed_eq_empty_iff.mpr h]
  simp [ofName?_empty]

end Color
end SyntaxPaint
