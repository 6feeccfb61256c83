import Mathlib.Data.List.Lex
import SyntaxPaint.Text.Dictionary
/-!
# The order of bytes

Strings are compared character by character, and so are the keys of a dictionary. The bytes of their
encodings compare the same way: a longer encoding begins with a greater byte, and encodings of one
length hold the digits of the character to the base 64, the highest first.
-/
namespace SyntaxPaint

/-- The UTF-8 encoding of a string. -/
def utf8Bytes (s : String) : List Nat := s.toUTF8.data.toList.map UInt8.toNat

/-- The first string comes before the second in the order of their bytes. -/
def BytesBefore (a b : String) : Prop := List.Lex (· < ·) (utf8Bytes a) (utf8Bytes b)

/-! ## Characters -/

private def charBytes (c : Char) : List Nat := (String.utf8EncodeChar c).map UInt8.toNat

/-- A number in one leading byte and some that continue it. -/
private def spread (lead : Nat) : Nat → Nat → List Nat
  | 0, n => [lead + n]
  | k + 1, n => spread lead k (n / 64) ++ [n % 64 + 128]

private theorem lex_spread {lead k m n : Nat} (h : m < n) (us vs : List Nat) :
    List.Lex (· < ·) (spread lead k m ++ us) (spread lead k n ++ vs) := by
  induction k generalizing m n us vs with
  | zero => exact .rel (Nat.add_lt_add_left h lead)
  | succ k ih =>
    rw [spread, spread, List.append_assoc, List.append_assoc]
    rcases Nat.lt_or_ge (m / 64) (n / 64) with hhigh | hhigh
    · exact ih hhigh _ _
    · have hsame : m / 64 = n / 64 := by omega
      have hlow : m % 64 + 128 < n % 64 + 128 := by omega
      rw [hsame]
      exact .append_left _ (.rel hlow) _

private theorem charBytes_cases (c : Char) :
    c.toNat < 0x80 ∧ charBytes c = spread 0 0 c.toNat ∨
    (0x80 ≤ c.toNat ∧ c.toNat < 0x800) ∧ charBytes c = spread 0xC0 1 c.toNat ∨
    (0x800 ≤ c.toNat ∧ c.toNat < 0x10000) ∧ charBytes c = spread 0xE0 2 c.toNat ∨
    (0x10000 ≤ c.toNat ∧ c.toNat < 0x110000) ∧ charBytes c = spread 0xF0 3 c.toNat := by
  have hbound : c.toNat < 0x110000 := by
    have hvalid := c.valid
    simp only [UInt32.isValidChar, Nat.isValidChar] at hvalid
    show c.val.toNat < _
    omega
  have hval : c.val.toNat = c.toNat := rfl
  simp only [charBytes, String.utf8EncodeChar, hval, spread]
  split_ifs <;> simp <;> omega

private theorem lex_charBytes {c d : Char} (h : c < d) (us vs : List Nat) :
    List.Lex (· < ·) (charBytes c ++ us) (charBytes d ++ vs) := by
  have hlt : c.toNat < d.toNat := h
  -- Encodings of one length differ in a digit, others in the first byte.
  rcases charBytes_cases c with ⟨hc, hbytes⟩ | ⟨hc, hbytes⟩ | ⟨hc, hbytes⟩ | ⟨hc, hbytes⟩ <;>
    rcases charBytes_cases d with ⟨hd, hbytes'⟩ | ⟨hd, hbytes'⟩ | ⟨hd, hbytes'⟩ | ⟨hd, hbytes'⟩ <;>
    rw [hbytes, hbytes']
  all_goals first | exact lex_spread hlt us vs | exact .rel (by omega)

/-! ## Strings -/

private theorem utf8Bytes_eq (s : String) : utf8Bytes s = s.toList.flatMap charBytes := by
  have hencode : s.toUTF8.data.toList = s.toList.flatMap String.utf8EncodeChar := by
    conv_lhs => rw [← String.ofList_toList (s := s)]
    show s.toList.utf8Encode.data.toList = _
    rw [List.utf8Encode, List.toList_data_toByteArray]
  rw [utf8Bytes, hencode, List.map_flatMap]
  rfl

private theorem lex_flatMap_charBytes {cs ds : List Char} (h : List.Lex (· < ·) cs ds) :
    List.Lex (· < ·) (cs.flatMap charBytes) (ds.flatMap charBytes) := by
  induction h with
  | @nil c cs =>
    have hne : charBytes c ≠ [] := by simp [charBytes]
    obtain ⟨byte, bytes, hbytes⟩ := List.exists_cons_of_ne_nil hne
    rw [List.flatMap_cons, hbytes]
    exact .nil
  | cons _ ih =>
    rw [List.flatMap_cons, List.flatMap_cons]
    exact .append_left _ ih _
  | rel hcd =>
    rw [List.flatMap_cons, List.flatMap_cons]
    exact lex_charBytes hcd _ _

private theorem bytesBefore_of_lt {a b : String} (h : a < b) : BytesBefore a b := by
  rw [BytesBefore, utf8Bytes_eq, utf8Bytes_eq]
  exact lex_flatMap_charBytes (String.lt_iff.mp h)

/-- Strings are ordered as their encodings are. -/
theorem bytesBefore_iff_lt {a b : String} : BytesBefore a b ↔ a < b := by
  refine ⟨fun h => ?_, bytesBefore_of_lt⟩
  rcases Std.lt_trichotomy a b with hab | rfl | hba
  · exact hab
  · exact absurd h (List.lex_irrefl Nat.lt_irrefl _)
  · exact absurd h (List.lex_asymm Nat.lt_asymm (bytesBefore_of_lt hba))

theorem Dictionary.pairwise_bytesBefore (d : Dictionary) :
    d.entries.Pairwise fun a b => BytesBefore a.1 b.1 := by
  simpa only [bytesBefore_iff_lt] using d.ascending

end SyntaxPaint
