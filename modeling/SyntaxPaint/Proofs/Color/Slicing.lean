import Mathlib.Data.List.Infix
import SyntaxPaint.Proofs.Color.Spelling
import SyntaxPaint.Proofs.Text.Bytes
/-!
# Colours read by bytes

Digits are two bytes apart, so a colour can be cut out of its text at byte offsets, if no cut goes
through a character. `Color.readBytes` reads so, and checks every cut. The digits are looked at byte
by byte before anything is cut, and a text whose bytes are all digits has one byte to a character;
hence no cut fails, and what is read is what `Color.read` reads.
-/
namespace SyntaxPaint

/-! ## Cuts -/

instance (text : List Char) (offset : Nat) : Decidable (IsBoundary text offset) :=
  decidable_of_iff (offset ∈ text.inits.map byteLength) (by
    simp only [IsBoundary, List.mem_map, List.mem_inits]
    constructor
    · rintro ⟨before, ⟨after, htext⟩, hlength⟩
      exact ⟨before, after, htext.symm, hlength⟩
    · rintro ⟨before, after, htext, hlength⟩
      exact ⟨before, ⟨after, htext.symm⟩, hlength⟩)

/-- Offsets that cannot be cut at: one of them splits a character or lies behind the end, or they
are in the wrong order. -/
structure CutFault where
  start : Nat
  stop : Nat
deriving DecidableEq, Repr

/-- The part of a text between two byte offsets. -/
def cutBytes (text : List Char) (start stop : Nat) : Except CutFault (List Char) :=
  if start ≤ stop ∧ IsBoundary text start ∧ IsBoundary text stop then
    .ok (sliceBytes text start stop)
  else .error ⟨start, stop⟩

theorem cutBytes_append (s t u : List Char) :
    cutBytes (s ++ t ++ u) (byteLength s) (byteLength (s ++ t)) = .ok t := by
  have horder : byteLength s ≤ byteLength (s ++ t) := by
    rw [byteLength_append]
    exact Nat.le_add_right _ _
  have hstart : IsBoundary (s ++ t ++ u) (byteLength s) := ⟨s, t ++ u, by simp, rfl⟩
  have hstop : IsBoundary (s ++ t ++ u) (byteLength (s ++ t)) := ⟨s ++ t, u, rfl, rfl⟩
  rw [cutBytes, if_pos ⟨horder, hstart, hstop⟩, sliceBytes_append]

/-- Nothing can be cut inside a character of two bytes. -/
example : cutBytes "1é4".toList 0 2 = .error ⟨0, 2⟩ := by decide +kernel

/-! ## Bytes that are digits -/

/-- The bytes of the ASCII digits of either case. -/
def isHexByte (b : UInt8) : Bool :=
  0x30 ≤ b && b ≤ 0x39 || 0x41 ≤ b && b ≤ 0x46 || 0x61 ≤ b && b ≤ 0x66

section Bytes

variable {c : Char}

private theorem exists_not_isHexByte (h : 128 ≤ c.toNat) :
    ∃ b ∈ String.utf8EncodeChar c, isHexByte b = false := by
  have hlead : ∀ n, 192 ≤ n → n < 256 → isHexByte (UInt8.ofNat n) = false := by decide +kernel
  have hval : c.val.toNat = c.toNat := rfl
  rw [String.utf8EncodeChar]
  simp only [hval]
  split
  · omega
  split
  · exact ⟨_, List.mem_cons_self, hlead _ (by omega) (by omega)⟩
  split
  · exact ⟨_, List.mem_cons_self, hlead _ (by omega) (by omega)⟩
  · exact ⟨_, List.mem_cons_self, hlead _ (by omega) (by omega)⟩

theorem all_isHexByte_iff : (String.utf8EncodeChar c).all isHexByte = true ↔ c ∈ hexAlphabet := by
  constructor
  · intro h
    rw [List.all_eq_true] at h
    rcases Nat.lt_or_ge c.toNat 128 with hascii | hbeyond
    · have hbyte : UInt8.ofNat c.toNat ∈ String.utf8EncodeChar c := by
        have hval : c.val.toNat = c.toNat := rfl
        have hle : c.toNat ≤ 127 := by omega
        simp [String.utf8EncodeChar, hval, hle]
      have hall : ∀ n < 128, isHexByte (UInt8.ofNat n) = true → Char.ofNat n ∈ hexAlphabet := by
        decide +kernel
      have hmem := hall c.toNat hascii (h _ hbyte)
      rwa [Char.ofNat_toNat] at hmem
    · obtain ⟨b, hb, hother⟩ := exists_not_isHexByte hbeyond
      rw [h b hb] at hother
      cases hother
  · have hall : hexAlphabet.all (fun c => (String.utf8EncodeChar c).all isHexByte) = true := by
      decide
    exact List.all_eq_true.mp hall c

end Bytes

namespace Color

/-- A byte written to the base sixteen, perhaps behind a plus sign; other signs are no digits, and
what is too great for a byte is none. -/
def byteOfDigits? (text : List Char) : Option UInt8 :=
  let digits := match text with
    | '+' :: d :: ds => d :: ds
    | text => text
  let add (n : Nat) (d : Char) : Option Nat := do
    let v ← hexValue? d
    if 16 * n + v < 256 then some (16 * n + v) else none
  if digits = [] then none else (digits.foldlM add 0).map UInt8.ofNat

/-- The byte in the two digits from an offset on. -/
def byteAt (digits : List Char) (offset : Nat) : OptionT (Except CutFault) UInt8 :=
  OptionT.mk ((cutBytes digits offset (offset + 2)).map byteOfDigits?)

/-- Reads digits that are six or eight bytes long. -/
def ofDigitBytes (digits : List Char) : OptionT (Except CutFault) Color :=
  if (digits.flatMap String.utf8EncodeChar).all isHexByte then
    match byteLength digits with
    | 6 => return solid (← byteAt digits 0) (← byteAt digits 2) (← byteAt digits 4)
    | 8 =>
      return ⟨← byteAt digits 2, ← byteAt digits 4, ← byteAt digits 6, ← byteAt digits 0⟩
    | _ => failure
  else failure

/-- Reads a written colour by the bytes of its digits. -/
def readBytes (s : String) : Except CutFault (Except ColorError Color) :=
  let s := trimmed s
  match s.toList with
  | '#' :: digits => do
    let found ← (ofDigitBytes digits).run
    return found.elim (.error (.invalidHex s)) .ok
  | _ => return (ofName? s).elim (.error (.unknownName s)) .ok

section Reading

variable {c : Color} {high low : Char} {b : UInt8} {digits : List Char}

theorem byteOfDigits?_eq_some (pair : HexPair high low b) :
    byteOfDigits? [high, low] = some b := by
  have hplus : high ≠ '+' := by
    rintro rfl
    exact absurd pair.high_mem (by decide)
  have hhigh := hexPlace_lt pair.high_mem
  have hfirst : hexPlace high < 256 := by omega
  have hvalue := hexValue?_eq_some_iff.mpr ⟨pair.high_mem, rfl⟩
  have hvalue' := hexValue?_eq_some_iff.mpr ⟨pair.low_mem, rfl⟩
  simp [byteOfDigits?, hplus, hvalue, hvalue', hfirst, ← pair.value, b.toNat_lt]

theorem byteLength_of_digits (h : ∀ d ∈ digits, d ∈ hexAlphabet) :
    byteLength digits = digits.length := by
  have hall : hexAlphabet.all (·.utf8Size = 1) = true := by decide
  induction digits with
  | nil => rfl
  | cons d ds ih =>
    obtain ⟨hd, hds⟩ := List.forall_mem_cons.mp h
    have hsize : d.utf8Size = 1 := by simpa using List.all_eq_true.mp hall d hd
    rw [byteLength_cons, hsize, ih hds, List.length_cons, Nat.add_comm]

theorem byteAt_append (pair : HexPair high low b) (front : List Char) {back : List Char}
    (h : ∀ d ∈ front ++ high :: low :: back, d ∈ hexAlphabet) :
    byteAt (front ++ high :: low :: back) front.length = pure b := by
  have hfront : ∀ d ∈ front, d ∈ hexAlphabet := fun d hd => h d (List.mem_append_left _ hd)
  have hpair : ∀ d ∈ front ++ [high, low], d ∈ hexAlphabet := by
    rw [List.forall_mem_append, List.forall_mem_cons, List.forall_mem_singleton]
    exact ⟨hfront, pair.high_mem, pair.low_mem⟩
  have hcut := cutBytes_append front [high, low] back
  rw [byteLength_of_digits hfront, byteLength_of_digits hpair, List.append_assoc,
    List.length_append] at hcut
  rw [byteAt]
  show OptionT.mk ((cutBytes (front ++ ([high, low] ++ back)) front.length
    (front.length + [high, low].length)).map byteOfDigits?) = _
  rw [hcut]
  show OptionT.mk (Except.ok (byteOfDigits? [high, low])) = _
  rw [byteOfDigits?_eq_some pair]
  rfl

theorem all_bytes_iff : (digits.flatMap String.utf8EncodeChar).all isHexByte = true ↔
    ∀ d ∈ digits, d ∈ hexAlphabet := by
  simp only [List.all_flatMap, List.all_eq_true (l := digits), all_isHexByte_iff]

theorem Digits.run_ofDigitBytes_eq (spelled : c.Digits digits) :
    (ofDigitBytes digits).run = .ok (some c) := by
  obtain ⟨-, hdigits⟩ := exists_digits_iff.mp ⟨c, spelled⟩
  rw [ofDigitBytes, if_pos (all_bytes_iff.mpr hdigits), byteLength_of_digits hdigits]
  cases spelled with
  | @solid r r' g g' b b' alpha red green blue =>
    have hred := byteAt_append red [] hdigits
    have hgreen := byteAt_append green [r, r'] hdigits
    have hblue := byteAt_append blue [r, r', g, g'] hdigits
    simp only [List.length_nil, List.length_cons, List.nil_append, List.cons_append,
      Nat.zero_add] at hred hgreen hblue ⊢
    rw [hred, hgreen, hblue]
    show Except.ok (some (Color.solid c.r c.g c.b)) = _
    rw [Color.solid, ← alpha]
  | @behindAlpha a a' r r' g g' b b' alpha red green blue =>
    have halpha := byteAt_append alpha [] hdigits
    have hred := byteAt_append red [a, a'] hdigits
    have hgreen := byteAt_append green [a, a', r, r'] hdigits
    have hblue := byteAt_append blue [a, a', r, r', g, g'] hdigits
    simp only [List.length_nil, List.length_cons, List.nil_append, List.cons_append,
      Nat.zero_add] at halpha hred hgreen hblue ⊢
    rw [halpha, hred, hgreen, hblue]
    rfl

/-- What spells no colour is refused before it is cut. -/
theorem ofDigitBytes_eq_failure (unspelled : ¬ ∃ c : Color, c.Digits digits) :
    ofDigitBytes digits = failure := by
  rw [exists_digits_iff] at unspelled
  rw [ofDigitBytes]
  split
  · rename_i hbytes
    have hdigits := all_bytes_iff.mp hbytes
    rw [byteLength_of_digits hdigits]
    split
    · rename_i hlength
      exact absurd ⟨.inl hlength, hdigits⟩ unspelled
    · rename_i hlength
      exact absurd ⟨.inr hlength, hdigits⟩ unspelled
    · rfl
  · rfl

theorem run_ofDigitBytes (digits : List Char) :
    (ofDigitBytes digits).run = .ok (ofHexDigits? digits) := by
  by_cases h : ∃ c : Color, c.Digits digits
  · obtain ⟨c, spelled⟩ := h
    rw [spelled.run_ofDigitBytes_eq, ofHexDigits?_eq_some_iff.mpr spelled]
  · rw [ofDigitBytes_eq_failure h, ofHexDigits?_eq_none_iff.mpr h]
    rfl

/-- No cut fails, and what is read by bytes is what is read. -/
theorem readBytes_eq (s : String) : readBytes s = .ok (read s) := by
  rw [readBytes]
  split
  · rename_i digits hash
    rw [run_ofDigitBytes, read_of_hash hash]
    rfl
  · rename_i other
    rw [read_of_ne_hash other]
    rfl

/-- Reading never cuts a text inside a character. A colour is read exactly if the text is, but for
blanks around it, six or eight digits behind a hash or one of the names in any case; it is the
colour that these spell. If there is none, the text is told without its blanks, as digits if it
begins with a hash and as a name if not. -/
theorem read_exact (s : String) :
    readBytes s = .ok (read s) ∧
    let t := trimmed s
    ((∃ c, read s = .ok c) ↔
      (∃ digits, t.toList = '#' :: digits ∧ (digits.length = 6 ∨ digits.length = 8) ∧
        ∀ d ∈ digits, d ∈ hexAlphabet) ∨
      ∃ entry ∈ named, sameName entry.1 t = true) ∧
    (∀ c, read s = .ok c ↔ Spells t c) ∧
    ((¬ ∃ c, read s = .ok c) → read s = .error
      (if t.toList.head? = some '#' then .invalidHex t else .unknownName t)) := by
  refine ⟨readBytes_eq s, ?_⟩
  intro t
  simp only [read_eq_ok_iff]
  exact ⟨exists_spells_iff, fun _ => .rfl, read_of_not_spells⟩

end Reading

end Color
end SyntaxPaint
