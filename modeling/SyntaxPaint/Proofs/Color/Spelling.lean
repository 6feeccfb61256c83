import SyntaxPaint.Proofs.Color.Hex
/-!
# How colours are spelled

A byte is spelled by two digits of either case. Digits for red, green and blue spell a solid colour;
with two more in front of them for the alpha they spell any colour. What is read of a text is the
one colour that the text spells without the blanks around it, by digits behind a hash or by name.
-/
namespace SyntaxPaint

/-! ## Digits -/

/-- The upper-case digits, each at the place of its value. -/
def hexNumerals : List Char := "0123456789ABCDEF".toList

/-- The ASCII digits of either case. -/
def hexAlphabet : List Char := hexNumerals ++ "abcdef".toList

/-- What a digit counts for. -/
def hexPlace (c : Char) : Nat := hexNumerals.idxOf c.toUpper

/-- Two digits spell a byte, the high one first. -/
structure HexPair (high low : Char) (b : UInt8) : Prop where
  high_mem : high ∈ hexAlphabet
  low_mem : low ∈ hexAlphabet
  value : b.toNat = 16 * hexPlace high + hexPlace low

section Digits

variable {c high low : Char} {b : UInt8}

theorem hexPlace_lt (h : c ∈ hexAlphabet) : hexPlace c < 16 := by
  have hall : hexAlphabet.all (hexPlace · < 16) = true := by decide
  simpa using List.all_eq_true.mp hall c h

theorem hexDigit_hexPlace (h : c ∈ hexNumerals) : hexDigit (hexPlace c) = c := by
  have hall : hexNumerals.all (fun c => hexDigit (hexPlace c) = c) = true := by decide
  simpa using List.all_eq_true.mp hall c h

theorem hexDigit_mem {n : Nat} (h : n < 16) : hexDigit n ∈ hexNumerals := by
  have hall : ∀ n < 16, hexDigit n ∈ hexNumerals := by decide
  exact hall n h

private theorem lt_of_hexValue? {n : Nat} (h : hexValue? c = some n) : c.toNat < 128 := by
  have hle {d e : Char} (h : d ≤ e) : d.toNat ≤ e.toNat := h
  rw [hexValue?] at h
  split at h
  · rename_i hrange
    exact Nat.lt_of_le_of_lt (hle hrange.2) (by decide)
  split at h
  · rename_i hrange
    exact Nat.lt_of_le_of_lt (hle hrange.2) (by decide)
  split at h
  · rename_i hrange
    exact Nat.lt_of_le_of_lt (hle hrange.2) (by decide)
  · cases h

theorem hexValue?_eq_some_iff {n : Nat} :
    hexValue? c = some n ↔ c ∈ hexAlphabet ∧ n = hexPlace c := by
  constructor
  · intro h
    have hall : ∀ k < 128, ∀ n ∈ hexValue? (Char.ofNat k),
        Char.ofNat k ∈ hexAlphabet ∧ n = hexPlace (Char.ofNat k) := by decide +kernel
    have hdigit := hall c.toNat (lt_of_hexValue? h) n
    rw [Char.ofNat_toNat] at hdigit
    exact hdigit h
  · rintro ⟨hmem, rfl⟩
    have hall : hexAlphabet.all (fun c => hexValue? c = some (hexPlace c)) = true := by decide
    simpa using List.all_eq_true.mp hall c hmem

theorem exists_hexPair (high_mem : high ∈ hexAlphabet) (low_mem : low ∈ hexAlphabet) :
    ∃ b, HexPair high low b := by
  have hhigh := hexPlace_lt high_mem
  have hlow := hexPlace_lt low_mem
  refine ⟨UInt8.ofNat (16 * hexPlace high + hexPlace low), high_mem, low_mem, ?_⟩
  exact UInt8.toNat_ofNat_of_lt' (by show _ < 256; omega)

theorem hexByteValue?_eq_some_iff : hexByteValue? high low = some b ↔ HexPair high low b := by
  constructor
  · intro h
    rw [hexByteValue?] at h
    split at h
    · rename_i m n hhigh hlow
      obtain ⟨high_mem, rfl⟩ := hexValue?_eq_some_iff.mp hhigh
      obtain ⟨low_mem, rfl⟩ := hexValue?_eq_some_iff.mp hlow
      obtain ⟨b', hpair⟩ := exists_hexPair high_mem low_mem
      rw [← hpair.value, UInt8.ofNat_toNat, Option.some.injEq] at h
      rwa [← h]
    · cases h
  · rintro ⟨high_mem, low_mem, hvalue⟩
    rw [hexByteValue?, hexValue?_eq_some_iff.mpr ⟨high_mem, rfl⟩,
      hexValue?_eq_some_iff.mpr ⟨low_mem, rfl⟩]
    show some (UInt8.ofNat _) = some b
    rw [← hvalue, UInt8.ofNat_toNat]

theorem HexPair.eq_hexByte (h : HexPair high low b) (high_mem : high ∈ hexNumerals)
    (low_mem : low ∈ hexNumerals) : [high, low] = hexByte b := by
  have hlow := hexPlace_lt h.low_mem
  have hvalue := h.value
  have hdiv : b.toNat / 16 = hexPlace high := by omega
  have hmod : b.toNat % 16 = hexPlace low := by omega
  rw [hexByte, hdiv, hmod, hexDigit_hexPlace high_mem, hexDigit_hexPlace low_mem]

end Digits

namespace Color

/-- Digits that spell a colour: a solid one without its alpha, or any one behind its alpha. -/
inductive Digits (c : Color) : List Char → Prop
  | solid {r r' g g' b b' : Char} (alpha : c.a = 255) (red : HexPair r r' c.r)
      (green : HexPair g g' c.g) (blue : HexPair b b' c.b) : c.Digits [r, r', g, g', b, b']
  | behindAlpha {a a' r r' g g' b b' : Char} (alpha : HexPair a a' c.a) (red : HexPair r r' c.r)
      (green : HexPair g g' c.g) (blue : HexPair b b' c.b) :
      c.Digits [a, a', r, r', g, g', b, b']

/-- A string, without blanks around it, that spells a colour. -/
inductive Spells (s : String) (c : Color) : Prop
  | digits {digits : List Char} (hash : s.toList = '#' :: digits) (spelled : c.Digits digits)
  | name {name : String} (listed : (name, c) ∈ named) (same : sameName name s = true)

section Spelling

variable {c : Color} {digits : List Char} {s : String}

theorem ofHexDigits?_eq_some_iff : ofHexDigits? digits = some c ↔ c.Digits digits := by
  constructor
  · intro h
    rw [ofHexDigits?.eq_def] at h
    split at h
    · split at h
      · rename_i hred hgreen hblue
        obtain rfl := Option.some.inj h
        rw [hexByteValue?_eq_some_iff] at hred hgreen hblue
        exact .solid rfl hred hgreen hblue
      · cases h
    · split at h
      · rename_i halpha hred hgreen hblue
        obtain rfl := Option.some.inj h
        rw [hexByteValue?_eq_some_iff] at halpha hred hgreen hblue
        exact .behindAlpha halpha hred hgreen hblue
      · cases h
    · cases h
  · intro h
    cases h with
    | solid alpha red green blue =>
      rw [← hexByteValue?_eq_some_iff] at red green blue
      simp only [ofHexDigits?, red, green, blue]
      rw [Color.solid, ← alpha]
    | behindAlpha alpha red green blue =>
      rw [← hexByteValue?_eq_some_iff] at alpha red green blue
      simp only [ofHexDigits?, alpha, red, green, blue]

theorem ofHexDigits?_eq_none_iff : ofHexDigits? digits = none ↔ ¬ ∃ c : Color, c.Digits digits := by
  rw [Option.eq_none_iff_forall_ne_some]
  simp only [ne_eq, ofHexDigits?_eq_some_iff, not_exists]

theorem exists_digits_iff : (∃ c : Color, c.Digits digits) ↔
    (digits.length = 6 ∨ digits.length = 8) ∧ ∀ d ∈ digits, d ∈ hexAlphabet := by
  constructor
  · rintro ⟨c, h⟩
    cases h with
    | solid alpha red green blue =>
      refine ⟨.inl rfl, ?_⟩
      simp only [List.forall_mem_cons]
      exact ⟨red.high_mem, red.low_mem, green.high_mem, green.low_mem, blue.high_mem,
        blue.low_mem, by simp⟩
    | behindAlpha alpha red green blue =>
      refine ⟨.inr rfl, ?_⟩
      simp only [List.forall_mem_cons]
      exact ⟨alpha.high_mem, alpha.low_mem, red.high_mem, red.low_mem, green.high_mem,
        green.low_mem, blue.high_mem, blue.low_mem, by simp⟩
  · rintro ⟨hlength | hlength, hmem⟩
    · match digits, hlength with
      | [r, r', g, g', b, b'], _ =>
        simp only [List.forall_mem_cons] at hmem
        obtain ⟨hr, hr', hg, hg', hb, hb', -⟩ := hmem
        obtain ⟨red, hred⟩ := exists_hexPair hr hr'
        obtain ⟨green, hgreen⟩ := exists_hexPair hg hg'
        obtain ⟨blue, hblue⟩ := exists_hexPair hb hb'
        exact ⟨⟨red, green, blue, 255⟩, .solid rfl hred hgreen hblue⟩
    · match digits, hlength with
      | [a, a', r, r', g, g', b, b'], _ =>
        simp only [List.forall_mem_cons] at hmem
        obtain ⟨ha, ha', hr, hr', hg, hg', hb, hb', -⟩ := hmem
        obtain ⟨alpha, halpha⟩ := exists_hexPair ha ha'
        obtain ⟨red, hred⟩ := exists_hexPair hr hr'
        obtain ⟨green, hgreen⟩ := exists_hexPair hg hg'
        obtain ⟨blue, hblue⟩ := exists_hexPair hb hb'
        exact ⟨⟨red, green, blue, alpha⟩, .behindAlpha halpha hred hgreen hblue⟩

/-! ## Names -/

theorem ofName?_eq_some_iff :
    ofName? s = some c ↔ ∃ name, (name, c) ∈ named ∧ sameName name s = true := by
  rw [ofName?, Option.map_eq_some_iff]
  constructor
  · rintro ⟨⟨name, c⟩, hfound, rfl⟩
    have hsame : sameName name s = true := by simpa using List.find?_some hfound
    exact ⟨name, List.mem_of_find?_eq_some hfound, hsame⟩
  · rintro ⟨name, listed, same⟩
    -- No two of the names are one name, so the first that fits is this one.
    have hdistinct : ∀ e ∈ named, ∀ e' ∈ named, folded e.1 = folded e'.1 → e = e' := by
      decide +kernel
    obtain ⟨entry, hfound⟩ : ∃ entry, named.find? (fun entry => sameName entry.1 s) = some entry :=
      Option.isSome_iff_exists.mp (List.find?_isSome.mpr ⟨_, listed, same⟩)
    have hentry : sameName entry.1 s = true := by simpa using List.find?_some hfound
    have hsame := (sameName_iff.mp hentry).trans (sameName_iff.mp same).symm
    obtain rfl := hdistinct entry (List.mem_of_find?_eq_some hfound) _ listed hsame
    exact ⟨_, hfound, rfl⟩

theorem not_sameName_of_hash (hash : s.toList = '#' :: digits) {entry : String × Color}
    (listed : entry ∈ named) : ¬ sameName entry.1 s = true := by
  intro same
  have hall : ∀ entry ∈ named, (folded entry.1).head? ≠ some '#' := by decide
  have hfolded : folded s = '#' :: digits.map Char.toLower := by
    rw [folded, hash, List.map_cons]
    rfl
  apply hall entry listed
  rw [sameName_iff.mp same, hfolded, List.head?_cons]

/-! ## Reading -/

theorem spells_of_hash (hash : s.toList = '#' :: digits) : Spells s c ↔ c.Digits digits := by
  constructor
  · rintro (⟨hash', spelled⟩ | ⟨listed, same⟩)
    · rw [hash, List.cons.injEq] at hash'
      rwa [hash'.2]
    · exact absurd same (not_sameName_of_hash hash listed)
  · exact .digits hash

theorem spells_of_ne_hash (other : ∀ digits, s.toList ≠ '#' :: digits) :
    Spells s c ↔ ofName? s = some c := by
  rw [ofName?_eq_some_iff]
  constructor
  · rintro (⟨hash, -⟩ | ⟨listed, same⟩)
    · exact absurd hash (other _)
    · exact ⟨_, listed, same⟩
  · rintro ⟨name, listed, same⟩
    exact .name listed same

theorem read_of_hash (hash : (trimmed s).toList = '#' :: digits) :
    read s = (ofHexDigits? digits).elim (.error (.invalidHex (trimmed s))) .ok := by
  simp only [read, hash]
  cases ofHexDigits? digits <;> rfl

theorem read_of_ne_hash (other : ∀ digits, (trimmed s).toList ≠ '#' :: digits) :
    read s = (ofName? (trimmed s)).elim (.error (.unknownName (trimmed s))) .ok := by
  simp only [read]
  split
  · rename_i hread
    rw [hread, Option.elim_some]
  · rename_i hread
    rw [hread, Option.elim_none]

theorem read_eq_ok_iff : read s = .ok c ↔ Spells (trimmed s) c := by
  by_cases h : ∃ digits, (trimmed s).toList = '#' :: digits
  · obtain ⟨digits, hash⟩ := h
    rw [spells_of_hash hash, ← ofHexDigits?_eq_some_iff, read_of_hash hash]
    cases ofHexDigits? digits <;> simp
  · rw [not_exists] at h
    rw [spells_of_ne_hash h, read_of_ne_hash h]
    cases ofName? (trimmed s) <;> simp

theorem read_of_not_spells (unspelled : ¬ ∃ c, Spells (trimmed s) c) :
    read s = .error (if (trimmed s).toList.head? = some '#' then .invalidHex (trimmed s)
      else .unknownName (trimmed s)) := by
  simp only [← read_eq_ok_iff] at unspelled
  by_cases h : ∃ digits, (trimmed s).toList = '#' :: digits
  · obtain ⟨digits, hash⟩ := h
    rw [read_of_hash hash] at unspelled ⊢
    rw [if_pos (by rw [hash, List.head?_cons])]
    cases hread : ofHexDigits? digits with
    | none => rfl
    | some c => exact absurd ⟨c, by rw [hread]; rfl⟩ unspelled
  · have hhead : (trimmed s).toList.head? ≠ some '#' := by
      intro hhead
      exact h (List.head?_eq_some_iff.mp hhead)
    rw [not_exists] at h
    rw [read_of_ne_hash h] at unspelled ⊢
    rw [if_neg hhead]
    cases hread : ofName? (trimmed s) with
    | none => rfl
    | some c => exact absurd ⟨c, by rw [hread]; rfl⟩ unspelled

theorem exists_spells_iff : (∃ c, Spells s c) ↔
    (∃ digits, s.toList = '#' :: digits ∧ (digits.length = 6 ∨ digits.length = 8) ∧
      ∀ d ∈ digits, d ∈ hexAlphabet) ∨
    ∃ entry ∈ named, sameName entry.1 s = true := by
  constructor
  · rintro ⟨c, ⟨hash, spelled⟩ | ⟨listed, same⟩⟩
    · exact .inl ⟨_, hash, exists_digits_iff.mp ⟨c, spelled⟩⟩
    · exact .inr ⟨_, listed, same⟩
  · rintro (⟨digits, hash, hform⟩ | ⟨⟨name, c⟩, listed, same⟩)
    · obtain ⟨c, spelled⟩ := exists_digits_iff.mpr hform
      exact ⟨c, .digits hash spelled⟩
    · exact ⟨c, .name listed same⟩

end Spelling

end Color
end SyntaxPaint
