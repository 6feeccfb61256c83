import SyntaxPaint.Proofs.Color.Spelling
/-!
# One form for each colour

Of all that may be written for a colour, what is printed of it is the only form in upper-case digits
that does not name the alpha of a solid colour.
-/
namespace SyntaxPaint
namespace Color

/-- A hash and upper-case digits, of which there are eight only for a colour that is not solid. -/
def Canonical (c : Color) (s : String) : Prop :=
  ∃ digits, s.toList = '#' :: digits ∧ (∀ d ∈ digits, d ∈ hexNumerals) ∧
    (digits.length = 8 → c.a ≠ 255)

section

variable {c : Color} {digits : List Char} {s : String}

private theorem hexByte_mem (b : UInt8) : ∀ d ∈ hexByte b, d ∈ hexNumerals := by
  have hb := b.toNat_lt
  simp only [hexByte, List.forall_mem_cons]
  exact ⟨hexDigit_mem (by omega), hexDigit_mem (by omega), by simp⟩

theorem canonical_hex (c : Color) : c.Canonical c.hex := by
  refine ⟨c.hexDigits, String.toList_ofList, ?digits, ?length⟩
  case digits =>
    rw [hexDigits]
    simp only [List.forall_mem_append]
    refine ⟨⟨⟨?_, hexByte_mem c.r⟩, hexByte_mem c.g⟩, hexByte_mem c.b⟩
    split
    · simp
    · exact hexByte_mem c.a
  case length =>
    intro hlength halpha
    rw [hexDigits, if_pos halpha] at hlength
    cases hlength

theorem eq_hexDigits_of_digits (spelled : c.Digits digits) (upper : ∀ d ∈ digits, d ∈ hexNumerals)
    (short : digits.length = 8 → c.a ≠ 255) : digits = c.hexDigits := by
  cases spelled with
  | solid alpha red green blue =>
    simp only [List.forall_mem_cons] at upper
    obtain ⟨hr, hr', hg, hg', hb, hb', -⟩ := upper
    rw [hexDigits, if_pos alpha, ← red.eq_hexByte hr hr', ← green.eq_hexByte hg hg',
      ← blue.eq_hexByte hb hb']
    rfl
  | behindAlpha alpha red green blue =>
    simp only [List.forall_mem_cons] at upper
    obtain ⟨ha, ha', hr, hr', hg, hg', hb, hb', -⟩ := upper
    rw [hexDigits, if_neg (short rfl), ← alpha.eq_hexByte ha ha', ← red.eq_hexByte hr hr',
      ← green.eq_hexByte hg hg', ← blue.eq_hexByte hb hb']
    rfl

theorem Canonical.trimmed_eq (h : c.Canonical s) : trimmed s = s := by
  obtain ⟨digits, hash, upper, -⟩ := h
  have hsolid : ('#' :: hexNumerals).all (fun d => !isBlank d) = true := by decide +kernel
  have hall : ∀ d ∈ s.toList, isBlank d = false := by
    intro d hd
    rw [hash, List.mem_cons] at hd
    simpa using List.all_eq_true.mp hsolid d (List.mem_cons.mpr (hd.imp_right (upper d)))
  apply trimmed_eq_self
  · intro d hd
    exact hall d (List.mem_of_mem_head? hd)
  · intro d hd
    exact hall d (List.mem_of_mem_getLast? hd)

theorem read_canonical_iff : read s = .ok c ∧ c.Canonical s ↔ s = c.hex := by
  constructor
  · rintro ⟨hread, canonical⟩
    rw [read_eq_ok_iff, canonical.trimmed_eq] at hread
    obtain ⟨digits, hash, upper, short⟩ := canonical
    have hdigits := eq_hexDigits_of_digits ((spells_of_hash hash).mp hread) upper short
    rw [hex, ← hdigits, ← hash, String.ofList_toList]
  · rintro rfl
    exact ⟨read_hex c, canonical_hex c⟩

end

/-- What is printed of a colour is read as that colour, and of all spellings of a colour it is the
only canonical one. Hence two strings spell one colour exactly if the same is printed of what is
read of them. -/
theorem hex_canonical :
    (∀ c, read c.hex = .ok c) ∧
    (∀ c s, read s = .ok c ∧ c.Canonical s ↔ s = c.hex) ∧
    ∀ s s' c c', read s = .ok c → read s' = .ok c' → (read s = read s' ↔ c.hex = c'.hex) := by
  refine ⟨read_hex, fun c s => read_canonical_iff, fun s s' c c' hs hs' => ?_⟩
  rw [hs, hs', Except.ok.injEq]
  constructor
  · exact congrArg hex
  · intro same
    have hread := read_hex c
    rw [same, read_hex c'] at hread
    exact (Except.ok.inj hread).symm

end Color
end SyntaxPaint
