import Mathlib.Tactic.ByContra
import Mathlib.Tactic.Tauto
import SyntaxPaint.Proofs.Text.Classes
/-!
# Which scanner runs

The first character of a lexeme decides which scanner takes the others; only in front of a slash
does the second one count too. The scanners are tried in order, but for all of them but the first
three the order is of no matter: no character begins the lexemes of two.
-/
namespace SyntaxPaint

variable {c : Char} {cs : List Char}

private theorem not_start_of_sign (h : c ∈ '"' :: operatorChars) : isIdentifierStart c = false := by
  have hunder : c ≠ '_' := by
    intro heq
    rw [heq] at h
    exact absurd h (by decide)
  have hclass := not_class_of_sign (c := c) (by simp at h ⊢; tauto)
  simp [isIdentifierStart, hclass.2.1, hunder]

private theorem not_start_of_isDigit (h : isDigit c = true) : isIdentifierStart c = false := by
  have hunder : c ≠ '_' := by
    intro heq
    rw [heq] at h
    exact absurd h (by decide)
  simp [isIdentifierStart, not_isLetter_of_isDigit h, hunder]

private theorem not_isBlank_of_start (h : isIdentifierStart c = true) : isBlank c = false := by
  simp only [isIdentifierStart, Bool.or_eq_true, beq_iff_eq] at h
  rcases h with hletter | rfl
  · by_contra hblank
    rw [not_isLetter_of_isBlank (by simpa using hblank)] at hletter
    cases hletter
  · decide

private theorem not_isBlank_of_isDigit (h : isDigit c = true) : isBlank c = false := by
  by_contra hblank
  rw [not_isDigit_of_isBlank (by simpa using hblank)] at h
  cases h

theorem lexemeTail_blank (h : isBlank c = true) :
    lexemeTail c cs = (.whitespace, cs.takeWhile isBlank) := by
  rw [lexemeTail, if_pos h]

theorem lexemeTail_line :
    lexemeTail '/' ('/' :: cs) = (.comment, '/' :: cs.takeWhile (!isLineEnd ·)) := by
  have hblank : isBlank '/' = false := by decide
  simp [lexemeTail, hblank, isLineEnd]

theorem lexemeTail_block : lexemeTail '/' ('*' :: cs) = (.comment, '*' :: blockTail cs) := by
  have hblank : isBlank '/' = false := by decide
  simp [lexemeTail, hblank]

theorem lexemeTail_start (h : isIdentifierStart c = true) : lexemeTail c cs =
    (if isKeyword (c :: cs.takeWhile isIdentifierPart) then .keyword else .identifier,
      cs.takeWhile isIdentifierPart) := by
  have hblank := not_isBlank_of_start h
  have hslash : c ≠ '/' := by
    intro heq
    rw [heq, not_start_of_sign (by decide)] at h
    cases h
  simp [lexemeTail, hblank, hslash, h]

theorem lexemeTail_digit (h : isDigit c = true) : lexemeTail c cs = (.number, numberTail cs) := by
  have hblank := not_isBlank_of_isDigit h
  have hstart := not_start_of_isDigit h
  have hslash : c ≠ '/' := by
    intro heq
    rw [heq] at h
    exact absurd h (by decide)
  simp [lexemeTail, hblank, hslash, hstart, h]

theorem lexemeTail_quote : lexemeTail '"' cs = (.string, quotedTail cs) := by
  have hclass := not_class_of_sign (c := '"') (by decide)
  have hstart : isIdentifierStart '"' = false := not_start_of_sign (by decide)
  simp [lexemeTail, hclass.1, hstart, hclass.2.2]

theorem lexemeTail_sign (h : c ∈ operatorChars)
    (plain : c = '/' → ∀ d ∈ cs.head?, d ≠ '/' ∧ d ≠ '*') :
    lexemeTail c cs = (.operator, operatorTail c cs) := by
  have hclass := not_class_of_sign (c := c) (by simp [h])
  have hstart : isIdentifierStart c = false := not_start_of_sign (by simp [h])
  have hsign : isOperatorChar c = true := List.contains_iff_mem.mpr h
  have hquote : c ≠ '"' := by
    intro heq
    rw [heq] at h
    exact absurd h (by decide)
  have hline : ¬ (c = '/' ∧ cs.head? = some '/') := fun ⟨hc, hd⟩ => (plain hc '/' hd).1 rfl
  have hblock : ¬ (c = '/' ∧ cs.head? = some '*') := fun ⟨hc, hd⟩ => (plain hc '*' hd).2 rfl
  simp [lexemeTail, hclass.1, hline, hblock, hstart, hclass.2.2, hquote, hsign]

theorem lexemeTail_unknown (blank : isBlank c = false) (start : isIdentifierStart c = false)
    (digit : isDigit c = false) (quote : c ≠ '"') (sign : c ∉ operatorChars) :
    lexemeTail c cs = (.unknown, []) := by
  have hslash : c ≠ '/' := by
    intro heq
    rw [heq] at sign
    exact sign (by decide)
  have hsign : isOperatorChar c = false := by simpa [isOperatorChar] using sign
  simp [lexemeTail, blank, hslash, start, digit, quote, hsign]

end SyntaxPaint
