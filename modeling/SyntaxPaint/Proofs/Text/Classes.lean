import SyntaxPaint.Token.Lexeme
/-!
# Classes of characters

What a lexeme begins with decides most of its kind: blanks, letters and digits have no character in
common, and no operator or quote is one of them. The tables of the classes are long, so they are
compared interval by interval through their search trees.
-/
namespace SyntaxPaint
namespace CodeSet

/-- Is the interval found to lie beside all intervals of the set on the way down? -/
def avoids : CodeSet → Nat → Nat → Bool
  | empty, _, _ => true
  | node below first last above, a, b =>
    if b < first then below.avoids a b
    else decide (first ≤ a) && decide (last < a) && above.avoids a b

/-- Do all intervals of the first set lie beside those of the second? -/
def apart (s t : CodeSet) : Bool := s.intervals.all fun r => t.avoids r.1 r.2

private theorem not_contains_of_avoids {s : CodeSet} {a b n : Nat} (h : s.avoids a b = true)
    (ha : a ≤ n) (hb : n ≤ b) : s.contains n = false := by
  induction s with
  | empty => rfl
  | node below first last above ihBelow ihAbove =>
    rw [avoids] at h
    rw [contains]
    split at h
    · have hn : n < first := by omega
      rw [if_pos hn]
      exact ihBelow h
    · simp only [Bool.and_eq_true, decide_eq_true_eq] at h
      obtain ⟨⟨hfirst, hlast⟩, habove⟩ := h
      have hn : ¬ n < first := by omega
      have hn' : ¬ n ≤ last := by omega
      rw [if_neg hn, if_neg hn']
      exact ihAbove habove

theorem not_contains_of_apart {s t : CodeSet} {n : Nat} (h : s.apart t = true)
    (hn : s.contains n = true) : t.contains n = false := by
  obtain ⟨r, hr, hfirst, hlast⟩ := mem_intervals_of_contains hn
  exact not_contains_of_avoids (List.all_eq_true.mp h r hr) hfirst hlast

end CodeSet

section Classes

variable {c : Char}

theorem not_isLetter_of_isDigit (h : isDigit c = true) : isLetter c = false := by
  have happart : digitCodes.apart letterCodes = true := by decide +kernel
  exact CodeSet.not_contains_of_apart happart h

theorem not_isLetter_of_isBlank (h : isBlank c = true) : isLetter c = false := by
  have happart : blankCodes.apart letterCodes = true := by decide +kernel
  exact CodeSet.not_contains_of_apart happart h

theorem not_isDigit_of_isBlank (h : isBlank c = true) : isDigit c = false := by
  have happart : blankCodes.apart digitCodes = true := by decide +kernel
  exact CodeSet.not_contains_of_apart happart h

theorem not_class_of_sign (h : c ∈ '"' :: '_' :: '.' :: operatorChars) :
    isBlank c = false ∧ isLetter c = false ∧ isDigit c = false := by
  have hall : ('"' :: '_' :: '.' :: operatorChars).all
      (fun c => !isBlank c && (!isLetter c && !isDigit c)) = true := by decide +kernel
  simpa using List.all_eq_true.mp hall c h

end Classes
end SyntaxPaint
