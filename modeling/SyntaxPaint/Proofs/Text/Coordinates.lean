import Mathlib.Data.List.DropRight
import SyntaxPaint.Text.Position
/-!
# The four counts of a position

A position is reached character by character. Said of the text in front of it as a whole, it counts
the ends of lines and the bytes of all of the text, and the characters and UTF-16 units of its last
line.
-/
namespace SyntaxPaint

/-- What stands behind the last `'\n'` of a text. -/
def lastLine (text : List Char) : List Char := text.rtakeWhile (· != '\n')

theorem lastLine_newline (text : List Char) : lastLine (text ++ ['\n']) = [] := by
  rw [lastLine, List.rtakeWhile_concat_neg]
  decide

theorem lastLine_concat {c : Char} (h : c ≠ '\n') (text : List Char) :
    lastLine (text ++ [c]) = lastLine text ++ [c] := by
  rw [lastLine, List.rtakeWhile_concat_pos]
  · rfl
  · simpa using h

theorem lastLine_eq_self {text : List Char} (h : '\n' ∉ text) : lastLine text = text := by
  rw [lastLine, List.rtakeWhile_eq_self_iff]
  intro c hc
  exact bne_iff_ne.mpr (ne_of_mem_of_not_mem hc h)

theorem lastLine_append_newline (s t : List Char) : lastLine (s ++ '\n' :: t) = lastLine t := by
  induction t using List.reverseRecOn with
  | nil => exact lastLine_newline s
  | append_singleton t c ih =>
    rw [← List.cons_append, ← List.append_assoc]
    by_cases hc : c = '\n'
    · rw [hc, lastLine_newline, lastLine_newline]
    · rw [lastLine_concat hc, lastLine_concat hc, ih]

/-- The position behind a text, counted at once. -/
def Position.behind (text : List Char) : Position where
  line := 1 + text.count '\n'
  column := 1 + (lastLine text).length
  offset := byteLength text
  utf16 := utf16Length (lastLine text)

namespace Position

private theorem behind_advance (text : List Char) (c : Char) :
    (behind text).advance c = behind (text ++ [c]) := by
  have hbytes := byteLength_append text [c]
  rw [byteLength_cons, byteLength_nil, Nat.add_zero] at hbytes
  by_cases hc : c = '\n'
  · subst hc
    simp [advance, behind, hbytes, lastLine_newline, Nat.add_assoc]
  · have hunits := utf16Length_append (lastLine text) [c]
    rw [utf16Length_cons, utf16Length_nil, Nat.add_zero] at hunits
    simp [advance, behind, hc, hbytes, hunits, lastLine_concat hc, Nat.add_assoc]

theorem after_origin (text : List Char) : origin.after text = behind text := by
  induction text using List.reverseRecOn with
  | nil => rfl
  | append_singleton text c ih =>
    rw [after_append, ih, ← behind_advance]
    rfl

end Position

end SyntaxPaint
