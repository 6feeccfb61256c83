import Mathlib.Data.List.DropRight
import SyntaxPaint.Text.Blank
/-!
# Trimmed texts

Nothing is left of a text exactly when it is blank throughout, and all of it is left when it neither
begins nor ends with a blank.
-/
namespace SyntaxPaint

/-- Blanks throughout; a text without characters counts. -/
def IsAllBlank (s : String) : Prop := ∀ c ∈ s.toList, isBlank c = true

theorem trim_eq (text : List Char) : trim text = (text.dropWhile isBlank).rdropWhile isBlank := rfl

theorem trim_eq_nil_iff {text : List Char} :
    trim text = [] ↔ ∀ c ∈ text, isBlank c = true := by
  rw [trim_eq, List.rdropWhile_eq_nil_iff]
  constructor
  · intro h
    cases hleft : text.dropWhile isBlank with
    | nil => exact List.dropWhile_eq_nil_iff.mp hleft
    | cons c rest =>
      -- What the front is trimmed to begins with a character that is not blank.
      have hc : isBlank c = true := h c (by simp [hleft])
      have hstop := List.head_dropWhile_not isBlank (l := text) (by simp [hleft])
      simp [hleft, hc] at hstop
  · intro h
    simp [List.dropWhile_eq_nil_iff.mpr h]

theorem trim_eq_self {text : List Char} (front : ∀ c ∈ text.head?, isBlank c = false)
    (back : ∀ c ∈ text.getLast?, isBlank c = false) : trim text = text := by
  have hfront : text.dropWhile isBlank = text := by
    cases text with
    | nil => rfl
    | cons c rest => simp [front c rfl]
  rw [trim_eq, hfront, List.rdropWhile_eq_self_iff]
  intro hne
  simp [back _ (List.getLast?_eq_some_getLast hne)]

theorem trimmed_eq_empty_iff {s : String} : trimmed s = "" ↔ IsAllBlank s := by
  rw [trimmed, IsAllBlank, ← trim_eq_nil_iff, ← String.toList_eq_nil_iff, String.toList_ofList]

theorem trimmed_eq_self {s : String} (front : ∀ c ∈ s.toList.head?, isBlank c = false)
    (back : ∀ c ∈ s.toList.getLast?, isBlank c = false) : trimmed s = s := by
  rw [trimmed, trim_eq_self front back, String.ofList_toList]

end SyntaxPaint
