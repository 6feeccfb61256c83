/-!
# Names without regard to case

Names of kinds, colours, themes and levels are compared with the letters `A` to `Z` read as
`a` to `z`; all other characters stand for themselves.
-/
namespace SyntaxPaint

/-- The key under which a name is looked up. -/
def folded (name : String) : List Char := name.toList.map Char.toLower

/-- Two spellings of one name. -/
def sameName (a b : String) : Bool := folded a == folded b

theorem sameName_iff {a b : String} : sameName a b = true ↔ folded a = folded b := by
  simp [sameName]

@[simp] theorem sameName_refl (a : String) : sameName a a = true := by simp [sameName]

end SyntaxPaint
