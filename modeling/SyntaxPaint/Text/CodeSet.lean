/-!
# Sets of code points

A character class of Unicode is a few hundred disjoint intervals. `CodeSet` keeps them in a search
tree, so that a lookup compares against a dozen of them. `mem_intervals_of_contains` says that a
lookup finds nothing but what the intervals hold.
-/
namespace SyntaxPaint

/-- Disjoint closed intervals of code points, ordered from left to right. -/
inductive CodeSet where
  | empty
  | node (below : CodeSet) (first last : Nat) (above : CodeSet)

namespace CodeSet

def contains : CodeSet → Nat → Bool
  | empty, _ => false
  | node below first last above, n =>
    if n < first then below.contains n else if n ≤ last then true else above.contains n

/-- A tree of at most `depth` levels over as many leading intervals as fit, and the others. -/
def grow : Nat → List (Nat × Nat) → CodeSet × List (Nat × Nat)
  | 0, ranges => (empty, ranges)
  | depth + 1, ranges =>
    match grow depth ranges with
    | (below, []) => (below, [])
    | (below, (first, last) :: ranges) =>
      let (above, rest) := grow depth ranges
      (node below first last above, rest)

/-- The set of up to 1023 ascending intervals. -/
def ofSorted (ranges : List (Nat × Nat)) : CodeSet := (grow 10 ranges).1

def intervals : CodeSet → List (Nat × Nat)
  | empty => []
  | node below first last above => below.intervals ++ (first, last) :: above.intervals

theorem mem_intervals_of_contains {s : CodeSet} {n : Nat} (h : s.contains n = true) :
    ∃ r ∈ s.intervals, r.1 ≤ n ∧ n ≤ r.2 := by
  induction s with
  | empty => simp [contains] at h
  | node below first last above ihb iha =>
    simp only [contains] at h
    simp only [intervals, List.mem_append, List.mem_cons]
    split at h
    · obtain ⟨r, hr, hn⟩ := ihb h
      exact ⟨r, .inl hr, hn⟩
    · split at h
      · exact ⟨(first, last), .inr (.inl rfl), by omega, by assumption⟩
      · obtain ⟨r, hr, hn⟩ := iha h
        exact ⟨r, .inr (.inr hr), hn⟩

end CodeSet
end SyntaxPaint
