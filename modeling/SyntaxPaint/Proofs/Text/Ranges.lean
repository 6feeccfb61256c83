import SyntaxPaint.Text.Position
/-!
# Ranges of bytes

Ranges that stand end to end fill a stretch of bytes, and what a window shows of them fills what it
shows of the stretch.
-/
namespace SyntaxPaint
namespace ByteRange

def covers (r : ByteRange) (k : Nat) : Bool := r.start ≤ k && k < r.stop

theorem covers_iff {r : ByteRange} {k : Nat} : r.covers k = true ↔ r.start ≤ k ∧ k < r.stop := by
  rw [covers, Bool.and_eq_true, decide_eq_true_eq, decide_eq_true_eq]

/-- The range lies in the other one. -/
def Inside (r s : ByteRange) : Prop := s.start ≤ r.start ∧ r.stop ≤ s.stop

/-- What a window shows of a range, if anything. -/
def clip? (window r : ByteRange) : Option ByteRange :=
  let cut : ByteRange := ⟨max r.start window.start, min r.stop window.stop⟩
  if cut.start < cut.stop then some cut else none

theorem of_clip? {window r cut : ByteRange} (h : window.clip? r = some cut) :
    cut = ⟨max r.start window.start, min r.stop window.stop⟩ ∧ cut.start < cut.stop := by
  obtain ⟨hcut, hsome⟩ := Option.ite_none_right_eq_some.mp h
  obtain rfl := Option.some.inj hsome
  exact ⟨rfl, hcut⟩

theorem inside_of_clip? {window r cut : ByteRange} (h : window.clip? r = some cut) :
    cut.Inside r := by
  obtain ⟨rfl, -⟩ := of_clip? h
  exact ⟨Nat.le_max_left _ _, Nat.min_le_left _ _⟩

theorem Inside.not_inside {r s t : ByteRange} (inside : r.Inside s) (nonempty : r.start < r.stop)
    (apart : s.stop ≤ t.start ∨ t.stop ≤ s.start) : ¬ r.Inside t := by
  intro h
  unfold Inside at inside h
  omega

end ByteRange

/-- The ranges are not empty and stand end to end from `start` to `stop`. There are none if nothing
lies between the two. -/
inductive Contiguous : Nat → Nat → List ByteRange → Prop
  | nil {start stop : Nat} (empty : stop ≤ start) : Contiguous start stop []
  | cons {start mid stop : Nat} {ranges : List ByteRange} (nonempty : start < mid)
    (bound : mid ≤ stop) (rest : Contiguous mid stop ranges) :
    Contiguous start stop (⟨start, mid⟩ :: ranges)

namespace Contiguous

variable {start stop : Nat} {ranges : List ByteRange}

theorem eq_nil (h : Contiguous start stop ranges) (empty : stop ≤ start) : ranges = [] := by
  cases h with
  | nil => rfl
  | cons nonempty bound => omega

theorem empty {start' : Nat} (h : Contiguous start stop ranges) (empty : stop ≤ start)
    (empty' : stop ≤ start') : Contiguous start' stop ranges := by
  rw [h.eq_nil empty]
  exact .nil empty'

theorem bounds (h : Contiguous start stop ranges) {r : ByteRange} (hr : r ∈ ranges) :
    start ≤ r.start ∧ r.start < r.stop ∧ r.stop ≤ stop := by
  induction h with
  | nil => cases hr
  | cons nonempty bound rest ih =>
    obtain rfl | hr := List.mem_cons.mp hr
    · exact ⟨Nat.le_refl _, nonempty, bound⟩
    · obtain ⟨hstart, hrange, hstop⟩ := ih hr
      exact ⟨by omega, hrange, hstop⟩

theorem pairwise (h : Contiguous start stop ranges) :
    ranges.Pairwise fun r s => r.stop ≤ s.start := by
  induction h with
  | nil => exact .nil
  | cons nonempty bound rest ih =>
    apply List.pairwise_cons.mpr
    exact ⟨fun r hr => (rest.bounds hr).1, ih⟩

/-- Every byte of the stretch lies in one of the ranges, and in one only. -/
theorem countP_covers (h : Contiguous start stop ranges) (k : Nat) :
    ranges.countP (·.covers k) = if start ≤ k ∧ k < stop then 1 else 0 := by
  induction h with
  | nil empty =>
    rw [List.countP_nil, if_neg]
    omega
  | cons nonempty bound rest ih =>
    rw [List.countP_cons, ih]
    simp only [ByteRange.covers_iff]
    split <;> split <;> split <;> omega

theorem clip (h : Contiguous start stop ranges) (window : ByteRange) :
    Contiguous (max start window.start) (min stop window.stop)
      (ranges.filterMap window.clip?) := by
  induction h with
  | nil empty =>
    apply Contiguous.nil
    omega
  | @cons start mid stop ranges nonempty bound rest ih =>
    by_cases hcut : max start window.start < min mid window.stop
    · simp only [List.filterMap_cons, ByteRange.clip?, if_pos hcut]
      refine .cons hcut (by omega) ?_
      -- Either the window ends in this range and shows none of the others, or they go on where
      -- this one ends.
      by_cases hlast : window.stop ≤ mid
      · exact ih.empty (by omega) (by omega)
      · have hnext : min mid window.stop = max mid window.start := by omega
        rw [hnext]
        exact ih
    · simp only [List.filterMap_cons, ByteRange.clip?, if_neg hcut]
      by_cases hahead : mid ≤ window.start
      · have hsame : max start window.start = max mid window.start := by omega
        rw [hsame]
        exact ih
      · exact ih.empty (by omega) (by omega)

end Contiguous

end SyntaxPaint
