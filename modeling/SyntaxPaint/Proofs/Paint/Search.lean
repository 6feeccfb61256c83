import Mathlib.Data.List.TakeWhile
import SyntaxPaint.Paint.Line
import SyntaxPaint.Proofs.Text.Ranges
/-!
# Tokens that meet a line

Tokens that stand end to end are ordered, so bisection finds the first that ends behind the start of
a line, and nothing of those that are left out shows in the line.
-/
namespace SyntaxPaint

section Bisection

variable {α : Type} {p : α → Bool}

/-- The elements that satisfy `p` stand in front of those that do not. -/
def IsFront (p : α → Bool) (xs : List α) : Prop := xs.Pairwise fun x y => p y = true → p x = true

private theorem IsFront.of_mem_dropWhile {xs : List α} (front : IsFront p xs) {x : α}
    (hx : x ∈ xs.dropWhile p) : p x = false := by
  induction xs with
  | nil => cases hx
  | cons y ys ih =>
    obtain ⟨hy, hys⟩ := List.pairwise_cons.mp front
    rw [List.dropWhile_cons] at hx
    split at hx
    · exact ih hys hx
    · rename_i hfirst
      apply Bool.eq_false_iff.mpr
      obtain rfl | hx := List.mem_cons.mp hx
      · exact hfirst
      · exact fun h => hfirst (hy x hx h)

private theorem IsFront.iff_lt {xs : List α} (front : IsFront p xs) {i : Nat} {x : α}
    (hx : xs[i]? = some x) : p x = true ↔ i < (xs.takeWhile p).length := by
  have hsplit : xs.takeWhile p ++ xs.dropWhile p = xs := List.takeWhile_append_dropWhile
  rw [← hsplit] at hx
  by_cases hi : i < (xs.takeWhile p).length
  · rw [List.getElem?_append_left hi] at hx
    have hp : p x = true := List.mem_takeWhile_imp (List.mem_of_getElem? hx)
    exact iff_of_true hp hi
  · rw [List.getElem?_append_right (Nat.le_of_not_lt hi)] at hx
    have hp : p x = false := front.of_mem_dropWhile (List.mem_of_getElem? hx)
    exact iff_of_false (Bool.eq_false_iff.mp hp) hi

/-- Bisection finds the border wherever it lies between the bounds. -/
private theorem bisect_eq {xs : Array α} {border lo hi : Nat}
    (front : ∀ i x, xs[i]? = some x → (p x = true ↔ i < border))
    (bound : border ≤ xs.size) (hlo : lo ≤ border) (hhi : border ≤ hi) :
    bisect p xs lo hi = border := by
  fun_induction bisect p xs lo hi with
  | case1 lo hi _ mid x hx hp ih =>
    have hmid : mid < border := (front mid x hx).mp hp
    exact ih hmid hhi
  | case2 lo hi _ mid x hx hp ih =>
    have hmid : border ≤ mid := Nat.le_of_not_lt (mt (front mid x hx).mpr hp)
    exact ih hlo hmid
  | case3 lo hi _ mid hx ih =>
    have hmid : xs.size ≤ mid := Array.getElem?_eq_none_iff.mp hx
    exact ih hlo (by omega)
  | case4 lo hi h => omega

private theorem partitionPoint_eq {xs : Array α} (front : IsFront p xs.toList) :
    partitionPoint p xs = (xs.toList.takeWhile p).length := by
  have hlength := (List.takeWhile_prefix (l := xs.toList) p).length_le
  apply bisect_eq
  · intro i x hx
    rw [← Array.getElem?_toList] at hx
    exact front.iff_lt hx
  · exact hlength
  · exact Nat.zero_le _
  · exact hlength

theorem IsFront.iff_lt_partitionPoint {xs : Array α} (front : IsFront p xs.toList) {i : Nat} {x : α}
    (hx : xs[i]? = some x) : p x = true ↔ i < partitionPoint p xs := by
  rw [← Array.getElem?_toList] at hx
  rw [partitionPoint_eq front, front.iff_lt hx]

theorem IsFront.iff_lt_findIdx {xs : List α} (front : IsFront p xs) {i : Nat} {x : α}
    (hx : xs[i]? = some x) : p x = true ↔ i < xs.findIdx (!p ·) := by
  rw [front.iff_lt hx, List.takeWhile_eq_take_findIdx_not, List.length_take,
    Nat.min_eq_left List.findIdx_le_length]

theorem drop_partitionPoint {xs : Array α} (front : IsFront p xs.toList) :
    xs.toList.drop (partitionPoint p xs) = xs.toList.dropWhile p := by
  have hsplit : xs.toList.takeWhile p ++ xs.toList.dropWhile p = xs.toList :=
    List.takeWhile_append_dropWhile
  calc xs.toList.drop (partitionPoint p xs)
      = (xs.toList.takeWhile p ++ xs.toList.dropWhile p).drop (xs.toList.takeWhile p).length := by
        rw [partitionPoint_eq front, hsplit]
    _ = xs.toList.dropWhile p := List.drop_left

end Bisection

section Shown

variable {α β : Type} {p : α → Bool} {f : α → Option β} {xs : List α}

private theorem filterMap_dropWhile (hidden : ∀ x, p x = true → f x = none) :
    (xs.dropWhile p).filterMap f = xs.filterMap f := by
  have hfront : (xs.takeWhile p).filterMap f = [] := by
    apply List.filterMap_eq_nil_iff.mpr
    exact fun x hx => hidden x (List.mem_takeWhile_imp hx)
  conv => rhs; rw [← List.takeWhile_append_dropWhile (p := p) (l := xs), List.filterMap_append,
    hfront, List.nil_append]

private theorem filterMap_takeWhile (front : IsFront p xs)
    (hidden : ∀ x, p x = false → f x = none) :
    (xs.takeWhile p).filterMap f = xs.filterMap f := by
  have hback : (xs.dropWhile p).filterMap f = [] := by
    apply List.filterMap_eq_nil_iff.mpr
    exact fun x hx => hidden x (front.of_mem_dropWhile hx)
  conv => rhs; rw [← List.takeWhile_append_dropWhile (p := p) (l := xs), List.filterMap_append,
    hback, List.append_nil]

end Shown

theorem patch?_eq (theme : Theme) (window : ByteRange) (t : Token) :
    patch? theme window t =
      (window.clip? t.range).map fun cut => ⟨cut, t.kind, theme.colorFor t.kind⟩ := by
  by_cases hcut : max t.start window.start < min t.stop window.stop
  · have hclip : window.clip? t.range = some ⟨max t.start window.start, min t.stop window.stop⟩ :=
      if_pos hcut
    rw [hclip]
    exact if_pos hcut
  · have hclip : window.clip? t.range = none := if_neg hcut
    rw [hclip]
    exact if_neg hcut

private theorem patch?_eq_none {theme : Theme} {window : ByteRange} {t : Token}
    (h : t.stop ≤ window.start ∨ window.stop ≤ t.start) : patch? theme window t = none := by
  rw [patch?, if_neg]
  simp only
  omega

section Ordered

variable {tokens : Array Token} {start stop : Nat}
  (h : Contiguous start stop (tokens.toList.map Token.range)) (line : ByteRange)

include h

private theorem nonempty_of_mem {t : Token} (ht : t ∈ tokens.toList) : t.start < t.stop :=
  (h.bounds (List.mem_map_of_mem ht)).2.1

private theorem pairwise_stop_le_start :
    tokens.toList.Pairwise fun t u => t.stop ≤ u.start :=
  List.pairwise_map.mp h.pairwise

theorem isFront_stop_le : IsFront (fun t : Token => t.stop ≤ line.start) tokens.toList := by
  refine (pairwise_stop_le_start h).imp_of_mem fun {t u} _ hu htu hline => ?_
  have hnonempty := nonempty_of_mem h hu
  simp only [decide_eq_true_eq] at hline ⊢
  omega

theorem isFront_start_lt : IsFront (fun t : Token => t.start < line.stop) tokens.toList := by
  refine (pairwise_stop_le_start h).imp_of_mem fun {t u} ht _ htu hline => ?_
  have hnonempty := nonempty_of_mem h ht
  simp only [decide_eq_true_eq] at hline ⊢
  omega

/-- Of tokens that stand end to end the search leaves out none that the line shows. -/
theorem paintLine_eq (theme : Theme) :
    paintLine tokens line theme = tokens.toList.filterMap (patch? theme line) := by
  have hrest := (isFront_start_lt h line).sublist
    (List.dropWhile_sublist fun t : Token => t.stop ≤ line.start)
  rw [paintLine, tokensMeeting, drop_partitionPoint (isFront_stop_le h line),
    filterMap_takeWhile hrest, filterMap_dropWhile]
  · intro t ht
    exact patch?_eq_none (.inl (of_decide_eq_true ht))
  · intro t ht
    exact patch?_eq_none (.inr (Nat.le_of_not_lt (of_decide_eq_false ht)))

end Ordered

end SyntaxPaint
