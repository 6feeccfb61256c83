import Mathlib.Order.MinMax
import SyntaxPaint.Proofs.Text.Bytes
import SyntaxPaint.Proofs.Text.Ranges
import SyntaxPaint.Text.Line
import SyntaxPaint.Token.Lexeme
/-!
# The lines of a text

The lines of a text are parts of it that hold each of its bytes once, but for the bytes of what ends
the lines.
-/
namespace SyntaxPaint

/-! ## Bytes of lines -/

theorem isLineEnd_eq_false_iff {c : Char} : isLineEnd c = false ↔ c ≠ '\n' ∧ c ≠ '\r' := by
  rw [isLineEnd, Bool.or_eq_false_iff, beq_eq_false_iff_ne, beq_eq_false_iff_ne]

/-- The character whose encoding holds the byte at an offset. -/
def charAtByte? : List Char → Nat → Option Char
  | [], _ => none
  | c :: text, k => if k < c.utf8Size then some c else charAtByte? text (k - c.utf8Size)

/-- Does the text have a byte at the offset that is not of an end of a line? -/
def isLineByte (text : List Char) (k : Nat) : Bool := (charAtByte? text k).any (!isLineEnd ·)

private theorem isLineByte_of_lt {c : Char} {k : Nat} (text : List Char) (h : k < c.utf8Size) :
    isLineByte (c :: text) k = !isLineEnd c := by
  rw [isLineByte, charAtByte?, if_pos h]
  rfl

private theorem isLineByte_add (c : Char) (text : List Char) (k : Nat) :
    isLineByte (c :: text) (c.utf8Size + k) = isLineByte text k := by
  have hbehind : ¬ c.utf8Size + k < c.utf8Size := by omega
  rw [isLineByte, charAtByte?, if_neg hbehind, Nat.add_sub_cancel_left]
  rfl

theorem lt_of_isLineByte {text : List Char} {k : Nat} (h : isLineByte text k = true) :
    k < byteLength text := by
  induction text generalizing k with
  | nil => cases h
  | cons c text ih =>
    rw [byteLength_cons]
    by_cases hk : k < c.utf8Size
    · omega
    · obtain ⟨j, rfl⟩ := Nat.exists_eq_add_of_le (Nat.le_of_not_lt hk)
      rw [isLineByte_add] at h
      exact Nat.add_lt_add_left (ih h) _

private theorem countP_covers_of_lt {start here k : Nat} (h : k < here) (text : List Char) :
    (lineRangesFrom start here text).countP (·.covers k) = if start ≤ k then 1 else 0 := by
  fun_induction lineRangesFrom start here text with
  | case1 start here => simp [ByteRange.covers, h]
  | case2 start here text ih
  | case3 start here text ih
  | case4 start here text _ ih =>
    have hlater : ¬ here + 2 ≤ k ∧ ¬ here + 1 ≤ k := by omega
    rw [List.countP_cons, ih (by omega)]
    simp [ByteRange.covers, h, hlater]
  | case5 start here c text _ _ _ ih => exact ih (by omega)

private theorem covers_eq_false {start here : Nat} (k : Nat) :
    (ByteRange.mk start here).covers (here + k) = false := by
  simp [ByteRange.covers]

private theorem countP_covers_of_end (c : Char) (here : Nat) {next : Nat}
    (hend : isLineEnd c = true) (hnext : next = here + c.utf8Size)
    {text : List Char} {later : List ByteRange}
    (front : ∀ k < next, later.countP (·.covers k) = 0)
    (back : ∀ k, later.countP (·.covers (next + k)) = if isLineByte text k then 1 else 0)
    (k : Nat) :
    later.countP (·.covers (here + k)) = if isLineByte (c :: text) k then 1 else 0 := by
  by_cases hk : k < c.utf8Size
  · rw [front _ (by omega), isLineByte_of_lt text hk, hend]
    rfl
  · obtain ⟨j, rfl⟩ := Nat.exists_eq_add_of_le (Nat.le_of_not_lt hk)
    rw [← Nat.add_assoc, ← hnext, back, isLineByte_add]

private theorem countP_covers_lineRangesFrom {start here : Nat} (h : start ≤ here)
    (text : List Char) (k : Nat) :
    (lineRangesFrom start here text).countP (·.covers (here + k)) =
      if isLineByte text k then 1 else 0 := by
  -- The line that begins at `next` has no byte in front of it.
  have hfront (next : Nat) (text : List Char) (k : Nat) (hk : k < next) :
      (lineRangesFrom next next text).countP (·.covers k) = 0 := by
    rw [countP_covers_of_lt hk, if_neg (Nat.not_le.mpr hk)]
  fun_induction lineRangesFrom start here text generalizing k with
  | case1 start here => simp [ByteRange.covers, isLineByte, charAtByte?]
  | case2 start here text ih =>
    have hlf := countP_covers_of_end '\n' (here + 1) rfl rfl (hfront (here + 2) text)
      (ih (Nat.le_refl _))
    rw [List.countP_cons, covers_eq_false]
    refine countP_covers_of_end '\r' here rfl rfl (fun k hk => hfront _ text k ?_) hlf k
    exact Nat.lt_succ_of_lt hk
  | case3 start here text ih
  | case4 start here text _ ih =>
    rw [List.countP_cons, covers_eq_false]
    refine countP_covers_of_end _ here ?_ ?_ (hfront (here + 1) text) (ih (Nat.le_refl _)) k
    · rfl
    · rfl
  | case5 start here c text hcrlf hlf hcr ih =>
    have hline : isLineEnd c = false := isLineEnd_eq_false_iff.mpr ⟨hlf, hcr⟩
    by_cases hk : k < c.utf8Size
    · rw [countP_covers_of_lt (by omega), isLineByte_of_lt text hk, hline, if_pos (by omega)]
      rfl
    · obtain ⟨j, rfl⟩ := Nat.exists_eq_add_of_le (Nat.le_of_not_lt hk)
      rw [← Nat.add_assoc, ih (by omega), isLineByte_add]

/-- Each byte of a line lies in one line only, and no other byte lies in any. -/
theorem countP_covers_lineRanges (text : List Char) (k : Nat) :
    (lineRanges text).countP (·.covers k) = if isLineByte text k then 1 else 0 := by
  have h := countP_covers_lineRangesFrom (Nat.le_refl 0) text k
  rw [Nat.zero_add] at h
  exact h

example : (List.range 8).filter (isLineByte "a\r\nb\rc\n".toList) = [0, 3, 5] := by decide

/-! ## Parts of the text -/

/-- The range is that of a part of the text. -/
def ByteRange.IsPart (text : List Char) (r : ByteRange) : Prop :=
  ∃ before part after, text = before ++ part ++ after ∧
    r = ⟨byteLength before, byteLength (before ++ part)⟩

namespace ByteRange.IsPart

variable {text : List Char} {r : ByteRange}

theorem start_le_stop (h : r.IsPart text) : r.start ≤ r.stop := by
  obtain ⟨before, part, after, rfl, rfl⟩ := h
  simp [byteLength_append]

theorem stop_le (h : r.IsPart text) : r.stop ≤ byteLength text := by
  obtain ⟨before, part, after, rfl, rfl⟩ := h
  simp [byteLength_append]

theorem isBoundary (h : r.IsPart text) : IsBoundary text r.start ∧ IsBoundary text r.stop := by
  obtain ⟨before, part, after, rfl, rfl⟩ := h
  constructor
  · exact ⟨before, part ++ after, by rw [List.append_assoc], rfl⟩
  · exact ⟨before ++ part, after, rfl, rfl⟩

theorem of_isBoundary (hstart : IsBoundary text r.start) (hstop : IsBoundary text r.stop)
    (ordered : r.start ≤ r.stop) : r.IsPart text := by
  obtain ⟨start, stop⟩ := r
  obtain ⟨before, rest, rfl, rfl⟩ := hstart
  obtain ⟨front, after, hsame, rfl⟩ := hstop
  obtain ⟨part, rfl, rfl⟩ | ⟨part, rfl, rfl⟩ := List.append_eq_append_iff.mp hsame
  · exact ⟨before, part, after, by rw [List.append_assoc], rfl⟩
  · have hequal : byteLength front = byteLength (front ++ part) := by
      simp only [byteLength_append] at ordered ⊢
      omega
    refine ⟨front ++ part, [], rest, by rw [List.append_nil], ?_⟩
    rw [List.append_nil, hequal]

private theorem exists_slice (h : r.IsPart text) :
    ∃ before after, text = before ++ r.slice text ++ after ∧ r.start = byteLength before ∧
      r.stop = byteLength (before ++ r.slice text) := by
  obtain ⟨before, part, after, rfl, rfl⟩ := h
  have hslice : ByteRange.slice ⟨byteLength before, byteLength (before ++ part)⟩
      (before ++ part ++ after) = part := sliceBytes_append before part after
  rw [hslice]
  exact ⟨before, after, rfl, rfl, rfl⟩

theorem stop_eq (h : r.IsPart text) : r.stop = r.start + byteLength (r.slice text) := by
  obtain ⟨before, after, -, hstart, hstop⟩ := h.exists_slice
  rw [hstop, hstart, byteLength_append]

theorem mem_of_mem_slice (h : r.IsPart text) {c : Char} (hc : c ∈ r.slice text) : c ∈ text := by
  obtain ⟨before, after, htext, -⟩ := h.exists_slice
  rw [htext]
  exact List.mem_append_left after (List.mem_append_right before hc)

theorem sliceBytes_eq (h : r.IsPart text) {stop : Nat} (bound : r.stop ≤ stop) :
    sliceBytes text r.start stop = r.slice text ++ sliceBytes text r.stop stop := by
  obtain ⟨before, after, htext, hstart, hstop⟩ := h.exists_slice
  have hsplit := sliceBytes_split before (r.slice text) after (hstop ▸ bound)
  rwa [← htext, ← hstart, ← hstop] at hsplit

theorem clip? {window cut : ByteRange} (h : r.IsPart text) (hwindow : window.IsPart text)
    (hcut : window.clip? r = some cut) : IsBoundary text cut.start ∧ IsBoundary text cut.stop := by
  obtain ⟨rfl, -⟩ := of_clip? hcut
  obtain ⟨hstart, hstop⟩ := h.isBoundary
  obtain ⟨hfrom, hto⟩ := hwindow.isBoundary
  constructor
  · show IsBoundary text (max r.start window.start)
    obtain hmax | hmax := max_choice r.start window.start
    · rwa [hmax]
    · rwa [hmax]
  · show IsBoundary text (min r.stop window.stop)
    obtain hmin | hmin := min_choice r.stop window.stop
    · rwa [hmin]
    · rwa [hmin]

end ByteRange.IsPart

/-- The source is what stands in front of `start`, what stands between there and `here`, and the
text behind. -/
private def InLine (source : List Char) (start here : Nat) (text : List Char) : Prop :=
  ∃ before part, source = before ++ part ++ text ∧
    start = byteLength before ∧ here = byteLength (before ++ part)

namespace InLine

variable {source text : List Char} {start here : Nat}

private theorem isPart (h : InLine source start here text) :
    (ByteRange.mk start here).IsPart source := by
  obtain ⟨before, part, hsource, rfl, rfl⟩ := h
  exact ⟨before, part, text, hsource, rfl⟩

private theorem read {c : Char} (h : InLine source start here (c :: text)) :
    InLine source start (here + c.utf8Size) text := by
  obtain ⟨before, part, rfl, rfl, rfl⟩ := h
  refine ⟨before, part ++ [c], by simp, rfl, ?_⟩
  rw [← List.append_assoc, byteLength_append (before ++ part) [c], byteLength_cons, byteLength_nil,
    Nat.add_zero]

private theorem next (h : InLine source start here text) : InLine source here here text := by
  obtain ⟨before, part, rfl, rfl, rfl⟩ := h
  exact ⟨before ++ part, [], by simp, rfl, by simp⟩

private theorem isPart_of_mem (h : InLine source start here text) {r : ByteRange}
    (hr : r ∈ lineRangesFrom start here text) : r.IsPart source := by
  -- What ends a line is read before the next line begins, and is no part of either.
  fun_induction lineRangesFrom start here text with
  | case1 start here =>
    obtain rfl := List.mem_singleton.mp hr
    exact h.isPart
  | case2 start here text ih =>
    obtain rfl | hr := List.mem_cons.mp hr
    · exact h.isPart
    · exact ih h.read.read.next hr
  | case3 start here text ih
  | case4 start here text _ ih =>
    obtain rfl | hr := List.mem_cons.mp hr
    · exact h.isPart
    · exact ih h.read.next hr
  | case5 start here c text _ _ _ ih => exact ih h.read hr

end InLine

theorem isPart_of_mem_lineRanges {text : List Char} {r : ByteRange} (hr : r ∈ lineRanges text) :
    r.IsPart text := by
  have h : InLine text 0 0 text := ⟨[], [], rfl, rfl, rfl⟩
  exact h.isPart_of_mem hr

end SyntaxPaint
