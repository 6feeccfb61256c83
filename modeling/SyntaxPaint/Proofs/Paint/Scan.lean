import SyntaxPaint.Proofs.Paint.Complete
/-!
# Searching and scanning

A line is painted without looking at the tokens in front of it and behind it. A scan that cuts every
token to the line gives the same, also for ranges that are no lines: empty ones, reversed ones, and
ones that the text does not reach.
-/
namespace SyntaxPaint

/-- What a range shows of the tokens, from a look at each of them. -/
def scanLine (theme : Theme) (a b : Nat) : List Token → List Patch
  | [] => []
  | t :: tokens =>
    let cut : ByteRange := ⟨max t.start a, min t.stop b⟩
    if cut.start < cut.stop then
      ⟨cut, t.kind, theme.colorFor t.kind⟩ :: scanLine theme a b tokens
    else scanLine theme a b tokens

theorem scanLine_eq (theme : Theme) (a b : Nat) (tokens : List Token) :
    scanLine theme a b tokens = tokens.filterMap (patch? theme ⟨a, b⟩) := by
  induction tokens with
  | nil => rfl
  | cons t tokens ih =>
    by_cases hcut : max t.start a < min t.stop b
    · simp [scanLine, patch?, hcut, ih]
    · simp [scanLine, patch?, hcut, ih]

theorem intersects_iff {t : Token} {r : ByteRange} :
    t.intersects r = true ↔ t.start < r.stop ∧ r.start < t.stop := by
  simp [Token.intersects]

/-- Of tokens that stand end to end, those that intersect a range stand between the first that ends
behind its start and the first from there on that begins at its end or later. -/
theorem intersects_iff_between {tokens : Array Token} {start stop : Nat}
    (h : Contiguous start stop (tokens.toList.map Token.range)) (r : ByteRange) {i : Nat}
    {t : Token} (ht : tokens[i]? = some t) :
    let first := partitionPoint (·.stop ≤ r.start) tokens
    t.intersects r = true ↔
      first ≤ i ∧ i < first + (tokens.toList.drop first).findIdx (r.stop ≤ ·.start) := by
  intro first
  have hahead : t.stop ≤ r.start ↔ i < first := by
    rw [← (isFront_stop_le h r).iff_lt_partitionPoint ht, decide_eq_true_eq]
  rw [intersects_iff]
  by_cases hi : i < first
  · have hends := hahead.mpr hi
    omega
  · obtain ⟨j, rfl⟩ := Nat.exists_eq_add_of_le (Nat.le_of_not_lt hi)
    have hj : (tokens.toList.drop first)[j]? = some t := by
      rwa [List.getElem?_drop, Array.getElem?_toList]
    have hrest : IsFront (fun t : Token => t.start < r.stop) (tokens.toList.drop first) :=
      (isFront_start_lt h r).sublist (List.drop_sublist first tokens.toList)
    have hbegins := hrest.iff_lt_findIdx hj
    simp only [decide_eq_true_eq, ← decide_not, Nat.not_lt] at hbegins
    omega

/-- The tokens that intersect a range are one stretch of the list, between the first that ends behind
the start of the range and the first from there on that begins at its end or later. What is painted
of a range is what a scan of all tokens cuts out of it, and this fills what the text has of it. -/
theorem paintLine_eq_scanLine (text : List Char) (theme : Theme) (a b : Nat) :
    let tokens := (tokenize text).toArray
    let first := partitionPoint (·.stop ≤ a) tokens
    let last := first + (tokens.toList.drop first).findIdx (b ≤ ·.start)
    let patches := paintLine tokens ⟨a, b⟩ theme
    (∀ i t, tokens[i]? = some t → (t.intersects ⟨a, b⟩ = true ↔ first ≤ i ∧ i < last)) ∧
      patches = scanLine theme a b (tokenize text) ∧
      Contiguous a (min b (byteLength text)) (patches.map Patch.range) ∧
      (min b (byteLength text) ≤ a → patches = []) := by
  intro tokens first last patches
  have hplaced : Contiguous 0 (byteLength text) (tokens.toList.map Token.range) :=
    contiguous_tokenize text
  have hfilled := contiguous_paintLine theme hplaced ⟨a, b⟩
  refine ⟨?between, ?scan, hfilled, ?empty⟩
  case between => exact fun i t => intersects_iff_between hplaced ⟨a, b⟩
  case scan => rw [scanLine_eq, ← paintLine_eq hplaced]
  case empty =>
    intro h
    exact List.map_eq_nil_iff.mp (hfilled.eq_nil h)

end SyntaxPaint
