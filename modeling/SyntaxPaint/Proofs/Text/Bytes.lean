import SyntaxPaint.Text.Position
/-!
# Bytes and characters

A boundary of a text is a byte offset that does not split a character. Between two boundaries the
bytes of a text are whole characters, and those are what a slice returns.
-/
namespace SyntaxPaint

/-- Does the offset stand between two characters of the text, or at one of its ends? -/
def IsBoundary (text : List Char) (offset : Nat) : Prop :=
  ∃ before after, text = before ++ after ∧ byteLength before = offset

theorem byteLength_pos {text : List Char} (h : text ≠ []) : 0 < byteLength text := by
  obtain ⟨c, tail, rfl⟩ := List.exists_cons_of_ne_nil h
  have hc := c.utf8Size_pos
  rw [byteLength_cons]
  omega

private theorem takeBytes_zero (text : List Char) : takeBytes 0 text = [] := by
  cases text <;> rfl

private theorem dropBytes_zero (text : List Char) : dropBytes 0 text = text := by
  cases text <;> rfl

private theorem takeBytes_cons (n : Nat) (c : Char) (text : List Char) :
    takeBytes (c.utf8Size + n) (c :: text) = c :: takeBytes n text := by
  have hpos := c.utf8Size_pos
  obtain ⟨k, hk⟩ := Nat.exists_eq_add_one.mpr (Nat.add_pos_left hpos n)
  have hn : k + 1 - c.utf8Size = n := by omega
  rw [hk, takeBytes, hn]

private theorem dropBytes_cons (n : Nat) (c : Char) (text : List Char) :
    dropBytes (c.utf8Size + n) (c :: text) = dropBytes n text := by
  have hpos := c.utf8Size_pos
  obtain ⟨k, hk⟩ := Nat.exists_eq_add_one.mpr (Nat.add_pos_left hpos n)
  have hn : k + 1 - c.utf8Size = n := by omega
  rw [hk, dropBytes, hn]

private theorem takeBytes_add (s t : List Char) (n : Nat) :
    takeBytes (byteLength s + n) (s ++ t) = s ++ takeBytes n t := by
  induction s with
  | nil => rw [byteLength_nil, Nat.zero_add, List.nil_append, List.nil_append]
  | cons c s ih =>
    rw [List.cons_append, byteLength_cons, Nat.add_assoc, takeBytes_cons, ih, List.cons_append]

theorem takeBytes_append (s t : List Char) : takeBytes (byteLength s) (s ++ t) = s := by
  have h := takeBytes_add s t 0
  rwa [Nat.add_zero, takeBytes_zero, List.append_nil] at h

theorem dropBytes_append (s t : List Char) : dropBytes (byteLength s) (s ++ t) = t := by
  induction s with
  | nil => exact dropBytes_zero t
  | cons c s ih => rw [List.cons_append, byteLength_cons, dropBytes_cons, ih]

/-- A boundary splits a text in one way. -/
theorem append_inj_of_byteLength {s s' t t' : List Char} (same : s ++ t = s' ++ t')
    (length : byteLength s = byteLength s') : s = s' ∧ t = t' := by
  have hfront := takeBytes_append s t
  have hback := dropBytes_append s t
  rw [same, length, takeBytes_append] at hfront
  rw [same, length, dropBytes_append] at hback
  exact ⟨hfront.symm, hback.symm⟩

theorem sliceBytes_append (s t u : List Char) :
    sliceBytes (s ++ t ++ u) (byteLength s) (byteLength (s ++ t)) = t := by
  have hlength : byteLength (s ++ t) - byteLength s = byteLength t := by
    rw [byteLength_append]
    omega
  rw [sliceBytes, hlength, List.append_assoc, dropBytes_append, takeBytes_append]

theorem sliceBytes_split (s t u : List Char) {stop : Nat} (h : byteLength (s ++ t) ≤ stop) :
    sliceBytes (s ++ t ++ u) (byteLength s) stop =
      t ++ sliceBytes (s ++ t ++ u) (byteLength (s ++ t)) stop := by
  have hlength : stop - byteLength s = byteLength t + (stop - byteLength (s ++ t)) := by
    rw [byteLength_append] at h ⊢
    omega
  rw [sliceBytes, sliceBytes, dropBytes_append, List.append_assoc, dropBytes_append, hlength,
    takeBytes_add]

theorem sliceBytes_empty (text : List Char) {start stop : Nat} (h : stop ≤ start) :
    sliceBytes text start stop = [] := by
  rw [sliceBytes, Nat.sub_eq_zero_of_le h, takeBytes_zero]

theorem Position.offset_after (p : Position) (text : List Char) :
    (p.after text).offset = p.offset + byteLength text := by
  induction text generalizing p with
  | nil => rfl
  | cons c text ih =>
    have hadvance : (p.advance c).offset = p.offset + c.utf8Size := by
      rw [advance]
      split <;> rfl
    rw [after_cons, ih, hadvance, byteLength_cons, Nat.add_assoc]

@[simp] theorem Position.offset_after_origin (text : List Char) :
    (origin.after text).offset = byteLength text := by
  rw [offset_after]
  exact Nat.zero_add _

end SyntaxPaint
