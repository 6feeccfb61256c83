import SyntaxPaint.Proofs.Text.Bytes
import SyntaxPaint.Proofs.Token.Lexemes
import SyntaxPaint.Token.Cursor
/-!
# Scanning with a cursor

A cursor that reads token after token to the end of its text gives the placed lexemes of what was
in front of it. The text of each token is sliced out of the source by byte offsets, so this needs
the offset of the cursor to be the length of what it has read.
-/
namespace SyntaxPaint
namespace Cursor

/-- The source is what has been read and what has not, and the position says how far the first
reaches. -/
def Sound (c : Cursor) : Prop :=
  ∃ read, c.source = read ++ c.rest ∧ c.position = Position.origin.after read

theorem sound_start (source : List Char) : (start source).Sound := ⟨[], rfl, rfl⟩

theorem skip_eq {c : Cursor} {s t : List Char} (ahead : c.rest = s ++ t) :
    c.skip s.length = ⟨c.source, t, c.position.after s⟩ := by
  rw [skip, ahead, List.drop_left, List.take_left]

theorem sound_skip {c : Cursor} (sound : c.Sound) (n : Nat) : (c.skip n).Sound := by
  obtain ⟨read, hsource, hposition⟩ := sound
  refine ⟨read ++ c.rest.take n, ?_, ?_⟩
  · rw [List.append_assoc]
    simpa [skip] using hsource
  · rw [Position.after_append, ← hposition]
    rfl

/-- The text that a sound cursor passes is the slice between where it stood and where it stands. -/
theorem sliceFrom_skip {c : Cursor} {s t : List Char} (sound : c.Sound) (ahead : c.rest = s ++ t) :
    (c.skip s.length).sliceFrom c.position = s := by
  obtain ⟨read, hsource, hposition⟩ := sound
  rw [skip_eq ahead, sliceFrom, hsource, ahead, hposition, ← Position.after_append,
    Position.offset_after_origin, Position.offset_after_origin, ← List.append_assoc]
  exact sliceBytes_append read s t

theorem next?_eq {c : Cursor} {x : Char} {tail rest : List Char} {kind : Kind} (sound : c.Sound)
    (ahead : c.rest = x :: (tail ++ rest)) (cut : lexemeTail x (tail ++ rest) = (kind, tail)) :
    c.next? = some (⟨kind, x :: tail, ⟨c.position, c.position.after (x :: tail)⟩⟩,
      c.skip (x :: tail).length) := by
  have hslice := sliceFrom_skip (s := x :: tail) sound ahead
  have hposition : (c.skip (x :: tail).length).position = c.position.after (x :: tail) := by
    rw [skip_eq (s := x :: tail) ahead]
  rw [List.length_cons] at hslice hposition ⊢
  rw [next?, ahead]
  simp only [cut, finish, begin, hslice, hposition]

theorem next?_eq_none {c : Cursor} (ahead : c.rest = []) : c.next? = none := by
  rw [next?, ahead]

theorem length_rest_of_next? {c moved : Cursor} {t : Token} (h : c.next? = some (t, moved)) :
    moved.rest.length < c.rest.length := by
  cases hrest : c.rest with
  | nil => cases (next?_eq_none hrest).symm.trans h
  | cons x xs =>
    rw [next?, hrest] at h
    obtain ⟨-, rfl⟩ := Prod.mk.inj (Option.some.inj h)
    simp only [skip, hrest, List.length_drop, List.length_cons]
    omega

/-- The tokens that a cursor reads one after another, to the end of its text. -/
def scan (c : Cursor) : List Token :=
  match _h : c.next? with
  | none => []
  | some (t, moved) => t :: moved.scan
termination_by c.rest.length
decreasing_by exact length_rest_of_next? _h

theorem scan_eq_nil {c : Cursor} (h : c.next? = none) : c.scan = [] := by
  rw [scan]
  split
  · rfl
  · rename_i hsome
    cases h.symm.trans hsome

theorem scan_eq_cons {c moved : Cursor} {t : Token} (h : c.next? = some (t, moved)) :
    c.scan = t :: moved.scan := by
  rw [scan]
  split
  · rename_i hnone
    cases h.symm.trans hnone
  · rename_i hsome
    obtain ⟨rfl, rfl⟩ := Prod.mk.inj (Option.some.inj (h.symm.trans hsome))
    rfl

theorem scan_eq_place {c : Cursor} (sound : c.Sound) :
    c.scan = place c.position (lexemes c.rest) := by
  generalize hrest : c.rest = text
  induction text using lexemes_induction generalizing c with
  | nil =>
    rw [scan_eq_nil (next?_eq_none hrest), lexemes]
    rfl
  | cons x tail rest kind cut ih =>
    have hskip := skip_eq (s := x :: tail) hrest
    have hmoved := ih (sound_skip sound (x :: tail).length) (by rw [hskip])
    rw [scan_eq_cons (next?_eq sound hrest cut), hmoved, lexemes_append cut, place, hskip]

end Cursor
end SyntaxPaint
