import SyntaxPaint.Proofs.Token.Scan
/-!
# Scanning from the middle

A scan that begins anywhere in a text finds the tokens of what is left of it. Their positions are
shifted by the position where the scan began: columns are so on the first line only. From the border
of a token on these are the tokens of the whole text.
-/
namespace SyntaxPaint

/-! ## Shifted positions -/

/-- Where a position of a text stands in a longer text, in which the shorter one begins at `base`. -/
def Position.shift (base p : Position) : Position where
  line := p.line + (base.line - 1)
  column := if p.line = 1 then p.column + (base.column - 1) else p.column
  offset := p.offset + base.offset
  utf16 := if p.line = 1 then p.utf16 + base.utf16 else p.utf16

/-- The token with both ends shifted. -/
def Token.shift (base : Position) (t : Token) : Token :=
  ⟨t.kind, t.text, ⟨base.shift t.span.start, base.shift t.span.stop⟩⟩

namespace Position

theorem line_after (p : Position) (text : List Char) :
    (p.after text).line = p.line + text.count '\n' := by
  induction text generalizing p with
  | nil => rfl
  | cons c text ih =>
    rw [after_cons, ih, advance]
    by_cases hc : c = '\n'
    · simp [hc]
      omega
    · simp [hc]

private theorem column_after_pos {p : Position} (hp : 0 < p.column) (text : List Char) :
    0 < (p.after text).column := by
  induction text generalizing p with
  | nil => exact hp
  | cons c text ih =>
    apply ih
    rw [advance]
    split
    · exact Nat.one_pos
    · exact Nat.succ_pos p.column

theorem shift_origin (read : List Char) :
    (origin.after read).shift origin = origin.after read := by
  have hline := line_after origin read
  have hcolumn := column_after_pos (p := origin) Nat.one_pos read
  generalize origin.after read = base at hline hcolumn ⊢
  obtain ⟨line, column, offset, utf16⟩ := base
  simp only [origin] at hline hcolumn
  simp only [shift, origin, if_true, Nat.zero_add, mk.injEq, and_true]
  omega

private theorem shift_advance (base : Position) {p : Position} (hp : 0 < p.line) (c : Char) :
    (base.shift p).advance c = base.shift (p.advance c) := by
  by_cases hc : c = '\n'
  · have hlater : p.line ≠ 0 := by omega
    simp [advance, shift, hc, hlater]
    omega
  · by_cases hfirst : p.line = 1
    · simp [advance, shift, hc, hfirst]
      omega
    · simp [advance, shift, hc, hfirst]
      omega

/-- Reading on commutes with the shift. -/
theorem shift_after (base : Position) {p : Position} (hp : 0 < p.line) (text : List Char) :
    (base.shift p).after text = base.shift (p.after text) := by
  induction text generalizing p with
  | nil => rfl
  | cons c text ih =>
    have hline : (p.advance c).line = p.line + [c].count '\n' := line_after p [c]
    rw [after_cons, after_cons, shift_advance base hp]
    apply ih
    omega

end Position

theorem place_shift (base : Position) {p : Position} (hp : 0 < p.line) (ls : List Lexeme) :
    place (base.shift p) ls = (place p ls).map (Token.shift base) := by
  induction ls generalizing p with
  | nil => rfl
  | cons l ls ih =>
    have hline := Position.line_after p l.text
    have hafter := Position.shift_after base hp l.text
    rw [place, hafter, ih (by omega)]
    rfl

/-! ## Restarting -/

private theorem exists_of_place_eq_append {p : Position} {ls : List Lexeme}
    {before later : List Token} (split : place p ls = before ++ later) :
    ∃ first last, ls = first ++ last ∧ before = place p first ∧
      later = place (p.after (first.flatMap Lexeme.text)) last := by
  induction before generalizing p ls with
  | nil => exact ⟨[], ls, rfl, rfl, split.symm⟩
  | cons t before ih =>
    cases ls with
    | nil => cases split
    | cons l ls =>
      rw [place, List.cons_append, List.cons.injEq] at split
      obtain ⟨rfl, hrest⟩ := split
      obtain ⟨first, last, rfl, rfl, rfl⟩ := ih hrest
      refine ⟨l :: first, last, rfl, rfl, ?_⟩
      rw [List.flatMap_cons, Position.after_append]

private theorem span_of_place_eq_append {p : Position} {ls : List Lexeme} {t : Token}
    {before later : List Token} (split : place p ls = before ++ t :: later) :
    t.span =
      ⟨p.after (before.flatMap Token.text), p.after ((before ++ [t]).flatMap Token.text)⟩ := by
  obtain ⟨first, last, -, rfl, hlast⟩ := exists_of_place_eq_append split
  cases last with
  | nil => cases hlast
  | cons l last =>
    rw [place, List.cons.injEq] at hlast
    obtain ⟨rfl, -⟩ := hlast
    simp [flatMap_text_place, Position.after_append]

private theorem place_lexemes_of_append {read rest : List Char} {before later : List Token}
    (split : tokenize (read ++ rest) = before ++ later)
    (border : byteLength (before.flatMap Token.text) = byteLength read) :
    place (.after .origin read) (lexemes rest) = later := by
  obtain ⟨first, last, hlexemes, rfl, rfl⟩ := exists_of_place_eq_append split
  have hwhole := flatMap_lexemes (read ++ rest)
  rw [hlexemes, List.flatMap_append] at hwhole
  rw [flatMap_text_place] at border
  obtain ⟨hread, hrest⟩ := append_inj_of_byteLength hwhole border
  rw [hread, ← hrest, lexemes_of_append hlexemes]

namespace Cursor

/-- The cursor after some single steps, as far as there are characters for them. -/
def advanced (c : Cursor) : Nat → Cursor
  | 0 => c
  | n + 1 => match c.advance? with
    | some (_, moved) => moved.advanced n
    | none => c

theorem advanced_eq {c : Cursor} {s t : List Char} (ahead : c.rest = s ++ t) :
    c.advanced s.length = ⟨c.source, t, c.position.after s⟩ := by
  induction s generalizing c with
  | nil =>
    rw [List.nil_append] at ahead
    rw [← ahead]
    rfl
  | cons x s ih =>
    have hskip : c.skip 1 = ⟨c.source, s ++ t, c.position.advance x⟩ :=
      skip_eq (s := [x]) ahead
    have hstep : c.advance? = some (x, c.skip 1) := by
      rw [advance?, ahead]
      rfl
    have hlater := ih (c := c.skip 1) (by rw [hskip])
    rw [hskip] at hlater
    rw [List.length_cons, advanced, hstep, hskip]
    exact hlater

/-- A cursor reads the tokens of what is in front of it, shifted by its position. -/
theorem scan_eq_map_shift {c : Cursor} (sound : c.Sound) :
    c.scan = (tokenize c.rest).map (Token.shift c.position) := by
  obtain ⟨read, -, hposition⟩ := id sound
  have hshift : c.position.shift .origin = c.position := by
    rw [hposition, Position.shift_origin]
  have hplace := place_shift c.position (p := .origin) Nat.one_pos (lexemes c.rest)
  rw [scan_eq_place sound, tokenize, ← hplace, hshift]

/-- A cursor that has been moved to any boundary of a text reads the tokens of what is left of the
text, shifted by its position. On the border of a token these are the tokens behind it. -/
theorem scan_restarts (read rest : List Char) :
    let tokens := tokenize (read ++ rest)
    let c := (start (read ++ rest)).advanced read.length
    c.position.offset = byteLength read ∧ c.position.line = 1 + read.count '\n' ∧
    c.scan = (tokenize rest).map (Token.shift c.position) ∧
    ∀ before t later, tokens = before ++ t :: later →
      (t.start = byteLength read → c.scan = t :: later) ∧
      (t.stop = byteLength read → c.scan = later) := by
  intro tokens c
  have hc : c = ⟨read ++ rest, rest, Position.origin.after read⟩ := advanced_eq rfl
  have hsound : c.Sound := ⟨read, by rw [hc], by rw [hc]⟩
  have hscan : c.scan = place (.after .origin read) (lexemes rest) := by
    rw [scan_eq_place hsound, hc]
  refine ⟨?offset, ?line, ?shifted, ?border⟩
  case offset => rw [hc, Position.offset_after_origin]
  case line =>
    rw [hc, Position.line_after]
    rfl
  case shifted =>
    rw [scan_eq_map_shift hsound, hc]
  case border =>
    intro before t later hsplit
    have hspan := span_of_place_eq_append hsplit
    constructor
    · intro hstart
      rw [Token.start, hspan, Position.offset_after_origin] at hstart
      rw [hscan, place_lexemes_of_append hsplit hstart]
    · intro hstop
      rw [Token.stop, hspan, Position.offset_after_origin] at hstop
      have hbehind : tokens = (before ++ [t]) ++ later := by
        rw [hsplit, List.append_assoc]
        rfl
      rw [hscan, place_lexemes_of_append hbehind hstop]

end Cursor

end SyntaxPaint
