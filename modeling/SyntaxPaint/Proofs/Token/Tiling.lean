import SyntaxPaint.Proofs.Token.Scan
/-!
# Tokens tile the text

The tokens of a text stand end to end from the origin to the end of the text, on boundaries of its
characters, and each holds the characters between its ends.
-/
namespace SyntaxPaint

section

variable {source : List Char} {t : Token}

theorem tokenize_split (h : t ∈ tokenize source) :
    ∃ before after, source = before ++ t.text ++ after ∧
      t.start = byteLength before ∧ t.stop = byteLength (before ++ t.text) := by
  obtain ⟨before, after, hlexemes, hstart, hstop⟩ := exists_of_mem_place .origin h
  have hsource := flatMap_lexemes source
  rw [hlexemes, List.flatMap_append, List.flatMap_cons, ← List.append_assoc] at hsource
  refine ⟨before.flatMap Lexeme.text, after.flatMap Lexeme.text, hsource.symm, ?_, ?_⟩
  · rw [Token.start, hstart, Position.offset_after_origin]
  · rw [Token.stop, hstop, Position.offset_after_origin]

private theorem text_ne_nil (h : t ∈ tokenize source) : t.text ≠ [] := by
  have hmem : t.lexeme ∈ (tokenize source).map Token.lexeme := List.mem_map_of_mem h
  rw [tokenize, map_lexeme_place] at hmem
  exact text_ne_nil_of_mem_lexemes hmem

theorem flatMap_text_tokenize (source : List Char) :
    (tokenize source).flatMap Token.text = source := by
  rw [tokenize, flatMap_text_place, flatMap_lexemes]

theorem tokenize_eq_nil_iff : tokenize source = [] ↔ source = [] := by
  constructor
  · intro h
    rw [← flatMap_text_tokenize source, h, List.flatMap_nil]
  · intro h
    subst h
    simp [tokenize, lexemes, place]

end

/-- The tokens stand end to end in the text, in all that a position counts, and each holds the part
of the text between its ends. -/
structure Tiles (source : List Char) (tokens : List Token) : Prop where
  nonempty : ∀ t ∈ tokens, t.text ≠ []
  first : ∀ t ∈ tokens.head?, t.span.start = .origin
  adjacent : tokens.IsChain fun t u => t.span.stop = u.span.start
  last : ∀ t ∈ tokens.getLast?, t.stop = byteLength source
  none : tokens = [] ↔ source = []
  boundary : ∀ t ∈ tokens, IsBoundary source t.start ∧ IsBoundary source t.stop
  slice : ∀ t ∈ tokens, sliceBytes source t.start t.stop = t.text
  length : ∀ t ∈ tokens, t.length = t.stop - t.start
  whole : tokens.flatMap Token.text = source

/-- The tokens of a text tile it, and a cursor that reads the text reads just them. -/
theorem tokenize_tiles (source : List Char) :
    Tiles source (tokenize source) ∧ (Cursor.start source).scan = tokenize source := by
  refine ⟨?tiles, Cursor.scan_eq_place (Cursor.sound_start source)⟩
  constructor
  case nonempty => exact fun t => text_ne_nil
  case first => exact fun t => start_of_mem_head?_place .origin
  case adjacent => exact isChain_place .origin (lexemes source)
  case last =>
    intro t ht
    rw [Token.stop, stop_of_mem_getLast?_place _ ht, flatMap_lexemes, Position.offset_after_origin]
  case none => exact tokenize_eq_nil_iff
  case boundary =>
    intro t ht
    obtain ⟨before, after, hsource, hstart, hstop⟩ := tokenize_split ht
    constructor
    · exact ⟨before, t.text ++ after, by rw [hsource, List.append_assoc], hstart.symm⟩
    · exact ⟨before ++ t.text, after, hsource, hstop.symm⟩
  case slice =>
    intro t ht
    obtain ⟨before, after, hsource, hstart, hstop⟩ := tokenize_split ht
    rw [hstart, hstop, hsource]
    exact sliceBytes_append before t.text after
  case length =>
    intro t ht
    obtain ⟨before, after, hsource, hstart, hstop⟩ := tokenize_split ht
    rw [Token.length, hstart, hstop, byteLength_append]
    omega
  case whole => exact flatMap_text_tokenize source

end SyntaxPaint
