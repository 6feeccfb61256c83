import Mathlib.Data.List.Chain
import SyntaxPaint.Token.Basic
/-!
# Lexemes laid end to end

Cutting a text into lexemes loses nothing and adds nothing, and placing the lexemes gives each of
them the position behind all that stand in front of it.
-/
namespace SyntaxPaint

section Prefix

private theorem blockTail_front (cs : List Char) : blockTail cs <+: cs := by
  fun_induction blockTail cs with
  | case1 => exact List.prefix_rfl
  | case2 rest => exact List.prefix_append ['*', '/'] rest
  | case3 c cs _ ih => exact (List.prefix_cons_inj c).mpr ih

private theorem quotedTail_front (cs : List Char) : quotedTail cs <+: cs := by
  fun_induction quotedTail cs with
  | case1 => exact List.prefix_rfl
  | case2 rest => exact List.prefix_append ['"'] rest
  | case3 c cs ih => simpa only [List.prefix_cons_inj] using ih
  | case4 c cs _ _ ih => exact (List.prefix_cons_inj c).mpr ih

private theorem numberTail_front (cs : List Char) : numberTail cs <+: cs := by
  have hsplit : cs.takeWhile isDigit ++ cs.dropWhile isDigit = cs :=
    List.takeWhile_append_dropWhile
  rw [numberTail]
  split
  · rename_i part heq
    obtain ⟨rest, hrest⟩ : part.takeWhile isDigit <+: part := List.takeWhile_prefix isDigit
    refine ⟨rest, ?_⟩
    rw [List.append_assoc, List.cons_append, hrest, ← heq, hsplit]
  · rw [List.append_nil]
    exact List.takeWhile_prefix isDigit

private theorem operatorTail_front (c : Char) (cs : List Char) : operatorTail c cs <+: cs := by
  cases cs with
  | nil => exact List.nil_prefix
  | cons d cs =>
    rw [operatorTail]
    split
    · exact List.prefix_append [d] cs
    · exact List.nil_prefix

theorem lexemeTail_front (c : Char) (cs : List Char) : (lexemeTail c cs).2 <+: cs := by
  rw [lexemeTail]
  split
  · exact List.takeWhile_prefix isBlank
  split
  · exact List.takeWhile_prefix _
  split
  · rename_i hopen
    cases cs with
    | nil => cases hopen.2
    | cons d cs =>
      obtain rfl : d = '*' := Option.some.inj hopen.2
      exact (List.prefix_cons_inj '*').mpr (blockTail_front cs)
  split
  · exact List.takeWhile_prefix isIdentifierPart
  split
  · exact numberTail_front cs
  split
  · exact quotedTail_front cs
  split
  · exact operatorTail_front c cs
  · exact List.nil_prefix

end Prefix

section Cutting

/-- The scanner takes a part of the text and leaves the rest. -/
theorem exists_cut (c : Char) (cs : List Char) :
    ∃ kind tail rest, cs = tail ++ rest ∧ lexemeTail c (tail ++ rest) = (kind, tail) := by
  obtain ⟨rest, hrest⟩ := lexemeTail_front c cs
  exact ⟨(lexemeTail c cs).1, (lexemeTail c cs).2, rest, hrest.symm, by rw [hrest]⟩

theorem lexemes_append {c : Char} {tail rest : List Char} {kind : Kind}
    (cut : lexemeTail c (tail ++ rest) = (kind, tail)) :
    lexemes (c :: (tail ++ rest)) = ⟨kind, c :: tail⟩ :: lexemes rest := by
  rw [lexemes, cut]
  simp only [List.drop_left]

/-- Induction along a text, lexeme by lexeme. -/
theorem lexemes_induction {motive : List Char → Prop} (nil : motive [])
    (cons : ∀ c tail rest kind, lexemeTail c (tail ++ rest) = (kind, tail) → motive rest →
      motive (c :: (tail ++ rest)))
    (text : List Char) : motive text := by
  fun_induction lexemes text with
  | case1 => exact nil
  | case2 c cs kind tail cut ih =>
    obtain ⟨kind', tail', rest, rfl, cut'⟩ := exists_cut c cs
    obtain ⟨rfl, rfl⟩ := Prod.mk.inj (cut.symm.trans cut')
    rw [List.drop_left] at ih
    exact cons c tail rest kind cut ih

theorem flatMap_lexemes (text : List Char) : (lexemes text).flatMap Lexeme.text = text := by
  induction text using lexemes_induction with
  | nil => simp [lexemes]
  | cons c tail rest kind cut ih =>
    rw [lexemes_append cut, List.flatMap_cons, ih]
    rfl

theorem text_ne_nil_of_mem_lexemes {text : List Char} {l : Lexeme} (h : l ∈ lexemes text) :
    l.text ≠ [] := by
  induction text using lexemes_induction with
  | nil => simp [lexemes] at h
  | cons c tail rest kind cut ih =>
    rw [lexemes_append cut, List.mem_cons] at h
    rcases h with rfl | h
    · exact List.cons_ne_nil c tail
    · exact ih h

theorem lexemes_of_append {text : List Char} {first later : List Lexeme}
    (split : lexemes text = first ++ later) : lexemes (later.flatMap Lexeme.text) = later := by
  induction text using lexemes_induction generalizing first with
  | nil =>
    rw [lexemes, List.nil_eq, List.append_eq_nil_iff] at split
    rw [split.2, List.flatMap_nil, lexemes]
  | cons c tail rest kind cut ih =>
    cases first with
    | nil =>
      rw [List.nil_append] at split
      rw [← split, flatMap_lexemes]
    | cons l first =>
      rw [lexemes_append cut, List.cons_append, List.cons.injEq] at split
      exact ih split.2

end Cutting

section Placing

variable (p : Position)

theorem map_lexeme_place (ls : List Lexeme) : (place p ls).map Token.lexeme = ls := by
  induction ls generalizing p with
  | nil => rfl
  | cons l ls ih => rw [place, List.map_cons, ih]; rfl

theorem map_lexeme_tokenize (source : List Char) :
    (tokenize source).map Token.lexeme = lexemes source := by
  rw [tokenize, map_lexeme_place]

theorem flatMap_text_place (ls : List Lexeme) :
    (place p ls).flatMap Token.text = ls.flatMap Lexeme.text := by
  conv => rhs; rw [← map_lexeme_place p ls, List.flatMap_map]
  rfl

theorem place_append (first second : List Lexeme) : place p (first ++ second) =
    place p first ++ place (p.after (first.flatMap Lexeme.text)) second := by
  induction first generalizing p with
  | nil => rfl
  | cons l first ih =>
    rw [List.cons_append, place, ih, place, List.flatMap_cons, Position.after_append]
    rfl

theorem exists_of_mem_place {ls : List Lexeme} {t : Token} (h : t ∈ place p ls) :
    ∃ before after, ls = before ++ t.lexeme :: after ∧
      t.span.start = p.after (before.flatMap Lexeme.text) ∧
      t.span.stop = p.after (before.flatMap Lexeme.text ++ t.text) := by
  induction ls generalizing p with
  | nil => cases h
  | cons l ls ih =>
    rw [place, List.mem_cons] at h
    rcases h with rfl | h
    · exact ⟨[], ls, rfl, rfl, rfl⟩
    · obtain ⟨before, after, hls, hstart, hstop⟩ := ih (p.after l.text) h
      refine ⟨l :: before, after, by rw [hls]; rfl, ?_, ?_⟩
      · rw [hstart, List.flatMap_cons, Position.after_append]
      · rw [hstop, List.flatMap_cons, List.append_assoc, Position.after_append p l.text]

theorem start_of_mem_head?_place {ls : List Lexeme} {t : Token} (h : t ∈ (place p ls).head?) :
    t.span.start = p := by
  cases ls with
  | nil => cases h
  | cons l ls =>
    obtain rfl := Option.some.inj h
    rfl

theorem stop_of_mem_getLast?_place {ls : List Lexeme} {t : Token}
    (h : t ∈ (place p ls).getLast?) : t.span.stop = p.after (ls.flatMap Lexeme.text) := by
  rcases List.eq_nil_or_concat ls with rfl | ⟨before, l, rfl⟩
  · cases h
  · rw [List.concat_eq_append, place_append] at h
    simp only [place, List.getLast?_append, List.getLast?_singleton, Option.some_or,
      Option.mem_def, Option.some.injEq] at h
    subst h
    rw [List.concat_eq_append, List.flatMap_append, Position.after_append]
    simp

theorem isChain_place (ls : List Lexeme) :
    (place p ls).IsChain fun t u => t.span.stop = u.span.start := by
  induction ls generalizing p with
  | nil => exact .nil
  | cons l ls ih =>
    rw [place, List.isChain_cons]
    refine ⟨fun u hu => ?_, ih _⟩
    exact (start_of_mem_head?_place _ hu).symm

end Placing

end SyntaxPaint
