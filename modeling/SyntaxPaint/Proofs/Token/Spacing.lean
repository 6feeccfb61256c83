import Mathlib.Data.List.Pairwise
import SyntaxPaint.Proofs.Token.Lookahead
/-!
# Lexemes set apart by blanks

The lexemes of a text that are no trivia can be written again with one blank between each two of
them. None of them takes the blank in, so reading gives the same lexemes back: a lexeme that would
take in anything, an open quoted text, stands at the end of the text.
-/
namespace SyntaxPaint

/-! ## What the lexemes of a text are like -/

section

variable {text : List Char} {l : Lexeme}

theorem spelling_of_mem_lexemes (h : l ∈ lexemes text) : Spelling l.kind l.text := by
  induction text using lexemes_induction with
  | nil => simp [lexemes] at h
  | cons c tail rest kind cut ih =>
    rw [lexemes_append cut, List.mem_cons] at h
    obtain rfl | h := h
    · have hcut : (⟨kind, c :: tail⟩ : Lexeme).CutsOff rest := ⟨c, tail, rfl, cut⟩
      exact (Lexeme.cutsOff_iff.mp hcut).1
    · exact ih h

theorem pairwise_lexemes (text : List Char) :
    (lexemes text).Pairwise fun l _ => ∃ d, l.absorbs d = false := by
  induction text using lexemes_induction with
  | nil => simp [lexemes]
  | cons c tail rest kind cut ih =>
    rw [lexemes_append cut, List.pairwise_cons]
    refine ⟨fun next hnext => ?_, ih⟩
    cases rest with
    | nil => simp [lexemes] at hnext
    | cons d rest =>
      have hcut : (⟨kind, c :: tail⟩ : Lexeme).CutsOff (d :: rest) := ⟨c, tail, rfl, cut⟩
      exact ⟨d, (Lexeme.cutsOff_iff.mp hcut).2 d rfl⟩

end

/-! ## Blanks -/

/-- Lexemes that the grammar sees. -/
def Lexeme.isSolid (l : Lexeme) : Bool := !l.kind.isTrivia

section Blanks

variable {l : Lexeme} {b : Char}

private theorem isIdentifierPart_blank (blank : isBlank b = true) : isIdentifierPart b = false := by
  have hunder : b ≠ '_' := by
    rintro rfl
    exact absurd blank (by decide)
  simp [isIdentifierPart, not_isLetter_of_isBlank blank, not_isDigit_of_isBlank blank, hunder]

private theorem isCompound_blank (c : Char) (blank : isBlank b = true) :
    isCompound c b = false := by
  have hall : compoundOperators.all (fun sign => sign.toList[1]?.all (!isBlank ·)) = true := by
    decide +kernel
  apply Bool.eq_false_iff.mpr
  intro hcompound
  have hsign := List.all_eq_true.mp hall _ (List.contains_iff_mem.mp hcompound)
  simp [blank] at hsign

private theorem absorbs_string (h : l.kind = .string) (d : Char) : l.absorbs d = l.isOpen := by
  rw [Lexeme.absorbs, h]

/-- What is no trivia does not take in a blank, unless it is an open quoted text. -/
theorem Lexeme.absorbs_blank (solid : l.isSolid = true)
    (closed : l.kind = .string → l.isOpen = false) (blank : isBlank b = true) :
    l.absorbs b = false := by
  obtain ⟨kind, text⟩ := l
  cases kind with
  | keyword => exact isIdentifierPart_blank blank
  | identifier => exact isIdentifierPart_blank blank
  | number =>
    have hpoint : b ≠ '.' := by
      rintro rfl
      exact absurd blank (by decide)
    simp [absorbs, not_isDigit_of_isBlank blank, hpoint]
  | string => exact closed rfl
  | operator =>
    have hslash : b ≠ '/' := by
      rintro rfl
      exact absurd blank (by decide)
    have hstar : b ≠ '*' := by
      rintro rfl
      exact absurd blank (by decide)
    cases text with
    | nil => rfl
    | cons c tail =>
      cases tail with
      | nil => simp [absorbs, isCompound_blank c blank, hslash, hstar]
      | cons _ _ => rfl
  | unknown => rfl
  | whitespace => cases solid
  | comment => cases solid

theorem Lexeme.isOpen_of_absorbs {d : Char} (stops : l.absorbs d = false) (h : l.kind = .string) :
    l.isOpen = false := by
  rwa [absorbs_string h] at stops

theorem Lexeme.exists_head (solid : l.isSolid = true) (spelling : Spelling l.kind l.text) :
    ∃ c tail, l.text = c :: tail ∧ isBlank c = false := by
  have hstop : ∀ d ∈ ([] : List Char).head?, l.absorbs d = false := by simp
  obtain ⟨c, tail, htext, hcut⟩ := cutsOff_of_spelling spelling hstop
  refine ⟨c, tail, htext, Bool.eq_false_iff.mpr fun hblank => ?_⟩
  rw [lexemeTail_blank hblank] at hcut
  have hkind : Kind.whitespace = l.kind := congrArg Prod.fst hcut
  rw [isSolid, ← hkind] at solid
  cases solid

theorem lexemes_blank {c : Char} (h : isBlank c = false) (rest : List Char) :
    lexemes (' ' :: c :: rest) = ⟨.whitespace, [' ']⟩ :: lexemes (c :: rest) := by
  have hblank : ∀ d ∈ [' '], isBlank d = true := List.forall_mem_singleton.mpr (by decide)
  have hspelling : Spelling .whitespace [' '] := .whitespace (List.cons_ne_nil _ _) hblank
  apply lexemes_of_cutsOff (l := ⟨.whitespace, [' ']⟩)
  apply Lexeme.cutsOff_of_spelling hspelling
  intro d hd
  obtain rfl : c = d := Option.some.inj hd
  exact h

end Blanks

/-! ## Writing lexemes again -/

/-- The texts with one blank between each two of them. -/
def spaced (texts : List (List Char)) : List Char := [' '].intercalate texts

/-- The text without layout and comments. -/
def normalized (source : List Char) : List Char :=
  spaced ((significant (tokenize source)).map Token.text)

/-- The lexemes are no trivia and spelled right, and none but the last takes in a blank. -/
structure Separable (ls : List Lexeme) : Prop where
  solid : ∀ l ∈ ls, l.isSolid = true
  spelling : ∀ l ∈ ls, Spelling l.kind l.text
  apart : ls.Pairwise fun l _ => l.absorbs ' ' = false

section Spaced

variable {l next : Lexeme} {ls : List Lexeme}

private theorem Separable.tail (h : Separable (l :: ls)) : Separable ls where
  solid := (List.forall_mem_cons.mp h.solid).2
  spelling := (List.forall_mem_cons.mp h.spelling).2
  apart := (List.pairwise_cons.mp h.apart).2

theorem separable_filter_lexemes (text : List Char) :
    Separable ((lexemes text).filter Lexeme.isSolid) where
  solid := fun l hl => (List.mem_filter.mp hl).2
  spelling := fun l hl => spelling_of_mem_lexemes (List.mem_filter.mp hl).1
  apart := by
    have hpairs := (pairwise_lexemes text).filter Lexeme.isSolid
    refine hpairs.imp_of_mem fun {l next} hl _ habsorbs => ?_
    obtain ⟨d, hd⟩ := habsorbs
    exact Lexeme.absorbs_blank (List.mem_filter.mp hl).2 (Lexeme.isOpen_of_absorbs hd) (by decide)

private theorem exists_spaced_cons (text : List Char) (texts : List (List Char)) :
    ∃ more, spaced (text :: texts) = text ++ more := by
  cases texts with
  | nil => exact ⟨[], by simp [spaced]⟩
  | cons next texts =>
    refine ⟨' ' :: spaced (next :: texts), ?_⟩
    rw [spaced, List.intercalate_cons_cons, List.append_assoc]
    rfl

private theorem lexemes_spaced_cons (h : Separable (l :: next :: ls)) :
    lexemes (spaced ((l :: next :: ls).map Lexeme.text)) =
      l :: ⟨.whitespace, [' ']⟩ :: lexemes (spaced ((next :: ls).map Lexeme.text)) := by
  obtain ⟨c, tail, htext, hblank⟩ :=
    Lexeme.exists_head (h.tail.solid next List.mem_cons_self)
      (h.tail.spelling next List.mem_cons_self)
  obtain ⟨more, hmore⟩ := exists_spaced_cons next.text (ls.map Lexeme.text)
  have hrest : spaced ((next :: ls).map Lexeme.text) = c :: (tail ++ more) := by
    rw [List.map_cons, hmore, htext, List.cons_append]
  have hwhole : spaced ((l :: next :: ls).map Lexeme.text) =
      l.text ++ ' ' :: c :: (tail ++ more) := by
    rw [← hrest]
    simp only [spaced, List.map_cons, List.intercalate_cons_cons, List.append_assoc,
      List.singleton_append]
  have hcut : l.CutsOff (' ' :: c :: (tail ++ more)) := by
    apply Lexeme.cutsOff_of_spelling (h.spelling l List.mem_cons_self)
    intro d hd
    obtain rfl : ' ' = d := Option.some.inj hd
    exact List.rel_of_pairwise_cons h.apart List.mem_cons_self
  rw [hwhole, lexemes_of_cutsOff hcut, lexemes_blank hblank, hrest]

/-- Separable lexemes are read again from where they are written apart. -/
theorem filter_lexemes_spaced (h : Separable ls) :
    (lexemes (spaced (ls.map Lexeme.text))).filter Lexeme.isSolid = ls := by
  induction ls with
  | nil => simp [spaced, lexemes]
  | cons l ls ih =>
    have hl : l.isSolid = true := h.solid l List.mem_cons_self
    cases ls with
    | nil =>
      have hcut : l.CutsOff [] :=
        Lexeme.cutsOff_of_spelling (h.spelling l List.mem_cons_self) (by simp)
      have hfirst := lexemes_of_cutsOff hcut
      rw [List.append_nil, lexemes] at hfirst
      rw [List.map_singleton, spaced, List.intercalate_singleton, hfirst]
      exact List.filter_cons_of_pos hl
    | cons next ls =>
      rw [lexemes_spaced_cons h, List.filter_cons_of_pos hl, List.filter_cons_of_neg (by decide),
        ih h.tail]

end Spaced

theorem map_lexeme_significant_tokenize (source : List Char) :
    (significant (tokenize source)).map Token.lexeme =
      (lexemes source).filter Lexeme.isSolid := by
  rw [← map_lexeme_tokenize, List.filter_map]
  rfl

theorem map_lexeme_significant_normalized (source : List Char) :
    (significant (tokenize (normalized source))).map Token.lexeme =
      (significant (tokenize source)).map Token.lexeme := by
  have htexts : (significant (tokenize source)).map Token.text =
      ((significant (tokenize source)).map Token.lexeme).map Lexeme.text := by
    rw [List.map_map]
    rfl
  rw [map_lexeme_significant_tokenize, normalized, htexts, map_lexeme_significant_tokenize]
  exact filter_lexemes_spaced (separable_filter_lexemes source)

example : normalized "a/**/+ //x\n1.".toList = "a + 1.".toList := by decide +kernel

end SyntaxPaint
