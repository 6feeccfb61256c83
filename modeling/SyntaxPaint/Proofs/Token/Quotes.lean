import Mathlib.Algebra.Ring.Parity
import Mathlib.Data.List.DropRight
import SyntaxPaint.Proofs.Token.Spacing
/-!
# Quotes behind backslashes

The scanner passes a quoted text in pairs, a backslash with whatever stands behind it. Seen from a
quote this is a matter of parity: the pairs use up the backslashes in front of it two by two, and
the quote closes the text unless one is left over.
-/
namespace SyntaxPaint

/-- How many backslashes stand together at the end of a text. -/
def backslashRun (text : List Char) : Nat := (text.rtakeWhile (· == '\\')).length

section Runs

variable {front body before after : List Char} {c : Char}

theorem backslashRun_concat (front : List Char) :
    backslashRun (front ++ ['\\']) = backslashRun front + 1 := by
  simp [backslashRun]

theorem backslashRun_concat_of_ne (other : c ≠ '\\') : backslashRun (front ++ [c]) = 0 := by
  simp [backslashRun, other]

theorem even_backslashRun_pair (even : Even (backslashRun front)) (c : Char) :
    Even (backslashRun (front ++ ['\\', c])) := by
  have hpair : front ++ ['\\', c] = front ++ ['\\'] ++ [c] := by simp
  rw [hpair]
  by_cases hc : c = '\\'
  · rw [hc, backslashRun_concat, backslashRun_concat, Nat.add_assoc]
    exact even.add even_two
  · rw [backslashRun_concat_of_ne hc]
    exact Even.zero

theorem QuotedBody.even_run (inside : QuotedBody body) (even : Even (backslashRun front)) :
    Even (backslashRun (front ++ body)) := by
  induction inside generalizing front with
  | nil => rwa [List.append_nil]
  | @plain c body quote backslash _ ih =>
    have hfront : Even (backslashRun (front ++ [c])) := by
      rw [backslashRun_concat_of_ne backslash]
      exact Even.zero
    have hrun := ih hfront
    rwa [List.append_assoc, List.singleton_append] at hrun
  | @escaped c body _ ih =>
    have hrun := ih (even_backslashRun_pair even c)
    rwa [List.append_assoc, List.cons_append, List.singleton_append] at hrun

theorem QuotedBody.odd_run (inside : QuotedBody body) (even : Even (backslashRun front))
    (split : body = before ++ '"' :: after) : Odd (backslashRun (front ++ before)) := by
  induction inside generalizing front before with
  | nil => simp at split
  | @plain c body quote backslash _ ih =>
    cases before with
    | nil => exact absurd (List.cons.inj split).1 quote
    | cons d before =>
      obtain ⟨rfl, hbody⟩ := List.cons.inj split
      have hfront : Even (backslashRun (front ++ [c])) := by
        rw [backslashRun_concat_of_ne backslash]
        exact Even.zero
      have hrun := ih hfront hbody
      rwa [List.append_assoc, List.singleton_append] at hrun
  | @escaped c body _ ih =>
    match before with
    | [] => simp at split
    | [d] =>
      obtain ⟨rfl, -⟩ := List.cons.inj split
      rw [backslashRun_concat]
      exact even.add_one
    | d :: e :: before =>
      obtain ⟨rfl, hrest⟩ := List.cons.inj split
      obtain ⟨rfl, hbody⟩ := List.cons.inj hrest
      have hrun := ih (even_backslashRun_pair even c) hbody
      rwa [List.append_assoc, List.cons_append, List.singleton_append] at hrun

end Runs

/-! ## Quoted texts -/

section Quoted

variable {text body tail : List Char} {i : Nat}

private theorem even_opening : Even (backslashRun ['"']) := by decide

private theorem odd_run_take (inside : QuotedBody body) (first : 1 ≤ i) (within : i ≤ body.length)
    (quote : ('"' :: (body ++ tail))[i]? = some '"') :
    Odd (backslashRun (('"' :: (body ++ tail)).take i)) := by
  obtain ⟨j, rfl⟩ := Nat.exists_eq_add_of_le' first
  rw [List.getElem?_cons_succ, List.getElem?_append_left within] at quote
  rw [List.take_succ_cons, List.take_append_of_le_length (Nat.le_of_succ_le within)]
  obtain ⟨hj, hquote⟩ := List.getElem?_eq_some_iff.mp quote
  have hsplit : body = body.take j ++ '"' :: body.drop (j + 1) := by
    rw [← hquote, ← List.drop_eq_getElem_cons, List.take_append_drop]
  exact inside.odd_run even_opening hsplit

/-- A quoted text is closed by a quote behind its body; it is open if nothing stands there, or a
backslash that has nothing to take. -/
theorem exists_quoted_of_spelling (spelling : Spelling .string text) :
    ∃ body tail, QuotedBody body ∧ text = '"' :: (body ++ tail) ∧
      ((⟨.string, text⟩ : Lexeme).isOpen = false ∧ tail = ['"'] ∨
        (⟨.string, text⟩ : Lexeme).isOpen = true ∧ (tail = [] ∨ tail = ['\\'])) := by
  cases spelling with
  | @closedString body inside =>
    refine ⟨body, ['"'], inside, rfl, .inl ⟨?_, rfl⟩⟩
    rw [Lexeme.isOpen, closesQuoted_closed inside]
    rfl
  | @openString body inside =>
    refine ⟨body, [], inside, by rw [List.append_nil], .inr ⟨?_, .inl rfl⟩⟩
    rw [Lexeme.isOpen, closesQuoted_open inside]
    rfl
  | @brokenString body inside =>
    refine ⟨body, ['\\'], inside, rfl, .inr ⟨?_, .inr rfl⟩⟩
    rw [Lexeme.isOpen, closesQuoted_broken inside]
    rfl

/-- Quotes that do not close a quoted text stand behind odd runs. -/
theorem odd_backslashRun_of_quote (spelling : Spelling .string text) (first : 1 ≤ i)
    (quote : text[i]? = some '"')
    (other : ¬ ((⟨.string, text⟩ : Lexeme).isOpen = false ∧ i + 1 = text.length)) :
    Odd (backslashRun (text.take i)) := by
  obtain ⟨body, tail, inside, rfl, hends⟩ := exists_quoted_of_spelling spelling
  obtain ⟨hlength, -⟩ := List.getElem?_eq_some_iff.mp quote
  have hwithin : i ≤ body.length := by
    simp only [List.length_cons, List.length_append] at hlength other
    obtain ⟨hclosed, rfl⟩ | ⟨-, rfl | rfl⟩ := hends
    · have hlast : i + 1 ≠ body.length + 1 + 1 := fun h => other ⟨hclosed, h⟩
      simp only [List.length_singleton] at hlength
      omega
    · simp only [List.length_nil] at hlength
      omega
    · -- The last character is the backslash.
      have hne : i ≠ body.length + 1 := by
        rintro rfl
        simp at quote
      simp only [List.length_singleton] at hlength
      omega
  exact odd_run_take inside first hwithin quote

theorem closed_iff_even_backslashRun (spelling : Spelling .string text) :
    (⟨.string, text⟩ : Lexeme).isOpen = false ↔
      2 ≤ text.length ∧ text.getLast? = some '"' ∧ Even (backslashRun text.dropLast) := by
  constructor
  · intro closed
    obtain ⟨body, tail, inside, htext, ⟨-, rfl⟩ | ⟨hopen, -⟩⟩ := exists_quoted_of_spelling spelling
    · have hwhole : text = ('"' :: body) ++ ['"'] := htext
      rw [hwhole]
      refine ⟨by simp, List.getLast?_concat, ?_⟩
      rw [List.dropLast_concat]
      exact inside.even_run even_opening
    · rw [closed] at hopen
      cases hopen
  · rintro ⟨hlength, hlast, heven⟩
    by_contra hopen
    rw [List.dropLast_eq_take] at heven
    rw [List.getLast?_eq_getElem?] at hlast
    have hodd := odd_backslashRun_of_quote spelling (by omega) hlast fun h => hopen h.1
    exact Nat.not_even_iff_odd.mpr hodd heven

end Quoted

/-! ## Quoted texts in a source -/

theorem stop_of_isOpen {source : List Char} {t : Token} (token : t ∈ tokenize source)
    (string : t.kind = .string) (unclosed : t.lexeme.isOpen ≠ false) :
    t.span.stop = Position.origin.after source := by
  obtain ⟨before, after, hsplit, -, hstop⟩ := exists_of_mem_place .origin token
  have hpairs := pairwise_lexemes source
  rw [hsplit, List.pairwise_append, List.pairwise_cons] at hpairs
  obtain ⟨-, ⟨hbehind, -⟩, -⟩ := hpairs
  obtain rfl : after = [] := by
    rw [List.eq_nil_iff_forall_not_mem]
    intro next hnext
    obtain ⟨d, hstops⟩ := hbehind next hnext
    exact unclosed (Lexeme.isOpen_of_absorbs hstops string)
  have htext := flatMap_lexemes source
  rw [hsplit, List.flatMap_append, List.flatMap_singleton] at htext
  rw [hstop, ← htext]
  rfl

/-- In a quoted text each quote behind the first character, but for the one that closes the text,
stands behind an odd number of backslashes. The text is closed exactly if it has a second character
and ends with a quote behind an even number of them; if it is not, it reaches to the end of the
source. -/
theorem quoted_closes_behind_even_run (source : List Char) (t : Token)
    (token : t ∈ tokenize source) (string : t.kind = .string) :
    let w := t.text
    let closed := t.lexeme.isOpen = false
    (∀ i, 1 ≤ i → w[i]? = some '"' → ¬ (closed ∧ i + 1 = w.length) →
      Odd (backslashRun (w.take i))) ∧
    (closed ↔ 2 ≤ w.length ∧ w.getLast? = some '"' ∧ Even (backslashRun w.dropLast)) ∧
    (¬ closed → t.span.stop = Position.origin.after source) := by
  intro w closed
  have hlexeme : t.lexeme = ⟨.string, w⟩ := by rw [Token.lexeme, string]
  have hmem : t.lexeme ∈ lexemes source := by
    rw [← map_lexeme_tokenize]
    exact List.mem_map_of_mem token
  have hspelling := spelling_of_mem_lexemes hmem
  rw [hlexeme] at hspelling
  have hclosed : closed ↔ (⟨.string, w⟩ : Lexeme).isOpen = false := by rw [← hlexeme]
  refine ⟨fun i first quote other => ?_, ?_, stop_of_isOpen token string⟩
  · rw [hclosed] at other
    exact odd_backslashRun_of_quote hspelling first quote other
  · rw [hclosed]
    exact closed_iff_even_backslashRun hspelling

/-- The first text keeps a quote behind three backslashes and closes behind two; the second one ends
with a quote that its backslash takes. -/
theorem quoted_closes_behind_even_run_twice :
    let source := "\"\\\\\\\"\\\\\" \"\\\"".toList
    let first : Token := ⟨.string, "\"\\\\\\\"\\\\\"".toList, ⟨⟨1, 1, 0, 0⟩, ⟨1, 9, 8, 8⟩⟩⟩
    let second : Token := ⟨.string, "\"\\\"".toList, ⟨⟨1, 10, 9, 9⟩, ⟨1, 13, 12, 12⟩⟩⟩
    (first ∈ tokenize source ∧ first.kind = .string ∧ Odd (backslashRun (first.text.take 4)) ∧
      first.lexeme.isOpen = false) ∧
    second ∈ tokenize source ∧ second.kind = .string ∧ Odd (backslashRun (second.text.take 2)) ∧
      ¬ second.lexeme.isOpen = false ∧ second.span.stop = Position.origin.after source := by
  intro source first second
  have hfirst : first ∈ tokenize source := by decide +kernel
  have hsecond : second ∈ tokenize source := by decide +kernel
  obtain ⟨hodd, hclosed, -⟩ := quoted_closes_behind_even_run source first hfirst rfl
  obtain ⟨hodd', hclosed', hstop⟩ := quoted_closes_behind_even_run source second hsecond rfl
  have hopen : ¬ second.lexeme.isOpen = false := by
    rw [hclosed']
    decide
  refine ⟨⟨hfirst, rfl, ?_, ?_⟩, hsecond, rfl, ?_, hopen, hstop hopen⟩
  · exact hodd 4 (by decide) rfl (by decide)
  · rw [hclosed]
    decide
  · exact hodd' 2 (by decide) rfl fun h => hopen h.1

end SyntaxPaint
