import Mathlib.Tactic.SplitIfs
import SyntaxPaint.Grammar.Terminal
import SyntaxPaint.Proofs.Grammar.Ebnf
/-!
# Terminals and lexemes

One lexeme of the grammar is one terminal of the checker: the terminal tells whether a token's
lexeme fits what a form asks for.
-/
namespace SyntaxPaint

theorem Terminal.ofKeyword_eq_iff (text : String) :
    (ofKeyword text = .ifWord ↔ text = "if") ∧ (ofKeyword text = .elseWord ↔ text = "else") ∧
    (ofKeyword text = .whileWord ↔ text = "while") ∧
    (ofKeyword text = .returnWord ↔ text = "return") ∧
    (ofKeyword text = .typeWord ↔ text ∈ ["int", "string", "void"]) := by
  simp only [ofKeyword, typeWords]
  grind

theorem Terminal.ofOperator_eq_iff (text : String) :
    (∀ m, ofOperator text = .mark m ↔ text = String.ofList [m.char]) ∧
    (ofOperator text = .additive ↔ text ∈ ["+", "-", "==", "!=", ">", "<", ">=", "<="]) ∧
    (ofOperator text = .multiplicative ↔ text ∈ ["*", "/"]) := by
  simp only [ofOperator, additiveOperators, multiplicativeOperators, List.mem_cons,
    List.not_mem_nil, or_false]
  refine ⟨fun m => ?_, ?_, ?_⟩
  · cases m <;> simp only [Mark.char] <;> grind
  · split_ifs <;> grind
  · split_ifs <;> grind

/-- Keywords of any text. -/
def Terminal.isWord : Terminal → Bool
  | ifWord | elseWord | whileWord | returnWord | typeWord | otherWord => true
  | _ => false

theorem Terminal.isWord_ofKeyword (text : String) : (ofKeyword text).isWord = true := by
  rw [ofKeyword]
  split_ifs <;> rfl

theorem Terminal.isOperator_ofOperator (text : String) : (ofOperator text).isOperator = true := by
  rw [ofOperator]
  split_ifs <;> rfl

theorem Terminal.isOperator_of_isWord {x : Terminal} (h : x.isWord = true) :
    x.isOperator = false := by
  cases x <;> first | rfl | cases h

namespace Token

variable (t : Token)

theorem isOperator_terminal : t.terminal.isOperator = true ↔ t.kind = .operator := by
  cases h : t.kind with
  | keyword =>
    simp [terminal, h, Terminal.isOperator_of_isWord (Terminal.isWord_ofKeyword _)]
  | operator => simp [terminal, h, Terminal.isOperator_ofOperator]
  | _ => simp [terminal, h, Terminal.isOperator]

theorem isWord_terminal : t.terminal.isWord = true ↔ t.kind = .keyword := by
  cases h : t.kind with
  | keyword => simp [terminal, h, Terminal.isWord_ofKeyword]
  | operator =>
    have hop := Terminal.isOperator_ofOperator (String.ofList t.text)
    simp only [terminal, h, reduceCtorEq, iff_false]
    intro hword
    rw [Terminal.isOperator_of_isWord hword] at hop
    cases hop
  | _ => simp [terminal, h, Terminal.isWord]

variable {t} in
theorem terminal_eq_word_iff {x : Terminal} (hx : x.isWord = true) :
    t.terminal = x ↔ t.kind = .keyword ∧ Terminal.ofKeyword (String.ofList t.text) = x := by
  constructor
  · intro h
    subst h
    have hkind := t.isWord_terminal.mp hx
    exact ⟨hkind, by rw [terminal, hkind]⟩
  · intro h
    rcases h with ⟨hkind, rfl⟩
    rw [terminal, hkind]

variable {t} in
theorem terminal_eq_operator_iff {x : Terminal} (hx : x.isOperator = true) :
    t.terminal = x ↔ t.kind = .operator ∧ Terminal.ofOperator (String.ofList t.text) = x := by
  constructor
  · intro h
    subst h
    have hkind := t.isOperator_terminal.mp hx
    exact ⟨hkind, by rw [terminal, hkind]⟩
  · intro h
    rcases h with ⟨hkind, rfl⟩
    rw [terminal, hkind]

variable {t} in
theorem terminal_eq_elseWord_iff :
    t.terminal = .elseWord ↔ t.kind = .keyword ∧ String.ofList t.text = "else" := by
  rw [terminal_eq_word_iff rfl, (Terminal.ofKeyword_eq_iff _).2.1]

variable {t} in
theorem terminal_eq_mark_iff {m : Mark} :
    t.terminal = .mark m ↔ t.kind = .operator ∧ String.ofList t.text = String.ofList [m.char] := by
  rw [terminal_eq_operator_iff rfl, (Terminal.ofOperator_eq_iff _).1]

theorem fits_some_iff {kind : Kind} {texts : List String} :
    t.lexeme.Fits kind (some texts) ↔ t.kind = kind ∧ String.ofList t.text ∈ texts := by
  simp [Lexeme.Fits, lexeme]

theorem fits_keyword :
    (t.lexeme.Fits .keyword (some ["if"]) ↔ t.terminal = .ifWord) ∧
    (t.lexeme.Fits .keyword (some ["else"]) ↔ t.terminal = .elseWord) ∧
    (t.lexeme.Fits .keyword (some ["while"]) ↔ t.terminal = .whileWord) ∧
    (t.lexeme.Fits .keyword (some ["return"]) ↔ t.terminal = .returnWord) ∧
    (t.lexeme.Fits .keyword (some ["int", "string", "void"]) ↔ t.terminal = .typeWord) := by
  rcases Terminal.ofKeyword_eq_iff (String.ofList t.text) with ⟨hif, helse, hwhile, hreturn, htype⟩
  simp only [fits_some_iff, List.mem_singleton]
  rw [terminal_eq_word_iff rfl, terminal_eq_word_iff rfl, terminal_eq_word_iff rfl,
    terminal_eq_word_iff rfl, terminal_eq_word_iff rfl, hif, helse, hwhile, hreturn, htype]
  simp only [and_self]

theorem fits_mark (m : Mark) :
    t.lexeme.Fits .operator (some [String.ofList [m.char]]) ↔ t.terminal = .mark m := by
  rw [fits_some_iff, List.mem_singleton, terminal_eq_mark_iff]

theorem fits_punctuation :
    (t.lexeme.Fits .operator (some ["("]) ↔ t.terminal = .mark .openParen) ∧
    (t.lexeme.Fits .operator (some [")"]) ↔ t.terminal = .mark .closeParen) ∧
    (t.lexeme.Fits .operator (some ["\x7b"]) ↔ t.terminal = .mark .openBrace) ∧
    (t.lexeme.Fits .operator (some ["\x7d"]) ↔ t.terminal = .mark .closeBrace) ∧
    (t.lexeme.Fits .operator (some [";"]) ↔ t.terminal = .mark .semicolon) ∧
    (t.lexeme.Fits .operator (some ["="]) ↔ t.terminal = .mark .assign) :=
  ⟨t.fits_mark .openParen, t.fits_mark .closeParen, t.fits_mark .openBrace,
    t.fits_mark .closeBrace, t.fits_mark .semicolon, t.fits_mark .assign⟩

theorem fits_binary :
    (t.lexeme.Fits .operator (some ["+", "-", "==", "!=", ">", "<", ">=", "<="]) ↔
      t.terminal = .additive) ∧
    (t.lexeme.Fits .operator (some ["*", "/"]) ↔ t.terminal = .multiplicative) := by
  rcases Terminal.ofOperator_eq_iff (String.ofList t.text) with ⟨-, hadd, hmul⟩
  simp only [fits_some_iff]
  rw [terminal_eq_operator_iff rfl, terminal_eq_operator_iff rfl, hadd, hmul]
  simp only [and_self]

theorem fits_operand :
    (t.lexeme.Fits .identifier none ↔ t.terminal = .name) ∧
    (t.lexeme.Fits .number none ↔ t.terminal = .number) ∧
    (t.lexeme.Fits .string none ↔ t.terminal = .quoted) := by
  cases h : t.kind with
  | keyword =>
    have hword := Terminal.isWord_ofKeyword (String.ofList t.text)
    simp only [Lexeme.Fits, lexeme, terminal, h]
    grind [Terminal.isWord]
  | operator =>
    have hop := Terminal.isOperator_ofOperator (String.ofList t.text)
    simp only [Lexeme.Fits, lexeme, terminal, h]
    grind [Terminal.isOperator]
  | _ => simp [Lexeme.Fits, lexeme, terminal, h]

end Token
end SyntaxPaint
