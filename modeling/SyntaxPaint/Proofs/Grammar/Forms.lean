import SyntaxPaint.Proofs.Grammar.Ebnf
import SyntaxPaint.Proofs.Grammar.Stepwise
import SyntaxPaint.Proofs.Grammar.Terminal
/-!
# Goals as forms of the grammar

Every goal stands for a form of the grammar and a stack of goals for their sequence. In front of a
lexeme a goal reads exactly what can follow the lexeme in its form (`Goal.derives_cons_iff`), and
at the end of input it misses something exactly if its form has no empty word
(`Goal.derives_nil_iff`).
-/
namespace SyntaxPaint

/-- The words that a goal reads. -/
def Goal.ebnf : Goal → Ebnf
  | program => .many (.rule .statement)
  | statement => .rule .statement
  | body => .rule .blockOrStatement
  | blockRest => .seq (.many (.rule .statement)) (.operator ["\x7d"])
  | elseBranch => .opt (.seq (.keyword ["else"]) (.rule .blockOrStatement))
  | initializer => .opt (.seq (.operator ["="]) (.rule .expression))
  | returnValue => .opt (.noOperatorFirst (.rule .expression))
  | expression => .rule .expression
  | term => .rule .term
  | factor => .rule .factor
  | moreTerms => .many (.seq .additive (.rule .term))
  | moreFactors => .many (.seq .multiplicative (.rule .factor))
  | name => .any .identifier
  | mark m => .operator [String.ofList [m.char]]
  | leave | endOfInput => .empty

/-- The words that goals read one after another. -/
def stackEbnf : List Goal → Ebnf
  | [] => .empty
  | [goal] => goal.ebnf
  | goal :: goals => .seq goal.ebnf (stackEbnf goals)

@[simp] theorem derives_stack_nil_iff {w : List Lexeme} : Derives (stackEbnf []) w ↔ w = [] :=
  derives_empty_iff

theorem derives_stack_cons_iff {goal : Goal} {goals : List Goal} {w : List Lexeme} :
    Derives (stackEbnf (goal :: goals)) w ↔
      ∃ u v, w = u ++ v ∧ Derives goal.ebnf u ∧ Derives (stackEbnf goals) v := by
  cases goals with
  | nil =>
    constructor
    · exact fun h => ⟨w, [], by simp, h, .empty⟩
    · intro h
      rcases h with ⟨u, v, rfl, hgoal, hrest⟩
      rwa [derives_stack_nil_iff.mp hrest, List.append_nil]
  | cons next goals => exact derives_seq_iff

theorem derives_stack_append_iff {first second : List Goal} {w : List Lexeme} :
    Derives (stackEbnf (first ++ second)) w ↔
      ∃ u v, w = u ++ v ∧ Derives (stackEbnf first) u ∧ Derives (stackEbnf second) v := by
  induction first generalizing w with
  | nil =>
    constructor
    · exact fun h => ⟨[], w, rfl, .empty, h⟩
    · intro h
      rcases h with ⟨u, v, rfl, hfirst, hsecond⟩
      rwa [derives_stack_nil_iff.mp hfirst]
  | cons goal first ih =>
    rw [List.cons_append, derives_stack_cons_iff]
    constructor
    · intro h
      rcases h with ⟨u, v, rfl, hgoal, hrest⟩
      rcases ih.mp hrest with ⟨v, v', rfl, hfirst, hsecond⟩
      exact ⟨u ++ v, v', by simp, derives_stack_cons_iff.mpr ⟨u, v, rfl, hgoal, hfirst⟩, hsecond⟩
    · intro h
      rcases h with ⟨u, v, rfl, hfirst, hsecond⟩
      rcases derives_stack_cons_iff.mp hfirst with ⟨u, u', rfl, hgoal, hfirst⟩
      exact ⟨u, u' ++ v, by simp, hgoal, ih.mpr ⟨u', v, rfl, hfirst, hsecond⟩⟩

/-! ## What a goal reads -/

/-- The move reads, and the word can follow what it reads. -/
def Move.Leads (move : Move) (w : List Lexeme) : Prop :=
  ∃ form next, move = .read form next ∧ Derives (stackEbnf next) w

section Leads

variable {w : List Lexeme}

@[simp] theorem leads_read_iff {form : Option Form} {next : List Goal} :
    (Move.read form next).Leads w ↔ Derives (stackEbnf next) w := by
  constructor
  · intro h
    rcases h with ⟨_, _, heq, h⟩
    rcases Move.read.inj heq with ⟨-, rfl⟩
    exact h
  · exact fun h => ⟨form, next, rfl, h⟩

@[simp] theorem not_leads_pass : ¬ Move.pass.Leads w := by
  intro h
  rcases h with ⟨_, _, heq, -⟩
  cases heq

@[simp] theorem not_leads_refuse {e : Expected} : ¬ (Move.refuse e).Leads w := by
  intro h
  rcases h with ⟨_, _, heq, -⟩
  cases heq

theorem leads_followedBy_iff {move : Move} {more : List Goal} :
    (move.followedBy more).Leads w ↔
      ∃ u v, w = u ++ v ∧ move.Leads u ∧ Derives (stackEbnf more) v := by
  cases move with
  | read form next => simp only [Move.followedBy, leads_read_iff, derives_stack_append_iff]
  | pass => simp [Move.followedBy]
  | refuse e => simp [Move.followedBy]

end Leads

namespace Goal

variable (t : Token) {w : List Lexeme}

theorem factor_cons_iff :
    Derives (.rule .factor) (t.lexeme :: w) ↔ (factorMove t.terminal).Leads w := by
  rw [derives_rule_iff]
  simp only [Rule.body, derives_alt_iff, derives_one_cons_iff, derives_one_seq_cons_iff,
    t.fits_operand, t.fits_punctuation]
  cases h : t.terminal with
  | mark m =>
    cases m with
    | openParen => simp [factorMove, derives_stack_cons_iff, derives_seq_iff, ebnf, Mark.char]
    | _ => simp [factorMove]
  | _ => simp [factorMove]

theorem term_cons_iff :
    Derives (.rule .term) (t.lexeme :: w) ↔ (termMove t.terminal).Leads w := by
  rw [derives_rule_iff, Rule.body, derives_rule_seq_cons_iff, termMove, leads_followedBy_iff]
  simp only [factor_cons_iff, stackEbnf, ebnf]

theorem expression_cons_iff :
    Derives (.rule .expression) (t.lexeme :: w) ↔ (expressionMove t.terminal).Leads w := by
  rw [derives_rule_iff, Rule.body, derives_rule_seq_cons_iff, expressionMove,
    leads_followedBy_iff]
  simp only [term_cons_iff, stackEbnf, ebnf]

theorem statement_cons_iff :
    Derives (.rule .statement) (t.lexeme :: w) ↔ (statementMove t.terminal).Leads w := by
  simp only [derives_rule_iff, Rule.body, derives_alt_iff, derives_one_seq_cons_iff,
    Ebnf.typeWord, t.fits_keyword, t.fits_operand]
  cases h : t.terminal with
  | ifWord | whileWord | returnWord | typeWord | name =>
    simp only [statementMove, leads_read_iff, reduceCtorEq, true_and, false_and, or_false,
      false_or]
    rfl
  | _ => simp [statementMove]

theorem body_cons_iff :
    Derives (.rule .blockOrStatement) (t.lexeme :: w) ↔ (body.move t.terminal).Leads w := by
  simp only [derives_rule_iff (r := .blockOrStatement), Rule.body, derives_alt_iff,
    derives_one_seq_cons_iff, t.fits_punctuation, statement_cons_iff]
  by_cases brace : t.terminal = .mark .openBrace
  · simp [brace, move, statementMove, derives_stack_cons_iff, ebnf]
  · simp [brace, body_move, leads_followedBy_iff, stackEbnf, ebnf]

theorem blockRest_cons_iff : Derives blockRest.ebnf (t.lexeme :: w) ↔
    (blockRest.move t.terminal).Leads w := by
  rw [ebnf, derives_many_seq_cons_iff]
  simp only [derives_one_cons_iff, t.fits_punctuation, statement_cons_iff]
  by_cases brace : t.terminal = .mark .closeBrace
  · simp [brace, move, statementMove]
  · rw [blockRest_move brace, leads_followedBy_iff]
    simp [brace, stackEbnf, ebnf]

/-- In front of a lexeme a goal reads what can follow the lexeme in a word of its form. -/
theorem derives_cons_iff (goal : Goal) : Derives goal.ebnf (t.lexeme :: w) ↔
    (goal.move t.terminal).Leads w := by
  cases goal with
  | program =>
    rw [ebnf, derives_many_cons_iff, move, leads_followedBy_iff]
    simp only [statement_cons_iff, stackEbnf, ebnf]
  | statement => exact statement_cons_iff t
  | body => exact body_cons_iff t
  | blockRest => exact blockRest_cons_iff t
  | elseBranch =>
    rw [ebnf, derives_opt_cons_iff, derives_one_seq_cons_iff]
    simp only [t.fits_keyword]
    cases h : t.terminal <;> simp [move, stackEbnf, ebnf]
  | initializer =>
    rw [ebnf, derives_opt_cons_iff, derives_one_seq_cons_iff]
    simp only [t.fits_punctuation]
    cases h : t.terminal with
    | mark m => cases m <;> simp [move, stackEbnf, ebnf]
    | _ => simp [move]
  | returnValue =>
    rw [ebnf, derives_opt_cons_iff, derives_noOperatorFirst_iff, expression_cons_iff, move]
    simp only [List.head?_cons, Option.mem_def, Option.some.injEq, forall_eq', Token.lexeme]
    have hop := t.isOperator_terminal
    by_cases h : t.kind = .operator
    · simp [hop.mpr h, h]
    · simp [mt hop.mp h, h]
  | expression => exact expression_cons_iff t
  | term => exact term_cons_iff t
  | factor => exact factor_cons_iff t
  | moreTerms =>
    rw [ebnf, derives_many_cons_iff]
    simp only [Ebnf.additive, derives_one_seq_cons_iff, t.fits_binary]
    cases h : t.terminal <;> simp [move, derives_stack_cons_iff, ebnf, Ebnf.additive]
  | moreFactors =>
    rw [ebnf, derives_many_cons_iff]
    simp only [Ebnf.multiplicative, derives_one_seq_cons_iff, t.fits_binary]
    cases h : t.terminal <;> simp [move, derives_stack_cons_iff, ebnf, Ebnf.multiplicative]
  | name =>
    rw [ebnf, derives_one_cons_iff]
    simp only [t.fits_operand]
    cases h : t.terminal <;> simp [move]
  | mark m =>
    rw [ebnf, derives_one_cons_iff, t.fits_mark, move]
    by_cases h : t.terminal = .mark m <;> simp [h]
  | leave => simp [ebnf, move]
  | endOfInput => simp [ebnf, move]

theorem derives_nil_iff (goal : Goal) : Derives goal.ebnf [] ↔ goal.missing = none := by
  cases goal <;> simp [ebnf, missing]

end Goal

/-- The first lexeme of what a stack reads is read by the topmost goal, or that goal is left out. -/
theorem derives_stack_cons_cons_iff {goal : Goal} {goals : List Goal} {t : Token}
    {w : List Lexeme} : Derives (stackEbnf (goal :: goals)) (t.lexeme :: w) ↔
      ((goal.move t.terminal).followedBy goals).Leads w ∨
        goal.missing = none ∧ Derives (stackEbnf goals) (t.lexeme :: w) := by
  rw [derives_stack_cons_iff, ← derives_seq_iff, derives_seq_cons_iff, leads_followedBy_iff,
    goal.derives_nil_iff]
  simp only [Goal.derives_cons_iff]

theorem derives_stack_cons_nil_iff {goal : Goal} {goals : List Goal} :
    Derives (stackEbnf (goal :: goals)) [] ↔
      goal.missing = none ∧ Derives (stackEbnf goals) [] := by
  rw [derives_stack_cons_iff, ← derives_seq_iff, derives_seq_nil_iff, goal.derives_nil_iff]

end SyntaxPaint
