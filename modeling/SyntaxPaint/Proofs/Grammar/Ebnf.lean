import SyntaxPaint.Token.Lexeme
/-!
# The grammar in EBNF

`Rule.body` is the grammar as a table of right-hand sides, and `Derives` reads the table as a
context-free grammar over the kinds and texts of lexemes. Nothing here knows of a lookahead, so the
grammar is ambiguous: an `else` may belong to any `if` that is still open.
-/
namespace SyntaxPaint

inductive Rule where
  | statement
  | ifStatement
  | whileStatement
  | returnStatement
  | declaration
  | assignment
  | blockOrStatement
  | expression
  | term
  | factor
deriving DecidableEq, Repr

inductive Ebnf where
  | empty
  /-- One lexeme of the kind, with one of the texts where texts are given. -/
  | one (kind : Kind) (texts : Option (List String))
  | rule (r : Rule)
  | seq (a b : Ebnf)
  | alt (a b : Ebnf)
  | opt (a : Ebnf)
  | many (a : Ebnf)
  /-- The words of the form that do not begin with an operator. -/
  | noOperatorFirst (a : Ebnf)
deriving DecidableEq, Repr

namespace Ebnf

abbrev keyword (words : List String) : Ebnf := .one .keyword (some words)

abbrev operator (signs : List String) : Ebnf := .one .operator (some signs)

abbrev any (kind : Kind) : Ebnf := .one kind none

def typeWord : Ebnf := .keyword ["int", "string", "void"]

/-- The operators between terms. -/
def additive : Ebnf := .operator ["+", "-", "==", "!=", ">", "<", ">=", "<="]

/-- The operators between factors. -/
def multiplicative : Ebnf := .operator ["*", "/"]

end Ebnf

namespace Rule

/-- The right-hand sides. The value of a `return` does not begin with an operator. -/
def body : Rule → Ebnf
  | statement =>
    .alt (.rule ifStatement) <| .alt (.rule whileStatement) <| .alt (.rule returnStatement) <|
      .alt (.rule declaration) (.rule assignment)
  | ifStatement =>
    .seq (.keyword ["if"]) <| .seq (.operator ["("]) <| .seq (.rule expression) <|
      .seq (.operator [")"]) <| .seq (.rule blockOrStatement) <|
        .opt (.seq (.keyword ["else"]) (.rule blockOrStatement))
  | whileStatement =>
    .seq (.keyword ["while"]) <| .seq (.operator ["("]) <| .seq (.rule expression) <|
      .seq (.operator [")"]) (.rule blockOrStatement)
  | returnStatement =>
    .seq (.keyword ["return"]) <| .seq (.opt (.noOperatorFirst (.rule expression)))
      (.operator [";"])
  | declaration =>
    .seq .typeWord <| .seq (.any .identifier) <|
      .seq (.opt (.seq (.operator ["="]) (.rule expression))) (.operator [";"])
  | assignment =>
    .seq (.any .identifier) <|
      .seq (.opt (.seq (.operator ["="]) (.rule expression))) (.operator [";"])
  | blockOrStatement =>
    .alt (.seq (.operator ["\x7b"]) <| .seq (.many (.rule statement)) (.operator ["\x7d"]))
      (.rule statement)
  | expression => .seq (.rule term) <| .many (.seq .additive (.rule term))
  | term => .seq (.rule factor) <| .many (.seq .multiplicative (.rule factor))
  | factor =>
    .alt (.any .number) <| .alt (.any .identifier) <| .alt (.any .string) <|
      .seq (.operator ["("]) <| .seq (.rule expression) (.operator [")"])

end Rule

/-- Is the lexeme of the kind, and its text among those that are given? -/
def Lexeme.Fits (l : Lexeme) (kind : Kind) (texts : Option (List String)) : Prop :=
  l.kind = kind ∧ ∀ ts ∈ texts, String.ofList l.text ∈ ts

/-- The words of a form: what can be derived from it by the rules. -/
inductive Derives : Ebnf → List Lexeme → Prop
  | empty : Derives .empty []
  | one {l : Lexeme} {kind : Kind} {texts : Option (List String)} (fits : l.Fits kind texts) :
      Derives (.one kind texts) [l]
  | rule {r : Rule} {w : List Lexeme} (body : Derives r.body w) : Derives (.rule r) w
  | seq {a b : Ebnf} {u v : List Lexeme} (left : Derives a u) (right : Derives b v) :
      Derives (.seq a b) (u ++ v)
  | left {a b : Ebnf} {w : List Lexeme} (left : Derives a w) : Derives (.alt a b) w
  | right {a b : Ebnf} {w : List Lexeme} (right : Derives b w) : Derives (.alt a b) w
  | without {a : Ebnf} : Derives (.opt a) []
  | present {a : Ebnf} {w : List Lexeme} (body : Derives a w) : Derives (.opt a) w
  | none {a : Ebnf} : Derives (.many a) []
  | more {a : Ebnf} {u v : List Lexeme} (first : Derives a u) (rest : Derives (.many a) v) :
      Derives (.many a) (u ++ v)
  | noOperatorFirst {a : Ebnf} {w : List Lexeme} (body : Derives a w)
      (first : ∀ l ∈ w.head?, l.kind ≠ .operator) : Derives (.noOperatorFirst a) w

section Inversion

variable {a b : Ebnf} {l : Lexeme} {w : List Lexeme}

@[simp] theorem derives_empty_iff : Derives .empty w ↔ w = [] := by
  constructor
  · intro h; cases h; rfl
  · intro h
    subst h
    exact .empty

theorem derives_one_iff {kind : Kind} {texts : Option (List String)} :
    Derives (.one kind texts) w ↔ ∃ l : Lexeme, w = [l] ∧ l.Fits kind texts := by
  constructor
  · intro h; cases h with | one fits => exact ⟨_, rfl, fits⟩
  · intro h
    rcases h with ⟨l, rfl, fits⟩
    exact .one fits

theorem derives_rule_iff {r : Rule} : Derives (.rule r) w ↔ Derives r.body w := by
  constructor
  · intro h; cases h with | rule body => exact body
  · exact .rule

theorem derives_seq_iff : Derives (.seq a b) w ↔
    ∃ u v, w = u ++ v ∧ Derives a u ∧ Derives b v := by
  constructor
  · intro h; cases h with | seq left right => exact ⟨_, _, rfl, left, right⟩
  · intro h
    rcases h with ⟨u, v, rfl, left, right⟩
    exact .seq left right

@[simp] theorem derives_alt_iff : Derives (.alt a b) w ↔ Derives a w ∨ Derives b w := by
  constructor
  · intro h
    cases h with
    | left h => exact .inl h
    | right h => exact .inr h
  · intro h
    rcases h with h | h
    · exact .left h
    · exact .right h

theorem derives_opt_iff : Derives (.opt a) w ↔ w = [] ∨ Derives a w := by
  constructor
  · intro h
    cases h with
    | without => exact .inl rfl
    | present h => exact .inr h
  · intro h
    rcases h with rfl | h
    · exact .without
    · exact .present h

@[simp] theorem derives_noOperatorFirst_iff : Derives (.noOperatorFirst a) w ↔
    Derives a w ∧ ∀ l ∈ w.head?, l.kind ≠ .operator := by
  constructor
  · intro h; cases h with | noOperatorFirst body first => exact ⟨body, first⟩
  · intro h
    rcases h with ⟨body, first⟩
    exact .noOperatorFirst body first

end Inversion

section Empty

variable {a b : Ebnf}

@[simp] theorem not_derives_one_nil {kind : Kind} {texts : Option (List String)} :
    ¬ Derives (.one kind texts) [] := by
  simp [derives_one_iff]

@[simp] theorem derives_seq_nil_iff : Derives (.seq a b) [] ↔ Derives a [] ∧ Derives b [] := by
  rw [derives_seq_iff]
  constructor
  · intro h
    rcases h with ⟨u, v, heq, left, right⟩
    rcases List.append_eq_nil_iff.mp heq.symm with ⟨rfl, rfl⟩
    exact ⟨left, right⟩
  · intro h
    rcases h with ⟨left, right⟩
    exact ⟨[], [], rfl, left, right⟩

@[simp] theorem derives_opt_nil : Derives (.opt a) [] := .without

@[simp] theorem derives_many_nil : Derives (.many a) [] := .none

@[simp] theorem not_derives_rule_nil (r : Rule) : ¬ Derives (.rule r) [] := by
  have operand : ¬ Derives (.rule .factor) [] := by
    rw [derives_rule_iff]; simp [Rule.body]
  have product : ¬ Derives (.rule .term) [] := by
    rw [derives_rule_iff]; simp [Rule.body, operand]
  have statement : ¬ Derives (.rule .statement) [] := by
    rw [derives_rule_iff, Rule.body]
    simp only [derives_alt_iff, derives_rule_iff]
    simp [Rule.body, Ebnf.typeWord]
  cases r with
  | factor => exact operand
  | term => exact product
  | statement => exact statement
  | _ => rw [derives_rule_iff]; simp [Rule.body, product, statement]

end Empty

section First

variable {a b : Ebnf} {l : Lexeme} {w : List Lexeme}

@[simp] theorem derives_one_cons_iff {kind : Kind} {texts : Option (List String)} :
    Derives (.one kind texts) (l :: w) ↔ l.Fits kind texts ∧ w = [] := by
  rw [derives_one_iff]
  constructor
  · intro h
    rcases h with ⟨_, heq, fits⟩
    rcases List.cons.inj heq with ⟨rfl, rfl⟩
    exact ⟨fits, rfl⟩
  · intro h
    rcases h with ⟨fits, rfl⟩
    exact ⟨l, rfl, fits⟩

@[simp] theorem derives_opt_cons_iff : Derives (.opt a) (l :: w) ↔ Derives a (l :: w) := by
  simp [derives_opt_iff]

/-- The first lexeme of a sequence belongs to the first form, or that form is left out. -/
theorem derives_seq_cons_iff : Derives (.seq a b) (l :: w) ↔
    (∃ u v, w = u ++ v ∧ Derives a (l :: u) ∧ Derives b v) ∨
      Derives a [] ∧ Derives b (l :: w) := by
  rw [derives_seq_iff]
  constructor
  · intro h
    rcases h with ⟨u, v, heq, left, right⟩
    cases u with
    | nil => exact .inr ⟨left, by simpa [heq] using right⟩
    | cons x u =>
      rcases List.cons.inj heq with ⟨rfl, rfl⟩
      exact .inl ⟨u, v, rfl, left, right⟩
  · intro h
    rcases h with ⟨u, v, rfl, left, right⟩ | ⟨left, right⟩
    · exact ⟨l :: u, v, rfl, left, right⟩
    · exact ⟨[], l :: w, rfl, left, right⟩

theorem derives_one_seq_cons_iff {kind : Kind} {texts : Option (List String)} :
    Derives (.seq (.one kind texts) b) (l :: w) ↔ l.Fits kind texts ∧ Derives b w := by
  rw [derives_seq_cons_iff]
  constructor
  · intro h
    rcases h with ⟨u, v, rfl, left, right⟩ | ⟨left, -⟩
    · rcases derives_one_cons_iff.mp left with ⟨fits, rfl⟩
      exact ⟨fits, right⟩
    · exact absurd left not_derives_one_nil
  · intro h
    rcases h with ⟨fits, right⟩
    exact .inl ⟨[], w, rfl, derives_one_cons_iff.mpr ⟨fits, rfl⟩, right⟩

theorem derives_rule_seq_cons_iff {r : Rule} : Derives (.seq (.rule r) b) (l :: w) ↔
    ∃ u v, w = u ++ v ∧ Derives (.rule r) (l :: u) ∧ Derives b v := by
  rw [derives_seq_cons_iff]
  exact or_iff_left fun h => not_derives_rule_nil r h.1

theorem derives_many_cons_iff : Derives (.many a) (l :: w) ↔
    ∃ u v, w = u ++ v ∧ Derives a (l :: u) ∧ Derives (.many a) v := by
  constructor
  · intro h
    generalize hform : Ebnf.many a = form at h
    generalize hword : l :: w = word at h
    induction h with
    | @more c u v first rest _ ih =>
      cases hform
      cases u with
      | nil => exact ih rfl (by simpa using hword)
      | cons x u =>
        rcases List.cons.inj hword with ⟨rfl, rfl⟩
        exact ⟨u, v, rfl, first, rest⟩
    | none => cases hword
    | _ => cases hform
  · intro h
    rcases h with ⟨u, v, rfl, first, rest⟩
    exact .more first rest

theorem derives_many_seq_cons_iff : Derives (.seq (.many a) b) (l :: w) ↔
    (∃ u v, w = u ++ v ∧ Derives a (l :: u) ∧ Derives (.seq (.many a) b) v) ∨
      Derives b (l :: w) := by
  simp only [derives_seq_cons_iff, derives_many_nil, true_and]
  apply or_congr_left
  simp only [derives_many_cons_iff, derives_seq_iff]
  constructor
  · intro h
    rcases h with ⟨_, v, rfl, ⟨u, u', rfl, first, rest⟩, last⟩
    exact ⟨u, u' ++ v, by simp, first, u', v, rfl, rest, last⟩
  · intro h
    rcases h with ⟨u, _, rfl, first, u', v, rfl, rest, last⟩
    exact ⟨u ++ u', v, by simp, ⟨u, u', rfl, first, rest⟩, last⟩

end First
end SyntaxPaint
