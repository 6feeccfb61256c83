import Mathlib.Data.List.Forall2
import SyntaxPaint.Document
import SyntaxPaint.Proofs.Grammar.Question
import SyntaxPaint.Proofs.Token.Widening
/-!
# Layout

A checker looks at the kinds and texts of significant tokens and never at where they stand. Blanks
and comments may therefore be changed as long as the lexemes between them stay apart. Of the texts
it looks at those of keywords and operators only, so names and values may be changed as well.
-/
namespace SyntaxPaint

/-! ## What a checker sees -/

section Sight

variable {tokens others : List Token}

theorem map_terminal_of_map_lexeme (same : tokens.map Token.lexeme = others.map Token.lexeme) :
    tokens.map Token.terminal = others.map Token.terminal := by
  have hterminal (ts : List Token) : ts.map Token.terminal = (ts.map Token.lexeme).map
      fun l => Token.terminal ⟨l.kind, l.text, .point .origin⟩ := by
    rw [List.map_map]
    rfl
  rw [hterminal, hterminal, same]

theorem shown_of_map_lexeme (same : tokens.map Token.lexeme = others.map Token.lexeme) (n : Nat) :
    tokens[n]?.map Token.shown = others[n]?.map Token.shown := by
  have hshown (ts : List Token) : ts[n]?.map Token.shown = (ts.map Token.lexeme)[n]?.map
      fun l => Token.shown ⟨l.kind, l.text, .point .origin⟩ := by
    rw [List.getElem?_map, Option.map_map]
    rfl
  rw [hshown, hshown, same]

theorem Rejection.message_unexpected (e : Expected) (found : Option Token) :
    (unexpected e found).message =
      e.message ++ ", found " ++ (found.map Token.shown).getD "end of input" :=
  rfl

theorem Rejection.message_congr {found other : Option Token} (e : Expected)
    (same : found.map Token.shown = other.map Token.shown) :
    (unexpected e found).message = (unexpected e other).message := by
  rw [message_unexpected, message_unexpected, same]

namespace Checker

variable (limit : Nat) (q : Question)

/-- Tokens that look the same to the grammar are read in the same run. -/
theorem answering_congr
    (same : (significant tokens).map Token.terminal = (significant others).map Token.terminal) :
    (new tokens limit).answering q = (new others limit).answering q := by
  rw [answering_new, answering_new, same]

theorem accepted_congr
    (same : (significant tokens).map Token.terminal = (significant others).map Token.terminal) :
    ((new tokens limit).ask q).1.accepted = ((new others limit).ask q).1.accepted := by
  rw [Bool.eq_iff_iff, ask_accepted, ask_accepted, answering_congr limit q same]

theorem message_congr
    (same : (significant tokens).map Token.lexeme = (significant others).map Token.lexeme) :
    ((new tokens limit).ask q).1.rejection.map Rejection.message =
      ((new others limit).ask q).1.rejection.map Rejection.message := by
  have hrun := answering_congr limit q (map_terminal_of_map_lexeme same)
  have hshown := shown_of_map_lexeme same (0 + ((new others limit).answering q).taken)
  rw [ask_report, ask_report, hrun]
  simp only [Option.map_map]
  apply Option.map_congr
  intro cause _
  cases cause with
  | tooDeep => rfl
  | expected e => exact Rejection.message_congr e hshown

end Checker

end Sight

/-! ## With other names -/

/-- Tokens that the grammar cannot tell apart: of one kind, and of one text where that is the text
of a keyword or an operator. -/
def Token.Alike (t u : Token) : Prop :=
  t.kind = u.kind ∧ (t.kind = .keyword ∨ t.kind = .operator → t.text = u.text)

instance (t u : Token) : Decidable (t.Alike u) := inferInstanceAs (Decidable (_ ∧ _))

theorem Token.Alike.terminal_eq {t u : Token} (alike : t.Alike u) : t.terminal = u.terminal := by
  rcases alike with ⟨hkind, htext⟩
  cases h : t.kind with
  | keyword =>
    rw [terminal, terminal, ← hkind, h, htext (.inl h)]
  | operator =>
    rw [terminal, terminal, ← hkind, h, htext (.inr h)]
  | _ => rw [terminal, terminal, ← hkind, h]

theorem map_terminal_of_alike {tokens others : List Token}
    (alike : List.Forall₂ Token.Alike tokens others) :
    tokens.map Token.terminal = others.map Token.terminal := by
  induction alike with
  | nil => rfl
  | cons first _ ih => rw [List.map_cons, List.map_cons, first.terminal_eq, ih]

/-- What a rejection says apart from the token that was found. -/
def Rejection.demand : Rejection → Rejection
  | unexpected expected _ => unexpected expected none
  | tooDeep limit => tooDeep limit

/-- Texts whose significant tokens are alike one by one get the same answer under every limit: the
same statements are begun, and both are accepted or refused after as many tokens, for the same
reason. Names, values, places, blanks and comments do not count. -/
theorem Checker.answer_of_alike (tokens others : List Token) (limit : Nat) (q : Question)
    (alike : List.Forall₂ Token.Alike (significant tokens) (significant others)) :
    let left := (new tokens limit).ask q
    let right := (new others limit).ask q
    left.1.accepted = right.1.accepted ∧ left.2.position = right.2.position ∧
    left.1.rejection.map Rejection.demand = right.1.rejection.map Rejection.demand ∧
    left.1.forms = right.1.forms := by
  intro left right
  have hsame := map_terminal_of_alike alike
  have hrun := answering_congr limit q hsame
  refine ⟨accepted_congr limit q hsame, ?position, ?demand, ?forms⟩
  case position =>
    show ((new tokens limit).ask q).2.position = ((new others limit).ask q).2.position
    rw [ask_position, ask_position, hrun]
    rfl
  case demand =>
    show ((new tokens limit).ask q).1.rejection.map _ = ((new others limit).ask q).1.rejection.map _
    rw [ask_rejection, ask_rejection, hrun, Option.map_map, Option.map_map]
    apply Option.map_congr
    intro cause _
    cases cause <;> rfl
  case forms =>
    show ((new tokens limit).ask q).1.forms = ((new others limit).ask q).1.forms
    rw [ask_report, ask_report, hrun]

/-- `x = (1;` with other names and a comment asks for the same parenthesis at the same token. -/
theorem Checker.answer_of_alike_comment :
    let tokens := place .origin [⟨.identifier, ['x']⟩, ⟨.operator, ['=']⟩, ⟨.operator, ['(']⟩,
      ⟨.number, ['1']⟩, ⟨.operator, [';']⟩]
    let others := place .origin [⟨.comment, ['/', '/']⟩, ⟨.whitespace, ['\n']⟩,
      ⟨.identifier, ['e', 'l', 's', 'e', '_']⟩, ⟨.operator, ['=']⟩, ⟨.whitespace, [' ']⟩,
      ⟨.operator, ['(']⟩, ⟨.number, ['2', '.', '5']⟩, ⟨.operator, [';']⟩]
    List.Forall₂ Token.Alike (significant tokens) (significant others) ∧
      ((new others 8).ask .program).2.position = 4 ∧
      ((new others 8).ask .program).1.rejection.map Rejection.demand =
        some (.unexpected (.mark .closeParen) none) := by
  intro tokens others
  have halike : List.Forall₂ Token.Alike (significant tokens) (significant others) := by decide
  have hanswer := answer_of_alike tokens others 8 .program halike
  have hposition : ((new tokens 8).ask .program).2.position = 4 := by decide
  have hdemand : ((new tokens 8).ask .program).1.rejection.map Rejection.demand =
      some (.unexpected (.mark .closeParen) none) := by decide
  exact ⟨halike, hanswer.2.1.symm.trans hposition, hanswer.2.2.1.symm.trans hdemand⟩

/-! ## Without layout -/

/-- A text and what is left of it without layout and comments are the same to the grammar: they have
the same lexemes, and under every limit a checker accepts both or stops at the same lexeme of both,
for the same reason. Nothing is left to take out of a text that has been normalized. -/
theorem normalized_is_equivalent (source : List Char) :
    let plain := normalized source
    (significant (tokenize plain)).map Token.lexeme =
      (significant (tokenize source)).map Token.lexeme ∧
    normalized plain = plain ∧
    ∀ limit, (analyze plain limit).valid = (analyze source limit).valid ∧
      ∀ q, let left := (Checker.new (tokenize plain) limit).ask q
        let right := (Checker.new (tokenize source) limit).ask q
        left.1.accepted = right.1.accepted ∧ left.2.position = right.2.position ∧
        left.1.rejection.map Rejection.message = right.1.rejection.map Rejection.message := by
  intro plain
  have hsame := map_lexeme_significant_normalized source
  have hmessage (limit : Nat) (q : Question) := Checker.message_congr limit q hsame
  have haccepted (limit : Nat) (q : Question) :
      ((Checker.new (tokenize plain) limit).ask q).1.accepted =
        ((Checker.new (tokenize source) limit).ask q).1.accepted := by
    have hnone := congrArg Option.isNone (hmessage limit q)
    rwa [Option.isNone_map, Option.isNone_map] at hnone
  refine ⟨hsame, ?idempotent, fun limit => ⟨haccepted limit .program, fun q => ⟨haccepted limit q,
    ?position, hmessage limit q⟩⟩⟩
  case idempotent =>
    have htexts := congrArg (List.map Lexeme.text) hsame
    rw [List.map_map, List.map_map] at htexts
    exact congrArg spaced htexts
  case position =>
    have hrun := Checker.answering_congr limit q (map_terminal_of_map_lexeme hsame)
    rw [Checker.ask_position, Checker.ask_position, hrun]
    rfl

/-! ## With more blanks -/

/-- Blanks may be written wherever a token ends, and in front of the text: the grammar sees the same
lexemes, and the verdict under every limit is the same. Only an open quoted text that ends the text
would take in what is written behind it. -/
theorem widened_is_equivalent (source blanks : List Char) (k : Nat)
    (border : k = 0 ∨ ∃ t ∈ tokenize source, t.stop = k)
    (blank : ∀ c ∈ blanks, isBlank c = true)
    (closed : k = byteLength source → ∀ t ∈ (tokenize source).getLast?,
      t.kind = .string → t.lexeme.isOpen = false) :
    let wider := takeBytes k source ++ (blanks ++ dropBytes k source)
    (significant (tokenize wider)).map Token.lexeme =
      (significant (tokenize source)).map Token.lexeme ∧
    ∀ limit, (analyze wider limit).valid = (analyze source limit).valid := by
  intro wider
  have hsame := map_lexeme_significant_widened border blank closed
  refine ⟨hsame, fun limit => ?_⟩
  exact Checker.accepted_congr limit .program (map_terminal_of_map_lexeme hsame)

/-- A line comment at the end of a text takes in the blanks up to the end of the line. -/
theorem widened_is_equivalent_comment :
    let source := "x = 1 // é".toList
    let blanks := "\u2028 \n".toList
    let wider := takeBytes 11 source ++ (blanks ++ dropBytes 11 source)
    (∃ t ∈ tokenize source, t.stop = 11) ∧ (∀ c ∈ blanks, isBlank c = true) ∧
    (∀ t ∈ (tokenize source).getLast?, t.kind = .string → t.lexeme.isOpen = false) ∧
    (significant (tokenize wider)).map Token.lexeme =
      (significant (tokenize source)).map Token.lexeme ∧
    ∀ limit, (analyze wider limit).valid = (analyze source limit).valid := by
  intro source blanks wider
  have border : ∃ t ∈ tokenize source, t.stop = 11 := by decide +kernel
  have blank : ∀ c ∈ blanks, isBlank c = true := List.all_eq_true.mp (by decide)
  have closed : ∀ t ∈ (tokenize source).getLast?, t.kind = .string → t.lexeme.isOpen = false := by
    decide +kernel
  exact ⟨border, blank, closed,
    widened_is_equivalent source blanks 11 (.inr border) blank fun _ => closed⟩

end SyntaxPaint
