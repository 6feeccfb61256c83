import SyntaxPaint.Proofs.Grammar.Refusal
import SyntaxPaint.Proofs.Grammar.Resuming
import SyntaxPaint.Proofs.Grammar.Stacking
import SyntaxPaint.Proofs.Grammar.Table
/-!
# Progress of rules and loops

A rule that is met has read a shortest word of its own at least, and whether it is met or not the
checker stands behind it at the depth where it began. That is why the loops of the grammar end: each
round reads two tokens or more, so there are at most half as many rounds as tokens are left.
-/
namespace SyntaxPaint

/-! ## What goals read at least -/

section Least

variable {limit : Nat} {goal : Goal} {t : Terminal} {form : Option Form} {next : List Goal}

theorem Goal.shortest_of_missing (void : goal.missing = none) : goal.shortest = [] := by
  cases goal with
  | statement | body | blockRest | expression | term | factor | name | mark m => cases void
  | _ => rfl

theorem Goal.length_shortest_of_read (reads : goal.move t = .read form next) :
    goal.shortest.length ≤ (completion next).length + 1 := by
  have hentry := of_everyReading
    (p := fun goal _ next => goal.shortest.length ≤ (completion next).length + 1)
    (by decide +kernel) reads
  exact of_decide_eq_true hentry

theorem length_completion_append (goals lower : List Goal) :
    (completion (goals ++ lower)).length =
      (completion goals).length + (completion lower).length := by
  rw [completion, List.flatMap_append, List.length_append]
  rfl

theorem length_completion_cons (goal : Goal) (goals : List Goal) :
    (completion (goal :: goals)).length = goal.shortest.length + (completion goals).length := by
  rw [completion, List.flatMap_cons, List.length_append]
  rfl

/-- No goals are met with less than their shortest words. -/
theorem length_completion_le_taken (ts : List Terminal) (goals : List Goal) (depth : Nat)
    (met : (run limit ts goals depth).cause = none) :
    (completion goals).length ≤ (run limit ts goals depth).taken := by
  induction ts, goals, depth, met using run_met_induction limit with
  | done ts depth met => exact Nat.zero_le _
  | read t ts goal goals depth form next met rest room reads ih =>
    have hfirst := Goal.length_shortest_of_read reads
    rw [length_completion_append] at ih
    rw [taken_of_read goals room reads, length_completion_cons]
    omega
  | leave ts goals depth met rest ih => rwa [taken_of_leave]
  | pass ts goal goals depth met rest stays passes ih =>
    have hnone := Goal.shortest_of_missing (Goal.missing_of_pass passes)
    rw [run_pass goals stays passes, length_completion_cons, hnone, List.length_nil, Nat.zero_add]
    exact ih

end Least

/-! ## Rules -/

/-- The rules of the grammar that refer to one another. -/
def Goal.rules : List Goal := [.statement, .body, .expression, .term, .factor]

theorem Goal.least_of_mem_rules : ∀ goal ∈ rules, [goal].count .leave = 0 ∧
    1 ≤ (completion [goal]).length ∧
    (goal ∈ [statement, body] → 2 ≤ (completion [goal]).length) := by decide

namespace Checker

variable {c : Checker} {goals : List Goal}

theorem lt_of_head?_ahead {t : Terminal} (look : c.ahead.head? = some t) :
    c.position < c.tokens.length := by
  have hsome : c.ahead ≠ [] := by
    intro hnone
    rw [hnone] at look
    cases look
  simpa [ahead] using hsome

theorem position_add_le_of_accepted (accepted : (c.pursue goals).1.accepted = true) :
    c.position + (completion goals).length ≤ (c.pursue goals).2.position := by
  rw [pursue_accepted] at accepted
  have hleast := length_completion_le_taken c.ahead goals c.depth accepted
  rw [pursue_checker]
  exact Nat.add_le_add_left hleast _

end Checker

/-! ## Loops -/

/-- The loops of the grammar: the statements of a program and of a block, the further terms of an
expression and the further factors of a term. -/
inductive Loop where
  | statements
  | block
  | terms
  | factors
deriving DecidableEq, Repr

namespace Loop

/-- The goal that works the loop off. -/
def goal : Loop → Goal
  | statements => .program
  | block => .blockRest
  | terms => .moreTerms
  | factors => .moreFactors

/-- The rule that each round works off. -/
def rule : Loop → Goal
  | statements | block => .statement
  | terms => .term
  | factors => .factor

/-- How many tokens a round reads in front of its rule: the operator, where there is one. -/
def lead : Loop → Nat
  | statements | block => 0
  | terms | factors => 1

/-- Is there a further round? -/
def goesOn : Loop → Option Terminal → Bool
  | statements, some _ => true
  | block, some t => t ≠ .mark .closeBrace
  | terms, some t => t = .additive
  | factors, some t => t = .multiplicative
  | _, none => false

/-- What is to be read behind the last round. -/
def exit : Loop → List Goal
  | block => [.mark .closeBrace]
  | statements | terms | factors => []

def round (loop : Loop) (c : Checker) : Option Rejection × Checker :=
  (c.forward loop.lead).outcome [loop.rule]

/-- The loop goes on at the first checker, and with its rule met it comes to the second. -/
def Round (loop : Loop) (c next : Checker) : Prop :=
  loop.goesOn c.ahead.head? = true ∧ loop.round c = (none, next)

/-- So many rounds in a row. -/
inductive Rounds (loop : Loop) : Nat → Checker → Checker → Prop
  | none (c : Checker) : Rounds loop 0 c c
  | more {n : Nat} {c next last : Checker} (first : loop.Round c next)
      (rest : Rounds loop n next last) : Rounds loop (n + 1) c last

/-- What the loop leaves behind its last round: there is no further one, or its rule is not met. -/
def ending (loop : Loop) (c : Checker) : Option Rejection × Checker :=
  if loop.goesOn c.ahead.head? then loop.round c else c.outcome loop.exit

section Unrolling

variable (loop : Loop) {limit : Nat} {ts : List Terminal}

/-- Where the loop goes on, its goal is a round and the loop behind it. -/
theorem run_of_goesOn (depth : Nat) (goesOn : loop.goesOn ts.head? = true) :
    run limit ts [loop.goal] depth =
      (run limit (ts.drop loop.lead) [loop.rule, loop.goal] depth).after
        (List.replicate loop.lead .read) := by
  cases ts with
  | nil => cases loop <;> cases goesOn
  | cons t ts =>
    have busy : Goal.statement.answer (some t) ≠ .pass := Goal.statementMove_ne_pass
    cases loop with
    | statements => exact run_eq_of_followedBy .statement [.program] [] depth rfl rfl busy rfl
    | block =>
      -- Only in front of its closing brace the block reads no statement.
      have noBrace : t ≠ .mark .closeBrace := by simpa [Loop.goesOn] using goesOn
      exact run_eq_of_followedBy .statement [.blockRest] [] depth (Goal.blockRest_move noBrace) rfl
        busy rfl
    | terms =>
      obtain rfl : t = .additive := by simpa [Loop.goesOn] using goesOn
      have hreads : Goal.moreTerms.move .additive = .read none [.term, .moreTerms] := rfl
      exact run_read [] (Goal.hasRoom_of_closed rfl) hreads
    | factors =>
      obtain rfl : t = .multiplicative := by simpa [Loop.goesOn] using goesOn
      have hreads : Goal.moreFactors.move .multiplicative =
        .read none [.factor, .moreFactors] := rfl
      exact run_read [] (Goal.hasRoom_of_closed rfl) hreads

theorem run_of_not_goesOn (depth : Nat) (ended : loop.goesOn ts.head? = false) :
    run limit ts [loop.goal] depth = run limit ts loop.exit depth := by
  cases ts with
  | nil => cases loop <;> rfl
  | cons t ts =>
    cases loop with
    | statements => cases ended
    | block =>
      obtain rfl : t = .mark .closeBrace := by simpa [Loop.goesOn] using ended
      rfl
    | terms =>
      have hother : t ≠ .additive := by simpa [Loop.goesOn] using ended
      apply run_pass [] (by simp [goal])
      cases t with
      | additive => exact absurd rfl hother
      | _ => rfl
    | factors =>
      have hother : t ≠ .multiplicative := by simpa [Loop.goesOn] using ended
      apply run_pass [] (by simp [goal])
      cases t with
      | multiplicative => exact absurd rfl hother
      | _ => rfl

end Unrolling

section Rounds

variable {loop : Loop} {n : Nat} {c next last : Checker}

theorem outcome_of_goesOn (goesOn : loop.goesOn c.ahead.head? = true) :
    c.outcome [loop.goal] = (c.forward loop.lead).outcome ([loop.rule] ++ [loop.goal]) := by
  apply Checker.outcome_eq_of_after (List.replicate loop.lead .read)
  · cases loop <;> rfl
  · rw [Checker.pursuing, run_of_goesOn loop c.depth goesOn, Checker.pursuing,
      Checker.ahead_forward]
    rfl

theorem outcome_of_not_goesOn (ended : loop.goesOn c.ahead.head? = false) :
    c.outcome [loop.goal] = c.outcome loop.exit :=
  Checker.outcome_eq_of_after [] rfl (run_of_not_goesOn loop c.depth ended)

theorem lt_of_goesOn (goesOn : loop.goesOn c.ahead.head? = true) :
    c.position < c.tokens.length := by
  cases look : c.ahead.head? with
  | none =>
    rw [look] at goesOn
    cases loop <;> cases goesOn
  | some t => exact Checker.lt_of_head?_ahead look

/-- A round reads two tokens or more: in front of a rule that one token meets stands an operator. -/
theorem Round.progress (round : loop.Round c next) :
    c.position + 2 ≤ next.position ∧ next.position ≤ c.tokens.length ∧ next.tokens = c.tokens := by
  obtain ⟨goesOn, hround⟩ := round
  have hinside := lt_of_goesOn goesOn
  have hleast : loop.lead + (completion [loop.rule]).length = 2 ∧ loop.lead ≤ 1 := by
    cases loop <;> decide
  have hlead : (c.forward loop.lead).position = c.position + loop.lead := rfl
  have hlength : (c.forward loop.lead).tokens.length = c.tokens.length := rfl
  obtain rfl : ((c.forward loop.lead).pursue [loop.rule]).2 = next := congrArg Prod.snd hround
  have hmet := Checker.outcome_eq_none_iff.mp (congrArg Prod.fst hround)
  have hread := Checker.position_add_le_of_accepted hmet
  have hend := Checker.position_pursue_le (c := c.forward loop.lead) [loop.rule] (by omega)
  exact ⟨by omega, hend, rfl⟩

/-- So many rounds read twice as many tokens at least, and none beyond the last one. -/
theorem Rounds.progress (rounds : loop.Rounds n c last) (within : c.position ≤ c.tokens.length) :
    c.position + 2 * n ≤ last.position ∧ last.position ≤ c.tokens.length := by
  induction rounds with
  | none c => exact ⟨Nat.le_refl _, within⟩
  | more first rest ih =>
    -- What holds for the rounds behind the first one holds within the same tokens.
    obtain ⟨hfirst, hinside, htokens⟩ := first.progress
    rw [htokens] at ih
    have hrest := ih hinside
    omega

theorem Round.outcome_eq (round : loop.Round c next) :
    c.outcome [loop.goal] = next.outcome [loop.goal] := by
  obtain ⟨goesOn, hround⟩ := round
  have hmet : ((c.forward loop.lead).outcome [loop.rule]).1 = none := congrArg Prod.fst hround
  obtain rfl : ((c.forward loop.lead).outcome [loop.rule]).2 = next := congrArg Prod.snd hround
  rw [outcome_of_goesOn goesOn, Checker.outcome_stacked_of_met [loop.goal] hmet]

theorem outcome_eq_ending (ended : ∀ next, ¬ loop.Round c next) :
    c.outcome [loop.goal] = loop.ending c := by
  rw [ending]
  split
  case isTrue goesOn =>
    have hbroken : ((c.forward loop.lead).outcome [loop.rule]).1 ≠ none := by
      intro hmet
      exact ended _ ⟨goesOn, Prod.ext hmet rfl⟩
    have hlevel : [loop.goal].count .leave = 0 := by cases loop <;> rfl
    rw [outcome_of_goesOn goesOn, Checker.outcome_stacked_of_broken hbroken hlevel]
    rfl
  case isFalse stays => exact outcome_of_not_goesOn (Bool.eq_false_iff.mpr stays)

/-- From anywhere the loop comes to a last round, and ends behind it. -/
theorem exists_rounds (loop : Loop) (c : Checker) :
    ∃ n last, loop.Rounds n c last ∧ (∀ next, ¬ loop.Round last next) ∧
      c.outcome [loop.goal] = loop.ending last := by
  -- Each round leaves fewer tokens to be read.
  induction hleft : c.tokens.length - c.position using Nat.strong_induction_on generalizing c with
  | _ left ih =>
    by_cases ended : ∀ next, ¬ loop.Round c next
    · exact ⟨0, c, .none c, ended, outcome_eq_ending ended⟩
    · obtain ⟨next, first⟩ := not_forall_not.mp ended
      obtain ⟨hread, hinside, htokens⟩ := first.progress
      have hfewer : next.tokens.length - next.position < left := by
        rw [htokens]
        omega
      obtain ⟨n, last, rest, hlast, hending⟩ := ih _ hfewer next rfl
      exact ⟨n + 1, last, .more first rest, hlast, first.outcome_eq.trans hending⟩

end Rounds

end Loop

namespace Checker

/-- From wherever a checker stands no rule takes it back. A rule that is met takes it on by a token
or more, a statement or a body by two or more. Met or not, the rule leaves it at the depth where it
was, and on the way not beyond the limit unless it was there before. So every loop ends: each round
reads two tokens or more, and the goal of the loop leaves what the loop leaves behind its last
round. -/
theorem rules_progress (c : Checker) (within : c.position ≤ c.tokens.length) :
    (∀ goal ∈ Goal.rules,
      let after := (c.pursue [goal]).2
      c.position ≤ after.position ∧ after.position ≤ c.tokens.length ∧
      ((c.pursue [goal]).1.accepted = true → c.position < after.position ∧
        (goal ∈ [.statement, .body] → c.position + 2 ≤ after.position)) ∧
      after.depth = c.depth ∧
      (c.depth ≤ c.limit → ∀ before, before <+: (c.pursuing [goal]).steps →
        depthAfter c.depth before ≤ c.limit)) ∧
    ∀ loop : Loop,
      (∀ n later, loop.Rounds n c later →
        c.position + 2 * n ≤ later.position ∧ later.position ≤ c.tokens.length) ∧
      ∃ n last, loop.Rounds n c last ∧ (∀ next, ¬ loop.Round last next) ∧
        c.outcome [loop.goal] = loop.ending last := by
  refine ⟨?rules, ?loops⟩
  case rules =>
    intro goal hgoal after
    obtain ⟨hlevel, hone, htwo⟩ := Goal.least_of_mem_rules goal hgoal
    refine ⟨c.le_position_pursue [goal], position_pursue_le [goal] within, ?read,
      depth_pursue hlevel, ?levels⟩
    case read =>
      intro haccepted
      have hread : c.position + (completion [goal]).length ≤ after.position :=
        position_add_le_of_accepted haccepted
      refine ⟨by omega, fun hlong => ?_⟩
      have hleast := htwo hlong
      omega
    case levels =>
      intro hdepth
      exact peak_le_iff.mp (peak_run_le c.ahead [goal] c.depth hdepth)
  case loops =>
    intro loop
    exact ⟨fun n later rounds => rounds.progress within, loop.exists_rounds c⟩

/-- Inside the block of `if (x) { y = (1) + z; w; }`, one level below the limit: the assignment
opens the last level for its parenthesis and leaves it again. -/
theorem rules_progress_in_block :
    let tokens := place .origin [⟨.keyword, ['i', 'f']⟩, ⟨.operator, ['(']⟩, ⟨.identifier, ['x']⟩,
      ⟨.operator, [')']⟩, ⟨.operator, ['\x7b']⟩, ⟨.identifier, ['y']⟩, ⟨.operator, ['=']⟩,
      ⟨.operator, ['(']⟩, ⟨.number, ['1']⟩, ⟨.operator, [')']⟩, ⟨.operator, ['+']⟩,
      ⟨.identifier, ['z']⟩, ⟨.operator, [';']⟩, ⟨.identifier, ['w']⟩, ⟨.operator, [';']⟩,
      ⟨.operator, ['\x7d']⟩]
    let c : Checker := ⟨tokens, 5, 1, 2⟩
    c.position ≤ c.tokens.length ∧ (c.pursue [.statement]).1.accepted = true ∧
      7 ≤ (c.pursue [.statement]).2.position ∧ (c.pursue [.statement]).2.depth = 1 ∧
      [.begin .assignment, .read, .read, .enter] <+: (c.pursuing [.statement]).steps ∧
      depthAfter 1 [.begin .assignment, .read, .read, .enter] ≤ 2 ∧
      ∃ n last, Loop.block.Rounds n c last ∧ 5 + 2 * n ≤ last.position ∧
        c.outcome [.blockRest] = Loop.block.ending last := by
  intro tokens c
  have hwithin : c.position ≤ c.tokens.length := by decide
  have haccepted : (c.pursue [.statement]).1.accepted = true := by decide
  have hsteps : [.begin .assignment, .read, .read, .enter] <+:
      (c.pursuing [.statement]).steps := by decide
  obtain ⟨hrules, hloops⟩ := rules_progress c hwithin
  obtain ⟨-, -, hread, hdepth, hlevels⟩ := hrules .statement (by decide)
  obtain ⟨hrounds, n, last, rounds, -, hending⟩ := hloops .block
  exact ⟨hwithin, haccepted, (hread haccepted).2 (by decide), hdepth, hsteps,
    hlevels (by decide) _ hsteps, n, last, rounds, (hrounds n last rounds).1, hending⟩

end Checker
end SyntaxPaint
