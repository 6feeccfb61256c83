import SyntaxPaint.Proofs.Grammar.Forms
import SyntaxPaint.Proofs.Grammar.Question
/-!
# The checker accepts the grammar

The checker never goes back: a goal that can read what stands in front of it does so, even where
the grammar would let it be left out. No word is lost by that. Whatever goal further down could
have read the lexeme is of the same form, so what it reads can be attached to the topmost one; this
settles which `if` an `else` belongs to.
-/
namespace SyntaxPaint

/-! ## Stacks in order -/

/-- What stands below a goal: nothing below one that reads to the end of the text, and a semicolon
below one that may be left out in front of it. -/
def Goal.Precedes : Goal → List Goal → Prop
  | program, goals | endOfInput, goals => goals = []
  | initializer, goals | returnValue, goals => goals.head? = some (.mark .semicolon)
  | _, _ => True

def Orderly : List Goal → Prop
  | [] => True
  | goal :: goals => goal.Precedes goals ∧ Orderly goals

/-- The stack is in order where the move reads. -/
def Move.KeepsOrder (move : Move) (goals : List Goal) : Prop :=
  ∀ form next, move = .read form next → Orderly (next ++ goals)

section Order

variable {t : Terminal} {goals : List Goal}

private theorem keepsOrder_followedBy {move : Move} {more : List Goal}
    (h : move.KeepsOrder (more ++ goals)) : (move.followedBy more).KeepsOrder goals := by
  intro form next hread
  rcases Move.followedBy_eq_read_iff.mp hread with ⟨first, hfirst, rfl⟩
  rw [List.append_assoc]
  exact h form first hfirst

private theorem statementMove_keepsOrder (h : Orderly goals) :
    (Goal.statementMove t).KeepsOrder goals := by
  intro form next hread
  cases t <;> simp only [Goal.statementMove, Move.read.injEq, reduceCtorEq] at hread
  all_goals
    rcases hread with ⟨-, rfl⟩
    simp [Goal.condition, Orderly, Goal.Precedes, h]

private theorem factorMove_keepsOrder (h : Orderly goals) :
    (Goal.factorMove t).KeepsOrder goals := by
  intro form next hread
  simp only [Goal.factorMove] at hread
  split at hread
  all_goals
    cases hread
    try simp [Orderly, Goal.Precedes, h]

private theorem termMove_keepsOrder (h : Orderly goals) : (Goal.termMove t).KeepsOrder goals :=
  keepsOrder_followedBy (factorMove_keepsOrder ⟨trivial, h⟩)

private theorem expressionMove_keepsOrder (h : Orderly goals) :
    (Goal.expressionMove t).KeepsOrder goals :=
  keepsOrder_followedBy (termMove_keepsOrder ⟨trivial, h⟩)

theorem Goal.move_keepsOrder (goal : Goal) (orderly : Orderly (goal :: goals)) :
    (goal.move t).KeepsOrder goals := by
  rcases orderly with ⟨below, rest⟩
  cases goal with
  | program => exact keepsOrder_followedBy (statementMove_keepsOrder ⟨below, rest⟩)
  | statement => exact statementMove_keepsOrder rest
  | body =>
    by_cases brace : t = .mark .openBrace
    · subst brace
      intro form next hread
      cases hread
      exact ⟨trivial, trivial, rest⟩
    · rw [body_move brace]
      exact keepsOrder_followedBy (statementMove_keepsOrder ⟨trivial, rest⟩)
  | blockRest =>
    by_cases brace : t = .mark .closeBrace
    · subst brace
      intro form next hread
      cases hread
      exact rest
    · rw [blockRest_move brace]
      exact keepsOrder_followedBy (statementMove_keepsOrder ⟨trivial, rest⟩)
  | returnValue =>
    rw [move]
    split
    · intro form next hread
      cases hread
    · exact expressionMove_keepsOrder rest
  | expression => exact expressionMove_keepsOrder rest
  | term => exact termMove_keepsOrder rest
  | factor => exact factorMove_keepsOrder rest
  | mark m =>
    intro form next hread
    rw [move] at hread
    split at hread
    · cases hread
      exact rest
    · cases hread
  | _ =>
    intro form next hread
    cases t with
    | mark m => cases m <;> cases hread <;> exact ⟨trivial, rest⟩
    | _ => cases hread <;> simp [Orderly, Precedes, rest]

end Order

/-! ## Attachment -/

/-- No other goal reads the terminal. -/
def Goal.ReadsAlone (goal : Goal) (t : Terminal) : Prop :=
  ∀ other form next, Goal.move other t = .read form next → other = goal

section Attachment

variable {t : Token} {goal : Goal} {goals : List Goal} {w : List Lexeme}

private theorem readsAlone_of_busy {x : Terminal}
    (repeats : goal ∈ [.elseBranch, .moreTerms, .moreFactors]) (busy : goal.move x ≠ .pass) :
    goal.ReadsAlone x := by
  intro other form next hread
  simp only [List.mem_cons, List.not_mem_nil, or_false] at repeats
  rcases repeats with rfl | rfl | rfl
  case inl =>
    cases x with
    | elseWord => cases other <;> cases hread; rfl
    | _ => exact absurd rfl busy
  case inr.inl =>
    cases x with
    | additive => cases other <;> cases hread; rfl
    | _ => exact absurd rfl busy
  case inr.inr =>
    cases x with
    | multiplicative => cases other <;> cases hread; rfl
    | _ => exact absurd rfl busy

private theorem leads_of_readsAlone (alone : goal.ReadsAlone t.terminal)
    (void : goal.missing = none) (h : Derives (stackEbnf goals) (t.lexeme :: w)) :
    ((goal.move t.terminal).followedBy goals).Leads w := by
  induction goals with
  | nil => cases derives_stack_nil_iff.mp h
  | cons other goals ih =>
    rw [leads_followedBy_iff]
    rcases derives_stack_cons_cons_iff.mp h with hfirst | ⟨hempty, hrest⟩
    · rcases leads_followedBy_iff.mp hfirst with ⟨u, v, rfl, hother, hrest⟩
      rcases hother with ⟨form, next, hread, hnext⟩
      obtain rfl := alone other form next hread
      have hnone : Derives other.ebnf [] := other.derives_nil_iff.mpr void
      exact ⟨u, v, rfl, ⟨form, next, hread, hnext⟩,
        derives_stack_cons_iff.mpr ⟨[], v, rfl, hnone, hrest⟩⟩
    · rcases leads_followedBy_iff.mp (ih hrest) with ⟨u, v, rfl, hgoal, hrest⟩
      have hnone : Derives other.ebnf [] := other.derives_nil_iff.mpr hempty
      exact ⟨u, v, rfl, hgoal, derives_stack_cons_iff.mpr ⟨[], v, rfl, hnone, hrest⟩⟩

private theorem terminal_of_semicolon_below (below : goals.head? = some (.mark .semicolon))
    (h : Derives (stackEbnf goals) (t.lexeme :: w)) : t.terminal = .mark .semicolon := by
  cases goals with
  | nil => cases below
  | cons other goals =>
    obtain rfl : other = .mark .semicolon := Option.some.inj below
    rcases derives_stack_cons_cons_iff.mp h with hfirst | ⟨hempty, -⟩
    · by_cases heq : t.terminal = .mark .semicolon
      · exact heq
      · simp [Goal.move, heq, Move.followedBy] at hfirst
    · cases hempty

/-- A goal that is left out although it does not ask for nothing could have been read. -/
private theorem leads_of_left_out (orderly : Orderly (goal :: goals))
    (busy : goal.move t.terminal ≠ .pass) (void : goal.missing = none)
    (h : Derives (stackEbnf goals) (t.lexeme :: w)) :
    ((goal.move t.terminal).followedBy goals).Leads w := by
  have below := orderly.1
  cases goal with
  | program | endOfInput =>
    obtain rfl : goals = [] := below
    cases derives_stack_nil_iff.mp h
  | initializer | returnValue =>
    rw [terminal_of_semicolon_below below h] at busy
    exact absurd rfl busy
  | elseBranch | moreTerms | moreFactors =>
    exact leads_of_readsAlone (readsAlone_of_busy (by decide) busy) void h
  | leave => exact absurd rfl busy
  | _ => cases void

/-- A goal that does not ask for nothing decides alone what a stack in order reads. -/
theorem derives_stack_iff_leads (orderly : Orderly (goal :: goals))
    (busy : goal.move t.terminal ≠ .pass) :
    Derives (stackEbnf (goal :: goals)) (t.lexeme :: w) ↔
      ((goal.move t.terminal).followedBy goals).Leads w := by
  rw [derives_stack_cons_cons_iff]
  apply or_iff_left_of_imp
  intro h
  exact leads_of_left_out orderly busy h.1 h.2

theorem derives_stack_iff_of_pass {tokens : List Token}
    (passes : goal.answer (tokens.map Token.terminal).head? = .pass) :
    Derives (stackEbnf (goal :: goals)) (tokens.map Token.lexeme) ↔
      Derives (stackEbnf goals) (tokens.map Token.lexeme) := by
  have void : goal.missing = none := Goal.missing_of_pass passes
  cases tokens with
  | nil => simp [derives_stack_cons_nil_iff, void]
  | cons t tokens =>
    have passes : goal.move t.terminal = .pass := passes
    rw [List.map_cons, derives_stack_cons_cons_iff, passes]
    simp [Move.followedBy, void]

theorem not_derives_stack_of_refuse {tokens : List Token} {e : Expected}
    (orderly : Orderly (goal :: goals))
    (refused : goal.answer (tokens.map Token.terminal).head? = .refuse e) :
    ¬ Derives (stackEbnf (goal :: goals)) (tokens.map Token.lexeme) := by
  cases tokens with
  | nil =>
    rw [List.map_nil, derives_stack_cons_nil_iff]
    intro h
    simp [Goal.answer, h.1] at refused
  | cons t tokens =>
    have refused : goal.move t.terminal = .refuse e := refused
    rw [List.map_cons, derives_stack_iff_leads orderly (by simp [refused]), refused]
    exact not_leads_refuse

end Attachment

/-! ## Runs -/

/-- The stack ends with a goal that takes care of the end of input. -/
def Anchored (goals : List Goal) : Prop := .program ∈ goals ∨ .endOfInput ∈ goals

private theorem anchored_of_read {t : Terminal} {goal : Goal} {goals next : List Goal}
    {form : Option Form} (reads : goal.move t = .read form next)
    (anchored : Anchored (goal :: goals)) : Anchored (next ++ goals) := by
  simp only [Anchored, List.mem_cons, List.mem_append] at anchored ⊢
  rcases anchored with (rfl | hgoals) | (rfl | hgoals)
  · rcases Move.followedBy_eq_read_iff.mp reads with ⟨first, -, rfl⟩
    simp
  · exact .inl (.inr hgoals)
  · cases reads
  · exact .inr (.inr hgoals)

private theorem anchored_of_pass {t : Terminal} {goal : Goal} {goals : List Goal}
    (passes : goal.move t = .pass) (anchored : Anchored (goal :: goals)) : Anchored goals := by
  simp only [Anchored, List.mem_cons] at anchored ⊢
  rcases anchored with (rfl | hgoals) | (rfl | hgoals)
  · exact absurd (Move.followedBy_eq_pass_iff.mp passes) Goal.statementMove_ne_pass
  · exact .inl hgoals
  · cases passes
  · exact .inr hgoals

theorem run_taken_of_met {limit : Nat} (ts : List Terminal) (goals : List Goal) (depth : Nat)
    (anchored : ts ≠ [] → Anchored goals) (met : (run limit ts goals depth).cause = none) :
    (run limit ts goals depth).taken = ts.length := by
  induction ts, goals, depth, met using run_met_induction limit with
  | done ts depth met =>
    cases ts with
    | nil => rw [run_nil]; rfl
    | cons t ts => simp [Anchored] at anchored
  | read t ts goal goals depth form next met rest room reads ih =>
    have hrest := ih (fun _ => anchored_of_read reads (anchored (by simp)))
    rw [taken_of_read goals room reads, hrest, List.length_cons]
  | leave ts goals depth met rest ih =>
    have hrest := ih (fun hts => by simpa [Anchored] using anchored hts)
    rw [taken_of_leave, hrest]
  | pass ts goal goals depth met rest stays passes ih =>
    rw [run_pass goals stays passes]
    refine ih (fun hts => ?_)
    cases ts with
    | nil => exact absurd rfl hts
    | cons t ts => exact anchored_of_pass passes (anchored hts)

/-- Without a limit in its way, a run meets the goals of a stack in order exactly if the stack
reads the lexemes of the tokens. -/
theorem run_met_iff {limit : Nat} (tokens : List Token) (goals : List Goal) (depth : Nat)
    (ample : depth + tokens.length < limit) (orderly : Orderly goals)
    (anchored : tokens ≠ [] → Anchored goals) :
    (run limit (tokens.map Token.terminal) goals depth).cause = none ↔
      Derives (stackEbnf goals) (tokens.map Token.lexeme) := by
  generalize hts : tokens.map Token.terminal = ts
  induction ts, goals, depth using run_induction limit generalizing tokens with
  | done ts depth =>
    cases tokens with
    | nil => simp [run_nil]
    | cons t tokens => simp [Anchored] at anchored
  | tooDeep ts goal goals depth opens full => omega
  | refuse ts goal goals depth e room refused =>
    subst hts
    rw [run_refuse goals room refused]
    have hnone := not_derives_stack_of_refuse orderly refused
    simp [hnone]
  | read x ts goal goals depth form next room reads ih =>
    rcases List.map_eq_cons_iff.mp hts with ⟨t, rest, rfl, rfl, hrest⟩
    have hbelow := goal.depthBelow_le_succ (some t.terminal) depth
    have busy : goal.move t.terminal ≠ .pass := by simp [reads]
    rw [run_read goals room reads, Run.after_cause, List.map_cons,
      derives_stack_iff_leads orderly busy, reads, Move.followedBy, leads_read_iff]
    apply ih rest ?_ (goal.move_keepsOrder orderly form next reads) ?_ hrest
    · simp only [List.length_cons] at ample
      omega
    · intro _
      exact anchored_of_read reads (anchored (by simp))
  | leave ts goals depth ih =>
    rw [run_leave, Run.after_cause]
    subst hts
    have hpass := Goal.answer_leave (tokens.map Token.terminal).head?
    rw [derives_stack_iff_of_pass hpass]
    apply ih tokens (by omega) orderly.2 ?_ rfl
    intro hne
    simpa [Anchored] using anchored hne
  | pass ts goal goals depth stays passes ih =>
    rw [run_pass goals stays passes]
    subst hts
    rw [derives_stack_iff_of_pass passes]
    apply ih tokens ample orderly.2 ?_ rfl
    intro hne
    cases tokens with
    | nil => exact absurd rfl hne
    | cons t tokens => exact anchored_of_pass passes (anchored hne)

/-- The form of the grammar that a question is about. -/
def Question.ebnf : Question → Ebnf
  | program => .many (.rule .statement)
  | block => .rule .blockOrStatement

namespace Checker

variable {tokens : List Token} {limit : Nat}

theorem derives_goals_iff (q : Question) {w : List Lexeme} :
    Derives (stackEbnf q.goals) w ↔ Derives q.ebnf w := by
  cases q with
  | program => rfl
  | block => simp [Question.goals, derives_stack_cons_iff, Goal.ebnf, Question.ebnf]

theorem orderly_goals (q : Question) : Orderly q.goals := by
  cases q <;> simp [Question.goals, Orderly, Goal.Precedes]

private theorem anchored_goals (q : Question) : Anchored q.goals := by
  cases q <;> simp [Question.goals, Anchored]

theorem accepted_iff (q : Question) (ample : (significant tokens).length < limit) :
    ((new tokens limit).ask q).1.accepted = true ↔
      Derives q.ebnf ((significant tokens).map Token.lexeme) := by
  rw [ask_accepted, answering_new, ← derives_goals_iff]
  exact run_met_iff _ q.goals 0 (by simpa using ample) (orderly_goals q)
    (fun _ => anchored_goals q)

private theorem position_of_accepted (q : Question)
    (accepted : ((new tokens limit).ask q).1.accepted = true) :
    ((new tokens limit).ask q).2.position = (significant tokens).length := by
  rw [ask_accepted, answering_new] at accepted
  rw [ask_position, answering_new, run_taken_of_met _ _ _ (fun _ => anchored_goals q) accepted]
  simp [new]

/-- Where the nesting limit is out of reach, a program is accepted exactly if it is a sequence of
statements of the grammar, and a block exactly if it is one block or statement; either has then
been read to its end. -/
theorem accepted_iff_derives (tokens : List Token) (limit : Nat)
    (ample : (significant tokens).length < limit) :
    let checker := new tokens limit
    let word := (significant tokens).map Token.lexeme
    (checker.program.1.accepted = true ↔ Derives (.many (.rule .statement)) word) ∧
    (checker.block.1.accepted = true ↔ Derives (.rule .blockOrStatement) word) ∧
    (checker.program.1.accepted = true → checker.program.2.position = (significant tokens).length ∧
      checker.program.2.atEnd = true) ∧
    (checker.block.1.accepted = true → checker.block.2.position = (significant tokens).length ∧
      checker.block.2.atEnd = true) := by
  intro checker word
  have hend (q : Question) (haccepted : (checker.ask q).1.accepted = true) :
      (checker.ask q).2.position = (significant tokens).length ∧
        (checker.ask q).2.atEnd = true := by
    have hposition : (checker.ask q).2.position = (significant tokens).length :=
      position_of_accepted q haccepted
    have htokens : (checker.ask q).2.tokens = significant tokens := by
      rw [ask_checker]
      rfl
    refine ⟨hposition, ?_⟩
    simp [atEnd, hposition, htokens]
  exact ⟨accepted_iff .program ample, accepted_iff .block ample, hend .program, hend .block⟩

/-- `if (x) if (y) z; else w;` is a word of the grammar, whichever `if` the `else` belongs to. -/
theorem accepted_iff_derives_dangling_else :
    let word : List Lexeme := [⟨.keyword, ['i', 'f']⟩, ⟨.operator, ['(']⟩, ⟨.identifier, ['x']⟩,
      ⟨.operator, [')']⟩, ⟨.keyword, ['i', 'f']⟩, ⟨.operator, ['(']⟩, ⟨.identifier, ['y']⟩,
      ⟨.operator, [')']⟩, ⟨.identifier, ['z']⟩, ⟨.operator, [';']⟩,
      ⟨.keyword, ['e', 'l', 's', 'e']⟩, ⟨.identifier, ['w']⟩, ⟨.operator, [';']⟩]
    (significant (place .origin word)).length < 14 ∧
      (new (place .origin word) 14).program.2.position = 13 ∧
      Derives (.many (.rule .statement)) word ∧ Derives (.rule .blockOrStatement) word := by
  intro word
  have hample : (significant (place .origin word)).length < 14 := by decide
  rcases accepted_iff_derives (place .origin word) 14 hample with ⟨hprogram, hblock, hread, -⟩
  have hword : (significant (place .origin word)).map Token.lexeme = word := by decide
  rw [hword] at hprogram hblock
  have hposition := (hread (by decide)).1
  exact ⟨hample, hposition.trans (by decide), hprogram.mp (by decide), hblock.mp (by decide)⟩

end Checker

end SyntaxPaint
