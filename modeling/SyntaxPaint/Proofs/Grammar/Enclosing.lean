import SyntaxPaint.Proofs.Grammar.Resuming
import SyntaxPaint.Proofs.Grammar.Table
/-!
# A program in braces

A block is a program in braces, one level deeper. The two read their statements in different loops:
a program to the end of the input, and a block to its closing brace. Inside a statement they have
the same goals, so a run of one is followed step by step by a run of the other, and they part only
where the program is at its end or a brace stands where a statement would begin.
-/
namespace SyntaxPaint

/-! ## The two stacks -/

/-- What stands in a block for a goal of a program: the program is the rest of the block. -/
def Goal.inBraces : Goal → List Goal
  | program => [blockRest, leave, endOfInput]
  | goal => [goal]

section Stacks

variable {goal : Goal} {goals : List Goal}

theorem Goal.inBraces_eq_self (inner : goal.isInner = true) : goal.inBraces = [goal] := by
  cases goal with
  | program => cases inner
  | _ => rfl

theorem flatMap_inBraces_cons (inner : goal.isInner = true) :
    (goal :: goals).flatMap Goal.inBraces = goal :: goals.flatMap Goal.inBraces := by
  rw [List.flatMap_cons, Goal.inBraces_eq_self inner, List.singleton_append]

theorem flatMap_inBraces_append {next : List Goal} (inner : ∀ g ∈ next, Goal.isInner g = true) :
    (next ++ goals).flatMap Goal.inBraces = next ++ goals.flatMap Goal.inBraces := by
  induction next with
  | nil => rfl
  | cons g next ih =>
    rw [List.forall_mem_cons] at inner
    rw [List.cons_append, flatMap_inBraces_cons inner.1, ih inner.2, List.cons_append]

theorem blockRest_mem_of_grounded (grounded : Grounded goals) :
    .blockRest ∈ goals.flatMap Goal.inBraces := by
  rcases grounded with ⟨inner, rfl, -⟩
  simp [Goal.inBraces]

end Stacks

/-! ## In front of the closing brace -/

section Closing

variable {limit : Nat} {goal : Goal} {goals : List Goal} {depth : Nat}

theorem Goal.opensLevel_append {ts : List Terminal} (t : Terminal)
    (opens : goal.opensLevel ts.head? = true) : goal.opensLevel (ts ++ [t]).head? = true := by
  cases ts with
  | nil =>
    cases goal with
    | body => rfl
    | _ => cases opens
  | cons x ts => exact opens

theorem Goal.move_closeBrace (inner : goal.isInner = true) (void : goal.missing = none) :
    goal.move (.mark .closeBrace) = .pass := by
  cases goal with
  | program | endOfInput => cases inner
  | elseBranch | initializer | returnValue | moreTerms | moreFactors | leave => rfl
  | _ => cases void

theorem not_met_closeBrace (misses : goal.missing ≠ none) (outer : .blockRest ∈ goals) :
    (run limit [.mark .closeBrace] (goal :: goals) depth).cause ≠ none := by
  intro met
  have hroom := hasRoom_of_met met
  cases hanswer : goal.move (.mark .closeBrace) with
  | pass => exact misses (Goal.missing_of_move_pass hanswer)
  | refuse e => exact answer_ne_refuse_of_met met e hanswer
  | read form next =>
    rw [run_read goals hroom hanswer, Run.after_cause] at met
    have hvoid := missing_of_met _ _ met .blockRest (List.mem_append_right _ outer)
    cases hvoid

theorem not_met_behind_block (ts : List Terminal) (t : Terminal) :
    (run limit (ts ++ [t]) [.leave, .endOfInput] depth).cause ≠ none := by
  rw [run_leave, Run.after_cause]
  intro met
  apply answer_ne_refuse_of_met met .endOfInput
  cases ts <;> rfl

theorem met_closeBrace :
    (run limit [.mark .closeBrace] (Goal.program.inBraces) (depth + 1)).cause = none := by
  simp [Goal.inBraces, run, meet, close, Goal.move, Goal.missing, Goal.opensLevel]

end Closing

/-! ## The two runs -/

theorem Goal.hasRoom_succ_iff {goal : Goal} {look : Option Terminal} {limit depth : Nat} :
    goal.HasRoom look (limit + 1) (depth + 1) ↔ goal.HasRoom look limit depth := by
  simp [HasRoom]

theorem Goal.depthBelow_succ (goal : Goal) (look : Option Terminal) (depth : Nat) :
    goal.depthBelow look (depth + 1) = goal.depthBelow look depth + 1 := by
  rw [depthBelow, depthBelow]
  split <;> rfl

theorem Goal.blockRest_move_of_program {t : Terminal} {inner : List Goal} {form : Option Form}
    (reads : statement.move t = .read form inner) :
    blockRest.move t = .read form (inner ++ [.blockRest]) := by
  have noBrace : t ≠ .mark .closeBrace := by
    intro h
    subst h
    cases reads
  have reads : statementMove t = .read form inner := reads
  rw [blockRest_move noBrace, reads]
  rfl

section Refusal

variable {limit : Nat} {ts : List Terminal} {goal : Goal} {goals : List Goal} {depth : Nat}
  {e : Expected}

/-- Where a program refuses a statement, the block refuses it too, or ends too early. -/
theorem not_met_block_of_refuse {t : Terminal} (refused : Goal.program.move t = .refuse e) :
    (run limit (t :: ts ++ [.mark .closeBrace]) Goal.program.inBraces depth).cause ≠ none := by
  intro met
  rw [Goal.inBraces] at met
  by_cases brace : t = .mark .closeBrace
  · subst brace
    rw [List.cons_append, run_read _ (hasRoom_of_met met) rfl, Run.after_cause] at met
    exact not_met_behind_block ts _ met
  · apply answer_ne_refuse_of_met met e
    show Goal.blockRest.move t = .refuse e
    rw [Goal.blockRest_move brace, Move.followedBy_eq_refuse_iff]
    exact Move.followedBy_eq_refuse_iff.mp refused

theorem not_met_inBraces_of_refuse (grounded : Grounded (goal :: goals))
    (refused : goal.answer ts.head? = .refuse e) :
    (run limit (ts ++ [.mark .closeBrace]) ((goal :: goals).flatMap Goal.inBraces)
      depth).cause ≠ none := by
  rcases grounded_cons_iff.mp grounded with ⟨rfl, rfl⟩ | ⟨inner, below⟩
  · cases ts with
    | nil => cases refused
    | cons t ts => exact not_met_block_of_refuse refused
  · rw [flatMap_inBraces_cons inner]
    cases ts with
    | nil =>
      apply not_met_closeBrace ?_ (blockRest_mem_of_grounded below)
      intro void
      simp [Goal.answer, void] at refused
    | cons t ts =>
      intro met
      exact answer_ne_refuse_of_met met e refused

end Refusal

/-- A run of a program meets its goals exactly if the run of the block meets them that has one more
level, and the closing brace behind the same text. -/
theorem run_inBraces_met_iff (limit : Nat) (ts : List Terminal) (goals : List Goal) (depth : Nat)
    (grounded : Grounded goals) (opened : goals.count .leave ≤ depth) :
    (run limit ts goals depth).cause = none ↔
      (run (limit + 1) (ts ++ [.mark .closeBrace]) (goals.flatMap Goal.inBraces)
        (depth + 1)).cause = none := by
  induction ts, goals, depth using run_induction limit with
  | done ts depth => exact absurd grounded not_grounded_nil
  | tooDeep ts goal goals depth opens full =>
    rcases grounded_cons_iff.mp grounded with ⟨rfl, rfl⟩ | ⟨inner, -⟩
    · cases ts <;> cases opens
    · have opens' := Goal.opensLevel_append (.mark .closeBrace) opens
      rw [run_tooDeep ts goals opens full, flatMap_inBraces_cons inner,
        run_tooDeep _ _ opens' (Nat.succ_le_succ full)]
  | refuse ts goal goals depth e room refused =>
    rw [run_refuse goals room refused]
    exact iff_of_false (Option.some_ne_none _) (not_met_inBraces_of_refuse grounded refused)
  | read t ts goal goals depth form next room reads ih =>
    have opened' : (next ++ goals).count .leave ≤ goal.depthBelow (some t) depth := by
      rw [count_leave_of_read reads] at opened
      rw [Goal.depthBelow_of_read reads, List.count_append]
      omega
    rw [run_read goals room reads, Run.after_cause, ih (grounded.read reads) opened']
    -- Both runs read `t`: between two statements with their own goals, else with the same one.
    rcases grounded_cons_iff.mp grounded with ⟨rfl, rfl⟩ | ⟨inner, -⟩
    · rcases exists_inner_of_program reads with ⟨first, hstatement, rfl, hfirst⟩
      have hreads := Goal.blockRest_move_of_program hstatement
      have hstack : (first ++ [Goal.program] ++ []).flatMap Goal.inBraces =
          first ++ [.blockRest] ++ [.leave, .endOfInput] := by
        rw [List.append_nil, flatMap_inBraces_append hfirst, List.append_assoc]
        rfl
      rw [hstack, List.flatMap_singleton, Goal.inBraces, List.cons_append,
        run_read _ (Goal.hasRoom_of_closed rfl) hreads, Run.after_cause]
      rfl
    · have hnext := Goal.isInner_of_inner_read inner reads
      have room' := Goal.hasRoom_succ_iff.mpr room
      rw [flatMap_inBraces_cons inner, flatMap_inBraces_append hnext, List.cons_append,
        run_read _ room' reads, Run.after_cause, Goal.depthBelow_succ]
  | leave ts goals depth ih =>
    rw [List.count_cons_self] at opened
    rw [run_leave, Run.after_cause, flatMap_inBraces_cons rfl, run_leave, Run.after_cause,
      ih grounded.of_leave (by omega)]
    have hdepth : depth - 1 + 1 = depth + 1 - 1 := by omega
    rw [hdepth]
  | pass ts goal goals depth stays passes ih =>
    rcases grounded_cons_iff.mp grounded with ⟨rfl, rfl⟩ | ⟨inner, below⟩
    · obtain rfl := eq_nil_of_program_passes passes
      rw [run_pass [] stays passes, run_nil]
      exact iff_of_true rfl met_closeBrace
    · have passes' : goal.answer (ts ++ [Terminal.mark .closeBrace]).head? = .pass := by
        cases ts with
        | nil => exact Goal.move_closeBrace inner (Goal.missing_of_pass passes)
        | cons t ts => exact passes
      rw [List.count_cons_of_ne stays] at opened
      rw [run_pass goals stays passes, flatMap_inBraces_cons inner, run_pass _ stays passes',
        ih below opened]

namespace Checker

/-- Tokens between an opening and a closing brace; the braces may stand anywhere. -/
def braced (first last : Span) (tokens : List Token) : List Token :=
  ⟨.operator, [Mark.openBrace.char], first⟩ :: (tokens ++
    [⟨.operator, [Mark.closeBrace.char], last⟩])

private theorem map_terminal_braced (first last : Span) (tokens : List Token) :
    (significant (braced first last tokens)).map Token.terminal =
      .mark .openBrace :: ((significant tokens).map Token.terminal ++ [.mark .closeBrace]) := by
  have hopening : Terminal.ofOperator (String.ofList ['\x7b']) = .mark .openBrace := by decide
  have hclosing : Terminal.ofOperator (String.ofList ['\x7d']) = .mark .closeBrace := by decide
  simp [significant, braced, Token.isTrivia, Kind.isTrivia, Token.terminal, Mark.char, hopening,
    hclosing]

private theorem run_body_of_openBrace (limit : Nat) (ts : List Terminal) :
    (run (limit + 1) (.mark .openBrace :: ts) [.body, .endOfInput] 0).cause =
      (run (limit + 1) ts Goal.program.inBraces 1).cause := by
  have hroom : Goal.body.HasRoom (some (.mark .openBrace)) (limit + 1) 0 :=
    fun _ => Nat.succ_pos limit
  have hreads : Goal.body.move (.mark .openBrace) = .read none [.blockRest, .leave] := rfl
  rw [run_read _ hroom hreads, Run.after_cause]
  rfl

/-- Tokens are a program exactly if they are a block in braces, under a limit of one level more;
this is so for all tokens, whatever braces are among them. -/
theorem program_iff_block_braced (tokens : List Token) (limit : Nat) (first last : Span) :
    (new tokens limit).program.1.accepted = true ↔
      (new (braced first last tokens) (limit + 1)).block.1.accepted = true := by
  have hprogram := ask_accepted (new tokens limit) .program
  have hblock := ask_accepted (new (braced first last tokens) (limit + 1)) .block
  rw [answering_new] at hprogram hblock
  rw [map_terminal_braced, Question.goals, run_body_of_openBrace] at hblock
  have hruns := run_inBraces_met_iff limit ((significant tokens).map Token.terminal)
    [.program] 0 grounded_program (Nat.le_refl 0)
  rw [List.flatMap_singleton] at hruns
  exact hprogram.trans (hruns.trans hblock.symm)

end Checker

end SyntaxPaint
