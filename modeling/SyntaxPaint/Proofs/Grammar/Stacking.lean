import SyntaxPaint.Proofs.Grammar.Depth
import SyntaxPaint.Proofs.Grammar.Question
/-!
# One stack above another

A stack of goals is worked off from its top. Where the goals above are met the run goes on with
those below as if it began there; where they are not met, all that becomes of those below is that
their levels are left. So what a checker makes of many goals is what it makes of them one by one.
-/
namespace SyntaxPaint

/-! ## Runs -/

section Runs

variable {limit : Nat}

theorem Run.after_after (first second : List Step) (r : Run) :
    (r.after second).after first = r.after (first ++ second) := by
  simp [Run.after]

theorem abandon_append (goals lower : List Goal) :
    abandon (goals ++ lower) = abandon goals ++ abandon lower := by
  simp [abandon]

theorem abandon_of_count_eq_zero {goals : List Goal} (level : goals.count .leave = 0) :
    abandon goals = [] := by
  have hnone : ∀ g ∈ goals, ¬ (g == .leave) = true := by
    intro g hg hleave
    obtain rfl := eq_of_beq hleave
    exact List.count_eq_zero.mp level hg
  rw [abandon, List.filter_eq_nil_iff.mpr hnone, List.map_nil]

/-- Behind the goals that it has met, a run goes on with those below where it stands. -/
theorem run_stacked_of_met (ts : List Terminal) (goals lower : List Goal) (depth : Nat)
    (met : (run limit ts goals depth).cause = none) :
    run limit ts (goals ++ lower) depth =
      (run limit (ts.drop (run limit ts goals depth).taken) lower
        (depthAfter depth (run limit ts goals depth).steps)).after
        (run limit ts goals depth).steps := by
  induction ts, goals, depth, met using run_met_induction limit with
  | done ts depth met =>
    rw [run_nil]
    rfl
  | read t ts goal goals depth form next met rest room reads ih =>
    rw [List.cons_append, taken_of_read goals room reads, run_read _ room reads,
      run_read _ room reads, ← List.append_assoc, ih, List.drop_succ_cons, Run.after_steps,
      depthAfter_append, goal.depthAfter_reading, Run.after_after]
  | leave ts goals depth met rest ih =>
    rw [List.cons_append, taken_of_leave, run_leave, run_leave, ih, Run.after_steps,
      depthAfter_append, depthAfter_leave, Run.after_after]
  | pass ts goal goals depth met rest stays passes ih =>
    rw [List.cons_append, run_pass _ stays passes, run_pass _ stays passes, ih]

/-- Where the goals above are not met, those below are only abandoned. -/
theorem run_stacked_of_broken (ts : List Terminal) (goals lower : List Goal) (depth : Nat)
    (broken : (run limit ts goals depth).cause ≠ none) :
    run limit ts (goals ++ lower) depth =
      ⟨(run limit ts goals depth).steps ++ abandon lower, (run limit ts goals depth).cause⟩ := by
  induction ts, goals, depth using run_induction limit with
  | done ts depth =>
    rw [run_nil] at broken
    exact absurd rfl broken
  | tooDeep ts goal goals depth opens full =>
    rw [List.cons_append, run_tooDeep ts _ opens full, run_tooDeep ts _ opens full, abandon_append]
  | refuse ts goal goals depth e room refused =>
    rw [List.cons_append, run_refuse _ room refused, run_refuse _ room refused, abandon_append,
      List.append_assoc]
  | read t ts goal goals depth form next room reads ih =>
    rw [run_read goals room reads, Run.after_cause] at broken
    rw [List.cons_append, run_read _ room reads, run_read _ room reads, ← List.append_assoc,
      ih broken, Run.after_steps, Run.after_cause, List.append_assoc]
    rfl
  | leave ts goals depth ih =>
    rw [run_leave, Run.after_cause] at broken
    rw [List.cons_append, run_leave, run_leave, ih broken]
    rfl
  | pass ts goal goals depth stays passes ih =>
    rw [run_pass goals stays passes] at broken ⊢
    rw [List.cons_append, run_pass _ stays passes, ih broken]

theorem run_eq_of_followedBy {ts : List Terminal} {goal : Goal} (other : Goal)
    (more goals : List Goal) (depth : Nat)
    (answers : goal.answer ts.head? = (other.answer ts.head?).followedBy more)
    (opens : goal.opensLevel ts.head? = other.opensLevel ts.head?)
    (busy : other.answer ts.head? ≠ .pass) (level : more.count .leave = 0) :
    run limit ts (goal :: goals) depth = run limit ts (other :: (more ++ goals)) depth := by
  -- The one stack is longer where nothing is read, so what is left behind must not tell them apart.
  have habandon : abandon (more ++ goals) = abandon goals := by
    rw [abandon_append, abandon_of_count_eq_zero level, List.nil_append]
  have hroom : goal.HasRoom ts.head? limit depth ↔ other.HasRoom ts.head? limit depth := by
    rw [Goal.HasRoom, Goal.HasRoom, opens]
  by_cases room : other.HasRoom ts.head? limit depth
  · cases hother : other.answer ts.head? with
    | pass => exact absurd hother busy
    | refuse e =>
      rw [hother, Move.followedBy] at answers
      rw [run_refuse _ room hother, run_refuse _ (hroom.mpr room) answers, habandon, Goal.refusing,
        Goal.refusing, opens]
    | read form next =>
      rw [hother, Move.followedBy] at answers
      cases ts with
      | nil => exact absurd hother (other.answer_none_ne_read form next)
      | cons t ts =>
        have hreads : goal.move t = .read form (next ++ more) := answers
        have hother : other.move t = .read form next := hother
        have opens : goal.opensLevel (some t) = other.opensLevel (some t) := opens
        rw [run_read _ room hother, run_read _ (hroom.mpr room) hreads, List.append_assoc,
          Goal.reading, Goal.reading, Goal.depthBelow, Goal.depthBelow, opens]
  · simp only [Goal.HasRoom, Classical.not_imp, Nat.not_lt] at room
    rw [run_tooDeep ts _ room.1 room.2, run_tooDeep ts _ (opens.trans room.1) room.2, habandon]

end Runs

/-! ## Outcomes -/

namespace Checker

/-- What an answer leaves: the rejection, if there is one, and the checker behind it. -/
def outcome (c : Checker) (goals : List Goal) : Option Rejection × Checker :=
  ((c.pursue goals).1.rejection, (c.pursue goals).2)

/-- The checker some tokens further on. -/
def forward (c : Checker) (n : Nat) : Checker := { c with position := c.position + n }

variable {c : Checker} {goals : List Goal}

theorem ahead_forward (c : Checker) (n : Nat) : (c.forward n).ahead = c.ahead.drop n := by
  simp [ahead, forward]

theorem ahead_pursue (c : Checker) (goals : List Goal) :
    (c.pursue goals).2.ahead = c.ahead.drop (c.pursuing goals).taken := by
  simp [ahead, pursue_checker]

theorem outcome_eq_none_iff :
    (c.outcome goals).1 = none ↔ (c.pursue goals).1.accepted = true := by
  simp [outcome, Report.accepted]

/-- Steps that a run begins with may as well have been made before. -/
theorem outcome_eq_of_after {later : Checker} {lower : List Goal} (steps : List Step)
    (stands : later =
      { c with position := c.position + steps.count .read, depth := depthAfter c.depth steps })
    (begins : c.pursuing goals = (later.pursuing lower).after steps) :
    c.outcome goals = later.outcome lower := by
  have hposition : c.position + (c.pursuing goals).taken =
      later.position + (later.pursuing lower).taken := by
    rw [begins, Run.after_taken, stands, Nat.add_assoc]
  have hdepth : depthAfter c.depth (c.pursuing goals).steps =
      depthAfter later.depth (later.pursuing lower).steps := by
    rw [begins, Run.after_steps, depthAfter_append, stands]
  have hrejection : (c.pursue goals).1.rejection = (later.pursue lower).1.rejection := by
    rw [pursue_rejection, pursue_rejection, hposition, begins, Run.after_cause, stands]
    rfl
  have hchecker : (c.pursue goals).2 = (later.pursue lower).2 := by
    rw [pursue_checker, pursue_checker, hposition, hdepth, stands]
  exact Prod.ext hrejection hchecker

theorem outcome_stacked_of_met (lower : List Goal) (met : (c.outcome goals).1 = none) :
    c.outcome (goals ++ lower) = (c.outcome goals).2.outcome lower := by
  rw [outcome_eq_none_iff, pursue_accepted] at met
  apply outcome_eq_of_after (c.pursuing goals).steps (c.pursue_checker goals)
  rw [pursuing, run_stacked_of_met _ _ _ _ met, pursuing, pursuing, ahead_pursue, pursue_checker]
  rfl

theorem outcome_stacked_of_broken {lower : List Goal} (broken : (c.outcome goals).1 ≠ none)
    (level : lower.count .leave = 0) : c.outcome (goals ++ lower) = c.outcome goals := by
  rw [ne_eq, outcome_eq_none_iff, pursue_accepted] at broken
  apply outcome_eq_of_after [] rfl
  rw [Run.after_nil, pursuing, run_stacked_of_broken _ _ _ _ broken,
    abandon_of_count_eq_zero level, List.append_nil]
  rfl

end Checker
end SyntaxPaint
