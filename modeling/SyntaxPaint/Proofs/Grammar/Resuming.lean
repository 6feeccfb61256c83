import SyntaxPaint.Proofs.Grammar.Depth
import SyntaxPaint.Proofs.Grammar.Question
/-!
# Asking again

However a run ends, it leaves all levels that it has opened. A checker that has answered therefore
stands at level zero, and all that is left of the questions before is how far it has read.
-/
namespace SyntaxPaint

/-! ## Levels -/

/-- Where the move reads, the goals that it leaves in place will leave so many levels. -/
def Move.Leaves (move : Move) (levels : Nat) : Prop :=
  ∀ form next, move = .read form next → next.count .leave = levels

section Levels

variable {t : Terminal} {goals : List Goal} {depth : Nat}

private theorem leaves_followedBy {move : Move} {levels : Nat} (more : List Goal)
    (h : move.Leaves levels) : (move.followedBy more).Leaves (levels + more.count .leave) := by
  intro form next hread
  obtain ⟨first, hfirst, rfl⟩ := Move.followedBy_eq_read_iff.mp hread
  rw [List.count_append, h form first hfirst]

private theorem statementMove_leaves : (Goal.statementMove t).Leaves 0 := by
  intro form next hread
  cases t with
  | ifWord | whileWord | returnWord | typeWord | name =>
    obtain ⟨-, rfl⟩ := Move.read.inj hread
    rfl
  | _ => cases hread

private theorem factorMove_leaves :
    (Goal.factorMove t).Leaves (if Goal.factor.opensLevel (some t) then 1 else 0) := by
  intro form next hread
  cases t with
  | number | name | quoted =>
    obtain ⟨-, rfl⟩ := Move.read.inj hread
    rfl
  | mark m =>
    cases m with
    | openParen =>
      obtain ⟨-, rfl⟩ := Move.read.inj hread
      rfl
    | _ => cases hread
  | _ => cases hread

private theorem opensLevel_operand :
    Goal.term.opensLevel (some t) = Goal.factor.opensLevel (some t) ∧
    Goal.expression.opensLevel (some t) = Goal.factor.opensLevel (some t) := by
  cases t with
  | mark m => cases m <;> exact ⟨rfl, rfl⟩
  | _ => exact ⟨rfl, rfl⟩

private theorem expressionMove_leaves :
    (Goal.expressionMove t).Leaves (if Goal.factor.opensLevel (some t) then 1 else 0) :=
  leaves_followedBy [.moreTerms] (leaves_followedBy [.moreFactors] factorMove_leaves)

/-- A goal that opens a level leaves in its place the one goal that leaves it. -/
theorem Goal.move_leaves (goal : Goal) :
    (goal.move t).Leaves (if goal.opensLevel (some t) then 1 else 0) := by
  have hoperand := opensLevel_operand (t := t)
  cases goal with
  | program => exact leaves_followedBy [.program] statementMove_leaves
  | statement => exact statementMove_leaves
  | body =>
    by_cases brace : t = .mark .openBrace
    · subst brace
      intro form next hread
      obtain ⟨-, rfl⟩ := Move.read.inj hread
      rfl
    · rw [body_move brace]
      exact leaves_followedBy [.leave] statementMove_leaves
  | blockRest =>
    by_cases brace : t = .mark .closeBrace
    · subst brace
      intro form next hread
      obtain ⟨-, rfl⟩ := Move.read.inj hread
      rfl
    · rw [blockRest_move brace]
      exact leaves_followedBy [.blockRest] statementMove_leaves
  | expression =>
    rw [hoperand.2]
    exact expressionMove_leaves
  | term =>
    rw [hoperand.1]
    exact leaves_followedBy [.moreFactors] factorMove_leaves
  | factor => exact factorMove_leaves
  | returnValue =>
    rw [move]
    split
    · intro form next hread
      cases hread
    · rename_i hvalue
      have hcloses : Goal.factor.opensLevel (some t) = false := by
        cases t with
        | mark m => exact absurd rfl hvalue
        | _ => rfl
      have hleaves := expressionMove_leaves (t := t)
      rw [hcloses] at hleaves
      exact hleaves
  | mark m =>
    intro form next hread
    rw [move] at hread
    split at hread
    · obtain ⟨-, rfl⟩ := Move.read.inj hread
      rfl
    · cases hread
  | _ =>
    intro form next hread
    cases t with
    | mark m => cases m <;> cases hread <;> rfl
    | _ => cases hread <;> rfl

theorem depthAfter_abandon (depth : Nat) (goals : List Goal) :
    depthAfter depth (abandon goals) = depth - goals.count .leave := by
  simp only [abandon, List.count, List.countP_eq_length_filter]
  induction goals.filter (· == .leave) generalizing depth with
  | nil => rfl
  | cons goal goals ih =>
    rw [List.map_cons, depthAfter_cons, ih, depthAfter_leave, List.length_cons]
    omega

private theorem count_leave_cons {goal : Goal} (stays : goal ≠ .leave) (goals : List Goal) :
    (goal :: goals).count .leave = goals.count .leave :=
  List.count_cons_of_ne stays

theorem Goal.depthBelow_of_read {goal : Goal} {form : Option Form} {next : List Goal}
    (reads : goal.move t = .read form next) (depth : Nat) :
    goal.depthBelow (some t) depth = depth + next.count .leave := by
  rw [goal.move_leaves form next reads, Goal.depthBelow]
  split <;> rfl

theorem count_leave_of_read {goal : Goal} {form : Option Form} {next : List Goal}
    (reads : goal.move t = .read form next) (goals : List Goal) :
    (goal :: goals).count .leave = goals.count .leave := by
  apply count_leave_cons
  intro h
  subst h
  cases reads

/-- A run leaves the levels of its goals, and those that it opens itself, wherever it ends. -/
theorem depthAfter_run (limit : Nat) (ts : List Terminal) (goals : List Goal) (depth : Nat)
    (opened : goals.count .leave ≤ depth) :
    depthAfter depth (run limit ts goals depth).steps = depth - goals.count .leave := by
  induction ts, goals, depth using run_induction limit with
  | done ts depth =>
    rw [run_nil]
    rfl
  | tooDeep ts goal goals depth opens full =>
    have stays : goal ≠ .leave := by
      rintro rfl
      cases opens
    rw [run_tooDeep ts goals opens full, depthAfter_abandon, count_leave_cons stays]
  | refuse ts goal goals depth e room refused =>
    have stays : goal ≠ .leave := by
      rintro rfl
      cases (Goal.answer_leave _).symm.trans refused
    rw [run_refuse goals room refused, depthAfter_append, goal.depthAfter_refusing,
      depthAfter_abandon, count_leave_cons stays]
  | read t ts goal goals depth form next room reads ih =>
    have hbelow := Goal.depthBelow_of_read reads depth
    rw [count_leave_of_read reads] at opened ⊢
    rw [hbelow, List.count_append] at ih
    rw [run_read goals room reads, Run.after_steps, depthAfter_append, goal.depthAfter_reading,
      hbelow, ih (by omega)]
    omega
  | leave ts goals depth ih =>
    rw [List.count_cons_self] at opened ⊢
    rw [run_leave, Run.after_steps, depthAfter_append, depthAfter_leave, ih (by omega)]
    omega
  | pass ts goal goals depth stays passes ih =>
    rw [count_leave_cons stays] at opened ⊢
    rw [run_pass goals stays passes, ih opened]

theorem run_taken_le (limit : Nat) (ts : List Terminal) (goals : List Goal) (depth : Nat) :
    (run limit ts goals depth).taken ≤ ts.length := by
  induction ts, goals, depth using run_induction limit with
  | done ts depth =>
    rw [run_nil]
    exact Nat.zero_le _
  | tooDeep ts goal goals depth opens full =>
    rw [run_tooDeep ts goals opens full, Run.taken, count_read_abandon]
    exact Nat.zero_le _
  | refuse ts goal goals depth e room refused =>
    rw [taken_of_refuse goals room refused]
    exact Nat.zero_le _
  | read t ts goal goals depth form next room reads ih =>
    rw [taken_of_read goals room reads, List.length_cons]
    exact Nat.succ_le_succ ih
  | leave ts goals depth ih =>
    rwa [taken_of_leave]
  | pass ts goal goals depth stays passes ih =>
    rwa [run_pass goals stays passes]

end Levels

/-! ## Answers in a row -/

namespace Checker

section

variable {c : Checker} {goals : List Goal}

theorem le_position_pursue (c : Checker) (goals : List Goal) :
    c.position ≤ (c.pursue goals).2.position := by
  rw [pursue_checker]
  exact Nat.le_add_right _ _

theorem position_pursue_le (goals : List Goal) (within : c.position ≤ c.tokens.length) :
    (c.pursue goals).2.position ≤ c.tokens.length := by
  have htaken := run_taken_le c.limit c.ahead goals c.depth
  have hahead : c.ahead.length = c.tokens.length - c.position := by simp [ahead]
  rw [pursue_checker]
  show c.position + (run c.limit c.ahead goals c.depth).taken ≤ c.tokens.length
  omega

theorem depth_pursue (level : goals.count .leave = 0) : (c.pursue goals).2.depth = c.depth := by
  have hdepth := depthAfter_run c.limit c.ahead goals c.depth (by omega)
  rw [level] at hdepth
  rw [pursue_checker]
  exact hdepth

end

/-- The checker behind some questions. -/
def askAll (c : Checker) (qs : List Question) : Checker := qs.foldl (fun c q => (c.ask q).2) c

/-- The checker has left all levels, and stands among significant tokens or at their end. -/
structure Rests (c : Checker) : Prop where
  depth : c.depth = 0
  position : c.position ≤ c.tokens.length
  significant : SyntaxPaint.significant c.tokens = c.tokens

namespace Rests

variable {c : Checker}

theorem new (tokens : List Token) (limit : Nat) : (Checker.new tokens limit).Rests where
  depth := rfl
  position := Nat.zero_le _
  significant := by
    show List.filter _ (List.filter _ tokens) = List.filter _ tokens
    rw [List.filter_filter]
    simp

theorem ask (h : c.Rests) (q : Question) : (c.ask q).2.Rests := by
  have hlevel : q.goals.count .leave = 0 := by cases q <;> rfl
  rw [ask_eq_pursue]
  exact ⟨(depth_pursue hlevel).trans h.depth, position_pursue_le q.goals h.position, h.significant⟩

end Rests

theorem ask_keeps (c : Checker) (q : Question) :
    (c.ask q).2.tokens = c.tokens ∧ (c.ask q).2.limit = c.limit := by
  rw [ask_checker]
  exact ⟨rfl, rfl⟩

theorem rests_askAll {c : Checker} (h : c.Rests) (qs : List Question) :
    (c.askAll qs).Rests ∧ (c.askAll qs).tokens = c.tokens ∧ (c.askAll qs).limit = c.limit := by
  induction qs generalizing c with
  | nil => exact ⟨h, rfl, rfl⟩
  | cons q qs ih =>
    obtain ⟨htokens, hlimit⟩ := c.ask_keeps q
    obtain ⟨hrests, hlaterTokens, hlaterLimit⟩ := ih (h.ask q)
    exact ⟨hrests, hlaterTokens.trans htokens, hlaterLimit.trans hlimit⟩

/-- A resting checker answers as one that begins with the tokens that are left. -/
theorem Rests.ask_eq {c : Checker} (h : c.Rests) (q : Question) :
    let fresh := Checker.new (c.tokens.drop c.position) c.limit
    (c.ask q).1 = (fresh.ask q).1 ∧
      (c.ask q).2.position = c.position + (fresh.ask q).2.position := by
  intro fresh
  have hwords : SyntaxPaint.significant (c.tokens.drop c.position) = c.tokens.drop c.position := by
    apply List.filter_eq_self.mpr
    intro t ht
    exact List.filter_eq_self.mp h.significant t (List.mem_of_mem_drop ht)
  have hrun : c.answering q = fresh.answering q := by
    rw [answering_new, hwords, answering, h.depth]
    rfl
  have hcurrent (n : Nat) : c.tokens[c.position + n]? = fresh.tokens[fresh.position + n]? := by
    show _ = (SyntaxPaint.significant (c.tokens.drop c.position))[0 + n]?
    rw [hwords, List.getElem?_drop, Nat.zero_add]
  refine ⟨?_, ?_⟩
  · rw [ask_report, ask_report, hrun, hcurrent]
    rfl
  · rw [ask_position, ask_position, hrun]
    show _ = c.position + (0 + _)
    rw [Nat.zero_add]

/-- After any questions a checker stands at level zero, no further back than before and not behind
the end; and it answers the next question as a checker does that begins where this one stopped. -/
theorem answers_resume (tokens : List Token) (limit : Nat) (qs : List Question) (q : Question) :
    let words := significant tokens
    let c := (new tokens limit).askAll qs
    let fresh := new (words.drop c.position) limit
    c.depth = 0 ∧ c.position ≤ words.length ∧
    (c.ask q).2.depth = 0 ∧ c.position ≤ (c.ask q).2.position ∧
    (c.ask q).2.position ≤ words.length ∧
    (c.ask q).1 = (fresh.ask q).1 ∧
    (c.ask q).2.position = c.position + (fresh.ask q).2.position := by
  intro words c fresh
  obtain ⟨hrests, htokens, hlimit⟩ := rests_askAll (.new tokens limit) qs
  have hwords : c.tokens = words := htokens
  have hlater := hrests.ask q
  have hbound := hlater.position
  rw [(c.ask_keeps q).1, hwords] at hbound
  have hfresh : new (c.tokens.drop c.position) c.limit = fresh := by
    rw [hwords, hlimit]
    rfl
  have hsame : (c.ask q).1 = (fresh.ask q).1 ∧
      (c.ask q).2.position = c.position + (fresh.ask q).2.position := by
    rw [← hfresh]
    exact hrests.ask_eq q
  refine ⟨hrests.depth, hwords ▸ hrests.position, hlater.depth, ?_, hbound, hsame⟩
  rw [hsame.2]
  exact Nat.le_add_right _ _

end Checker

end SyntaxPaint
