import SyntaxPaint.Grammar.Checker
import SyntaxPaint.Proofs.Grammar.Stepwise
/-!
# Questions to a checker

A checker answers two questions, and each answer is read off one run over the terminals that are
still ahead. The lemmas say what of the run each part of the answer shows.
-/
namespace SyntaxPaint

inductive Question where
  /-- Is what follows a program? -/
  | program
  /-- Is what follows exactly one block or one statement? -/
  | block
deriving DecidableEq, Repr

def Question.goals : Question → List Goal
  | program => [.program]
  | block => [.body, .endOfInput]

/-! ## Runs over tokens -/

/-- A terminal is read once, or the run ends in front of it. -/
inductive Meeting.Takes : Meeting → Prop
  | reads {steps : List Step} {goals : List Goal} {depth : Nat} (once : steps.count .read = 1) :
    Takes (.reads steps goals depth)
  | stops {r : Run} (never : r.taken = 0) : Takes (.stops r)

theorem Meeting.Takes.after_leave {m : Meeting} (h : m.Takes) : (m.after [.leave]).Takes := by
  cases h with
  | reads once =>
    apply Takes.reads
    rw [List.count_append, once]
    rfl
  | stops never =>
    apply Takes.stops
    rw [Run.after_taken, never]
    rfl

theorem meet_takes (limit : Nat) (t : Terminal) (goals : List Goal) (depth : Nat) :
    (meet limit t goals depth).Takes := by
  induction goals generalizing depth with
  | nil => exact .stops rfl
  | cons goal goals ih =>
    rw [meet]
    split
    · exact .stops (count_read_abandon goals)
    · cases goal.move t with
      | read form next => exact .reads (goal.count_read_reading t form)
      | pass =>
        show (if goal = .leave then (meet limit t goals (depth - 1)).after [.leave]
          else meet limit t goals depth).Takes
        split
        · exact (ih _).after_leave
        · exact ih depth
      | refuse e =>
        apply Meeting.Takes.stops
        cases h : goal.opensLevel (some t) <;> simp [Run.taken, count_read_abandon]

/-- A run over tokens is the run over their terminals, and it ends in front of the first token that
is not read. -/
theorem runTokens_eq (limit : Nat) (tokens : List Token) (goals : List Goal) (depth : Nat) :
    runTokens limit tokens goals depth =
      (run limit (tokens.map Token.terminal) goals depth,
        tokens[(run limit (tokens.map Token.terminal) goals depth).taken]?) := by
  induction tokens generalizing goals depth with
  | nil => rfl
  | cons t tokens ih =>
    have htakes := meet_takes limit t.terminal goals depth
    rw [runTokens, List.map_cons, run]
    cases hmeet : meet limit t.terminal goals depth with
    | reads steps next depth =>
      rw [hmeet] at htakes
      cases htakes with
      | reads once =>
        simp only [ih, Run.after_taken, once, Nat.add_comm 1, List.getElem?_cons_succ]
    | stops r =>
      rw [hmeet] at htakes
      cases htakes with
      | stops never => simp only [never, List.getElem?_cons_zero]

namespace Checker

def ask (c : Checker) : Question → Report × Checker
  | .program => c.program
  | .block => c.block

/-- The terminals that are not read yet. -/
def ahead (c : Checker) : List Terminal := (c.tokens.drop c.position).map Token.terminal

/-- The run that answers a question. -/
def answering (c : Checker) (q : Question) : Run := run c.limit c.ahead q.goals c.depth

/-- The run that works off some goals. -/
def pursuing (c : Checker) (goals : List Goal) : Run := run c.limit c.ahead goals c.depth

variable (c : Checker) (q : Question) (goals : List Goal)

theorem pursue_report : (c.pursue goals).1 =
    let current := c.tokens[c.position + (c.pursuing goals).taken]?
    ⟨(c.pursuing goals).forms, (c.pursuing goals).cause.map (c.rejection current), current⟩ := by
  rw [pursue, runTokens_eq, List.getElem?_drop]
  rfl

theorem pursue_checker : (c.pursue goals).2 =
    { c with
      position := c.position + (c.pursuing goals).taken
      depth := depthAfter c.depth (c.pursuing goals).steps } := by
  rw [pursue, runTokens_eq]
  rfl

theorem pursue_rejection : (c.pursue goals).1.rejection =
    (c.pursuing goals).cause.map
      (c.rejection c.tokens[c.position + (c.pursuing goals).taken]?) := by
  rw [pursue_report]

theorem pursue_accepted :
    (c.pursue goals).1.accepted = true ↔ (c.pursuing goals).cause = none := by
  simp [Report.accepted, pursue_rejection]

theorem ask_eq_pursue : c.ask q = c.pursue q.goals := by
  cases q <;> rfl

theorem ask_report : (c.ask q).1 =
    let current := c.tokens[c.position + (c.answering q).taken]?
    ⟨(c.answering q).forms, (c.answering q).cause.map (c.rejection current), current⟩ := by
  rw [ask_eq_pursue]
  exact c.pursue_report q.goals

theorem ask_checker : (c.ask q).2 =
    { c with
      position := c.position + (c.answering q).taken
      depth := depthAfter c.depth (c.answering q).steps } := by
  rw [ask_eq_pursue]
  exact c.pursue_checker q.goals

theorem ask_accepted : (c.ask q).1.accepted = true ↔ (c.answering q).cause = none := by
  rw [ask_eq_pursue]
  exact c.pursue_accepted q.goals

theorem ask_position : (c.ask q).2.position = c.position + (c.answering q).taken := by
  rw [ask_checker]

theorem ask_current : (c.ask q).1.current = c.tokens[(c.ask q).2.position]? := by
  rw [ask_report, ask_position]

theorem ask_forms : (c.ask q).1.forms = (c.answering q).forms := by
  rw [ask_report]

theorem ask_rejection : (c.ask q).1.rejection =
    (c.answering q).cause.map (c.rejection (c.ask q).1.current) := by
  rw [ask_report]

@[simp] theorem ahead_new (tokens : List Token) (limit : Nat) :
    (new tokens limit).ahead = (significant tokens).map Token.terminal := by
  simp [ahead, new]

theorem answering_new (tokens : List Token) (limit : Nat) :
    (new tokens limit).answering q =
      run limit ((significant tokens).map Token.terminal) q.goals 0 := by
  rw [answering, ahead_new]; rfl

end Checker
end SyntaxPaint
