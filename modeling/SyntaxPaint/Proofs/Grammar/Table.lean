import SyntaxPaint.Proofs.Grammar.Stepwise
/-!
# The table of the grammar

There are finitely many goals and terminals, so what a goal answers is a finite table. A property of
its entries is checked entry by entry (`Goal.of_everyAnswer`), and what the entries have in common
is stated here once: the goals of one statement leave goals of the same kind in their place.
-/
namespace SyntaxPaint

def Mark.all : List Mark := [.openParen, .closeParen, .openBrace, .closeBrace, .semicolon, .assign]

def Terminal.all : List Terminal :=
  [.ifWord, .elseWord, .whileWord, .returnWord, .typeWord, .otherWord, .name, .number, .quoted,
    .additive, .multiplicative, .otherSign, .stray] ++ Mark.all.map .mark

def Goal.all : List Goal :=
  [.program, .statement, .body, .blockRest, .elseBranch, .initializer, .returnValue, .expression,
    .term, .factor, .moreTerms, .moreFactors, .name, .leave, .endOfInput] ++ Mark.all.map .mark

theorem Mark.mem_all (m : Mark) : m ∈ all := by cases m <;> decide

theorem Terminal.mem_all (t : Terminal) : t ∈ all := by
  cases t with
  | mark m => exact List.mem_append_right _ (List.mem_map_of_mem m.mem_all)
  | _ => decide

theorem Goal.mem_all (goal : Goal) : goal ∈ all := by
  cases goal with
  | mark m => exact List.mem_append_right _ (List.mem_map_of_mem m.mem_all)
  | _ => decide

namespace Goal

/-- Has every entry of the table the property? -/
def everyAnswer (p : Goal → Option Terminal → Move → Bool) : Bool :=
  all.all fun goal => (none :: Terminal.all.map some).all fun look => p goal look (goal.answer look)

theorem of_everyAnswer {p : Goal → Option Terminal → Move → Bool} (every : everyAnswer p = true)
    (goal : Goal) (look : Option Terminal) : p goal look (goal.answer look) = true := by
  have hlook : look ∈ none :: Terminal.all.map some := by
    cases look with
    | none => exact List.mem_cons_self
    | some t => exact List.mem_cons_of_mem _ (List.mem_map_of_mem t.mem_all)
  exact List.all_eq_true.mp (List.all_eq_true.mp every goal goal.mem_all) look hlook

/-- Has every entry that reads a terminal the property? -/
def everyReading (p : Goal → Terminal → List Goal → Bool) : Bool :=
  everyAnswer fun goal look move => match look, move with
    | some t, .read _ next => p goal t next
    | _, _ => true

theorem of_everyReading {p : Goal → Terminal → List Goal → Bool} (every : everyReading p = true)
    {goal : Goal} {t : Terminal} {form : Option Form} {next : List Goal}
    (reads : goal.move t = .read form next) : p goal t next = true := by
  have hentry := of_everyAnswer every goal (some t)
  rwa [answer, reads] at hentry

/-- The goals that read a part of one statement. -/
def isInner : Goal → Bool
  | program | endOfInput => false
  | _ => true

theorem isInner_of_read {goal : Goal} {t : Terminal} {form : Option Form} {next : List Goal}
    (reads : goal.move t = .read form next) : ∀ g ∈ next, g = goal ∨ g.isInner = true := by
  have hentry : (next.all fun g => g == goal || g.isInner) = true :=
    of_everyReading (p := fun goal _ next => next.all fun g => g == goal || g.isInner)
      (by decide +kernel) reads
  simpa using hentry

theorem isInner_of_inner_read {goal : Goal} {t : Terminal} {form : Option Form} {next : List Goal}
    (inner : goal.isInner = true) (reads : goal.move t = .read form next) :
    ∀ g ∈ next, g.isInner = true := by
  intro g hg
  rcases isInner_of_read reads g hg with rfl | h
  · exact inner
  · exact h

end Goal

/-! ## Stacks of a program -/

/-- The stack of a checker that reads a program: the rest of one statement, and the program. -/
def Grounded (goals : List Goal) : Prop :=
  ∃ inner, goals = inner ++ [.program] ∧ ∀ g ∈ inner, Goal.isInner g = true

theorem grounded_program : Grounded [.program] := ⟨[], rfl, by simp⟩

theorem not_grounded_nil : ¬ Grounded [] := by
  rintro ⟨inner, heq, -⟩
  simp at heq

theorem grounded_cons_iff {goal : Goal} {goals : List Goal} : Grounded (goal :: goals) ↔
    goal = .program ∧ goals = [] ∨ goal.isInner = true ∧ Grounded goals := by
  constructor
  · intro h
    rcases h with ⟨inner, heq, hinner⟩
    cases inner with
    | nil => exact .inl (by simpa using heq)
    | cons g inner =>
      rcases List.cons.inj heq with ⟨rfl, rfl⟩
      simp only [List.forall_mem_cons] at hinner
      exact .inr ⟨hinner.1, inner, rfl, hinner.2⟩
  · intro h
    rcases h with ⟨rfl, rfl⟩ | ⟨hgoal, inner, rfl, hinner⟩
    · exact grounded_program
    · exact ⟨goal :: inner, rfl, by simpa [hgoal] using hinner⟩

theorem Grounded.of_leave {goals : List Goal} (h : Grounded (.leave :: goals)) : Grounded goals :=
  ((grounded_cons_iff.mp h).resolve_left fun h => Goal.noConfusion h.1).2

theorem Grounded.append {next goals : List Goal} (h : Grounded goals)
    (inner : ∀ g ∈ next, Goal.isInner g = true) : Grounded (next ++ goals) := by
  rcases h with ⟨upper, rfl, hupper⟩
  refine ⟨next ++ upper, (List.append_assoc ..).symm, ?_⟩
  intro g hg
  rcases List.mem_append.mp hg with hnext | hgoals
  · exact inner g hnext
  · exact hupper g hgoals

theorem eq_nil_of_program_passes {ts : List Terminal}
    (passes : Goal.program.answer ts.head? = .pass) : ts = [] := by
  cases ts with
  | nil => rfl
  | cons t ts => exact absurd (Move.followedBy_eq_pass_iff.mp passes) Goal.statementMove_ne_pass

theorem exists_inner_of_program {t : Terminal} {form : Option Form} {next : List Goal}
    (reads : Goal.program.move t = .read form next) :
    ∃ inner, Goal.statement.move t = .read form inner ∧ next = inner ++ [.program] ∧
      ∀ g ∈ inner, Goal.isInner g = true := by
  rcases Move.followedBy_eq_read_iff.mp reads with ⟨inner, hstatement, rfl⟩
  have hstatement : Goal.statement.move t = .read form inner := hstatement
  exact ⟨inner, hstatement, rfl, Goal.isInner_of_inner_read rfl hstatement⟩

/-- Reading keeps the program at the bottom of its stack. -/
theorem Grounded.read {goal : Goal} {goals next : List Goal} {t : Terminal} {form : Option Form}
    (h : Grounded (goal :: goals)) (reads : goal.move t = .read form next) :
    Grounded (next ++ goals) := by
  rcases grounded_cons_iff.mp h with ⟨rfl, rfl⟩ | ⟨hgoal, hgoals⟩
  · rcases exists_inner_of_program reads with ⟨inner, -, rfl, hinner⟩
    rw [List.append_nil]
    exact grounded_program.append hinner
  · exact hgoals.append (Goal.isInner_of_inner_read hgoal reads)

end SyntaxPaint
