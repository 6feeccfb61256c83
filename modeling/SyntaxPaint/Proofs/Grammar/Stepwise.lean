import SyntaxPaint.Grammar.Run
/-!
# Runs step by step

`run` goes on terminal by terminal, and in front of each terminal goal by goal. Here both are one
step: the topmost goal answers to what stands in front of it, the next terminal or the end of input.
There is one equation for each answer, and `run_induction` has one case for each of them.
-/
namespace SyntaxPaint

/-- What a goal does in front of a terminal or at the end of input. -/
def Goal.answer (goal : Goal) : Option Terminal → Move
  | some t => goal.move t
  | none => match goal.missing with
    | some e => .refuse e
    | none => .pass

/-- Is there room for the level that the goal opens, if it opens one? -/
def Goal.HasRoom (goal : Goal) (look : Option Terminal) (limit depth : Nat) : Prop :=
  goal.opensLevel look = true → depth < limit

/-- The steps of a goal that reads: it may open a level and begin a statement. -/
def Goal.reading (goal : Goal) (t : Terminal) (form : Option Form) : List Step :=
  (if goal.opensLevel (some t) then [.enter] else []) ++ (form.map Step.begin).toList ++ [.read]

/-- The depth at which the goals go on that a reading goal leaves in its place. -/
def Goal.depthBelow (goal : Goal) (look : Option Terminal) (depth : Nat) : Nat :=
  if goal.opensLevel look then depth + 1 else depth

/-- The steps of a goal that refuses: a level that it opened is left again. -/
def Goal.refusing (goal : Goal) (look : Option Terminal) : List Step :=
  if goal.opensLevel look then [.enter, .leave] else []

@[simp] theorem Run.after_nil (r : Run) : r.after [] = r := rfl

@[simp] theorem Run.after_cause (steps : List Step) (r : Run) : (r.after steps).cause = r.cause :=
  rfl

@[simp] theorem Run.after_steps (steps : List Step) (r : Run) :
    (r.after steps).steps = steps ++ r.steps := rfl

theorem Run.after_taken (steps : List Step) (r : Run) :
    (r.after steps).taken = steps.count .read + r.taken := by
  simp [Run.taken]

theorem Goal.hasRoom_of_closed {goal : Goal} {look : Option Terminal} {limit depth : Nat}
    (closed : goal.opensLevel look = false) : goal.HasRoom look limit depth := by
  intro opens
  rw [closed] at opens
  cases opens

theorem Goal.depthBelow_le_succ (goal : Goal) (look : Option Terminal) (depth : Nat) :
    goal.depthBelow look depth ≤ depth + 1 := by
  rw [Goal.depthBelow]
  split <;> omega

theorem Goal.count_read_reading (goal : Goal) (t : Terminal) (form : Option Form) :
    (goal.reading t form).count .read = 1 := by
  cases form <;> cases h : goal.opensLevel (some t) <;> simp [Goal.reading, h]

theorem count_read_abandon (goals : List Goal) : (abandon goals).count .read = 0 := by
  simp [abandon, List.count_eq_zero]

theorem Goal.count_read_refusing (goal : Goal) (look : Option Terminal) :
    (goal.refusing look).count .read = 0 := by
  rw [Goal.refusing]
  split <;> rfl

theorem Goal.answer_leave (look : Option Terminal) : Goal.leave.answer look = .pass := by
  cases look <;> rfl

theorem Goal.answer_none_ne_read (goal : Goal) (form : Option Form) (next : List Goal) :
    goal.answer none ≠ .read form next := by
  simp only [Goal.answer]
  split <;> simp

theorem Move.followedBy_eq_pass_iff {move : Move} {more : List Goal} :
    move.followedBy more = .pass ↔ move = .pass := by
  cases move <;> simp [Move.followedBy]

theorem Move.followedBy_eq_refuse_iff {move : Move} {more : List Goal} {e : Expected} :
    move.followedBy more = .refuse e ↔ move = .refuse e := by
  cases move <;> simp [Move.followedBy]

theorem Move.followedBy_eq_read_iff {move : Move} {more next : List Goal} {form : Option Form} :
    move.followedBy more = .read form next ↔
      ∃ first, move = .read form first ∧ next = first ++ more := by
  cases move with
  | read form' first =>
    simp only [Move.followedBy, Move.read.injEq]
    constructor
    · intro h
      rcases h with ⟨rfl, rfl⟩
      exact ⟨first, ⟨rfl, rfl⟩, rfl⟩
    · intro h
      rcases h with ⟨_, ⟨rfl, rfl⟩, rfl⟩
      exact ⟨rfl, rfl⟩
  | pass => simp [Move.followedBy]
  | refuse e => simp [Move.followedBy]

namespace Goal

variable {t : Terminal}

theorem body_move (noBrace : t ≠ .mark .openBrace) :
    body.move t = (statementMove t).followedBy [.leave] := by
  rw [move.eq_def]
  split <;> simp_all

theorem blockRest_move (noBrace : t ≠ .mark .closeBrace) :
    blockRest.move t = (statementMove t).followedBy [.blockRest] := by
  rw [move.eq_def]
  split <;> simp_all

theorem statementMove_ne_pass : statementMove t ≠ .pass := by
  cases t <;> simp [statementMove]

theorem expressionMove_ne_pass : expressionMove t ≠ .pass := by
  rw [expressionMove, ne_eq, Move.followedBy_eq_pass_iff, termMove, Move.followedBy_eq_pass_iff]
  cases t with
  | mark m => cases m <;> simp [factorMove]
  | _ => simp [factorMove]

theorem body_move_ne_pass : body.move t ≠ .pass := by
  by_cases brace : t = .mark .openBrace
  · subst brace; simp [move]
  · rw [body_move brace, ne_eq, Move.followedBy_eq_pass_iff]
    exact statementMove_ne_pass

theorem blockRest_move_ne_pass : blockRest.move t ≠ .pass := by
  by_cases brace : t = .mark .closeBrace
  · subst brace; simp [move]
  · rw [blockRest_move brace, ne_eq, Move.followedBy_eq_pass_iff]
    exact statementMove_ne_pass

theorem missing_of_move_pass {goal : Goal} (passes : goal.move t = .pass) :
    goal.missing = none := by
  cases goal with
  | statement => exact absurd passes statementMove_ne_pass
  | body => exact absurd passes body_move_ne_pass
  | blockRest => exact absurd passes blockRest_move_ne_pass
  | expression => exact absurd passes expressionMove_ne_pass
  | term =>
    refine absurd ?_ (expressionMove_ne_pass (t := t))
    rw [expressionMove, Move.followedBy_eq_pass_iff]
    exact passes
  | factor =>
    refine absurd ?_ (expressionMove_ne_pass (t := t))
    rw [expressionMove, Move.followedBy_eq_pass_iff, termMove, Move.followedBy_eq_pass_iff]
    exact passes
  | name => cases t <;> cases passes
  | mark m =>
    rw [move] at passes
    split at passes <;> cases passes
  | _ => rfl

theorem missing_of_pass {goal : Goal} {look : Option Terminal}
    (passes : goal.answer look = .pass) : goal.missing = none := by
  cases look with
  | some t => exact missing_of_move_pass passes
  | none =>
    simp only [answer] at passes
    split at passes
    · cases passes
    · assumption

/-- A goal that opens a level misses something, so it never asks for nothing. -/
theorem opensLevel_of_pass {goal : Goal} {look : Option Terminal}
    (passes : goal.answer look = .pass) : goal.opensLevel look = false := by
  have met := missing_of_pass passes
  cases goal with
  | body | expression | term | factor => cases met
  | _ => cases look <;> rfl

end Goal

section Equations

variable (limit : Nat) (ts : List Terminal) (goal : Goal) (goals : List Goal) (depth : Nat)

theorem run_nil : run limit ts [] depth = ⟨[], none⟩ := by
  cases ts <;> simp [run, meet, close]

variable {limit goal depth}

theorem run_tooDeep (opens : goal.opensLevel ts.head? = true) (full : limit ≤ depth) :
    run limit ts (goal :: goals) depth = ⟨abandon goals, some .tooDeep⟩ := by
  cases ts with
  | nil => simp_all [run, close]
  | cons t ts => simp_all [run, meet]

variable {ts}

theorem run_refuse {e : Expected} (room : goal.HasRoom ts.head? limit depth)
    (refused : goal.answer ts.head? = .refuse e) :
    run limit ts (goal :: goals) depth =
      ⟨goal.refusing ts.head? ++ abandon goals, some (.expected e)⟩ := by
  cases ts with
  | nil =>
    simp only [List.head?_nil, Goal.answer] at refused
    cases hm : goal.missing with
    | none => simp [hm] at refused
    | some e' =>
      obtain rfl : e' = e := by simpa [hm] using refused
      by_cases opens : goal.opensLevel none = true
      · simp [run, close, hm, Goal.refusing, opens, Nat.not_le.mpr (room opens)]
      · simp [run, close, hm, Goal.refusing, opens]
  | cons t ts =>
    simp only [List.head?_cons, Goal.answer] at refused
    by_cases opens : goal.opensLevel (some t) = true
    · simp [run, meet, refused, Goal.refusing, opens, Nat.not_le.mpr (room opens)]
    · simp [run, meet, refused, Goal.refusing, opens]

theorem taken_of_refuse {e : Expected} (room : goal.HasRoom ts.head? limit depth)
    (refused : goal.answer ts.head? = .refuse e) :
    (run limit ts (goal :: goals) depth).taken = 0 := by
  rw [run_refuse goals room refused, Run.taken, List.count_append, goal.count_read_refusing,
    count_read_abandon]

theorem run_read {t : Terminal} {form : Option Form} {next : List Goal}
    (room : goal.HasRoom (some t) limit depth) (reads : goal.move t = .read form next) :
    run limit (t :: ts) (goal :: goals) depth =
      (run limit ts (next ++ goals) (goal.depthBelow (some t) depth)).after
        (goal.reading t form) := by
  by_cases opens : goal.opensLevel (some t) = true
  · simp [run, meet, reads, Goal.reading, Goal.depthBelow, opens, Nat.not_le.mpr (room opens)]
  · simp [run, meet, reads, Goal.reading, Goal.depthBelow, opens]

theorem taken_of_read {t : Terminal} {form : Option Form} {next : List Goal}
    (room : goal.HasRoom (some t) limit depth) (reads : goal.move t = .read form next) :
    (run limit (t :: ts) (goal :: goals) depth).taken =
      (run limit ts (next ++ goals) (goal.depthBelow (some t) depth)).taken + 1 := by
  rw [run_read goals room reads, Run.after_taken, goal.count_read_reading, Nat.add_comm]

theorem run_leave :
    run limit ts (.leave :: goals) depth = (run limit ts goals (depth - 1)).after [.leave] := by
  cases ts with
  | nil => simp [run, close, Goal.opensLevel, Goal.missing]
  | cons t ts =>
    simp only [run, meet, Goal.opensLevel, Goal.move, Bool.false_and, Bool.false_eq_true,
      ↓reduceIte]
    cases meet limit t goals (depth - 1) with
    | reads steps next depth => simp [Meeting.after, Run.after]
    | stops r => rfl

theorem taken_of_leave : (run limit ts (.leave :: goals) depth).taken =
    (run limit ts goals (depth - 1)).taken := by
  rw [run_leave, Run.after_taken]
  exact Nat.zero_add _

theorem run_pass (stays : goal ≠ .leave) (passes : goal.answer ts.head? = .pass) :
    run limit ts (goal :: goals) depth = run limit ts goals depth := by
  have closed := Goal.opensLevel_of_pass passes
  cases ts with
  | nil =>
    simp only [List.head?_nil] at closed
    have met : goal.missing = none := Goal.missing_of_pass passes
    simp [run, close, closed, met, stays]
  | cons t ts =>
    simp only [List.head?_cons] at closed
    have passes : goal.move t = .pass := passes
    simp [run, meet, closed, passes, stays]

end Equations

/-- Induction along a run: one case for the end of the stack, one for each answer of the topmost
goal, and one for a level that is nested too deeply. -/
theorem run_induction (limit : Nat) {motive : List Terminal → List Goal → Nat → Prop}
    (done : ∀ ts depth, motive ts [] depth)
    (tooDeep : ∀ ts goal goals depth, goal.opensLevel ts.head? = true → limit ≤ depth →
      motive ts (goal :: goals) depth)
    (refuse : ∀ ts goal goals depth e, goal.HasRoom ts.head? limit depth →
      goal.answer ts.head? = .refuse e → motive ts (goal :: goals) depth)
    (read : ∀ t ts goal goals depth form next, goal.HasRoom (some t) limit depth →
      goal.move t = .read form next →
      motive ts (next ++ goals) (goal.depthBelow (some t) depth) →
      motive (t :: ts) (goal :: goals) depth)
    (leave : ∀ ts goals depth, motive ts goals (depth - 1) → motive ts (.leave :: goals) depth)
    (pass : ∀ ts goal goals depth, goal ≠ .leave → goal.answer ts.head? = .pass →
      motive ts goals depth → motive ts (goal :: goals) depth)
    (ts : List Terminal) (goals : List Goal) (depth : Nat) : motive ts goals depth := by
  -- Reading shortens the text and passing shortens the stack.
  induction ts generalizing goals depth with
  | nil =>
    induction goals generalizing depth with
    | nil => exact done [] depth
    | cons goal goals ih =>
      by_cases room : goal.HasRoom none limit depth
      · by_cases stays : goal = .leave
        · subst stays; exact leave [] goals depth (ih _)
        · cases answer : goal.answer none with
          | read form next => exact absurd answer (goal.answer_none_ne_read form next)
          | pass => exact pass [] goal goals depth stays answer (ih depth)
          | refuse e => exact refuse [] goal goals depth e room answer
      · simp only [Goal.HasRoom, Classical.not_imp, Nat.not_lt] at room
        exact tooDeep [] goal goals depth room.1 room.2
  | cons t ts ihText =>
    induction goals generalizing depth with
    | nil => exact done (t :: ts) depth
    | cons goal goals ih =>
      by_cases room : goal.HasRoom (some t) limit depth
      · by_cases stays : goal = .leave
        · subst stays; exact leave (t :: ts) goals depth (ih _)
        · cases answer : goal.move t with
          | read form next =>
            exact read t ts goal goals depth form next room answer (ihText _ _)
          | pass => exact pass (t :: ts) goal goals depth stays answer (ih depth)
          | refuse e => exact refuse (t :: ts) goal goals depth e room answer
      · simp only [Goal.HasRoom, Classical.not_imp, Nat.not_lt] at room
        exact tooDeep (t :: ts) goal goals depth room.1 room.2

section Met

variable {limit : Nat} {ts : List Terminal} {goal : Goal} {goals : List Goal} {depth : Nat}

theorem hasRoom_of_met (met : (run limit ts (goal :: goals) depth).cause = none) :
    goal.HasRoom ts.head? limit depth := by
  intro opens
  apply Nat.lt_of_not_le
  intro full
  rw [run_tooDeep ts goals opens full] at met
  cases met

theorem answer_ne_refuse_of_met (met : (run limit ts (goal :: goals) depth).cause = none)
    (e : Expected) : goal.answer ts.head? ≠ .refuse e := by
  intro refused
  rw [run_refuse goals (hasRoom_of_met met) refused] at met
  cases met

end Met

/-- Induction along a run that meets its goals: it finds no level nested too deeply, and no goal
that refuses. -/
theorem run_met_induction (limit : Nat)
    {motive : ∀ ts goals depth, (run limit ts goals depth).cause = none → Prop}
    (done : ∀ ts depth met, motive ts [] depth met)
    (read : ∀ t ts goal goals depth form next met rest, goal.HasRoom (some t) limit depth →
      goal.move t = .read form next →
      motive ts (next ++ goals) (goal.depthBelow (some t) depth) rest →
      motive (t :: ts) (goal :: goals) depth met)
    (leave : ∀ ts goals depth met rest, motive ts goals (depth - 1) rest →
      motive ts (.leave :: goals) depth met)
    (pass : ∀ ts goal goals depth met rest, goal ≠ .leave → goal.answer ts.head? = .pass →
      motive ts goals depth rest → motive ts (goal :: goals) depth met)
    (ts : List Terminal) (goals : List Goal) (depth : Nat)
    (met : (run limit ts goals depth).cause = none) : motive ts goals depth met := by
  induction ts, goals, depth using run_induction limit with
  | done ts depth => exact done ts depth met
  | tooDeep ts goal goals depth opens full => exact absurd (hasRoom_of_met met opens) (by omega)
  | refuse ts goal goals depth e room refused =>
    exact absurd refused (answer_ne_refuse_of_met met e)
  | read t ts goal goals depth form next room reads ih =>
    have hrest := met
    rw [run_read goals room reads, Run.after_cause] at hrest
    exact read t ts goal goals depth form next met hrest room reads (ih hrest)
  | leave ts goals depth ih =>
    have hrest := met
    rw [run_leave, Run.after_cause] at hrest
    exact leave ts goals depth met hrest (ih hrest)
  | pass ts goal goals depth stays passes ih =>
    have hrest := met
    rw [run_pass goals stays passes] at hrest
    exact pass ts goal goals depth met hrest stays passes (ih hrest)

/-- Induction along a run that a goal breaks off: it comes to that goal by reading and passing. -/
theorem run_refused_induction (limit : Nat) (e : Expected)
    {motive : ∀ ts goals depth, (run limit ts goals depth).cause = some (.expected e) → Prop}
    (refuse : ∀ ts goal goals depth cause, goal.HasRoom ts.head? limit depth →
      goal.answer ts.head? = .refuse e → motive ts (goal :: goals) depth cause)
    (read : ∀ t ts goal goals depth form next cause rest, goal.HasRoom (some t) limit depth →
      goal.move t = .read form next →
      motive ts (next ++ goals) (goal.depthBelow (some t) depth) rest →
      motive (t :: ts) (goal :: goals) depth cause)
    (leave : ∀ ts goals depth cause rest, motive ts goals (depth - 1) rest →
      motive ts (.leave :: goals) depth cause)
    (pass : ∀ ts goal goals depth cause rest, goal ≠ .leave → goal.answer ts.head? = .pass →
      motive ts goals depth rest → motive ts (goal :: goals) depth cause)
    (ts : List Terminal) (goals : List Goal) (depth : Nat)
    (cause : (run limit ts goals depth).cause = some (.expected e)) :
    motive ts goals depth cause := by
  induction ts, goals, depth using run_induction limit with
  | done ts depth =>
    rw [run_nil] at cause
    cases cause
  | tooDeep ts goal goals depth opens full =>
    rw [run_tooDeep ts goals opens full] at cause
    cases cause
  | refuse ts goal goals depth e' room refused =>
    obtain rfl : e' = e := by simpa [run_refuse goals room refused] using cause
    exact refuse ts goal goals depth cause room refused
  | read t ts goal goals depth form next room reads ih =>
    have hrest := cause
    rw [run_read goals room reads, Run.after_cause] at hrest
    exact read t ts goal goals depth form next cause hrest room reads (ih hrest)
  | leave ts goals depth ih =>
    have hrest := cause
    rw [run_leave, Run.after_cause] at hrest
    exact leave ts goals depth cause hrest (ih hrest)
  | pass ts goal goals depth stays passes ih =>
    have hrest := cause
    rw [run_pass goals stays passes] at hrest
    exact pass ts goal goals depth cause hrest stays passes (ih hrest)

theorem missing_of_met {limit : Nat} (goals : List Goal) (depth : Nat)
    (met : (run limit [] goals depth).cause = none) : ∀ g ∈ goals, Goal.missing g = none := by
  generalize hts : ([] : List Terminal) = ts at met
  induction ts, goals, depth, met using run_met_induction limit with
  | done ts depth met => simp
  | read t ts goal goals depth form next met rest room reads ih => cases hts
  | leave ts goals depth met rest ih =>
    rw [List.forall_mem_cons]
    exact ⟨rfl, ih hts⟩
  | pass ts goal goals depth met rest stays passes ih =>
    rw [List.forall_mem_cons]
    exact ⟨Goal.missing_of_pass passes, ih hts⟩

end SyntaxPaint
