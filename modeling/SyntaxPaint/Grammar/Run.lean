import SyntaxPaint.Grammar.Goal
/-!
# Runs of the checker

A run works off a stack of goals over a list of terminals and stops at the first terminal that the
topmost goal refuses, at a level that is nested too deeply, or when no goal is left. Everything
that it does is kept as a list of steps: how far it read and how deeply it was nested at any time
can be counted off them. Levels that are open when a run breaks off are left.
-/
namespace SyntaxPaint

inductive Step where
  | enter
  | leave
  | begin (form : Form)
  | read
deriving DecidableEq, Repr

/-- Why a run breaks off. -/
inductive Cause where
  | expected (e : Expected)
  | tooDeep
deriving DecidableEq, Repr

structure Run where
  steps : List Step
  /-- Nothing if every goal was met. -/
  cause : Option Cause
deriving DecidableEq, Repr

/-- A run with further steps in front of it. -/
def Run.after (steps : List Step) (r : Run) : Run := ⟨steps ++ r.steps, r.cause⟩

/-- How many terminals were read. -/
def Run.taken (r : Run) : Nat := r.steps.count .read

def Run.forms (r : Run) : List Form := r.steps.filterMap fun
  | .begin form => some form
  | _ => none

/-- Leaving the levels that the goals of a stack would have left. -/
def abandon (goals : List Goal) : List Step :=
  (goals.filter (· == .leave)).map fun _ => .leave

/-- The goals in front of a terminal: the steps up to it, and either the goals that are left once
it is read or the end of the run. -/
inductive Meeting where
  | reads (steps : List Step) (goals : List Goal) (depth : Nat)
  | stops (run : Run)

def Meeting.after (steps : List Step) : Meeting → Meeting
  | reads more goals depth => reads (steps ++ more) goals depth
  | stops r => stops (r.after steps)

/-- Lets the goals pass one by one until one of them reads the terminal or refuses it. -/
def meet (limit : Nat) (t : Terminal) : List Goal → Nat → Meeting
  | [], _ => .stops ⟨[], none⟩
  | goal :: goals, depth =>
    let opens := goal.opensLevel (some t)
    if opens && limit ≤ depth then .stops ⟨abandon goals, some .tooDeep⟩
    else
      let entered : List Step := if opens then [.enter] else []
      match goal.move t with
      | .read form next =>
        let begun := (form.map Step.begin).toList
        .reads (entered ++ begun ++ [.read]) (next ++ goals) (if opens then depth + 1 else depth)
      | .pass =>
        if goal = .leave then (meet limit t goals (depth - 1)).after [.leave]
        else meet limit t goals depth
      | .refuse e =>
        let left : List Step := if opens then [.leave] else []
        .stops ⟨entered ++ left ++ abandon goals, some (.expected e)⟩

/-- The goals at the end of input. -/
def close (limit : Nat) : List Goal → Nat → Run
  | [], _ => ⟨[], none⟩
  | goal :: goals, depth =>
    let opens := goal.opensLevel none
    if opens && limit ≤ depth then ⟨abandon goals, some .tooDeep⟩
    else match goal.missing with
      | some e =>
        let around : List Step := if opens then [.enter, .leave] else []
        ⟨around ++ abandon goals, some (.expected e)⟩
      | none =>
        if goal = .leave then (close limit goals (depth - 1)).after [.leave]
        else close limit goals depth

/-- The run of a stack of goals, begun at a nesting depth. -/
def run (limit : Nat) : List Terminal → List Goal → Nat → Run
  | [], goals, depth => close limit goals depth
  | t :: ts, goals, depth =>
    match meet limit t goals depth with
    | .reads steps goals depth => (run limit ts goals depth).after steps
    | .stops r => r

/-- The nesting depth after some steps. -/
def depthAfter (depth : Nat) (steps : List Step) : Nat :=
  steps.foldl (fun d s => match s with | .enter => d + 1 | .leave => d - 1 | _ => d) depth

end SyntaxPaint
