import SyntaxPaint.Proofs.Grammar.Stepwise
/-!
# Nesting depths along a run

The depth of a run at any time is counted off its steps. `peak` is the greatest depth that is
reached, and `peak_le_iff` says so of the depths after all beginnings of the steps.
-/
namespace SyntaxPaint

/-- The greatest nesting depth while some steps are made, beginning at a depth. -/
def peak (depth : Nat) : List Step → Nat
  | [] => depth
  | step :: steps => max depth (peak (depthAfter depth [step]) steps)

@[simp] theorem depthAfter_nil (depth : Nat) : depthAfter depth [] = depth := rfl

theorem depthAfter_append (depth : Nat) (first second : List Step) :
    depthAfter depth (first ++ second) = depthAfter (depthAfter depth first) second := by
  simp [depthAfter]

theorem depthAfter_cons (depth : Nat) (step : Step) (steps : List Step) :
    depthAfter depth (step :: steps) = depthAfter (depthAfter depth [step]) steps := rfl

@[simp] theorem depthAfter_enter (depth : Nat) : depthAfter depth [.enter] = depth + 1 := rfl

@[simp] theorem depthAfter_leave (depth : Nat) : depthAfter depth [.leave] = depth - 1 := rfl

@[simp] theorem depthAfter_begin (depth : Nat) (form : Form) :
    depthAfter depth [.begin form] = depth := rfl

@[simp] theorem depthAfter_read (depth : Nat) : depthAfter depth [.read] = depth := rfl

@[simp] theorem peak_nil (depth : Nat) : peak depth [] = depth := rfl

theorem peak_cons (depth : Nat) (step : Step) (steps : List Step) :
    peak depth (step :: steps) = max depth (peak (depthAfter depth [step]) steps) := rfl

theorem le_peak (depth : Nat) (steps : List Step) : depth ≤ peak depth steps := by
  cases steps with
  | nil => exact Nat.le_refl depth
  | cons step steps => exact Nat.le_max_left ..

theorem peak_append (depth : Nat) (first second : List Step) :
    peak depth (first ++ second) =
      max (peak depth first) (peak (depthAfter depth first) second) := by
  induction first generalizing depth with
  | nil => simpa using (Nat.max_eq_right (le_peak depth second)).symm
  | cons step first ih =>
    rw [List.cons_append, peak_cons, peak_cons, ih, depthAfter_cons depth step first, Nat.max_assoc]

/-- The peak is the least bound of the depths after all beginnings of the steps. -/
theorem peak_le_iff {depth bound : Nat} {steps : List Step} :
    peak depth steps ≤ bound ↔ ∀ before, before <+: steps → depthAfter depth before ≤ bound := by
  constructor
  · intro h before hbefore
    rcases hbefore with ⟨rest, rfl⟩
    rw [peak_append] at h
    have hrest := le_peak (depthAfter depth before) rest
    omega
  · induction steps generalizing depth with
    | nil => intro h; exact h [] List.prefix_rfl
    | cons step steps ih =>
      intro h
      have hhere : depth ≤ bound := h [] List.nil_prefix
      have hrest : peak (depthAfter depth [step]) steps ≤ bound := by
        apply ih
        intro before hbefore
        have hcons := h (step :: before) ((List.prefix_cons_inj step).mpr hbefore)
        rwa [depthAfter_cons] at hcons
      rw [peak_cons]
      omega

theorem peak_abandon (depth : Nat) (goals : List Goal) : peak depth (abandon goals) = depth := by
  simp only [abandon]
  induction goals.filter (· == .leave) generalizing depth with
  | nil => rfl
  | cons goal goals ih =>
    rw [List.map_cons, peak_cons, ih, depthAfter_leave]
    omega

section Goal

variable (goal : Goal) (depth : Nat)

theorem Goal.depthAfter_reading (t : Terminal) (form : Option Form) :
    depthAfter depth (goal.reading t form) = goal.depthBelow (some t) depth := by
  cases form <;> cases h : goal.opensLevel (some t) <;>
    simp [Goal.reading, Goal.depthBelow, h, depthAfter]

theorem Goal.peak_reading (t : Terminal) (form : Option Form) :
    peak depth (goal.reading t form) = goal.depthBelow (some t) depth := by
  cases form <;> cases h : goal.opensLevel (some t) <;>
    simp [Goal.reading, Goal.depthBelow, h, peak_cons]

theorem Goal.depthAfter_refusing (look : Option Terminal) :
    depthAfter depth (goal.refusing look) = depth := by
  cases h : goal.opensLevel look <;> simp [Goal.refusing, h, depthAfter]

theorem Goal.peak_refusing (look : Option Terminal) :
    peak depth (goal.refusing look) = goal.depthBelow look depth := by
  cases h : goal.opensLevel look <;> simp [Goal.refusing, Goal.depthBelow, h, peak_cons]

end Goal
end SyntaxPaint
