import SyntaxPaint.Proofs.Grammar.Depth
import SyntaxPaint.Proofs.Grammar.Question
/-!
# The nesting limit as a cut

A limit beyond the number of terminals is never reached: each level that is open was opened with a
terminal of its own. A lower limit changes nothing about a run that stays within it, and cuts any
other run off where it first goes beyond.
-/
namespace SyntaxPaint

/-- `cut` is the run `free` under a limit: the same where the limit suffices, and otherwise broken
off as too deep at the first step that goes beyond it. -/
def Run.IsCut (limit depth : Nat) (free cut : Run) : Prop :=
  (peak depth free.steps ≤ limit → cut = free) ∧
  (limit < peak depth free.steps → cut.cause = some .tooDeep ∧
    ∃ before after, free.steps = before ++ .enter :: after ∧ depthAfter depth before = limit ∧
      peak depth before ≤ limit ∧ cut.taken = before.count .read)

private theorem isCut_refl {limit depth : Nat} {r : Run} (h : peak depth r.steps ≤ limit) :
    r.IsCut limit depth r := by
  refine ⟨fun _ => rfl, fun hlt => ?_⟩
  omega

private theorem isCut_after {limit depth : Nat} {steps : List Step} {free cut : Run}
    (within : peak depth steps ≤ limit) (h : free.IsCut limit (depthAfter depth steps) cut) :
    (free.after steps).IsCut limit depth (cut.after steps) := by
  have hpeak : peak depth (free.after steps).steps =
      max (peak depth steps) (peak (depthAfter depth steps) free.steps) := by
    rw [Run.after_steps, peak_append]
  refine ⟨fun hle => ?_, fun hlt => ?_⟩
  · rw [h.1 (by omega)]
  · rcases h.2 (by omega) with ⟨hcause, before, after, heq, hdepth, hbefore, htaken⟩
    refine ⟨hcause, steps ++ before, after, ?_, ?_, ?_, ?_⟩
    · rw [Run.after_steps, heq, List.append_assoc]
    · rw [depthAfter_append, hdepth]
    · rw [peak_append]; omega
    · rw [Run.after_taken, htaken, List.count_append]

private theorem isCut_tooDeep {limit : Nat} {free : Run} {rest : List Step} {goals : List Goal}
    (h : free.steps = .enter :: rest) : free.IsCut limit limit ⟨abandon goals, some .tooDeep⟩ := by
  have hpeak : limit + 1 ≤ peak limit free.steps := by
    rw [h, peak_cons, depthAfter_enter]
    exact Nat.le_trans (le_peak _ _) (Nat.le_max_right ..)
  refine ⟨fun hle => by omega, fun _ => ⟨rfl, [], rest, h, rfl, Nat.le_refl limit, ?_⟩⟩
  exact count_read_abandon goals

private theorem peak_le_of_isCut {limit depth : Nat} {free cut : Run}
    (h : free.IsCut limit depth cut) (met : cut.cause = none) : peak depth free.steps ≤ limit := by
  apply Nat.le_of_not_lt
  intro hlt
  have hcause := (h.2 hlt).1
  rw [met] at hcause
  cases hcause

section

variable {limit free depth : Nat} {goal : Goal} {look : Option Terminal}

private theorem full_of_not_hasRoom (within : depth ≤ limit)
    (h : ¬ goal.HasRoom look limit depth) : goal.opensLevel look = true ∧ depth = limit := by
  simp only [Goal.HasRoom, Classical.not_imp, Nat.not_lt] at h
  exact ⟨h.1, by omega⟩

private theorem depthBelow_le (within : depth ≤ limit) (room : goal.HasRoom look limit depth) :
    goal.depthBelow look depth ≤ limit := by
  rw [Goal.depthBelow]
  split
  · have := room ‹_›; omega
  · exact within

end

/-- A run that begins within the limit stays within it. -/
theorem peak_run_le {limit : Nat} (ts : List Terminal) (goals : List Goal) (depth : Nat)
    (within : depth ≤ limit) : peak depth (run limit ts goals depth).steps ≤ limit := by
  induction ts, goals, depth using run_induction limit with
  | done ts depth =>
    rw [run_nil]
    exact within
  | tooDeep ts goal goals depth opens full =>
    rw [run_tooDeep ts goals opens full, peak_abandon]
    exact within
  | refuse ts goal goals depth e room refused =>
    have hbelow := depthBelow_le within room
    rw [run_refuse goals room refused, peak_append, goal.peak_refusing, peak_abandon,
      goal.depthAfter_refusing]
    omega
  | read t ts goal goals depth form next room reads ih =>
    have hbelow := depthBelow_le within room
    have hrest := ih hbelow
    rw [run_read goals room reads, Run.after_steps, peak_append, goal.peak_reading,
      goal.depthAfter_reading]
    omega
  | leave ts goals depth ih =>
    have hrest := ih (by omega)
    rw [run_leave, Run.after_steps, List.singleton_append, peak_cons, depthAfter_leave]
    omega
  | pass ts goal goals depth stays passes ih =>
    rw [run_pass goals stays passes]
    exact ih within

theorem run_cause_ne_tooDeep {free : Nat} (ts : List Terminal) (goals : List Goal) (depth : Nat)
    (ample : depth + ts.length < free) : (run free ts goals depth).cause ≠ some .tooDeep := by
  induction ts, goals, depth using run_induction free with
  | done ts depth => simp [run_nil]
  | tooDeep ts goal goals depth opens full => omega
  | refuse ts goal goals depth e room refused => simp [run_refuse goals room refused]
  | read t ts goal goals depth form next room reads ih =>
    rw [run_read goals room reads, Run.after_cause]
    apply ih
    have hbelow := goal.depthBelow_le_succ (some t) depth
    simp only [List.length_cons] at ample
    omega
  | leave ts goals depth ih =>
    rw [run_leave, Run.after_cause]
    exact ih (by omega)
  | pass ts goal goals depth stays passes ih =>
    rw [run_pass goals stays passes]
    exact ih ample

/-- Under any limit a run is the cut of its unlimited form. -/
theorem run_isCut {limit free : Nat} (ts : List Terminal) (goals : List Goal) (depth : Nat)
    (ample : depth + ts.length < free) (within : depth ≤ limit) :
    (run free ts goals depth).IsCut limit depth (run limit ts goals depth) := by
  induction ts, goals, depth using run_induction free with
  | done ts depth =>
    rw [run_nil, run_nil]
    exact isCut_refl within
  | tooDeep ts goal goals depth opens full => omega
  | refuse ts goal goals depth e roomFree refused =>
    rw [run_refuse goals roomFree refused]
    by_cases room : goal.HasRoom ts.head? limit depth
    · rw [run_refuse goals room refused]
      apply isCut_refl
      rw [peak_append, Goal.peak_refusing, peak_abandon, Goal.depthAfter_refusing]
      have := depthBelow_le within room
      omega
    · rcases full_of_not_hasRoom within room with ⟨opens, rfl⟩
      rw [run_tooDeep ts goals opens (Nat.le_refl depth)]
      have hsteps : goal.refusing ts.head? ++ abandon goals =
          .enter :: .leave :: abandon goals := by
        simp [Goal.refusing, opens]
      exact isCut_tooDeep hsteps
  | read t ts goal goals depth form next roomFree reads ih =>
    rw [run_read goals roomFree reads]
    by_cases room : goal.HasRoom (some t) limit depth
    · rw [run_read goals room reads]
      have hbelow := depthBelow_le within room
      apply isCut_after
      · rwa [Goal.peak_reading]
      · rw [Goal.depthAfter_reading]
        apply ih _ hbelow
        have hsucc := goal.depthBelow_le_succ (some t) depth
        simp only [List.length_cons] at ample
        omega
    · rcases full_of_not_hasRoom within room with ⟨opens, rfl⟩
      rw [run_tooDeep (t :: ts) goals opens (Nat.le_refl depth)]
      apply isCut_tooDeep
      simp only [Run.after_steps, Goal.reading, opens]
      rfl
  | leave ts goals depth ih =>
    rw [run_leave, run_leave]
    apply isCut_after
    · simp only [peak_cons, peak_nil, depthAfter_leave]; omega
    · rw [depthAfter_leave]
      exact ih (by omega) (by omega)
  | pass ts goal goals depth stays passes ih =>
    rw [run_pass goals stays passes, run_pass goals stays passes]
    exact ih ample within

/-- What a run meets under some limit it meets under one that is out of reach. -/
theorem run_met_of_limit {limit free : Nat} (ts : List Terminal) (goals : List Goal)
    (ample : ts.length < free) (met : (run limit ts goals 0).cause = none) :
    (run free ts goals 0).cause = none := by
  have hample : 0 + ts.length < free := by omega
  have hcut := run_isCut ts goals 0 hample (Nat.zero_le limit)
  have hwithin := peak_le_of_isCut hcut met
  rwa [hcut.1 hwithin] at met

namespace Checker

variable {tokens : List Token} {limit free : Nat} (q : Question)

private theorem answering_isCut (limit : Nat) (ample : (significant tokens).length < free) :
    ((new tokens free).answering q).IsCut limit 0 ((new tokens limit).answering q) := by
  rw [answering_new, answering_new]
  exact run_isCut _ _ 0 (by simpa using ample) (Nat.zero_le limit)

private theorem answering_cause_ne_tooDeep (ample : (significant tokens).length < free) :
    ((new tokens free).answering q).cause ≠ some .tooDeep := by
  rw [answering_new]
  exact run_cause_ne_tooDeep _ _ 0 (by simpa using ample)

private theorem ask_congr {other : Nat}
    (same : (new tokens limit).answering q = (new tokens other).answering q)
    (unlimited : ((new tokens other).answering q).cause ≠ some .tooDeep) :
    ((new tokens limit).ask q).1 = ((new tokens other).ask q).1 := by
  rw [ask_report, ask_report, same]
  cases h : ((new tokens other).answering q).cause with
  | none => rfl
  | some cause =>
    cases cause with
    | expected e => rfl
    | tooDeep => exact absurd h unlimited

private theorem accepted_iff_peak_le (ample : (significant tokens).length < free)
    (accepted : ((new tokens free).ask q).1.accepted = true) :
    ((new tokens limit).ask q).1.accepted = true ↔
      peak 0 ((new tokens free).answering q).steps ≤ limit := by
  have hcut := answering_isCut q limit ample
  rw [ask_accepted] at accepted ⊢
  constructor
  · exact peak_le_of_isCut hcut
  · intro h
    rw [hcut.1 h]
    exact accepted

/-- A limit cuts the unlimited run exactly: where the run stays within the limit the answer is the
same, and otherwise the text is rejected at the token in front of which the run first goes beyond
it. So a text that is accepted at all is accepted from one threshold on, the peak of its run. -/
theorem nesting_limit_cuts (tokens : List Token) (q : Question) (limit free : Nat)
    (ample : (significant tokens).length < free) :
    let cut := (new tokens limit).ask q
    let whole := (new tokens free).ask q
    let steps := ((new tokens free).answering q).steps
    (∀ l, whole.1.rejection ≠ some (.tooDeep l)) ∧
    (peak 0 steps ≤ limit → cut.1 = whole.1 ∧ cut.2.position = whole.2.position) ∧
    (limit < peak 0 steps → cut.1.rejection = some (.tooDeep limit) ∧
      ∃ before after, steps = before ++ .enter :: after ∧ depthAfter 0 before = limit ∧
        peak 0 before ≤ limit ∧ cut.2.position = before.count .read) ∧
    (∀ higher, limit ≤ higher → cut.1.accepted = true →
      ((new tokens higher).ask q).1.accepted = true) ∧
    (whole.1.accepted = true → ∀ threshold,
      (∀ l, ((new tokens l).ask q).1.accepted = true ↔ threshold ≤ l) ↔
        threshold = peak 0 steps) := by
  intro cut whole steps
  have hcut := answering_isCut q limit ample
  have hunlimited := answering_cause_ne_tooDeep q ample
  refine ⟨?unlimited, ?within, ?beyond, ?monotone, ?threshold⟩
  case unlimited =>
    intro l h
    simp only [whole, ask_report, Option.map_eq_some_iff] at h
    rcases h with ⟨cause, hcause, h⟩
    cases cause with
    | expected e => cases h
    | tooDeep => exact hunlimited hcause
  case within =>
    intro h
    have hsame := hcut.1 h
    refine ⟨ask_congr q hsame hunlimited, ?_⟩
    simp only [cut, whole, ask_position, hsame]
    rfl
  case beyond =>
    intro h
    rcases hcut.2 h with ⟨hcause, before, after, heq, hdepth, hbefore, htaken⟩
    refine ⟨?_, before, after, heq, hdepth, hbefore, ?_⟩
    · simp only [cut, ask_report, hcause]
      rfl
    · simp only [cut, ask_position, htaken]
      exact Nat.zero_add _
  case monotone =>
    intro higher hle haccepted
    rw [ask_accepted] at haccepted
    have hwithin : peak 0 steps ≤ limit := peak_le_of_isCut hcut haccepted
    have hwhole : whole.1.accepted = true := by
      rw [ask_accepted]
      rwa [hcut.1 hwithin] at haccepted
    exact (accepted_iff_peak_le q ample hwhole).mpr (Nat.le_trans hwithin hle)
  case threshold =>
    intro hwhole threshold
    have hpeak (l : Nat) : ((new tokens l).ask q).1.accepted = true ↔ peak 0 steps ≤ l :=
      accepted_iff_peak_le q ample hwhole
    constructor
    · intro h
      have hle : peak 0 steps ≤ threshold :=
        (hpeak threshold).mp ((h threshold).mpr (Nat.le_refl _))
      have hge : threshold ≤ peak 0 steps := (h _).mp ((hpeak _).mpr (Nat.le_refl _))
      omega
    · intro h
      subst h
      exact hpeak

/-- `x = ((1));` opens a second level with its fourth token. -/
theorem nesting_limit_cuts_parentheses :
    let tokens := place .origin [⟨.identifier, ['x']⟩, ⟨.operator, ['=']⟩, ⟨.operator, ['(']⟩,
      ⟨.operator, ['(']⟩, ⟨.number, ['1']⟩, ⟨.operator, [')']⟩, ⟨.operator, [')']⟩,
      ⟨.operator, [';']⟩]
    (significant tokens).length < 9 ∧
      ((new tokens 1).ask .program).1.rejection = some (.tooDeep 1) ∧
      ∀ l, ((new tokens l).ask .program).1.accepted = true ↔ 2 ≤ l := by
  intro tokens
  have cuts := nesting_limit_cuts tokens .program 1 9 (by decide)
  refine ⟨by decide, (cuts.2.2.1 (by decide)).1, ?_⟩
  exact (cuts.2.2.2.2 (by decide) 2).mpr (by decide)

end Checker

end SyntaxPaint
