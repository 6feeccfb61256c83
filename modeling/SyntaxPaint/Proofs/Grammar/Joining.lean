import SyntaxPaint.Proofs.Grammar.Exactness
import SyntaxPaint.Proofs.Grammar.Resuming
import SyntaxPaint.Proofs.Grammar.Table
/-!
# Programs one behind the other

At the end of an accepted program the checker is between two statements, whatever statement came
last: all that may be left above the program are levels to be left, and branches that only an `else`
would take. So it goes on with what follows as if it began there.
-/
namespace SyntaxPaint

/-! ## Where values end -/

/-- The goals that read a value or a part of one. -/
def Goal.isValue : Goal → Bool
  | initializer | returnValue | expression | term | factor | moreTerms | moreFactors => true
  | _ => false

def Goal.isMark : Goal → Bool
  | mark _ => true
  | _ => false

/-- Below every goal of a value stands the mark that ends it. The flag tells of a mark below the
whole list. -/
def valuesEnd (ended : Bool) : List Goal → Bool
  | [] => true
  | goal :: goals => (!goal.isValue || ended || goals.any Goal.isMark) && valuesEnd ended goals

section Values

variable {goal : Goal} {goals next : List Goal} {t : Terminal} {form : Option Form}

theorem valuesEnd_append (ended : Bool) :
    valuesEnd ended (next ++ goals) =
      (valuesEnd (ended || goals.any Goal.isMark) next && valuesEnd ended goals) := by
  induction next with
  | nil => simp [valuesEnd]
  | cons goal next ih =>
    simp only [List.cons_append, valuesEnd, ih, List.any_append]
    cases ended <;> cases goals.any Goal.isMark <;> simp [Bool.and_assoc]

theorem valuesEnd_true (goals : List Goal) : valuesEnd true goals = true := by
  induction goals with
  | nil => rfl
  | cons goal goals ih => simp [valuesEnd, ih]

theorem valuesEnd_tail (ends : valuesEnd false (goal :: goals) = true) :
    valuesEnd false goals = true := by
  rw [valuesEnd, Bool.and_eq_true] at ends
  exact ends.2

theorem Goal.valuesEnd_of_read (reads : goal.move t = .read form next) :
    valuesEnd goal.isValue next = true :=
  of_everyReading (p := fun goal _ next => valuesEnd goal.isValue next) (by decide +kernel) reads

theorem valuesEnd_read (ends : valuesEnd false (goal :: goals) = true)
    (reads : goal.move t = .read form next) : valuesEnd false (next ++ goals) = true := by
  simp only [valuesEnd, Bool.or_false, Bool.and_eq_true] at ends
  rw [valuesEnd_append, Bool.false_or, ends.2, Bool.and_true]
  cases hmark : goals.any Goal.isMark with
  | true => exact valuesEnd_true next
  | false =>
    have hvalue : goal.isValue = false := by simpa [hmark] using ends.1
    have hnext := Goal.valuesEnd_of_read reads
    rwa [hvalue] at hnext

theorem isValue_eq_false_of_met {limit depth : Nat} (ends : valuesEnd false (goal :: goals) = true)
    (met : (run limit [] goals depth).cause = none) : goal.isValue = false := by
  have hmarks : goals.any Goal.isMark = false := by
    rw [List.any_eq_false]
    intro g hg hmark
    have hvoid := missing_of_met goals depth met g hg
    cases g with
    | mark m => cases hvoid
    | _ => cases hmark
  rw [valuesEnd, hmarks, Bool.and_eq_true] at ends
  simpa using ends.1

end Values

/-! ## At the seam -/

/-- Between two statements only an `else` would be read by what is left of the first. -/
theorem Goal.answer_between {goal : Goal} {look : Option Terminal} (inner : goal.isInner = true)
    (void : goal.missing = none) (value : goal.isValue = false)
    (noElse : look ≠ some .elseWord) : goal.answer look = .pass := by
  cases goal with
  | program | endOfInput => cases inner
  | initializer | returnValue | moreTerms | moreFactors => cases value
  | leave => exact answer_leave look
  | elseBranch =>
    cases look with
    | none => rfl
    | some t =>
      cases t with
      | elseWord => exact absurd rfl noElse
      | _ => rfl
  | _ => cases void

/-- A run that has met its goals at the end of a text goes on as the run of a program does. -/
theorem run_append_of_met {limit : Nat} {us : List Terminal} (noElse : us.head? ≠ some .elseWord)
    (ts : List Terminal) (goals : List Goal) (depth : Nat) (grounded : Grounded goals)
    (ends : valuesEnd false goals = true) (met : (run limit ts goals depth).cause = none) :
    run limit (ts ++ us) goals depth =
      (run limit us [.program] (depth - goals.count .leave)).after
        (run limit ts goals depth).steps := by
  induction ts, goals, depth, met using run_met_induction limit with
  | done ts depth met => exact absurd grounded not_grounded_nil
  | read t ts goal goals depth form next met rest room reads ih =>
    have hdepth : goal.depthBelow (some t) depth - (next ++ goals).count .leave =
        depth - (goal :: goals).count .leave := by
      rw [Goal.depthBelow_of_read reads, List.count_append, count_leave_of_read reads]
      omega
    rw [List.cons_append, run_read goals room reads, run_read goals room reads,
      ih (grounded.read reads) (valuesEnd_read ends reads), hdepth]
    simp [Run.after]
  | leave ts goals depth met rest ih =>
    have hdepth : depth - 1 - goals.count .leave = depth - (Goal.leave :: goals).count .leave := by
      rw [List.count_cons_self]
      omega
    rw [run_leave, run_leave, ih grounded.of_leave (valuesEnd_tail ends), hdepth]
    rfl
  | pass ts goal goals depth met rest stays passes ih =>
    have void := Goal.missing_of_pass passes
    rw [run_pass goals stays passes, List.count_cons_of_ne stays]
    rcases grounded_cons_iff.mp grounded with ⟨rfl, rfl⟩ | ⟨inner, below⟩
    · -- The program itself is left: this is where the second text begins.
      obtain rfl := eq_nil_of_program_passes passes
      rw [run_nil]
      rfl
    · have passes' : goal.answer (ts ++ us).head? = .pass := by
        cases ts with
        | nil => exact Goal.answer_between inner void (isValue_eq_false_of_met ends rest) noElse
        | cons t ts => exact passes
      rw [run_pass goals stays passes', ih below (valuesEnd_tail ends)]

namespace Checker

private theorem terminal_ne_elseWord {us : List Token}
    (noElse : ∀ t ∈ us.head?, ¬ (t.kind = .keyword ∧ String.ofList t.text = "else")) :
    (us.map Token.terminal).head? ≠ some .elseWord := by
  intro h
  rw [List.head?_map, Option.map_eq_some_iff] at h
  rcases h with ⟨t, ht, hword⟩
  exact noElse t ht (Token.terminal_eq_elseWord_iff.mp hword)

section

variable {xs ys : List Token} {limit : Nat}

private theorem answering_append (accepted : (new xs limit).program.1.accepted = true)
    (noElse : ∀ t ∈ (significant ys).head?,
      ¬ (t.kind = .keyword ∧ String.ofList t.text = "else")) :
    (new (xs ++ ys) limit).answering .program =
      ((new ys limit).answering .program).after ((new xs limit).answering .program).steps := by
  have hmet := (ask_accepted (new xs limit) .program).mp accepted
  rw [answering_new] at hmet
  have hjoined := run_append_of_met (terminal_ne_elseWord noElse) _ [.program] 0 grounded_program
    rfl hmet
  rw [answering_new, answering_new, answering_new, significant, List.filter_append, List.map_append]
  exact hjoined

private theorem taken_of_accepted (accepted : (new xs limit).program.1.accepted = true) :
    ((new xs limit).answering .program).steps.count .read = (significant xs).length := by
  have hmet := (ask_accepted (new xs limit) .program).mp accepted
  rw [answering_new] at hmet ⊢
  have htaken := run_taken_of_met _ _ _ (fun _ => .inl List.mem_cons_self) hmet
  rwa [List.length_map] at htaken

end

/-- Behind an accepted program the checker reads on as if it began there, under the same limit: it
accepts both texts together if it accepts the second, and stops at the same token for the same
reason if not. Only an `else` could still belong to the first. -/
theorem program_append (xs ys : List Token) (limit : Nat)
    (accepted : (new xs limit).program.1.accepted = true)
    (noElse : ∀ t ∈ (significant ys).head?,
      ¬ (t.kind = .keyword ∧ String.ofList t.text = "else")) :
    let both := (new (xs ++ ys) limit).program
    let second := (new ys limit).program
    (both.1.accepted = true ↔ second.1.accepted = true) ∧
    both.1.rejection = second.1.rejection ∧ both.1.current = second.1.current ∧
    both.2.position = second.2.position + (significant xs).length ∧
    both.1.forms = (new xs limit).program.1.forms ++ second.1.forms := by
  intro both second
  have hrun := answering_append accepted noElse
  have hwords : significant (xs ++ ys) = significant xs ++ significant ys := List.filter_append ..
  have hposition : both.2.position = second.2.position + (significant xs).length := by
    show ((new (xs ++ ys) limit).ask .program).2.position =
      ((new ys limit).ask .program).2.position + _
    rw [ask_position, ask_position, hrun, Run.after_taken, taken_of_accepted accepted]
    show 0 + _ = 0 + _ + _
    omega
  have hcurrent : both.1.current = second.1.current := by
    have hboth : both.1.current = (significant (xs ++ ys))[both.2.position]? :=
      ask_current _ .program
    have hsecond : second.1.current = (significant ys)[second.2.position]? :=
      ask_current _ .program
    rw [hboth, hsecond, hposition, hwords, List.getElem?_append_right (Nat.le_add_left ..),
      Nat.add_sub_cancel]
  refine ⟨?accepted, ?rejection, hcurrent, hposition, ?forms⟩
  case accepted =>
    show ((new (xs ++ ys) limit).ask .program).1.accepted = true ↔
      ((new ys limit).ask .program).1.accepted = true
    rw [ask_accepted, ask_accepted, hrun, Run.after_cause]
  case rejection =>
    have hboth := ask_rejection (new (xs ++ ys) limit) .program
    have hsecond := ask_rejection (new ys limit) .program
    rw [hrun, Run.after_cause] at hboth
    refine hboth.trans (Eq.trans ?_ hsecond.symm)
    show _ = Option.map ((new ys limit).rejection second.1.current) _
    rw [← hcurrent]
    rfl
  case forms =>
    have hboth : both.1.forms = _ := ask_forms (new (xs ++ ys) limit) .program
    have hfirst : (new xs limit).program.1.forms = _ := ask_forms (new xs limit) .program
    have hsecond : second.1.forms = _ := ask_forms (new ys limit) .program
    rw [hboth, hfirst, hsecond, hrun]
    exact List.filterMap_append

/-- Both levels of `if (a) if (b) x;` would still take an `else`; behind it `return (x);` is refused
at its parenthesis, as it is on its own. -/
theorem program_append_open_if :
    let xs := place .origin [⟨.keyword, ['i', 'f']⟩, ⟨.operator, ['(']⟩, ⟨.identifier, ['a']⟩,
      ⟨.operator, [')']⟩, ⟨.keyword, ['i', 'f']⟩, ⟨.operator, ['(']⟩, ⟨.identifier, ['b']⟩,
      ⟨.operator, [')']⟩, ⟨.identifier, ['x']⟩, ⟨.operator, [';']⟩]
    let ys := place .origin [⟨.keyword, ['r', 'e', 't', 'u', 'r', 'n']⟩, ⟨.operator, ['(']⟩,
      ⟨.identifier, ['x']⟩, ⟨.operator, [')']⟩, ⟨.operator, [';']⟩]
    (new xs 2).program.1.accepted = true ∧
      (∀ t ∈ (significant ys).head?, ¬ (t.kind = .keyword ∧ String.ofList t.text = "else")) ∧
      (new (xs ++ ys) 2).program.1.rejection = (new ys 2).program.1.rejection ∧
      (new (xs ++ ys) 2).program.2.position = 11 := by
  intro xs ys
  have haccepted : (new xs 2).program.1.accepted = true := by decide
  have hnoElse : ∀ t ∈ (significant ys).head?,
      ¬ (t.kind = .keyword ∧ String.ofList t.text = "else") := by decide
  have happend := program_append xs ys 2 haccepted hnoElse
  have hposition : (new ys 2).program.2.position + (significant xs).length = 11 := by decide
  exact ⟨haccepted, hnoElse, happend.2.1, happend.2.2.2.1.trans hposition⟩

end Checker

end SyntaxPaint
