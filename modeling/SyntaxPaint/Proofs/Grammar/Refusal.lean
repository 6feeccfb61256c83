import SyntaxPaint.Proofs.Grammar.Exactness
import SyntaxPaint.Proofs.Grammar.Nesting
import SyntaxPaint.Proofs.Token.Lexemes
/-!
# Where a text is refused

A run reads a lexeme only where some word of the grammar goes on with it. What has been read can be
completed, since each goal that is left has a shortest word of its own; and the lexeme at which the
run stops begins nothing that the goals in front of it could read. So the place of a refusal is the
first at which the text departs from the grammar.
-/
namespace SyntaxPaint

/-! ## Completions -/

/-- A shortest word of the goal. -/
def Goal.shortest : Goal → List Lexeme
  | statement | body => [⟨.identifier, ['x']⟩, ⟨.operator, [Mark.semicolon.char]⟩]
  | expression | term | factor | name => [⟨.identifier, ['x']⟩]
  | blockRest => [⟨.operator, [Mark.closeBrace.char]⟩]
  | mark m => [⟨.operator, [m.char]⟩]
  | program | elseBranch | initializer | returnValue | moreTerms | moreFactors | leave
  | endOfInput => []

/-- A word that meets all goals of a stack. -/
def completion (goals : List Goal) : List Lexeme := goals.flatMap Goal.shortest

theorem Goal.derives_shortest (goal : Goal) : Derives goal.ebnf goal.shortest := by
  have hname : Derives (.any .identifier) [⟨.identifier, ['x']⟩] := .one (by simp [Lexeme.Fits])
  have hmark (m : Mark) : Derives (.operator [String.ofList [m.char]]) [⟨.operator, [m.char]⟩] :=
    .one (by simp [Lexeme.Fits])
  have hfactor : Derives (.rule .factor) [⟨.identifier, ['x']⟩] :=
    .rule (.right (.left hname))
  have hterm : Derives (.rule .term) [⟨.identifier, ['x']⟩] := .rule (.seq hfactor .none)
  have hexpression : Derives (.rule .expression) [⟨.identifier, ['x']⟩] := .rule (.seq hterm .none)
  have hassignment : Derives (.rule .assignment) [⟨.identifier, ['x']⟩, ⟨.operator, [';']⟩] :=
    .rule (.seq hname (.seq .without (hmark .semicolon)))
  have hstatement : Derives (.rule .statement) [⟨.identifier, ['x']⟩, ⟨.operator, [';']⟩] :=
    .rule (.right (.right (.right (.right hassignment))))
  cases goal with
  | statement => exact hstatement
  | body => exact .rule (.right hstatement)
  | blockRest => exact .seq .none (hmark .closeBrace)
  | expression => exact hexpression
  | term => exact hterm
  | factor => exact hfactor
  | name => exact hname
  | mark m => exact hmark m
  | _ => exact (Goal.derives_nil_iff _).mpr rfl

theorem derives_completion (goals : List Goal) : Derives (stackEbnf goals) (completion goals) := by
  induction goals with
  | nil => exact .empty
  | cons goal goals ih =>
    exact derives_stack_cons_iff.mpr ⟨_, _, rfl, goal.derives_shortest, ih⟩

theorem not_isTrivia_of_mem_completion {goals : List Goal} {l : Lexeme} (h : l ∈ completion goals) :
    l.kind.isTrivia = false := by
  obtain ⟨goal, -, hl⟩ := List.mem_flatMap.mp h
  cases goal <;> simp [Goal.shortest] at hl <;> grind [Kind.isTrivia]

/-! ## Runs -/

section Runs

variable {limit : Nat}

private theorem derives_stack_of_pass {look : Option Terminal} {goal : Goal} {goals : List Goal}
    {w : List Lexeme} (passes : goal.answer look = .pass) (h : Derives (stackEbnf goals) w) :
    Derives (stackEbnf (goal :: goals)) w := by
  have hempty : Derives goal.ebnf [] := goal.derives_nil_iff.mpr (Goal.missing_of_pass passes)
  exact derives_stack_cons_iff.mpr ⟨[], w, rfl, hempty, h⟩

/-- What a run has read is the beginning of a word of its goals: some goals are left, and a word of
these completes it. -/
theorem exists_completion_of_run (limit : Nat) (tokens : List Token) (goals : List Goal)
    (depth : Nat) :
    ∃ read behind left, tokens = read ++ behind ∧
      read.length = (run limit (tokens.map Token.terminal) goals depth).taken ∧
      Derives (stackEbnf goals) (read.map Token.lexeme ++ completion left) := by
  generalize hts : tokens.map Token.terminal = ts
  induction ts, goals, depth using run_induction limit generalizing tokens with
  | done ts depth =>
    refine ⟨[], tokens, [], rfl, ?_, .empty⟩
    rw [run_nil]
    rfl
  | tooDeep ts goal goals depth opens full =>
    refine ⟨[], tokens, goal :: goals, rfl, ?_, derives_completion _⟩
    rw [run_tooDeep ts goals opens full, Run.taken, count_read_abandon, List.length_nil]
  | refuse ts goal goals depth e room refused =>
    refine ⟨[], tokens, goal :: goals, rfl, ?_, derives_completion _⟩
    rw [taken_of_refuse goals room refused, List.length_nil]
  | read x ts goal goals depth form next room reads ih =>
    obtain ⟨t, rest, rfl, rfl, hrest⟩ := List.map_eq_cons_iff.mp hts
    obtain ⟨read, behind, left, rfl, hlength, hderives⟩ := ih rest hrest
    refine ⟨t :: read, behind, left, rfl, ?_, ?_⟩
    · rw [taken_of_read goals room reads, ← hlength, List.length_cons]
    · apply derives_stack_cons_cons_iff.mpr
      rw [reads, Move.followedBy, leads_read_iff]
      exact .inl hderives
  | leave ts goals depth ih =>
    obtain ⟨read, behind, left, hsplit, hlength, hderives⟩ := ih tokens hts
    refine ⟨read, behind, left, hsplit, ?_, derives_stack_of_pass (Goal.answer_leave none) hderives⟩
    rw [taken_of_leave, hlength]
  | pass ts goal goals depth stays passes ih =>
    obtain ⟨read, behind, left, hsplit, hlength, hderives⟩ := ih tokens hts
    refine ⟨read, behind, left, hsplit, ?_, derives_stack_of_pass passes hderives⟩
    rw [run_pass goals stays passes, hlength]

private theorem head?_append_cons (read behind more : List Token) (t : Token) :
    ((read ++ t :: behind).map Token.terminal).head? =
      ((read ++ t :: more).map Token.terminal).head? := by
  cases read <;> rfl

/-- No word of the goals goes on with the lexeme that a run refuses. -/
theorem not_derives_of_run_refuses {e : Expected} {t : Token} (read behind more : List Token)
    (goals : List Goal) (depth : Nat) (orderly : Orderly goals)
    (cause : (run limit ((read ++ t :: behind).map Token.terminal) goals depth).cause =
      some (.expected e))
    (stop : (run limit ((read ++ t :: behind).map Token.terminal) goals depth).taken =
      read.length) :
    ¬ Derives (stackEbnf goals) ((read ++ t :: more).map Token.lexeme) := by
  generalize hts : (read ++ t :: behind).map Token.terminal = ts at cause stop
  induction ts, goals, depth, cause using run_refused_induction limit e generalizing read with
  | refuse ts goal goals depth cause room refused =>
    rw [taken_of_refuse goals room refused] at stop
    obtain rfl : read = [] := List.length_eq_zero_iff.mp stop.symm
    subst hts
    rw [head?_append_cons [] behind more] at refused
    exact not_derives_stack_of_refuse orderly refused
  | read x ts goal goals depth form next cause rest room reads ih =>
    rw [taken_of_read goals room reads] at stop
    cases read with
    | nil =>
      rw [List.length_nil] at stop
      omega
    | cons u read =>
      rw [List.cons_append, List.map_cons, List.cons.injEq] at hts
      obtain ⟨rfl, hts⟩ := hts
      have busy : goal.move u.terminal ≠ .pass := by simp [reads]
      rw [List.cons_append, List.map_cons, derives_stack_iff_leads orderly busy, reads,
        Move.followedBy, leads_read_iff]
      apply ih read (goal.move_keepsOrder orderly form next reads) hts
      rw [List.length_cons] at stop
      omega
  | leave ts goals depth cause rest ih =>
    rw [taken_of_leave] at stop
    rw [derives_stack_iff_of_pass (Goal.answer_leave _)]
    exact ih read orderly.2 hts stop
  | pass ts goal goals depth cause rest stays passes ih =>
    rw [run_pass goals stays passes] at stop
    rw [← hts, head?_append_cons read behind more] at passes
    rw [derives_stack_iff_of_pass passes]
    exact ih read orderly.2 hts stop

end Runs

/-! ## Answers -/

namespace Checker

variable {tokens : List Token} {limit : Nat}

private theorem derives_of_accepted (q : Question)
    (accepted : ((new tokens limit).ask q).1.accepted = true) :
    Derives q.ebnf ((significant tokens).map Token.lexeme) := by
  rw [ask_accepted, answering_new] at accepted
  have hample := Nat.lt_succ_self ((significant tokens).map Token.terminal).length
  have hmet := run_met_of_limit _ _ hample accepted
  rw [List.length_map] at hample hmet
  rw [← accepted_iff q hample, ask_accepted, answering_new]
  exact hmet

private theorem accepted_of_derives (q : Question) (ample : tokens.length < limit)
    (derives : Derives q.ebnf ((significant tokens).map Token.lexeme)) :
    ((new tokens limit).ask q).1.accepted = true := by
  have hfewer : (significant tokens).length ≤ tokens.length := List.length_filter_le _ _
  exact (accepted_iff q (by omega)).mpr derives

theorem significant_place_completion (goals : List Goal) :
    significant (place .origin (completion goals)) = place .origin (completion goals) := by
  apply List.filter_eq_self.mpr
  intro t ht
  have hmem : t.lexeme ∈ (place .origin (completion goals)).map Token.lexeme :=
    List.mem_map_of_mem ht
  rw [map_lexeme_place] at hmem
  have hkind : t.kind.isTrivia = false := not_isTrivia_of_mem_completion hmem
  simp [Token.isTrivia, hkind]

private theorem accepted_of_completion {front : List Token} {goals : List Goal} (q : Question)
    (derives : Derives q.ebnf ((significant front).map Token.lexeme ++ completion goals))
    (ample : (front ++ place .origin (completion goals)).length < limit) :
    ((new (front ++ place .origin (completion goals)) limit).ask q).1.accepted = true := by
  apply accepted_of_derives q ample
  have hword : significant (front ++ place .origin (completion goals)) =
      significant front ++ place .origin (completion goals) := by
    rw [significant, List.filter_append]
    exact congrArg _ (significant_place_completion goals)
  rwa [hword, List.map_append, map_lexeme_place]

private theorem exists_completion (tokens : List Token) (limit : Nat) (q : Question) :
    ∃ read behind left, significant tokens = read ++ behind ∧
      ((new tokens limit).ask q).2.position = read.length ∧
      Derives q.ebnf (read.map Token.lexeme ++ completion left) := by
  obtain ⟨read, behind, left, hsplit, hlength, hderives⟩ :=
    exists_completion_of_run limit (significant tokens) q.goals 0
  refine ⟨read, behind, left, hsplit, ?_, (derives_goals_iff q).mp hderives⟩
  rw [ask_position, answering_new, hlength]
  exact Nat.zero_add _

private theorem exists_expected_of_rejected (q : Question)
    (ample : (significant tokens).length < limit)
    (rejected : ((new tokens limit).ask q).1.accepted = false) :
    ∃ e, ((new tokens limit).answering q).cause = some (.expected e) := by
  have hunlimited : ((new tokens limit).answering q).cause ≠ some .tooDeep := by
    rw [answering_new]
    exact run_cause_ne_tooDeep _ _ 0 (by simpa using ample)
  have hmissed : ((new tokens limit).answering q).cause ≠ none := by
    intro hmet
    rw [← ask_accepted, rejected] at hmet
    cases hmet
  obtain ⟨cause, hcause⟩ := Option.ne_none_iff_exists'.mp hmissed
  cases cause with
  | expected e => exact ⟨e, hcause⟩
  | tooDeep => exact absurd hcause hunlimited

/-- No accepted text goes on with the lexeme in front of which a refusing checker stands. -/
private theorem rejected_of_front {read rest other : List Token} {t : Token} (q : Question)
    (ample : (significant tokens).length < limit)
    (rejected : ((new tokens limit).ask q).1.accepted = false)
    (split : significant tokens = read ++ t :: rest)
    (stop : ((new tokens limit).ask q).2.position = read.length)
    (front : (read ++ [t]).map Token.lexeme <+: (significant other).map Token.lexeme) (l : Nat) :
    ((new other l).ask q).1.accepted = false := by
  obtain ⟨e, hcause⟩ := exists_expected_of_rejected q ample rejected
  have htaken : ((new tokens limit).answering q).taken = read.length := by
    rw [← stop, ask_position]
    exact (Nat.zero_add _).symm
  rw [answering_new, split] at hcause htaken
  let more := (significant other).drop (read.length + 1)
  have hrefused := not_derives_of_run_refuses read rest more q.goals 0 (orderly_goals q) hcause
    htaken
  have hother : (read ++ t :: more).map Token.lexeme = (significant other).map Token.lexeme := by
    rw [List.prefix_iff_eq_append] at front
    simpa [more] using front
  rw [hother, derives_goals_iff] at hrefused
  apply Bool.eq_false_iff.mpr
  intro haccepted
  exact hrefused (derives_of_accepted q haccepted)

/-- A refusing checker has stopped at the first lexeme that does not fit. What it has read begins a
text that is accepted; with the lexeme in front of which it stands no such text begins, under any
limit; and if it stands at the end, the text only lacks something behind it. -/
theorem refusal_located (tokens : List Token) (q : Question) (limit : Nat)
    (ample : (significant tokens).length < limit)
    (rejected : ((new tokens limit).ask q).1.accepted = false) :
    let words := significant tokens
    let stop := ((new tokens limit).ask q).2.position
    stop ≤ words.length ∧
    (∃ more, ∀ l, (words.take stop ++ more).length < l →
      ((new (words.take stop ++ more) l).ask q).1.accepted = true) ∧
    (stop < words.length → ∀ other l,
      (words.take (stop + 1)).map Token.lexeme <+: (significant other).map Token.lexeme →
      ((new other l).ask q).1.accepted = false) ∧
    (stop = words.length → ∃ more, more ≠ [] ∧ ∀ l, (tokens ++ more).length < l →
      ((new (tokens ++ more) l).ask q).1.accepted = true) := by
  intro words stop
  obtain ⟨read, behind, left, hsplit, hstop, hderives⟩ := exists_completion tokens limit q
  have hlength : words.length = read.length + behind.length := by
    rw [← List.length_append, ← hsplit]
  have htake : words.take stop = read := by
    simp only [words, stop, hsplit, hstop, List.take_left]
  refine ⟨by omega, ?viable, ?exact, ?short⟩
  case viable =>
    have hread : significant read = read := by
      apply List.filter_eq_self.mpr
      intro t ht
      have hmem : t ∈ words := by
        rw [← htake] at ht
        exact List.mem_of_mem_take ht
      exact (List.mem_filter.mp hmem).2
    refine ⟨place .origin (completion left), fun l hl => ?_⟩
    rw [htake] at hl ⊢
    apply accepted_of_completion q _ hl
    rwa [hread]
  case exact =>
    intro hinside other l hfront
    obtain ⟨t, rest, rfl⟩ := List.exists_cons_of_length_pos (l := behind) (by omega)
    have hnext : words.take (stop + 1) = read ++ [t] := by
      have hwords : words = (read ++ [t]) ++ rest := by
        rw [List.append_assoc]
        exact hsplit
      rw [hwords]
      apply List.take_left'
      rw [List.length_append, List.length_singleton, ← hstop]
    rw [hnext] at hfront
    exact rejected_of_front q ample rejected hsplit hstop hfront l
  case short =>
    intro hend
    obtain rfl : behind = [] := List.length_eq_zero_iff.mp (by omega)
    rw [List.append_nil] at hsplit
    rw [← hsplit] at hderives
    refine ⟨place .origin (completion left), ?_, fun l hl => accepted_of_completion q hderives hl⟩
    intro hnone
    have hempty : completion left = [] := by
      rw [← map_lexeme_place .origin (completion left), hnone, List.map_nil]
    rw [hempty, List.append_nil, ← accepted_iff q ample, rejected] at hderives
    cases hderives

/-- `return (1);` is refused at its parenthesis: the value of a `return` does not begin with an
operator, so no accepted text begins with `return (`. -/
theorem refusal_located_return :
    let tokens := place .origin [⟨.keyword, ['r', 'e', 't', 'u', 'r', 'n']⟩, ⟨.operator, ['(']⟩,
      ⟨.number, ['1']⟩, ⟨.operator, [')']⟩, ⟨.operator, [';']⟩]
    (significant tokens).length < 6 ∧ ((new tokens 6).ask .program).1.accepted = false ∧
      ((new tokens 6).ask .program).2.position = 1 ∧
      ∀ other l, (tokens.take 2).map Token.lexeme <+: (significant other).map Token.lexeme →
        ((new other l).ask .program).1.accepted = false := by
  intro tokens
  have hample : (significant tokens).length < 6 := by decide
  have hrejected : ((new tokens 6).ask .program).1.accepted = false := by decide
  have hlocated := refusal_located tokens .program 6 hample hrejected
  exact ⟨hample, hrejected, by decide, hlocated.2.2.1 (by decide)⟩

end Checker

end SyntaxPaint
