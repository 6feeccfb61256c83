import SyntaxPaint.Command.Printing
/-!
# What is printed

A computation either prints a text behind all that was printed before and gives a result, or it
fails without printing. Both are put together along its steps: a failure is one of printing nothing
only if no step in front of it prints.
-/
namespace SyntaxPaint

/-- Lines, each with its end. -/
def printed (lines : List (List Char)) : List Char := lines.flatMap (· ++ ['\n'])

namespace Printing

variable {ε α β : Type}

/-- The computation prints the text and has the result, whatever was printed before. -/
def Prints (p : Printing ε α) (a : α) (text : List Char) : Prop :=
  ∀ before, p.onto before = (.ok a, before ++ text)

/-- The computation fails and prints nothing. -/
def FailsSilently (p : Printing ε α) (e : ε) : Prop := ∀ before, p.onto before = (.error e, before)

variable {p : Printing ε α} {f : α → Printing ε β} {a : α} {b : β} {e : ε} {text more : List Char}

/-! ## Steps that print nothing -/

theorem lift_ok_bind (a : α) (f : α → Printing ε β) :
    liftM (Except.ok a : Except ε α) >>= f = f a := rfl

theorem failsSilently_throw (e : ε) : (throw e : Printing ε α).FailsSilently e := fun _ => rfl

/-! ## Texts -/

theorem Prints.bind (h : p.Prints a text) (rest : (f a).Prints b more) :
    (p >>= f).Prints b (text ++ more) := by
  intro before
  have h : StateT.run (ExceptT.run p) before = (.ok a, before ++ text) := h before
  have rest : StateT.run (ExceptT.run (f a)) (before ++ text) = (.ok b, before ++ text ++ more) :=
    rest (before ++ text)
  rw [onto, ExceptT.run_bind, StateT.run_bind, h, ← List.append_assoc]
  exact rest

theorem Prints.andReturn (h : p.Prints a text) (b : β) :
    (p >>= fun _ => pure b).Prints b text := by
  have hpure : (pure b : Printing ε β).Prints b [] := fun before => by
    rw [List.append_nil]
    rfl
  have hends := h.bind (f := fun _ => pure b) hpure
  rwa [List.append_nil] at hends

theorem prints_printLine (line : List Char) :
    (printLine line : Printing ε Unit).Prints () (line ++ ['\n']) :=
  fun _ => rfl

theorem prints_printLines (lines : List (List Char)) :
    (printLines lines : Printing ε Unit).Prints () (printed lines) := by
  induction lines with
  | nil =>
    intro before
    rw [printed, List.flatMap_nil, List.append_nil]
    rfl
  | cons line lines ih =>
    rw [printLines, List.forM_eq_forM, List.forM_cons]
    exact (prints_printLine line).bind ih

/-! ## Errors under another name -/

theorem onto_adapt {ε' : Type} (p : Printing ε α) (g : ε → ε') (before : List Char) :
    onto (p.adapt g) before = ((p.onto before).1.mapError g, (p.onto before).2) := rfl

end Printing
end SyntaxPaint
