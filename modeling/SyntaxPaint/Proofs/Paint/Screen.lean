import SyntaxPaint.Paint.Terminal
/-!
# A terminal

A terminal reads character by character what is written to it. An escape character and a bracket
begin a control sequence, which a final character ends; all else is shown in the foreground colour
in force. Of the sequences, those that `m` ends select the colour.
-/
namespace SyntaxPaint

/-- A foreground colour as a terminal is told it. -/
structure Ink where
  red : Nat
  green : Nat
  blue : Nat
deriving DecidableEq, Repr

/-- A character on the screen; the default colour is no colour of its own. -/
structure Cell where
  char : Char
  ink : Option Ink
deriving DecidableEq, Repr

/-- What the next character is taken for. -/
inductive Mode where
  | text
  | escape
  | sequence (parameters : List Char)
deriving DecidableEq, Repr

structure Screen where
  cells : List Cell
  ink : Option Ink
  mode : Mode
deriving DecidableEq, Repr

def parameter? (digits : List Char) : Option Nat :=
  if digits ≠ [] ∧ digits.all Char.isDigit then some (Nat.ofDigitChars 10 digits 0) else none

/-- The colour in force behind a selection: `38;2` and three numbers set it, `39` resets it. -/
def selectInk (parameters : List Char) (ink : Option Ink) : Option Ink :=
  match (parameters.splitOn ';').map parameter? with
  | [some 38, some 2, some red, some green, some blue] => some ⟨red, green, blue⟩
  | [some 39] => none
  | _ => ink

/-- Does the character end a control sequence? -/
def isFinal (c : Char) : Bool := '@' ≤ c && c ≤ '~'

namespace Screen

def blank : Screen := ⟨[], none, .text⟩

def put (s : Screen) (c : Char) : Screen :=
  match s.mode with
  | .text =>
    if c = '\x1b' then { s with mode := .escape }
    else { s with cells := s.cells ++ [⟨c, s.ink⟩] }
  | .escape => { s with mode := if c = '[' then .sequence [] else .text }
  | .sequence parameters =>
    if isFinal c then
      { s with ink := if c = 'm' then selectInk parameters s.ink else s.ink, mode := .text }
    else { s with mode := .sequence (parameters ++ [c]) }

def write (s : Screen) (text : List Char) : Screen := text.foldl put s

@[simp] theorem write_nil (s : Screen) : s.write [] = s := rfl

theorem write_cons (s : Screen) (c : Char) (text : List Char) :
    s.write (c :: text) = (s.put c).write text := rfl

theorem write_append (s : Screen) (text more : List Char) :
    s.write (text ++ more) = (s.write text).write more := List.foldl_append

/-! ## Text -/

variable {cells : List Cell} {ink : Option Ink}

theorem write_text {text : List Char} (plain : '\x1b' ∉ text) :
    write ⟨cells, ink, .text⟩ text = ⟨cells ++ text.map (⟨·, ink⟩), ink, .text⟩ := by
  induction text generalizing cells with
  | nil => simp
  | cons c text ih =>
    obtain ⟨hc, htext⟩ := List.ne_and_not_mem_of_not_mem_cons plain
    have hput : put ⟨cells, ink, .text⟩ c = ⟨cells ++ [⟨c, ink⟩], ink, .text⟩ := if_neg (Ne.symm hc)
    rw [write_cons, hput, ih htext, List.map_cons, List.append_assoc, List.singleton_append]

/-! ## Control sequences -/

private theorem write_parameters {parameters text : List Char}
    (inner : ∀ c ∈ text, isFinal c = false) :
    write ⟨cells, ink, .sequence parameters⟩ text =
      ⟨cells, ink, .sequence (parameters ++ text)⟩ := by
  induction text generalizing parameters with
  | nil => simp
  | cons c text ih =>
    obtain ⟨hc, htext⟩ := List.forall_mem_cons.mp inner
    have hput : put ⟨cells, ink, .sequence parameters⟩ c =
        ⟨cells, ink, .sequence (parameters ++ [c])⟩ := if_neg (by simp [hc])
    rw [write_cons, hput, ih htext, List.append_assoc, List.singleton_append]

private theorem write_selection {parameters : List Char}
    (inner : ∀ c ∈ parameters, isFinal c = false) :
    write ⟨cells, ink, .text⟩ ("\x1b[".toList ++ parameters ++ ['m']) =
      ⟨cells, selectInk parameters ink, .text⟩ := by
  have hbegin : write ⟨cells, ink, .text⟩ "\x1b[".toList = ⟨cells, ink, .sequence []⟩ := rfl
  rw [write_append, write_append, hbegin, write_parameters inner]
  rfl

end Screen

/-! ## Numbers as parameters -/

/-- Numbers with semicolons between them. -/
private def joined (numbers : List Nat) : List Char :=
  [';'].intercalate (numbers.map (Nat.toDigits 10))

private theorem isDigit_of_mem_toDigits {n : Nat} {c : Char} (h : c ∈ Nat.toDigits 10 n) :
    c.isDigit = true :=
  Nat.isDigit_of_mem_toDigits (by decide) (by decide) h

theorem not_mem_toDigits {c : Char} (h : ¬ c.isDigit = true) (n : Nat) : c ∉ Nat.toDigits 10 n :=
  mt isDigit_of_mem_toDigits h

private theorem parameter?_toDigits (n : Nat) : parameter? (Nat.toDigits 10 n) = some n := by
  have hdigits : (Nat.toDigits 10 n).all Char.isDigit = true :=
    List.all_eq_true.mpr fun c => isDigit_of_mem_toDigits
  rw [parameter?, if_pos ⟨Nat.toDigits_ne_nil, hdigits⟩, Nat.ofDigitChars_ten_toDigits]

private theorem map_parameter?_joined {numbers : List Nat} (h : numbers ≠ []) :
    ((joined numbers).splitOn ';').map parameter? = numbers.map some := by
  have hfields : numbers.map (Nat.toDigits 10) ≠ [] := mt List.map_eq_nil_iff.mp h
  have hapart : ∀ digits ∈ numbers.map (Nat.toDigits 10), ';' ∉ digits := by
    rw [List.forall_mem_map]
    exact fun n _ => not_mem_toDigits (by decide) n
  rw [joined, List.splitOn_intercalate ';' hapart hfields, List.map_map]
  apply List.map_congr_left
  exact fun n _ => parameter?_toDigits n

private theorem not_isFinal_of_isDigit {c : Char} (h : c.isDigit = true) : isFinal c = false := by
  have hnine : c ≤ '9' := by
    simp only [Char.isDigit, Bool.and_eq_true, decide_eq_true_eq] at h
    exact h.2
  have hbelow : ¬ '@' ≤ c := fun hat => absurd (Char.le_trans hat hnine) (by decide)
  simp [isFinal, hbelow]

private theorem not_isFinal_joined (numbers : List Nat) :
    ∀ c ∈ joined numbers, isFinal c = false := by
  have hdigits (n : Nat) : ∀ c ∈ Nat.toDigits 10 n, isFinal c = false :=
    fun c hc => not_isFinal_of_isDigit (isDigit_of_mem_toDigits hc)
  induction numbers with
  | nil => exact fun c hc => nomatch hc
  | cons n numbers ih =>
    cases numbers with
    | nil =>
      have hjoined : joined [n] = Nat.toDigits 10 n := List.intercalate_singleton
      exact hjoined ▸ hdigits n
    | cons m numbers =>
      have hjoined : joined (n :: m :: numbers) =
          Nat.toDigits 10 n ++ [';'] ++ joined (m :: numbers) :=
        List.intercalate_cons_cons
      rw [hjoined, List.forall_mem_append, List.forall_mem_append]
      exact ⟨⟨hdigits n, List.forall_mem_singleton.mpr (by decide)⟩, ih⟩

/-! ## Coloured stretches -/

/-- The foreground colour that a colour is shown in: the default one where its alpha is nothing. -/
def Color.ink? (c : Color) : Option Ink :=
  if c.a = 0 then none else some ⟨c.r.toNat, c.g.toNat, c.b.toNat⟩

theorem decimal_eq (n : Nat) : decimal n = Nat.toDigits 10 n := by
  rw [decimal, Nat.toString_eq_ofList_toDigits, String.toList_ofList]

private theorem setForeground_eq (c : Color) :
    setForeground c =
      "\x1b[".toList ++ joined [38, 2, c.r.toNat, c.g.toNat, c.b.toNat] ++ ['m'] := by
  have hwritten (n : Nat) : (toString n).toList = Nat.toDigits 10 n := decimal_eq n
  simp only [setForeground, joined, String.toList_append, hwritten, List.map_cons, List.map_nil,
    List.intercalate_cons_cons, List.intercalate_singleton, List.append_assoc]
  rfl

namespace Screen

variable {cells : List Cell}

private theorem write_setForeground {c : Color} (h : ¬ c.a = 0) :
    write ⟨cells, none, .text⟩ (setForeground c) = ⟨cells, c.ink?, .text⟩ := by
  have hselect : selectInk (joined [38, 2, c.r.toNat, c.g.toNat, c.b.toNat]) none = c.ink? := by
    rw [selectInk, map_parameter?_joined (List.cons_ne_nil _ _), Color.ink?, if_neg h]
    rfl
  rw [setForeground_eq, write_selection (not_isFinal_joined _), hselect]

private theorem write_resetForeground {ink : Option Ink} :
    write ⟨cells, ink, .text⟩ resetForeground = ⟨cells, none, .text⟩ := by
  have hreset : resetForeground = "\x1b[".toList ++ joined [39] ++ ['m'] := by decide
  have hselect : selectInk (joined [39]) ink = none := by
    rw [selectInk, map_parameter?_joined (List.cons_ne_nil _ _)]
    rfl
  rw [hreset, write_selection (not_isFinal_joined _), hselect]

/-- A stretch is shown in its colour, and behind it the default colour is in force again. -/
theorem write_inColor (c : Color) {text : List Char} (plain : '\x1b' ∉ text) :
    write ⟨cells, none, .text⟩ (inColor c text) =
      ⟨cells ++ text.map (⟨·, c.ink?⟩), none, .text⟩ := by
  by_cases hc : c.a = 0
  · have hink : c.ink? = none := if_pos hc
    rw [inColor, if_pos (Color.isTransparent_iff.mpr hc), hink, write_text plain]
  · rw [inColor, if_neg (mt Color.isTransparent_iff.mp hc), write_append, write_append,
      write_setForeground hc, write_text plain, write_resetForeground]

example : blank.write (inColor (.solid 255 0 9) ['é'] ++ ['.']) =
    ⟨[⟨'é', some ⟨255, 0, 9⟩⟩, ⟨'.', none⟩], none, .text⟩ := by decide

end Screen
end SyntaxPaint
