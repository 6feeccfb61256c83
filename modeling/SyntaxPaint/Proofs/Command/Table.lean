import SyntaxPaint.Proofs.Command.Listing
import SyntaxPaint.Proofs.Paint.Screen
import SyntaxPaint.Proofs.Text.Unescaping
import SyntaxPaint.Proofs.Token.Tiling
/-!
# The table of tokens

A row of the table tells where a token begins, its kind and its text, each in a column of its own.
The columns are read back from the row however wide they are, and the texts of all rows together are
the source.
-/
namespace SyntaxPaint

/-- What a row tells of a token. -/
structure TokenEntry where
  line : Nat
  column : Nat
  kind : Kind
  text : List Char
deriving DecidableEq, Repr

def Token.entry (t : Token) : TokenEntry :=
  ⟨t.span.start.line, t.span.start.column, t.kind, t.text⟩

/-! ## Columns -/

/-- The text in front of a mark and the text behind it. -/
def cutAt (mark : Char) (text : List Char) : List Char × List Char :=
  let front := text.takeWhile (· ≠ mark)
  (front, text.drop (front.length + 1))

def skipSpaces (text : List Char) : List Char := text.dropWhile (· = ' ')

/-- A text between quotes. -/
def unquoted : List Char → Option (List Char)
  | '"' :: text => if text.getLast? = some '"' then some text.dropLast else none
  | _ => none

/-- The entry that a row tells: a number up to a colon, a number and a kind up to spaces, and an
escaped text between quotes. -/
def readTokenRow (row : List Char) : Option TokenEntry := do
  let (line, row) := cutAt ':' (skipSpaces row)
  let (column, row) := cutAt ' ' row
  let (kind, row) := cutAt ' ' (skipSpaces row)
  let kind ← Kind.ofName? (String.ofList kind)
  let text ← unescape (← unquoted (skipSpaces row))
  return ⟨Nat.ofDigitChars 10 line 0, Nat.ofDigitChars 10 column 0, kind, text⟩

section Columns

variable {mark c : Char} {front text : List Char}

theorem cutAt_append (h : mark ∉ front) : cutAt mark (front ++ mark :: text) = (front, text) := by
  have hfront : (front ++ mark :: text).takeWhile (· ≠ mark) = front := by
    rw [List.takeWhile_append_of_pos]
    · simp
    · intro d hd
      simp only [ne_eq, decide_not, Bool.not_eq_eq_eq_not, Bool.not_true, decide_eq_false_iff_not]
      rintro rfl
      exact h hd
  have hbehind : (front ++ mark :: text).drop (front.length + 1) = text := by
    rw [List.drop_append]
    simp
  simp only [cutAt, hfront, hbehind]

theorem skipSpaces_replicate (n : Nat) (h : c ≠ ' ') :
    skipSpaces (List.replicate n ' ' ++ c :: text) = c :: text := by
  rw [skipSpaces, List.dropWhile_append_of_pos (by simp)]
  simp [h]

theorem unquoted_quoted (text : List Char) : unquoted ('"' :: text ++ ['"']) = some text := by
  simp [unquoted]

end Columns

/-! ## Rows -/

section Rows

theorem not_mem_decimal {c : Char} (h : ¬ c.isDigit = true) (n : Nat) : c ∉ decimal n := by
  rw [decimal_eq]
  exact not_mem_toDigits h n

private theorem exists_decimal_cons (n : Nat) : ∃ d ds, decimal n = d :: ds ∧ d ≠ ' ' := by
  have hne : decimal n ≠ [] := by
    rw [decimal_eq]
    exact Nat.toDigits_ne_nil
  obtain ⟨d, ds, hd⟩ := List.exists_cons_of_ne_nil hne
  refine ⟨d, ds, hd, ?_⟩
  rintro rfl
  exact not_mem_decimal (c := ' ') (by decide) n (hd ▸ List.mem_cons_self)

private theorem exists_name_cons (k : Kind) :
    ∃ c cs, k.name.toList = c :: cs ∧ c ≠ ' ' ∧ ' ' ∉ c :: cs := by
  cases k <;> exact ⟨_, _, by rfl, by decide, by decide⟩

private theorem ofDigitChars_decimal (n : Nat) : Nat.ofDigitChars 10 (decimal n) 0 = n := by
  rw [decimal_eq, Nat.ofDigitChars_ten_toDigits]

private theorem cutAt_line (n width : Nat) (text : List Char) :
    cutAt ':' (skipSpaces (padLeft width (decimal n) ++ ':' :: text)) = (decimal n, text) := by
  obtain ⟨d, ds, hd, hspace⟩ := exists_decimal_cons n
  have hcolon : ':' ∉ decimal n := not_mem_decimal (by decide) n
  rw [hd] at hcolon ⊢
  rw [padLeft, List.append_assoc, List.cons_append, skipSpaces_replicate _ hspace,
    ← List.cons_append, cutAt_append hcolon]

private theorem cutAt_padRight {field : List Char} (width : Nat) (h : ' ' ∉ field)
    (text : List Char) : ∃ n, cutAt ' ' (padRight width field ++ ' ' :: text) =
      (field, List.replicate n ' ' ++ text) := by
  refine ⟨width - field.length, ?_⟩
  have hpadding : padRight width field ++ ' ' :: text =
      field ++ ' ' :: (List.replicate (width - field.length) ' ' ++ text) := by
    rw [padRight, List.append_assoc, List.append_cons, ← List.replicate_succ',
      List.replicate_succ, List.cons_append]
  rw [hpadding, cutAt_append h]

/-- Every token is told by its row, whatever its text and however large its numbers. -/
theorem readTokenRow_tokenRow (t : Token) : readTokenRow (tokenRow t) = some t.entry := by
  obtain ⟨c, cs, hname, hc, hspace⟩ := exists_name_cons t.kind
  have hrow : tokenRow t = padLeft 4 (decimal t.span.start.line) ++ ':' ::
      (padRight 4 (decimal t.span.start.column) ++ ' ' ::
        (padRight 10 t.kind.name.toList ++ ' ' :: ('"' :: escaped t.text ++ ['"']))) := by
    simp [tokenRow]
  obtain ⟨m, hcolumn⟩ := cutAt_padRight 4 (not_mem_decimal (by decide) t.span.start.column)
    (padRight 10 t.kind.name.toList ++ ' ' :: ('"' :: escaped t.text ++ ['"']))
  obtain ⟨n, hkind⟩ := cutAt_padRight 10 (hname ▸ hspace) ('"' :: escaped t.text ++ ['"'])
  have hskip : skipSpaces (List.replicate m ' ' ++
      (padRight 10 t.kind.name.toList ++ ' ' :: ('"' :: escaped t.text ++ ['"']))) =
      padRight 10 t.kind.name.toList ++ ' ' :: ('"' :: escaped t.text ++ ['"']) := by
    rw [hname, padRight, List.cons_append, List.cons_append, skipSpaces_replicate _ hc]
  have htext : skipSpaces (List.replicate n ' ' ++ ('"' :: escaped t.text ++ ['"'])) =
      '"' :: escaped t.text ++ ['"'] := skipSpaces_replicate n (by decide)
  rw [readTokenRow, hrow, cutAt_line]
  simp only [hcolumn, hskip, hkind, htext, String.ofList_toList, Kind.ofName?_name,
    unquoted_quoted, unescape_escaped, ofDigitChars_decimal, Option.bind_eq_bind, Option.bind_some]
  rfl

theorem newline_not_mem_tokenRow (t : Token) : '\n' ∉ tokenRow t := by
  have hkind : '\n' ∉ t.kind.name.toList := by
    cases t.kind <;> decide
  have hnumber (n : Nat) : '\n' ∉ decimal n := not_mem_decimal (by decide) n
  simp [tokenRow, padLeft, padRight, hkind, hnumber, newline_not_mem_escaped]

end Rows

namespace Command

/-- Where a session starts and the source can be read, the table has one line for each token, in
order. Every line tells the line, the column, the kind and the text of its token, and the texts of
all lines are the source. -/
theorem tokens_told (o : ProgramOptions) (around : Surroundings) (file : String) {s : Settings}
    {known : List Theme} {source : List Char} (configured : o.Configures around.config s)
    (offered : s.Offers known) (found : ∃ t ∈ known, sameName t.name s.highlight.theme = true)
    (logs : o.logFile.isSome = true → around.logOpens = true)
    (reads : around.source = .ok source) :
    let out := (tokens file false).run o around
    out.exit = 0 ∧ out.errors = [] ∧
    ∃ rows, out.output.splitOn '\n' = rows ++ [[]] ∧ (∀ row ∈ rows, '\n' ∉ row) ∧
      rows.map readTokenRow = (tokenize source).map (fun t => some t.entry) ∧
      rows.flatMap (fun row => ((readTokenRow row).map TokenEntry.text).getD []) = source := by
  intro out
  obtain ⟨loaded, session, hload, hstart, -⟩ := exists_session configured offered found
  have hperform : ((tokens file false).perform session around.source).Prints 0
      (printed ((tokenize source).map tokenRow)) := by
    rw [reads]
    exact (Printing.prints_printLines _).andReturn 0
  have hout : out = ⟨0, printed ((tokenize source).map tokenRow), []⟩ :=
    run_of_prints logs hload hstart hperform
  have hrows : ∀ row ∈ (tokenize source).map tokenRow, '\n' ∉ row := by
    rw [List.forall_mem_map]
    exact fun t _ => newline_not_mem_tokenRow t
  rw [hout]
  refine ⟨rfl, rfl, _, splitOn_printed hrows, hrows, ?told, ?texts⟩
  case told =>
    rw [List.map_map]
    exact List.map_congr_left fun t _ => readTokenRow_tokenRow t
  case texts =>
    rw [List.flatMap_map]
    simp only [readTokenRow_tokenRow, Option.map_some, Option.getD_some]
    exact flatMap_text_tokenize source

/-- A text over two lines with quotes inside, and a mark that has nothing to join. -/
theorem tokens_told_escaped :
    let source := "\"a\\\"\n\"\u0301".toList
    let o : ProgramOptions := ⟨none, none, none, none⟩
    let around : Surroundings := ⟨.error .missing, true, .ok source⟩
    let known : List Theme := [.dark, .light]
    o.Configures around.config .standard ∧ Settings.standard.Offers known ∧
      (∃ t ∈ known, sameName t.name Settings.standard.highlight.theme = true) ∧
      (o.logFile.isSome = true → around.logOpens = true) ∧ around.source = .ok source ∧
      ∃ rows, ((tokens "a" false).run o around).output.splitOn '\n' = rows ++ [[]] ∧
        rows.map readTokenRow =
          [some ⟨1, 1, .string, "\"a\\\"\n\"".toList⟩, some ⟨2, 2, .unknown, ['\u0301']⟩] ∧
        rows.flatMap (fun row => ((readTokenRow row).map TokenEntry.text).getD []) = source := by
  intro source o around known
  have hconfigured : o.Configures around.config .standard := .absent .missing rfl
  have hoffered : Settings.standard.Offers known := ⟨[], rfl, rfl⟩
  have hfound : ∃ t ∈ known, sameName t.name Settings.standard.highlight.theme = true := by decide
  have hlogs : o.logFile.isSome = true → around.logOpens = true := fun _ => rfl
  obtain ⟨-, -, rows, hlines, -, htold, hsource⟩ :=
    tokens_told o around "a" hconfigured hoffered hfound hlogs rfl
  refine ⟨hconfigured, hoffered, hfound, hlogs, rfl, rows, hlines, ?_, hsource⟩
  rw [htold]
  decide +kernel

end Command
end SyntaxPaint
