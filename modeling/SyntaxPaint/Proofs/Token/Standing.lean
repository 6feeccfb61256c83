import SyntaxPaint.Proofs.Text.Coordinates
import SyntaxPaint.Proofs.Text.Splitting
import SyntaxPaint.Proofs.Token.Lookahead
import SyntaxPaint.Proofs.Token.Tiling
/-!
# Tokens in their lines

A position counts a line for each `'\n'`, and the painter's lines also end with `'\r'`. Where every
`'\r'` belongs to a `'\r\n'` the two agree, as no token begins in the middle of such a pair: the
position of a token names the line in which it begins, and counts from the start of this line.
-/
namespace SyntaxPaint

/-! ## Paired returns -/

/-- Each `'\r'` of the text has a `'\n'` behind it. -/
def ReturnsPaired (text : List Char) : Prop :=
  ∀ i < text.length, text[i]? = some '\r' → text[i + 1]? = some '\n'

instance (text : List Char) : Decidable (ReturnsPaired text) :=
  inferInstanceAs (Decidable (∀ i < text.length, text[i]? = some '\r' → text[i + 1]? = some '\n'))

section Paired

variable {s t line ending rest : List Char} {start : Nat} {lines : List ByteRange}

theorem ReturnsPaired.head?_eq (h : ReturnsPaired (s ++ '\r' :: t)) : t.head? = some '\n' := by
  have hnext := h s.length (by simp) (by simp)
  rw [List.getElem?_append_right (Nat.le_succ _)] at hnext
  simpa [List.head?_eq_getElem?] using hnext

theorem ReturnsPaired.of_append (h : ReturnsPaired (s ++ t)) : ReturnsPaired t := by
  intro i hi hreturn
  have hnext := h (s.length + i) (by simpa using hi)
  rw [Nat.add_assoc, List.getElem?_append_right (Nat.le_add_right _ _),
    List.getElem?_append_right (Nat.le_add_right _ _), Nat.add_sub_cancel_left,
    Nat.add_sub_cancel_left] at hnext
  exact hnext hreturn

private theorem ending_of_paired (h : ReturnsPaired (line ++ ending ++ rest))
    (listed : ending ∈ lineEndings) (whole : ending = ['\r'] → rest.head? ≠ some '\n') :
    ending = ['\n'] ∨ ending = ['\r', '\n'] := by
  simp only [lineEndings, List.mem_cons, List.not_mem_nil, or_false] at listed
  obtain hlf | hcrlf | hcr := listed
  · exact .inl hlf
  · exact .inr hcrlf
  · rw [hcr, List.append_assoc] at h
    exact absurd h.head?_eq (whole hcr)

private theorem newline_not_mem (plain : ∀ c ∈ line, isLineEnd c = false) : '\n' ∉ line := by
  intro h
  exact absurd (plain '\n' h) (by decide)

private theorem count_of_ended (plain : ∀ c ∈ line, isLineEnd c = false)
    (hending : ending = ['\n'] ∨ ending = ['\r', '\n']) (rest : List Char) :
    (line ++ ending ++ rest).count '\n' = rest.count '\n' + 1 ∧
      lastLine (line ++ ending ++ rest) = lastLine rest := by
  have hnone : line.count '\n' = 0 := List.count_eq_zero.mpr (newline_not_mem plain)
  obtain rfl | rfl := hending
  · constructor
    · simp [hnone]
    · rw [List.append_assoc]
      exact lastLine_append_newline line rest
  · constructor
    · simp [hnone]
    · have hreturn := lastLine_append_newline (line ++ ['\r']) rest
      rwa [List.append_assoc] at hreturn ⊢

private theorem LinesFrom.length_eq (h : LinesFrom start rest lines) (paired : ReturnsPaired rest) :
    lines.length = rest.count '\n' + 1 := by
  induction h with
  | last start plain => rw [List.count_eq_zero.mpr (newline_not_mem plain), List.length_singleton]
  | ended start plain listed whole further ih =>
    have hending := ending_of_paired paired listed whole
    rw [(count_of_ended plain hending _).1, List.length_cons, ih paired.of_append]

/-- A front of a text that goes beyond a line, and does not end inside the end of this line, goes
beyond that too. -/
private theorem exists_beyond_ending {read behind : List Char}
    (hending : ending = ['\n'] ∨ ending = ['\r', '\n']) (nonempty : read ≠ [])
    (whole : read.getLast? ≠ some '\r') (same : ending ++ behind = read ++ rest) :
    ∃ more, read = ending ++ more ∧ behind = more ++ rest := by
  obtain ⟨c, read, rfl⟩ := List.exists_cons_of_ne_nil nonempty
  obtain rfl | rfl := hending
  · obtain ⟨rfl, hbehind⟩ := List.cons.inj same
    exact ⟨read, rfl, hbehind⟩
  · obtain ⟨rfl, hrest⟩ := List.cons.inj same
    cases read with
    | nil => exact absurd rfl whole
    | cons d read =>
      obtain ⟨rfl, hbehind⟩ := List.cons.inj hrest
      exact ⟨read, rfl, hbehind⟩

private theorem getLast?_ne_of_append {c : Char} (h : (s ++ t).getLast? ≠ some c) :
    t.getLast? ≠ some c := by
  intro hlast
  apply h
  rw [List.getLast?_append, hlast]
  rfl

private theorem exists_first_line {read more : List Char} (start : Nat) (later : List ByteRange)
    (plain : ∀ c ∈ read ++ more, isLineEnd c = false) :
    ∃ r, ((⟨start, start + byteLength (read ++ more)⟩ : ByteRange) :: later)[read.count '\n']? =
        some r ∧
      r.start + byteLength (lastLine read) = start + byteLength read ∧
      start + byteLength read ≤ r.stop := by
  have hread : '\n' ∉ read := fun h => newline_not_mem plain (List.mem_append_left more h)
  refine ⟨⟨start, start + byteLength (read ++ more)⟩, ?_, ?_, ?_⟩
  · rw [List.count_eq_zero.mpr hread, List.getElem?_cons_zero]
  · rw [lastLine_eq_self hread]
  · rw [byteLength_append]
    exact Nat.add_le_add_left (Nat.le_add_right _ _) start

/-- The line that a front of a text counts to begins where the last line of the front does, and goes
on at least as far as the front. -/
private theorem LinesFrom.exists_line {text read : List Char} (h : LinesFrom start text lines)
    (paired : ReturnsPaired text) (htext : text = read ++ rest)
    (whole : read.getLast? ≠ some '\r') :
    ∃ r, lines[read.count '\n']? = some r ∧
      r.start + byteLength (lastLine read) = start + byteLength read ∧
      start + byteLength read ≤ r.stop := by
  induction h generalizing read with
  | last start plain =>
    subst htext
    exact exists_first_line start [] plain
  | @ended start line ending behind later plain listed wholeEnd further ih =>
    have hending := ending_of_paired paired listed wholeEnd
    rw [List.append_assoc] at htext
    -- The front goes beyond the first line, where its end is all of an end, or it stops in the line.
    obtain ⟨beyond, rfl, hsame⟩ | ⟨more, rfl, -⟩ := List.append_eq_append_iff.mp htext
    · obtain rfl | nonempty := eq_or_ne beyond []
      · have hplain : ∀ c ∈ line ++ [], isLineEnd c = false := by rwa [List.append_nil]
        have hline := exists_first_line start later hplain
        rwa [List.append_nil] at hline ⊢
      · have hbeyond : beyond.getLast? ≠ some '\r' := getLast?_ne_of_append whole
        obtain ⟨more, rfl, hbehind⟩ := exists_beyond_ending hending nonempty hbeyond hsame
        have hmore : more.getLast? ≠ some '\r' := getLast?_ne_of_append hbeyond
        obtain ⟨r, hr, hstart, hstop⟩ := ih paired.of_append hbehind hmore
        obtain ⟨hcount, hlast⟩ := count_of_ended plain hending more
        rw [Nat.add_assoc, ← byteLength_append] at hstart hstop
        rw [← List.append_assoc, hcount, hlast, List.getElem?_cons_succ]
        exact ⟨r, hr, hstart, hstop⟩
    · exact exists_first_line start later plain

end Paired

/-! ## Positions in lines -/

/-- The position is one of the line, or at its end, and its columns count from the start of the
line. -/
structure Position.StandsIn (text : List Char) (line : ByteRange) (p : Position) : Prop where
  behind : line.start ≤ p.offset
  ahead : p.offset ≤ line.stop
  column : p.column = 1 + (sliceBytes text line.start p.offset).length
  utf16 : p.utf16 = utf16Length (sliceBytes text line.start p.offset)

section Standing

variable {read rest : List Char}

/-- The position behind a front that does not end in the middle of a pair stands in a line, the one
that it counts to. -/
private theorem exists_line_of_after (paired : ReturnsPaired (read ++ rest))
    (whole : read.getLast? ≠ some '\r') :
    ∃ i line, (Position.origin.after read).line = i + 1 ∧
      (lineRanges (read ++ rest))[i]? = some line ∧
      (Position.origin.after read).StandsIn (read ++ rest) line := by
  have hfrom : LinesFrom 0 (read ++ rest) (lineRanges (read ++ rest)) := linesFrom_iff.mpr rfl
  obtain ⟨line, hline, hstart, hstop⟩ := hfrom.exists_line paired rfl whole
  rw [Nat.zero_add] at hstart hstop
  obtain ⟨front, hfront⟩ : lastLine read <:+ read := List.rtakeWhile_suffix _ read
  have hslice : sliceBytes (read ++ rest) line.start (byteLength read) = lastLine read := by
    have hlength := byteLength_append front (lastLine read)
    rw [hfront, ← hstart] at hlength
    have hbegins : line.start = byteLength front := Nat.add_right_cancel hlength
    conv => lhs; rw [← hfront, hbegins, sliceBytes_append]
  rw [Position.after_origin]
  refine ⟨read.count '\n', line, Nat.add_comm _ _, hline, ?_⟩
  exact {
    behind := Nat.le.intro hstart
    ahead := hstop
    column := congrArg (fun s => 1 + s.length) hslice.symm
    utf16 := congrArg utf16Length hslice.symm }

end Standing

/-! ## Tokens -/

/-- A lexeme that ends with a `'\r'` would have taken in a `'\n'` behind it. -/
private theorem Lexeme.absorbs_newline {l : Lexeme} (spelling : Spelling l.kind l.text)
    (last : l.text.getLast? = some '\r') : l.absorbs '\n' = true := by
  have hmem : '\r' ∈ l.text := List.mem_of_getLast? last
  have hletter : isLetter '\r' = false := not_isLetter_of_isBlank (by decide)
  have hdigit : isDigit '\r' = false := not_isDigit_of_isBlank (by decide)
  obtain ⟨kind, text⟩ := l
  -- Blanks and what is open take in the `'\n'`; nothing else ends with a `'\r'`.
  cases spelling with
  | whitespace nonempty blank => rfl
  | openString inside => exact absorbs_openString inside
  | brokenString inside => exact absorbs_brokenString inside
  | openComment never => exact absorbs_openComment never
  | keyword word =>
    have hword := (letters_of_keyword word).2 '\r' hmem
    simp [hletter] at hword
  | identifier start part free =>
    obtain rfl | htail := List.mem_cons.mp hmem
    · simp [isIdentifierStart, hletter] at start
    · have hpart := part '\r' htail
      simp [isIdentifierPart, hletter, hdigit] at hpart
  | integer nonempty digit =>
    have hnumber := digit '\r' hmem
    simp [hdigit] at hnumber
  | @fraction whole part nonempty digit behind =>
    obtain hwhole | hpart : '\r' ∈ whole ∨ '\r' ∈ part := by simpa using hmem
    · have hnumber := digit '\r' hwhole
      simp [hdigit] at hnumber
    · have hnumber := behind '\r' hpart
      simp [hdigit] at hnumber
  | closedString inside => simp [List.getLast?_cons] at last
  | closedComment first => simp [List.getLast?_cons] at last
  | @lineComment body line =>
    have hbody : '\r' ∈ body := by simpa using hmem
    exact absurd rfl (line '\r' hbody).2
  | compound listed =>
    have hall : compoundOperators.all (fun sign => !sign.toList.contains '\r') = true := by decide
    have hsign : '\r' ∉ text := by simpa using List.all_eq_true.mp hall _ listed
    exact absurd hmem hsign
  | sign listed =>
    rw [← List.mem_singleton.mp hmem] at listed
    exact absurd listed (by decide)
  | unknown blank start digit quote sign =>
    rw [← List.mem_singleton.mp hmem] at blank
    exact absurd blank (by decide)

section

variable {text : List Char} {before after : List Lexeme}

private theorem getLast?_ne_return {l : Lexeme} (split : lexemes text = before ++ l :: after)
    (paired : ReturnsPaired text) : (before.flatMap Lexeme.text).getLast? ≠ some '\r' := by
  intro hlast
  obtain ⟨front, hfront⟩ := List.getLast?_eq_some_iff.mp hlast
  have hnewline : ((l :: after).flatMap Lexeme.text).head? = some '\n' := by
    have htext := flatMap_lexemes text
    rw [split, List.flatMap_append, hfront, List.append_assoc] at htext
    rw [← htext] at paired
    exact paired.head?_eq
  obtain rfl | ⟨others, last, rfl⟩ := List.eq_nil_or_concat before
  · cases hlast
  · rw [List.concat_eq_append] at split hlast
    have hmem : last ∈ lexemes text := by simp [split]
    rw [List.flatMap_append, List.flatMap_singleton,
      List.getLast?_append_of_ne_nil _ (text_ne_nil_of_mem_lexemes hmem)] at hlast
    rw [List.append_assoc] at split
    obtain ⟨hspelling, hstop⟩ := Lexeme.cutsOff_iff.mp (cutsOff_of_lexemes_eq_append split)
    have habsorbs := Lexeme.absorbs_newline hspelling hlast
    rw [hstop '\n' hnewline] at habsorbs
    cases habsorbs

end

/-- Where each `'\r'` has a `'\n'` behind it, a token begins in the line that its position names,
at the column that its position names, and the last token ends in the last line. -/
theorem token_stands_in_line (text : List Char) (paired : ReturnsPaired text) :
    (∀ t ∈ tokenize text, ∃ i line, t.span.start.line = i + 1 ∧
      (lineRanges text)[i]? = some line ∧ t.span.start.StandsIn text line) ∧
    (text ≠ [] → ∃ t, (tokenize text).getLast? = some t ∧
      t.span.stop.line = (lineRanges text).length) := by
  constructor
  · intro t ht
    obtain ⟨before, after, hsplit, hstart, -⟩ := exists_of_mem_place .origin ht
    have hwhole := getLast?_ne_return hsplit paired
    have htext := flatMap_lexemes text
    rw [hsplit, List.flatMap_append] at htext
    rw [← htext] at paired ⊢
    rw [hstart]
    exact exists_line_of_after paired hwhole
  · intro nonempty
    have hfrom : LinesFrom 0 text (lineRanges text) := linesFrom_iff.mpr rfl
    have hsome : tokenize text ≠ [] := mt tokenize_eq_nil_iff.mp nonempty
    refine ⟨_, List.getLast?_eq_some_getLast hsome, ?_⟩
    have hlast : (tokenize text).getLast hsome ∈ (tokenize text).getLast? :=
      List.getLast?_eq_some_getLast hsome
    rw [stop_of_mem_getLast?_place .origin hlast, flatMap_lexemes, Position.after_origin,
      hfrom.length_eq paired]
    exact Nat.add_comm _ _

/-- The quoted text takes the `'\r\n'` in, and the clef behind it counts twice in UTF-16. -/
theorem token_stands_in_line_pairs :
    let text := "\"a\r\n𝄞\" é\r\n".toList
    let word : Token := ⟨.identifier, ['é'], ⟨⟨2, 4, 10, 4⟩, ⟨2, 5, 12, 5⟩⟩⟩
    ReturnsPaired text ∧ word ∈ tokenize text ∧
      (∃ i line, word.span.start.line = i + 1 ∧ (lineRanges text)[i]? = some line ∧
        word.span.start.StandsIn text line) ∧
      text ≠ [] ∧ ∃ t, (tokenize text).getLast? = some t ∧
        t.span.stop.line = (lineRanges text).length := by
  intro text word
  have hpaired : ReturnsPaired text := by decide
  have hword : word ∈ tokenize text := by decide +kernel
  have nonempty : text ≠ [] := by decide
  obtain ⟨hstands, hlast⟩ := token_stands_in_line text hpaired
  exact ⟨hpaired, hword, hstands word hword, nonempty, hlast nonempty⟩

end SyntaxPaint
