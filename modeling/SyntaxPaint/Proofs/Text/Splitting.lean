import Mathlib.Data.List.Chain
import SyntaxPaint.Proofs.Text.Lines
/-!
# The split into lines

Lines hold no ends of lines, and one end of a line stands between each two of them. A `'\r'` with a
`'\n'` behind it is only the half of one, so a text can be split in one way, and the lines with what
stands between them are the text.
-/
namespace SyntaxPaint

/-- What may end a line. -/
def lineEndings : List (List Char) := [['\n'], ['\r', '\n'], ['\r']]

/-! ## Line by line -/

/-- The ranges of the lines of a text of which the first byte stands at `start`, read off the text:
each line but the last has its end behind it. -/
inductive LinesFrom : Nat → List Char → List ByteRange → Prop
  | last (start : Nat) {line : List Char} (plain : ∀ c ∈ line, isLineEnd c = false) :
      LinesFrom start line [⟨start, start + byteLength line⟩]
  | ended (start : Nat) {line ending rest : List Char} {later : List ByteRange}
      (plain : ∀ c ∈ line, isLineEnd c = false) (listed : ending ∈ lineEndings)
      (whole : ending = ['\r'] → rest.head? ≠ some '\n')
      (further : LinesFrom (start + byteLength (line ++ ending)) rest later) :
      LinesFrom start (line ++ ending ++ rest) (⟨start, start + byteLength line⟩ :: later)

section Reading

variable {start here : Nat} {line ending rest : List Char} {lines : List ByteRange}

private theorem lineRangesFrom_append (rest : List Char)
    (plain : ∀ c ∈ line, isLineEnd c = false) :
    lineRangesFrom start here (line ++ rest) =
      lineRangesFrom start (here + byteLength line) rest := by
  induction line generalizing here with
  | nil => rfl
  | cons c line ih =>
    obtain ⟨hc, hline⟩ := List.forall_mem_cons.mp plain
    rw [isLineEnd_eq_false_iff] at hc
    rw [List.cons_append, lineRangesFrom, ih hline, byteLength_cons, Nat.add_assoc]
    · exact fun _ hreturn => absurd hreturn hc.2
    · exact hc.1
    · exact hc.2

private theorem lineRangesFrom_ending (listed : ending ∈ lineEndings)
    (whole : ending = ['\r'] → rest.head? ≠ some '\n') :
    lineRangesFrom start here (ending ++ rest) = ⟨start, here⟩ ::
      lineRangesFrom (here + byteLength ending) (here + byteLength ending) rest := by
  simp only [lineEndings, List.mem_cons, List.not_mem_nil, or_false] at listed
  obtain rfl | rfl | rfl := listed
  · rfl
  · rfl
  · rw [List.singleton_append, lineRangesFrom]
    · rfl
    · intro text hrest
      exact whole rfl (by rw [hrest]; rfl)

private theorem LinesFrom.eq_lineRangesFrom (h : LinesFrom start rest lines) :
    lines = lineRangesFrom start start rest := by
  induction h with
  | @last start line plain =>
    calc [⟨start, start + byteLength line⟩]
        = lineRangesFrom start (start + byteLength line) [] := rfl
      _ = lineRangesFrom start start (line ++ []) := (lineRangesFrom_append [] plain).symm
      _ = lineRangesFrom start start line := by rw [List.append_nil]
  | ended start plain listed whole further ih =>
    rw [List.append_assoc, lineRangesFrom_append _ plain, lineRangesFrom_ending listed whole, ih,
      byteLength_append, Nat.add_assoc]

private theorem LinesFrom.ended_here {later : List ByteRange} (ending : List Char)
    (plain : ∀ c ∈ line, isLineEnd c = false) (hhere : here = start + byteLength line)
    (listed : ending ∈ lineEndings) (whole : ending = ['\r'] → rest.head? ≠ some '\n')
    (further : LinesFrom (here + byteLength ending) rest later) :
    LinesFrom start (line ++ (ending ++ rest)) (⟨start, here⟩ :: later) := by
  subst hhere
  rw [Nat.add_assoc, ← byteLength_append] at further
  rw [← List.append_assoc]
  exact .ended start plain listed whole further

private theorem linesFrom_lineRangesFrom (line : List Char)
    (plain : ∀ c ∈ line, isLineEnd c = false) (hhere : here = start + byteLength line) :
    LinesFrom start (line ++ rest) (lineRangesFrom start here rest) := by
  fun_induction lineRangesFrom start here rest generalizing line with
  | case1 start here =>
    rw [List.append_nil, hhere]
    exact .last start plain
  | case2 start here rest ih =>
    have hfurther := ih [] (List.forall_mem_nil _) rfl
    exact .ended_here ['\r', '\n'] plain hhere (by decide) (by simp) hfurther
  | case3 start here rest ih =>
    have hfurther := ih [] (List.forall_mem_nil _) rfl
    exact .ended_here ['\n'] plain hhere (by decide) (by simp) hfurther
  | case4 start here rest whole ih =>
    have hwhole : rest.head? ≠ some '\n' := by
      intro hhead
      obtain ⟨rest, rfl⟩ := List.head?_eq_some_iff.mp hhead
      exact whole rest rfl
    have hfurther := ih [] (List.forall_mem_nil _) rfl
    exact .ended_here ['\r'] plain hhere (by decide) (fun _ => hwhole) hfurther
  | case5 start here c rest _ hlf hcr ih =>
    have hc : isLineEnd c = false := isLineEnd_eq_false_iff.mpr ⟨hlf, hcr⟩
    have hline : ∀ d ∈ line ++ [c], isLineEnd d = false :=
      List.forall_mem_append.mpr ⟨plain, List.forall_mem_singleton.mpr hc⟩
    have hread := ih (line ++ [c]) hline (by simp [hhere, byteLength_append, Nat.add_assoc])
    rwa [List.append_assoc] at hread

/-- A text has lines in one way, and the rule finds them. -/
theorem linesFrom_iff : LinesFrom start rest lines ↔ lines = lineRangesFrom start start rest := by
  constructor
  · exact LinesFrom.eq_lineRangesFrom
  · intro h
    rw [h]
    exact linesFrom_lineRangesFrom [] (List.forall_mem_nil _) rfl

end Reading

/-! ## All at once -/

/-- The second of two lines begins behind what ends the first, and this is all of an end. -/
structure NextLine (text : List Char) (r s : ByteRange) : Prop where
  listed : sliceBytes text r.stop s.start ∈ lineEndings
  whole : sliceBytes text r.stop s.start = ['\r'] → (dropBytes s.start text).head? ≠ some '\n'

/-- From byte `start` on the text is split into the lines with these ranges. -/
structure SplitsInto (text : List Char) (start : Nat) (lines : List ByteRange) : Prop where
  nonempty : lines ≠ []
  first : ∀ r ∈ lines.head?, r.start = start
  last : ∀ r ∈ lines.getLast?, r.stop = byteLength text
  ordered : ∀ r ∈ lines, r.start ≤ r.stop
  boundary : ∀ r ∈ lines, IsBoundary text r.start ∧ IsBoundary text r.stop
  plain : ∀ r ∈ lines, ∀ c ∈ r.slice text, c ≠ '\n' ∧ c ≠ '\r'
  ended : lines.IsChain (NextLine text)

/-- The texts of the lines, with what stands between two of them. -/
def interleaved (text : List Char) : List ByteRange → List Char
  | [] => []
  | [r] => r.slice text
  | r :: s :: lines =>
    r.slice text ++ sliceBytes text r.stop s.start ++ interleaved text (s :: lines)

section Splitting

variable {text before rest : List Char} {start : Nat} {r s : ByteRange} {lines : List ByteRange}

private theorem exists_front {stop : Nat} (h : (ByteRange.mk start stop).IsPart text)
    (htext : text = before ++ rest) (hstart : start = byteLength before) :
    ∃ part after, rest = part ++ after ∧ sliceBytes text start stop = part ∧
      stop = byteLength (before ++ part) := by
  obtain ⟨front, part, after, hsplit, hrange⟩ := h
  obtain ⟨hfront, rfl⟩ := ByteRange.mk.inj hrange
  rw [hsplit, List.append_assoc] at htext
  obtain ⟨rfl, rfl⟩ := append_inj_of_byteLength htext (hfront.symm.trans hstart)
  refine ⟨part, after, rfl, ?_, rfl⟩
  rw [hsplit, hfront, sliceBytes_append]

private theorem NextLine.isPart (h : NextLine text r s) (hstop : IsBoundary text r.stop)
    (hstart : IsBoundary text s.start) : (ByteRange.mk r.stop s.start).IsPart text := by
  apply ByteRange.IsPart.of_isBoundary hstop hstart
  apply Nat.le_of_not_lt
  intro hreversed
  have hlisted := h.listed
  rw [sliceBytes_empty text (Nat.le_of_lt hreversed)] at hlisted
  exact absurd hlisted (by decide)

private theorem NextLine.exists_ending (h : NextLine text r s) (htext : text = before ++ rest)
    (hstop : r.stop = byteLength before) (hstart : IsBoundary text s.start) :
    ∃ ending behind, rest = ending ++ behind ∧ ending ∈ lineEndings ∧
      (ending = ['\r'] → behind.head? ≠ some '\n') ∧ s.start = byteLength (before ++ ending) := by
  have hbefore : IsBoundary text r.stop := ⟨before, rest, htext, hstop.symm⟩
  have hgap := h.isPart hbefore hstart
  obtain ⟨ending, behind, rfl, hending, hs⟩ := exists_front hgap htext hstop
  have hlisted := h.listed
  have hwhole := h.whole
  have hbehind : dropBytes s.start text = behind := by
    rw [htext, hs, ← List.append_assoc, dropBytes_append]
  rw [hending] at hlisted
  rw [hending, hbehind] at hwhole
  exact ⟨ending, behind, rfl, hlisted, hwhole, hs⟩

private theorem SplitsInto.isPart (h : SplitsInto text start lines) (hr : r ∈ lines) :
    r.IsPart text := by
  obtain ⟨hfrom, hto⟩ := h.boundary r hr
  exact .of_isBoundary hfrom hto (h.ordered r hr)

private theorem SplitsInto.next (h : SplitsInto text start (r :: s :: lines)) :
    NextLine text r s :=
  (List.isChain_cons_cons.mp h.ended).1

private theorem SplitsInto.tail (h : SplitsInto text start (r :: s :: lines)) :
    SplitsInto text s.start (s :: lines) where
  nonempty := List.cons_ne_nil s lines
  first := by simp
  last := by simpa using h.last
  ordered := (List.forall_mem_cons.mp h.ordered).2
  boundary := (List.forall_mem_cons.mp h.boundary).2
  plain := (List.forall_mem_cons.mp h.plain).2
  ended := h.ended.tail

private theorem SplitsInto.linesFrom (h : SplitsInto text start lines)
    (htext : text = before ++ rest) (hstart : start = byteLength before) :
    LinesFrom start rest lines := by
  induction lines generalizing start before rest with
  | nil => exact absurd rfl h.nonempty
  | cons r lines ih =>
    obtain rfl : r.start = start := h.first r rfl
    have hpart := h.isPart (r := r) List.mem_cons_self
    obtain ⟨line, after, rfl, hline, hstop⟩ := exists_front hpart htext hstart
    have hplain : ∀ c ∈ line, isLineEnd c = false := by
      intro c hc
      rw [← hline] at hc
      exact isLineEnd_eq_false_iff.mpr (h.plain r List.mem_cons_self c hc)
    have hr : r = ⟨r.start, r.start + byteLength line⟩ := by
      rw [hstart, ← byteLength_append, ← hstop, ← hstart]
    rw [← List.append_assoc] at htext
    cases lines with
    | nil =>
      have hlast : r.stop = byteLength text := h.last r rfl
      obtain rfl : [] = after :=
        (append_inj_of_byteLength ((List.append_nil text).trans htext) (hlast.symm.trans hstop)).2
      rw [List.append_nil, hr]
      exact .last r.start hplain
    | cons s lines =>
      have hbegins := (h.boundary s (by simp)).1
      obtain ⟨ending, behind, rfl, hlisted, hwhole, hs⟩ := h.next.exists_ending htext hstop hbegins
      rw [← List.append_assoc] at htext
      have hfurther := ih h.tail htext hs
      have hnumber : s.start = r.start + byteLength (line ++ ending) := by
        rw [hs, hstart, List.append_assoc, byteLength_append]
      rw [hnumber] at hfurther
      rw [← List.append_assoc, hr]
      exact .ended r.start hplain hlisted hwhole hfurther

private theorem NextLine.of_ending {ending : List Char} (htext : text = before ++ ending ++ rest)
    (hstop : r.stop = byteLength before) (hstart : s.start = byteLength (before ++ ending))
    (listed : ending ∈ lineEndings) (whole : ending = ['\r'] → rest.head? ≠ some '\n') :
    NextLine text r s := by
  have hending : sliceBytes text r.stop s.start = ending := by
    rw [htext, hstop, hstart, sliceBytes_append]
  have hbehind : dropBytes s.start text = rest := by
    rw [htext, hstart, dropBytes_append]
  constructor
  · rwa [hending]
  · rwa [hending, hbehind]

private theorem SplitsInto.single (hpart : r.IsPart text)
    (plain : ∀ c ∈ r.slice text, c ≠ '\n' ∧ c ≠ '\r') (hstop : r.stop = byteLength text) :
    SplitsInto text r.start [r] where
  nonempty := List.cons_ne_nil r []
  first := by simp
  last := by simpa using hstop
  ordered := List.forall_mem_singleton.mpr hpart.start_le_stop
  boundary := List.forall_mem_singleton.mpr hpart.isBoundary
  plain := List.forall_mem_singleton.mpr plain
  ended := .singleton r

private theorem SplitsInto.cons (further : SplitsInto text s.start (s :: lines))
    (hpart : r.IsPart text) (plain : ∀ c ∈ r.slice text, c ≠ '\n' ∧ c ≠ '\r')
    (hnext : NextLine text r s) : SplitsInto text r.start (r :: s :: lines) where
  nonempty := List.cons_ne_nil r _
  first := by simp
  last := by simpa using further.last
  ordered := List.forall_mem_cons.mpr ⟨hpart.start_le_stop, further.ordered⟩
  boundary := List.forall_mem_cons.mpr ⟨hpart.isBoundary, further.boundary⟩
  plain := List.forall_mem_cons.mpr ⟨plain, further.plain⟩
  ended := List.isChain_cons_cons.mpr ⟨hnext, further.ended⟩

private theorem LinesFrom.exists_head (h : LinesFrom start rest lines) :
    ∃ stop later, lines = ⟨start, stop⟩ :: later := by
  cases h with
  | last => exact ⟨_, _, rfl⟩
  | ended => exact ⟨_, _, rfl⟩

/-- A front of the rest of a text that holds no end of a line has a range that may be a line's. -/
private theorem line_front {line after : List Char} (htext : text = before ++ line ++ after)
    (hstart : start = byteLength before) (plain : ∀ c ∈ line, isLineEnd c = false) :
    let r : ByteRange := ⟨start, start + byteLength line⟩
    r.IsPart text ∧ (∀ c ∈ r.slice text, c ≠ '\n' ∧ c ≠ '\r') ∧
      r.stop = byteLength (before ++ line) := by
  intro r
  have hstop : r.stop = byteLength (before ++ line) := by rw [byteLength_append, ← hstart]
  have hslice : r.slice text = line := by
    have hstart : r.start = byteLength before := hstart
    rw [ByteRange.slice, hstop, htext, hstart, sliceBytes_append]
  refine ⟨⟨before, line, after, htext, ?_⟩, ?_, hstop⟩
  · rw [← hstart, ← hstop]
  · rw [hslice]
    exact fun c hc => isLineEnd_eq_false_iff.mp (plain c hc)

private theorem LinesFrom.splitsInto (h : LinesFrom start rest lines)
    (htext : text = before ++ rest) (hstart : start = byteLength before) :
    SplitsInto text start lines := by
  induction h generalizing before with
  | @last start line plain =>
    obtain ⟨hpart, hplain, hstop⟩ :=
      line_front (htext.trans (List.append_nil _).symm) hstart plain
    have hlast : start + byteLength line = byteLength text := by rw [htext, ← hstop]
    exact .single hpart hplain hlast
  | @ended start line ending rest later plain listed whole further ih =>
    have hending : text = before ++ line ++ ending ++ rest := by
      rw [htext]
      simp only [List.append_assoc]
    obtain ⟨hpart, hplain, hstop⟩ :=
      line_front (hending.trans (List.append_assoc _ _ _)) hstart plain
    have hnext : start + byteLength (line ++ ending) = byteLength (before ++ line ++ ending) := by
      rw [List.append_assoc, byteLength_append before, hstart]
    have hfurther := ih hending hnext
    obtain ⟨stop, more, rfl⟩ := further.exists_head
    exact hfurther.cons hpart hplain (.of_ending hending hstop hnext listed whole)

/-- With what stands between them, lines that split a text are the text. -/
private theorem SplitsInto.interleaved_eq (h : SplitsInto text start lines) :
    interleaved text lines = sliceBytes text start (byteLength text) := by
  induction lines generalizing start with
  | nil => exact absurd rfl h.nonempty
  | cons r lines ih =>
    obtain rfl : r.start = start := h.first r rfl
    cases lines with
    | nil =>
      have hlast : r.stop = byteLength text := h.last r rfl
      rw [← hlast]
      rfl
    | cons s lines =>
      have hpart := h.isPart (r := r) List.mem_cons_self
      have hgap := h.next.isPart (h.boundary r List.mem_cons_self).2 (h.boundary s (by simp)).1
      have hfit : s.start ≤ byteLength text := hgap.stop_le
      rw [interleaved, ih h.tail, hpart.sliceBytes_eq hpart.stop_le, List.append_assoc]
      exact congrArg _ (hgap.sliceBytes_eq hfit).symm

end Splitting

/-- The ranges that the rule finds split the text into its lines, and no others do: they begin and
end where the text does and between its characters, hold no end of a line, and have one whole end of
a line between each two of them. With what stands between them, the lines are the text. -/
theorem splitsInto_iff_eq_lineRanges (text : List Char) :
    (∀ lines, SplitsInto text 0 lines ↔ lines = lineRanges text) ∧
      interleaved text (lineRanges text) = text := by
  have hfrom : LinesFrom 0 text (lineRanges text) := linesFrom_iff.mpr rfl
  have hsplits : SplitsInto text 0 (lineRanges text) :=
    hfrom.splitsInto (List.nil_append text).symm rfl
  have hunique {lines : List ByteRange} (h : SplitsInto text 0 lines) : lines = lineRanges text :=
    linesFrom_iff.mp (h.linesFrom (List.nil_append text).symm rfl)
  have hwhole : sliceBytes text 0 (byteLength text) = text := by
    simpa using sliceBytes_append [] text []
  refine ⟨fun lines => ⟨hunique, fun h => ?_⟩, ?_⟩
  · rw [h]
    exact hsplits
  · rw [hsplits.interleaved_eq, hwhole]

example : lineRanges "a\r\r\né".toList = [⟨0, 1⟩, ⟨2, 2⟩, ⟨4, 6⟩] := by decide

end SyntaxPaint
