import SyntaxPaint.Document
import SyntaxPaint.Proofs.Paint.Complete
import SyntaxPaint.Proofs.Paint.Screen
/-!
# Faithful rendering

A terminal that is given a rendered line shows the text of the line, each character in the colour of
the token that holds it.
-/
namespace SyntaxPaint

/-! ## Coloured text -/

/-- The colour that the byte at an offset is shown in: that of the token that holds it. -/
def inkAt (theme : Theme) (tokens : List Token) (k : Nat) : Option Ink :=
  (tokens.find? (·.range.covers k)).bind fun t => (theme.colorFor t.kind).ink?

/-- The characters of a text that begins at the byte `here`, each in the colour it is shown in. -/
def inked (theme : Theme) (tokens : List Token) (here : Nat) : List Char → List Cell
  | [] => []
  | c :: text => ⟨c, inkAt theme tokens here⟩ :: inked theme tokens (here + c.utf8Size) text

section Inked

variable {theme : Theme} {tokens : List Token}

private theorem inked_append (here : Nat) (text more : List Char) :
    inked theme tokens here (text ++ more) =
      inked theme tokens here text ++ inked theme tokens (here + byteLength text) more := by
  induction text generalizing here with
  | nil => rfl
  | cons c text ih =>
    rw [List.cons_append, inked, inked, ih, List.cons_append, byteLength_cons, Nat.add_assoc]

variable {start stop : Nat} (h : Contiguous start stop (tokens.map Token.range))
include h

/-- Of tokens that stand end to end one only holds a byte. -/
private theorem inkAt_of_covers {t : Token} (ht : t ∈ tokens) {k : Nat}
    (hk : t.range.covers k = true) : inkAt theme tokens k = (theme.colorFor t.kind).ink? := by
  obtain ⟨before, after, rfl⟩ := List.append_of_mem ht
  have hordered := h.pairwise
  rw [List.pairwise_map, List.pairwise_append] at hordered
  obtain ⟨-, -, hbefore⟩ := hordered
  have hahead : before.find? (·.range.covers k) = none := by
    rw [List.find?_eq_none]
    intro u hu
    have := hbefore u hu t List.mem_cons_self
    rw [ByteRange.covers_iff] at hk ⊢
    omega
  have hfirst : (t :: after).find? (·.range.covers k) = some t := List.find?_cons_of_pos hk
  rw [inkAt, List.find?_append, hahead, hfirst]
  rfl

private theorem inked_of_inside {t : Token} (ht : t ∈ tokens) {here : Nat} {text : List Char}
    (inside : (ByteRange.mk here (here + byteLength text)).Inside t.range) :
    inked theme tokens here text = text.map (⟨·, (theme.colorFor t.kind).ink?⟩) := by
  induction text generalizing here with
  | nil => rfl
  | cons c text ih =>
    have hsize := c.utf8Size_pos
    obtain ⟨hstart, hstop⟩ := inside
    simp only [byteLength_cons] at hstart hstop
    have hcovers : t.range.covers here = true := by
      rw [ByteRange.covers_iff]
      omega
    have hrest : (ByteRange.mk (here + c.utf8Size) (here + c.utf8Size + byteLength text)).Inside
        t.range := by
      constructor
      · show t.range.start ≤ here + c.utf8Size
        omega
      · show here + c.utf8Size + byteLength text ≤ t.range.stop
        omega
    rw [inked, inkAt_of_covers h ht hcovers, ih hrest, List.map_cons]

omit h

private theorem flatMap_inked {text : List Char} {ranges : List ByteRange}
    (h : Contiguous start stop ranges) (parts : ∀ r ∈ ranges, r.IsPart text) :
    ranges.flatMap (fun r => inked theme tokens r.start (r.slice text)) =
      inked theme tokens start (sliceBytes text start stop) := by
  induction h with
  | nil empty => rw [sliceBytes_empty text empty]; rfl
  | @cons start mid stop ranges nonempty bound rest ih =>
    obtain ⟨hpart, hparts⟩ := List.forall_mem_cons.mp parts
    have hslice : sliceBytes text start stop = _ ++ sliceBytes text mid stop :=
      hpart.sliceBytes_eq bound
    have hmid : mid = start + _ := hpart.stop_eq
    rw [List.flatMap_cons, ih hparts, hslice, inked_append, ← hmid]

end Inked

/-! ## Rendered lines -/

section Line

variable {text : List Char} {theme : Theme} {line : ByteRange}

private theorem isPart_of_mem_paintLine (hline : line.IsPart text) {p : Patch}
    (hp : p ∈ paintLine (tokenize text).toArray line theme) : p.range.IsPart text := by
  obtain ⟨t, ht, hcut, -⟩ := exists_of_mem_paintLine theme (contiguous_tokenize text) line hp
  obtain ⟨-, hnonempty⟩ := ByteRange.of_clip? hcut
  obtain ⟨hstart, hstop⟩ := (isPart_of_mem_tokenize ht).clip? hline hcut
  exact .of_isBoundary hstart hstop hnonempty.le

private theorem write_patch (plain : '\x1b' ∉ text) (hline : line.IsPart text) {p : Patch}
    (hp : p ∈ paintLine (tokenize text).toArray line theme) (cells : List Cell) :
    Screen.write ⟨cells, none, .text⟩ (inColor p.color (p.range.slice text)) =
      ⟨cells ++ inked theme (tokenize text) p.range.start (p.range.slice text), none, .text⟩ := by
  have htokens := contiguous_tokenize text
  obtain ⟨t, ht, hcut, -, hcolor⟩ := exists_of_mem_paintLine theme htokens line hp
  have hpart := isPart_of_mem_paintLine hline hp
  have hslice : '\x1b' ∉ p.range.slice text := mt hpart.mem_of_mem_slice plain
  have hinside : (ByteRange.mk p.range.start
      (p.range.start + byteLength (p.range.slice text))).Inside t.range := by
    rw [← hpart.stop_eq]
    exact ByteRange.inside_of_clip? hcut
  rw [Screen.write_inColor p.color hslice, inked_of_inside htokens ht hinside, hcolor]

private theorem write_renderLine {tokens : List Token} {patches : List Patch}
    (shown : ∀ p ∈ patches, ∀ cells : List Cell,
      Screen.write ⟨cells, none, .text⟩ (inColor p.color (p.range.slice text)) =
        ⟨cells ++ inked theme tokens p.range.start (p.range.slice text), none, .text⟩)
    (cells : List Cell) :
    Screen.write ⟨cells, none, .text⟩ (renderLine text patches) =
      ⟨cells ++ patches.flatMap (fun p => inked theme tokens p.range.start (p.range.slice text)),
        none, .text⟩ := by
  -- Each patch leaves the default colour in force, so the next one begins as the first does.
  induction patches generalizing cells with
  | nil => simp [renderLine]
  | cons p patches ih =>
    obtain ⟨hp, hpatches⟩ := List.forall_mem_cons.mp shown
    rw [renderLine, List.flatMap_cons, Screen.write_append, hp, List.flatMap_cons,
      ← List.append_assoc]
    exact ih hpatches _

private theorem write_renderLine_paintLine (plain : '\x1b' ∉ text) (hline : line.IsPart text)
    (cells : List Cell) :
    Screen.write ⟨cells, none, .text⟩
        (renderLine text (paintLine (tokenize text).toArray line theme)) =
      ⟨cells ++ inked theme (tokenize text) line.start (line.slice text), none, .text⟩ := by
  have hfilled : Contiguous line.start (min line.stop (byteLength text))
      ((paintLine (tokenize text).toArray line theme).map Patch.range) :=
    contiguous_paintLine theme (contiguous_tokenize text) line
  rw [Nat.min_eq_left hline.stop_le] at hfilled
  have hparts : ∀ r ∈ (paintLine (tokenize text).toArray line theme).map Patch.range,
      r.IsPart text := by
    rw [List.forall_mem_map]
    exact fun p => isPart_of_mem_paintLine hline
  have hcells : _ = inked theme (tokenize text) line.start (line.slice text) :=
    flatMap_inked hfilled hparts
  rw [List.flatMap_map] at hcells
  rw [write_renderLine (fun p hp => write_patch plain hline hp), hcells]

end Line

/-! ## Numbered lines -/

/-- What stands in front of a line: its number, at the right end of as many places as the count of
all lines has digits, and a bar. -/
def margin (count number : Nat) : List Cell :=
  let digits := Nat.toDigits 10 number
  let width := (Nat.toDigits 10 count).length
  (List.replicate (width - digits.length) ' ' ++ digits ++ " | ".toList).map (⟨·, none⟩)

private theorem length_margin {count number : Nat} (h : number ≤ count) :
    (margin count number).length = (Nat.toDigits 10 count).length + 3 := by
  have hwidth : 0 < (Nat.toDigits 10 count).length := List.length_pos_of_ne_nil Nat.toDigits_ne_nil
  have hcount : count < 10 ^ (Nat.toDigits 10 count).length :=
    (Nat.length_toDigits_le_iff (by decide) hwidth).mp (Nat.le_refl _)
  have hnumber : (Nat.toDigits 10 number).length ≤ (Nat.toDigits 10 count).length :=
    (Nat.length_toDigits_le_iff (by decide) hwidth).mpr (Nat.lt_of_le_of_lt h hcount)
  have hbar : " | ".toList.length = 3 := rfl
  rw [margin, List.length_map, List.length_append, List.length_append, List.length_replicate, hbar]
  omega

private theorem write_numbered (count index : Nat) (line : List Char) :
    Screen.blank.write (numbered count index line) =
      Screen.write ⟨margin count (index + 1), none, .text⟩ line := by
  have hdigits : '\x1b' ∉ Nat.toDigits 10 (index + 1) := not_mem_toDigits (by decide) _
  have hblank (n : Nat) : '\x1b' ∉ List.replicate n ' ' := by
    rw [List.mem_replicate]
    exact fun h => absurd h.2 (by decide)
  have hplain : '\x1b' ∉ padLeft (decimal count).length (decimal (index + 1)) ++ " | ".toList := by
    rw [padLeft, decimal_eq (index + 1), List.mem_append, List.mem_append, not_or, not_or]
    exact ⟨⟨hblank _, hdigits⟩, by decide⟩
  rw [numbered, Screen.write_append, Screen.blank, Screen.write_text hplain, padLeft, decimal_eq,
    decimal_eq]
  rfl

private theorem length_renderLines (text : List Char) (painted : List (List Patch))
    (numbers : Bool) : (renderLines text painted numbers).length = painted.length := by
  cases numbers
  · exact List.length_map _
  · exact List.length_mapIdx.trans (List.length_map _)

private theorem getElem?_renderLines {text : List Char} {painted : List (List Patch)} {i : Nat}
    {patches : List Patch} (numbers : Bool) (h : painted[i]? = some patches) :
    (renderLines text painted numbers)[i]? =
      some (if numbers then numbered painted.length i (renderLine text patches)
        else renderLine text patches) := by
  have hline : (painted.map (renderLine text))[i]? = some (renderLine text patches) := by
    rw [List.getElem?_map, h, Option.map_some]
  cases numbers
  · exact hline
  · show ((painted.map (renderLine text)).mapIdx _)[i]? = _
    rw [List.getElem?_mapIdx, hline, List.length_map]
    rfl

/-- A text without escape characters is rendered line by line, each of its bytes is of one token,
and what is put in colours are whole parts of it. A terminal shows of a rendered line the margin, if
one is asked for, in the default colour, and behind it the characters of the line, each in the
colour of the kind of its token; the default colour is in force again at the end. The margins are
all of the same width. -/
theorem render_faithful (d : Document) {text : List Char} (theme : Theme) (numbers : Bool)
    (plain : '\x1b' ∉ text) :
    let tokens := tokenize text
    let lines := lineRanges text
    let rendered := (d.update text).render theme numbers
    (∀ k < byteLength text, tokens.countP (·.range.covers k) = 1) ∧
    (∀ p ∈ ((d.update text).highlight theme).flatten, p.range.IsPart text) ∧
    rendered.length = lines.length ∧
    ∀ i line, lines[i]? = some line → line.IsPart text ∧
      (margin lines.length (i + 1)).length = (Nat.toDigits 10 lines.length).length + 3 ∧
      ∃ written, rendered[i]? = some written ∧
        Screen.blank.write written =
          ⟨(if numbers then margin lines.length (i + 1) else []) ++
            inked theme tokens line.start (line.slice text), none, .text⟩ := by
  intro tokens lines rendered
  have hcount : ((d.update text).highlight theme).length = lines.length := List.length_map _
  refine ⟨?bytes, ?patches, (length_renderLines _ _ _).trans hcount, ?lines⟩
  case bytes =>
    intro k hk
    have hcovers := (contiguous_tokenize text).countP_covers k
    rwa [List.countP_map, if_pos ⟨Nat.zero_le k, hk⟩] at hcovers
  case patches =>
    intro p hp
    obtain ⟨line, hline, hp⟩ := exists_line_of_mem_paint theme hp
    exact isPart_of_mem_paintLine (isPart_of_mem_lineRanges hline) hp
  case lines =>
    intro i line hline
    have hi : i < lines.length := (List.getElem?_eq_some_iff.mp hline).1
    have hpart : line.IsPart text := isPart_of_mem_lineRanges (List.mem_of_getElem? hline)
    have hpatches : ((d.update text).highlight theme)[i]? =
        some (paintLine tokens.toArray line theme) := by
      show ((lineRanges text).map _)[i]? = _
      rw [List.getElem?_map, hline]
      rfl
    refine ⟨hpart, length_margin hi, _, getElem?_renderLines numbers hpatches, ?_⟩
    cases numbers
    · exact write_renderLine_paintLine plain hpart []
    · show Screen.blank.write (numbered _ i _) = _
      rw [write_numbered, hcount]
      exact write_renderLine_paintLine plain hpart _

/-- The second of two lines is a name and a comment that nothing ends: the colour of names is all
but transparent and shown, that of comments is transparent and not. -/
theorem render_faithful_comment :
    let theme :=
      ((Theme.plain "Glass" .black .white).withColor .identifier ⟨10, 20, 30, 1⟩).withColor
        .comment ⟨0, 128, 0, 0⟩
    '\x1b' ∉ "x\r\ny/*é".toList ∧ ∃ written,
      (((Document.new .standard).update "x\r\ny/*é".toList).render theme true)[1]? =
        some written ∧
      Screen.blank.write written =
        ⟨"2 | ".toList.map (⟨·, none⟩) ++ ⟨'y', some ⟨10, 20, 30⟩⟩ ::
          "/*é".toList.map (⟨·, none⟩), none, .text⟩ := by
  intro theme
  have hplain : '\x1b' ∉ "x\r\ny/*é".toList := by decide
  obtain ⟨-, -, -, hlines⟩ := render_faithful (.new .standard) theme true hplain
  obtain ⟨-, -, written, hwritten, hshown⟩ := hlines 1 ⟨3, 8⟩ (by decide)
  refine ⟨hplain, written, hwritten, hshown.trans ?_⟩
  decide +kernel

end SyntaxPaint
