import Mathlib.Data.List.Forall2
import SyntaxPaint.Proofs.Paint.Search
import SyntaxPaint.Proofs.Text.Lines
import SyntaxPaint.Proofs.Token.Tiling
/-!
# Complete painting

The patches of a line fill it as far as the tokens reach, and each shows a part of one token in the
colour of its kind. The tokens of the text itself reach to the end of every line.
-/
namespace SyntaxPaint

/-- The patch shows a part of one token, and of this one only, in the colour of its kind. -/
def Patch.Shows (theme : Theme) (tokens : List Token) (p : Patch) : Prop :=
  ∃ before t after, tokens = before ++ t :: after ∧ p.range.Inside t.range ∧
    p.kind = t.kind ∧ p.color = theme.colorFor t.kind ∧
    ∀ u ∈ before ++ after, ¬ p.range.Inside u.range

/-! ## Tokens end to end -/

private theorem contiguous_place (p : Position) {ls : List Lexeme} {stop : Nat}
    (nonempty : ∀ l ∈ ls, l.text ≠ [])
    (hstop : stop = p.offset + byteLength (ls.flatMap Lexeme.text)) :
    Contiguous p.offset stop ((place p ls).map Token.range) := by
  induction ls generalizing p with
  | nil => exact .nil (Nat.le_of_eq hstop)
  | cons l ls ih =>
    obtain ⟨hl, hls⟩ := List.forall_mem_cons.mp nonempty
    have hpos := byteLength_pos hl
    have hoffset := Position.offset_after p l.text
    rw [List.flatMap_cons, byteLength_append, ← Nat.add_assoc, ← hoffset] at hstop
    have hnext : p.offset < (p.after l.text).offset := by omega
    have hbound : (p.after l.text).offset ≤ stop := by omega
    exact .cons hnext hbound (ih (p.after l.text) hls hstop)

theorem contiguous_tokenize (source : List Char) :
    Contiguous 0 (byteLength source) ((tokenize source).map Token.range) := by
  apply contiguous_place .origin
  · exact fun l => text_ne_nil_of_mem_lexemes
  · rw [flatMap_lexemes]
    exact (Nat.zero_add _).symm

theorem isPart_of_mem_tokenize {source : List Char} {t : Token} (ht : t ∈ tokenize source) :
    t.range.IsPart source := by
  obtain ⟨before, after, hsource, hstart, hstop⟩ := tokenize_split ht
  refine ⟨before, t.text, after, hsource, ?_⟩
  rw [Token.range, hstart, hstop]

/-! ## One line -/

section Line

variable {tokens : Array Token} {reach : Nat} (theme : Theme)
  (h : Contiguous 0 reach (tokens.toList.map Token.range)) (line : ByteRange)

include h

theorem contiguous_paintLine :
    Contiguous line.start (min line.stop reach)
      ((paintLine tokens line theme).map Patch.range) := by
  have hclip := h.clip line
  have hranges : (paintLine tokens line theme).map Patch.range =
      (tokens.toList.map Token.range).filterMap line.clip? := by
    rw [paintLine_eq h, List.map_filterMap, List.filterMap_map]
    apply List.filterMap_congr
    intro t _
    rw [patch?_eq, Option.map_map]
    exact Option.map_id'
  rw [hranges]
  rw [Nat.zero_max, Nat.min_comm] at hclip
  exact hclip

theorem exists_of_mem_paintLine {p : Patch} (hp : p ∈ paintLine tokens line theme) :
    ∃ t ∈ tokens.toList, line.clip? t.range = some p.range ∧ p.kind = t.kind ∧
      p.color = theme.colorFor t.kind := by
  rw [paintLine_eq h, List.mem_filterMap] at hp
  obtain ⟨t, ht, hpatch⟩ := hp
  rw [patch?_eq, Option.map_eq_some_iff] at hpatch
  obtain ⟨cut, hcut, rfl⟩ := hpatch
  exact ⟨t, ht, hcut, rfl, rfl⟩

private theorem shows_of_mem_paintLine {p : Patch} (hp : p ∈ paintLine tokens line theme) :
    p.Shows theme tokens.toList := by
  obtain ⟨t, ht, hcut, hkind, hcolor⟩ := exists_of_mem_paintLine theme h line hp
  obtain ⟨-, hnonempty⟩ := ByteRange.of_clip? hcut
  have hinside := ByteRange.inside_of_clip? hcut
  obtain ⟨before, after, hsplit⟩ := List.append_of_mem ht
  have hordered := h.pairwise
  rw [hsplit, List.pairwise_map, List.pairwise_append] at hordered
  obtain ⟨-, hafter, hbefore⟩ := hordered
  refine ⟨before, t, after, hsplit, hinside, hkind, hcolor, fun u hu => ?_⟩
  apply hinside.not_inside hnonempty
  obtain hu | hu := List.mem_append.mp hu
  · exact .inr (hbefore u hu t List.mem_cons_self)
  · exact .inl (List.rel_of_pairwise_cons hafter hu)

private theorem countP_covers_paintLine (k : Nat) :
    (paintLine tokens line theme).countP (·.range.covers k) =
      if line.covers k ∧ k < reach then 1 else 0 := by
  have hranges := (contiguous_paintLine theme h line).countP_covers k
  have hcut : line.start ≤ k ∧ k < min line.stop reach ↔ line.covers k ∧ k < reach := by
    rw [ByteRange.covers_iff]
    omega
  rw [List.countP_map, if_congr hcut rfl rfl] at hranges
  exact hranges

end Line

/-! ## All lines -/

section Lines

variable {text : List Char} {tokens : Array Token} {reach : Nat} (theme : Theme)

private theorem countP_covers_paint (h : Contiguous 0 reach (tokens.toList.map Token.range))
    (k : Nat) :
    (paint text tokens theme).flatten.countP (·.range.covers k) =
      if isLineByte text k ∧ k < reach then 1 else 0 := by
  have hlines (lines : List ByteRange) :
      (lines.map (paintLine tokens · theme)).flatten.countP (·.range.covers k) =
        if k < reach then lines.countP (·.covers k) else 0 := by
    induction lines with
    | nil => simp
    | cons line lines ih =>
      rw [List.map_cons, List.flatten_cons, List.countP_append, ih,
        countP_covers_paintLine theme h, List.countP_cons]
      by_cases hk : k < reach
      · simp [hk, Nat.add_comm]
      · simp [hk]
  rw [paint, hlines, countP_covers_lineRanges]
  by_cases hk : k < reach
  · simp [hk]
  · simp [hk]

private theorem forall₂_paint {R : ByteRange → List Patch → Prop}
    (h : ∀ line ∈ lineRanges text, R line (paintLine tokens line theme)) :
    List.Forall₂ R (lineRanges text) (paint text tokens theme) := by
  rw [paint, List.forall₂_map_right_iff, List.forall₂_same]
  exact h

theorem exists_line_of_mem_paint {p : Patch}
    (hp : p ∈ (paint text tokens theme).flatten) :
    ∃ line ∈ lineRanges text, p ∈ paintLine tokens line theme := by
  rw [paint, List.mem_flatten] at hp
  obtain ⟨patches, hpatches, hp⟩ := hp
  obtain ⟨line, hline, rfl⟩ := List.mem_map.mp hpatches
  exact ⟨line, hline, hp⟩

end Lines

/-- The patches of each line are not empty and stand end to end from its start to its end, so each
byte of a line is painted once and no other byte is. They show the tokens in the colours of their
kinds. With the tokens of another source this holds as far as that source is long, and nothing
behind it is painted. -/
theorem paint_complete (text source : List Char) (theme : Theme) :
    let own := paint text (tokenize text).toArray theme
    let other := paint text (tokenize source).toArray theme
    (List.Forall₂ (fun line patches => line.start ≤ line.stop ∧
        Contiguous line.start line.stop (patches.map Patch.range)) (lineRanges text) own ∧
      (∀ p ∈ own.flatten, p.Shows theme (tokenize text) ∧
        IsBoundary text p.range.start ∧ IsBoundary text p.range.stop) ∧
      ∀ k, own.flatten.countP (·.range.covers k) = if isLineByte text k then 1 else 0) ∧
    List.Forall₂ (fun line patches => Contiguous line.start (min line.stop (byteLength source))
        (patches.map Patch.range)) (lineRanges text) other ∧
      (∀ p ∈ other.flatten, p.Shows theme (tokenize source)) ∧
      ∀ k, other.flatten.countP (·.range.covers k) =
        if isLineByte text k ∧ k < byteLength source then 1 else 0 := by
  intro own other
  have howns := contiguous_tokenize text
  have hothers := contiguous_tokenize source
  refine ⟨⟨?lines, ?patches, ?bytes⟩, ?linesUpTo, ?shown, ?bytesUpTo⟩
  case lines =>
    apply forall₂_paint
    intro line hline
    have hpart := isPart_of_mem_lineRanges hline
    have hfilled := contiguous_paintLine theme howns line
    rw [Nat.min_eq_left hpart.stop_le] at hfilled
    exact ⟨hpart.start_le_stop, hfilled⟩
  case patches =>
    intro p hp
    obtain ⟨line, hline, hp⟩ := exists_line_of_mem_paint theme hp
    obtain ⟨t, ht, hcut, -⟩ := exists_of_mem_paintLine theme howns line hp
    have hpart := isPart_of_mem_tokenize ht
    exact ⟨shows_of_mem_paintLine theme howns line hp,
      hpart.clip? (isPart_of_mem_lineRanges hline) hcut⟩
  case bytes =>
    intro k
    have hreach : isLineByte text k ∧ k < byteLength text ↔ isLineByte text k :=
      and_iff_left_of_imp lt_of_isLineByte
    exact (countP_covers_paint theme howns k).trans (if_congr hreach rfl rfl)
  case linesUpTo =>
    apply forall₂_paint
    exact fun line _ => contiguous_paintLine theme hothers line
  case shown =>
    intro p hp
    obtain ⟨line, -, hp⟩ := exists_line_of_mem_paint theme hp
    exact shows_of_mem_paintLine theme hothers line hp
  case bytesUpTo => exact countP_covers_paint theme hothers

end SyntaxPaint
