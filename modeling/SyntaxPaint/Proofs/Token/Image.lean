import Mathlib.Data.List.Chain
import SyntaxPaint.Proofs.Token.Cutting
/-!
# What tokenizing gives

A list of lexemes comes out of a text exactly if each lexeme is spelled as its kind demands and none
would have absorbed the first character of the next. One character of lookahead is enough for this,
although comments and compound operators begin with two.
-/
namespace SyntaxPaint

variable {l : Lexeme} {ls : List Lexeme} {rest : List Char}

private theorem stop_nil (l : Lexeme) : ∀ d ∈ ([] : List Char).head?, l.absorbs d = false := by
  simp

private theorem Spelling.ne_nil {kind : Kind} {text : List Char} (spelling : Spelling kind text) :
    text ≠ [] := by
  obtain ⟨c, tail, htext, -⟩ :=
    Lexeme.cutsOff_of_spelling (l := ⟨kind, text⟩) spelling (stop_nil _)
  intro h
  cases h.symm.trans htext

/-- The first lexeme of a text is the one that is cut off. -/
private theorem lexemes_eq_cons_iff (nonempty : l.text ≠ []) :
    lexemes (l.text ++ rest) = l :: ls ↔ l.CutsOff rest ∧ lexemes rest = ls := by
  obtain ⟨c, tail, htext⟩ := List.exists_cons_of_ne_nil nonempty
  rw [htext, List.cons_append]
  constructor
  · intro h
    obtain ⟨kind, taken, behind, hsplit, hcut⟩ := exists_cut c (tail ++ rest)
    rw [hsplit, lexemes_append hcut, List.cons.injEq] at h
    obtain ⟨rfl, hrest⟩ := h
    obtain rfl : taken = tail := (List.cons.inj htext).2
    obtain rfl : rest = behind := List.append_cancel_left hsplit
    exact ⟨⟨c, taken, rfl, hcut⟩, hrest⟩
  · intro h
    rcases h with ⟨⟨c', tail', htext', hcut⟩, hrest⟩
    obtain ⟨rfl, rfl⟩ := List.cons.inj (htext.symm.trans htext')
    rw [lexemes_append hcut, hrest, ← htext]

private theorem mem_head?_flatMap (nonempty : ∀ l ∈ ls, l.text ≠ []) {d : Char} :
    d ∈ (ls.flatMap Lexeme.text).head? ↔ ∃ next ∈ ls.head?, d ∈ next.text.head? := by
  cases ls with
  | nil => simp
  | cons next ls =>
    obtain ⟨c, tail, htext⟩ := List.exists_cons_of_ne_nil (nonempty next (by simp))
    simp [htext]

/-- The tokens of a text that is put together from lexemes are these lexemes exactly if each is
spelled as its kind demands and none absorbs the first character of the one behind it. -/
theorem tokenize_flatMap_iff (ls : List Lexeme) :
    (tokenize (ls.flatMap Lexeme.text)).map Token.lexeme = ls ↔
      (∀ l ∈ ls, Spelling l.kind l.text) ∧
      ls.IsChain fun l next => ∀ d ∈ next.text.head?, l.absorbs d = false := by
  rw [tokenize, map_lexeme_place]
  induction ls with
  | nil => simp [lexemes]
  | cons l ls ih =>
    rw [List.flatMap_cons, List.forall_mem_cons, List.isChain_cons]
    constructor
    · intro h
      have nonempty : ∀ k ∈ l :: ls, k.text ≠ [] := by
        intro k hk
        exact text_ne_nil_of_mem_lexemes (h ▸ hk)
      obtain ⟨hl, hls⟩ := List.forall_mem_cons.mp nonempty
      obtain ⟨hcut, hrest⟩ := (lexemes_eq_cons_iff hl).mp h
      obtain ⟨spelling, stop⟩ := Lexeme.cutsOff_iff.mp hcut
      obtain ⟨spellings, chain⟩ := ih.mp hrest
      refine ⟨⟨spelling, spellings⟩, fun next hnext d hd => ?_, chain⟩
      exact stop d ((mem_head?_flatMap hls).mpr ⟨next, hnext, hd⟩)
    · intro h
      rcases h with ⟨⟨spelling, spellings⟩, boundary, chain⟩
      have hls : ∀ k ∈ ls, k.text ≠ [] := fun k hk => (spellings k hk).ne_nil
      have stop : ∀ d ∈ (ls.flatMap Lexeme.text).head?, l.absorbs d = false := by
        intro d hd
        obtain ⟨next, hnext, hd⟩ := (mem_head?_flatMap hls).mp hd
        exact boundary next hnext d hd
      rw [lexemes_eq_cons_iff spelling.ne_nil]
      exact ⟨Lexeme.cutsOff_of_spelling spelling stop, ih.mpr ⟨spellings, chain⟩⟩

end SyntaxPaint
