import SyntaxPaint.Proofs.Text.Bytes
import SyntaxPaint.Proofs.Token.Cutting
/-!
# One character of lookahead

What a lexeme is depends on the character behind it and on nothing further on. A token that ends in
front of the last character of a text is therefore the same however the text is continued.
-/
namespace SyntaxPaint

theorem exists_cutsOff {text : List Char} (nonempty : text ≠ []) :
    ∃ l rest, text = Lexeme.text l ++ rest ∧ l.CutsOff rest := by
  obtain ⟨c, cs, rfl⟩ := List.exists_cons_of_ne_nil nonempty
  obtain ⟨kind, tail, rest, rfl, hcut⟩ := exists_cut c cs
  exact ⟨⟨kind, c :: tail⟩, rest, rfl, c, tail, rfl, hcut⟩

theorem lexemes_of_cutsOff {l : Lexeme} {rest : List Char} (cut : l.CutsOff rest) :
    lexemes (l.text ++ rest) = l :: lexemes rest := by
  obtain ⟨c, tail, htext, hcut⟩ := cut
  have hfirst := lexemes_append hcut
  rw [htext, List.cons_append, hfirst, ← htext]

/-- Whether a lexeme is cut off shows in the first character of what follows. -/
theorem Lexeme.cutsOff_congr {l : Lexeme} {rest other : List Char}
    (same : rest.head? = other.head?) : l.CutsOff rest ↔ l.CutsOff other := by
  rw [cutsOff_iff, cutsOff_iff, same]

theorem cutsOff_of_lexemes_eq_append {text : List Char} {before after : List Lexeme} {l : Lexeme}
    (split : lexemes text = before ++ l :: after) : l.CutsOff (after.flatMap Lexeme.text) := by
  induction text using lexemes_induction generalizing before with
  | nil => simp [lexemes] at split
  | cons c tail rest kind cut ih =>
    rw [lexemes_append cut] at split
    cases before with
    | nil =>
      obtain ⟨rfl, rfl⟩ := List.cons.inj split
      rw [flatMap_lexemes]
      exact ⟨c, tail, rfl, cut⟩
    | cons first before => exact ih (List.cons.inj split).2

theorem lexemes_append_of_head?_eq {text rest : List Char} {first later : List Lexeme}
    (split : lexemes text = first ++ later)
    (same : (later.flatMap Lexeme.text).head? = rest.head?) :
    lexemes (first.flatMap Lexeme.text ++ rest) = first ++ lexemes rest := by
  induction first generalizing text with
  | nil => rfl
  | cons l first ih =>
    have hfront : lexemes text = [] ++ l :: (first ++ later) := split
    have hbehind : lexemes text = [l] ++ (first ++ later) := split
    have hcut := cutsOff_of_lexemes_eq_append hfront
    have hlater := lexemes_of_append hbehind
    have hhead : ((first ++ later).flatMap Lexeme.text).head? =
        (first.flatMap Lexeme.text ++ rest).head? := by
      rw [List.flatMap_append, List.head?_append, List.head?_append, same]
    have hfirst := lexemes_of_cutsOff ((Lexeme.cutsOff_congr hhead).mp hcut)
    rw [List.flatMap_cons, List.append_assoc, hfirst, ih hlater, List.cons_append]

section Continuing

variable {here : Position} {ls : List Lexeme} {t : Token}

private theorem offset_le_stop (h : t ∈ place here ls) : here.offset ≤ t.stop := by
  obtain ⟨before, after, -, -, hstop⟩ := exists_of_mem_place here h
  have hoffset := Position.offset_after here (before.flatMap Lexeme.text ++ t.text)
  rw [Token.stop, hstop]
  omega

private theorem exists_left_over {s r p a : List Char} (same : p ++ a = s ++ r)
    (shorter : byteLength s < byteLength p) : ∃ q, q ≠ [] ∧ p = s ++ q ∧ r = q ++ a := by
  obtain ⟨q, hs, -⟩ | ⟨q, hp, hr⟩ := List.append_eq_append_iff.mp same
  · have hlength := byteLength_append p q
    rw [← hs] at hlength
    omega
  · refine ⟨q, ?_, hp, hr⟩
    intro hq
    rw [hp, hq, List.append_nil] at shorter
    omega

/-- Where a token ends inside the front that two texts share, they begin with the same lexeme. -/
private theorem exists_common_lexeme {p a : List Char} (b : List Char)
    (token : t ∈ place here (lexemes (p ++ a))) (inside : t.stop < here.offset + byteLength p) :
    ∃ l q, p = Lexeme.text l ++ q ∧ lexemes (p ++ a) = l :: lexemes (q ++ a) ∧
      lexemes (p ++ b) = l :: lexemes (q ++ b) := by
  have hnonempty : p ++ a ≠ [] := by
    intro hnil
    rw [hnil, lexemes, place] at token
    cases token
  obtain ⟨l, rest, htext, hcut⟩ := exists_cutsOff hnonempty
  have hfirst := lexemes_of_cutsOff hcut
  have hshorter : byteLength l.text < byteLength p := by
    rw [htext, hfirst, place, List.mem_cons] at token
    have hbehind := Position.offset_after here l.text
    obtain rfl | hlater := token
    · simp only [Token.stop] at inside
      omega
    · have hstop := offset_le_stop hlater
      omega
  obtain ⟨q, hq, hp, rfl⟩ := exists_left_over htext hshorter
  have hsame : (q ++ a).head? = (q ++ b).head? := by
    obtain ⟨d, q, rfl⟩ := List.exists_cons_of_ne_nil hq
    rfl
  have hother := lexemes_of_cutsOff ((Lexeme.cutsOff_congr hsame).mp hcut)
  refine ⟨l, q, hp, ?_, ?_⟩
  · rw [htext, hfirst]
  · rw [hp, List.append_assoc, hother]

private theorem getElem?_place_lexemes {p a : List Char} {i : Nat} (b : List Char)
    (token : (place here (lexemes (p ++ a)))[i]? = some t)
    (inside : t.stop < here.offset + byteLength p) :
    (place here (lexemes (p ++ b)))[i]? = some t := by
  induction i generalizing here p with
  | zero =>
    obtain ⟨l, q, rfl, ha, hb⟩ := exists_common_lexeme b (List.mem_of_getElem? token) inside
    rw [ha] at token
    rw [hb]
    exact token
  | succ i ih =>
    obtain ⟨l, q, rfl, ha, hb⟩ := exists_common_lexeme b (List.mem_of_getElem? token) inside
    rw [ha, place, List.getElem?_cons_succ] at token
    rw [hb, place, List.getElem?_cons_succ]
    have hbehind := Position.offset_after here l.text
    have hlength := byteLength_append l.text q
    apply ih token
    omega

end Continuing

/-- A token that ends in front of the last character of what two texts have in common is a token of
both, in the same place of the list and with the same span. -/
theorem tokenize_append_stable (p a b : List Char) (i : Nat) (t : Token)
    (token : (tokenize (p ++ a))[i]? = some t) (inside : t.stop < byteLength p) :
    (tokenize (p ++ b))[i]? = some t := by
  apply getElem?_place_lexemes b token
  rw [Position.origin, Nat.zero_add]
  exact inside

/-- Behind `x /` the slash may become a comment or a compound operator; the blank stays. -/
theorem tokenize_append_stable_slash :
    let blank : Token := ⟨.whitespace, [' '], ⟨⟨1, 2, 1, 1⟩, ⟨1, 3, 2, 2⟩⟩⟩
    (tokenize "x // c".toList)[1]? = some blank ∧ blank.stop < byteLength "x /".toList ∧
      (tokenize "x /= 2".toList)[1]? = some blank := by
  intro blank
  have hcomment : (tokenize "x // c".toList)[1]? = some blank := by decide +kernel
  have hinside : blank.stop < byteLength "x /".toList := by decide
  have hstable := tokenize_append_stable "x /".toList "/ c".toList "= 2".toList 1 blank
  exact ⟨hcomment, hinside, hstable hcomment hinside⟩

end SyntaxPaint
