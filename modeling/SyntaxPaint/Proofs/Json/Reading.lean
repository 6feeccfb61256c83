import SyntaxPaint.Proofs.Json.Numbers
import SyntaxPaint.Proofs.Json.Strings
/-!
# Reading what is spelled

A text that spells a tree is read as this tree, with as much fuel as the reader gives itself for the
text.
-/
namespace SyntaxPaint

variable {blanks text rest : List Char} {c : Char}

/-! ## Blanks -/

theorem skipJsonBlanks_append (blank : IsJsonBlanks blanks)
    (stop : ∀ c ∈ rest.head?, isJsonBlank c = false) : skipJsonBlanks (blanks ++ rest) = rest :=
  dropWhile_append_of_stop blank stop

theorem skipJsonBlanks_cons (blank : IsJsonBlanks blanks) (h : isJsonBlank c = false)
    (rest : List Char) : skipJsonBlanks (blanks ++ c :: rest) = c :: rest :=
  skipJsonBlanks_append blank (by simp [h])

theorem endsNumber_blanks (blank : IsJsonBlanks blanks) (h : EndsNumber rest) :
    EndsNumber (blanks ++ rest) := by
  cases blanks with
  | nil => exact h
  | cons b blanks =>
    have hb := blank b List.mem_cons_self
    intro c hc
    obtain rfl : b = c := Option.some.inj hc
    simp only [isJsonBlank, Bool.or_eq_true, beq_iff_eq] at hb
    rcases hb with ((rfl | rfl) | rfl) | rfl <;> decide

theorem endsNumber_cons (h : c ∈ [',', ']', '\x7d']) : EndsNumber (c :: rest) := by
  intro d hd
  obtain rfl : c = d := Option.some.inj hd
  simp only [List.mem_cons, List.not_mem_nil, or_false] at h
  rcases h with rfl | rfl | rfl <;> decide

theorem not_isJsonBlank_of_isAsciiDigit (h : isAsciiDigit c = true) : isJsonBlank c = false := by
  by_contra hblank
  simp only [Bool.not_eq_false, isJsonBlank, Bool.or_eq_true, beq_iff_eq] at hblank
  rcases hblank with ((rfl | rfl) | rfl) | rfl <;> exact absurd h (by decide)

private theorem ne_of_isAsciiDigit {d : Char} (h : isAsciiDigit c = true)
    (other : isAsciiDigit d = false) : c ≠ d := by
  rintro rfl
  simp [h] at other

/-! ## Beginnings -/

theorem Numeral.Digits.exists_cons {n : Numeral} (h : n.Digits text) :
    ∃ d ds, text = d :: ds ∧ isAsciiDigit d = true := by
  obtain ⟨hwhole, point, power, -, -, rfl⟩ := h
  obtain ⟨d, ds, hd⟩ := List.exists_cons_of_ne_nil hwhole.1.1
  exact ⟨d, ds ++ point ++ power, by simp [hd], hwhole.1.2 d (hd ▸ List.mem_cons_self)⟩

theorem Tree.Spells.exists_cons {t : Tree} (h : t.Spells text) :
    ∃ c tail, text = c :: tail ∧ isJsonBlank c = false ∧ c ≠ ']' := by
  cases h with
  | word w => cases w <;> exact ⟨_, _, rfl, by decide, by decide⟩
  | number spelled =>
    obtain ⟨digits, hdigits, rfl⟩ := spelled
    obtain ⟨d, ds, rfl, hd⟩ := hdigits.exists_cons
    split
    · exact ⟨_, _, rfl, by decide, by decide⟩
    · exact ⟨d, ds, rfl, not_isJsonBlank_of_isAsciiDigit hd, ne_of_isAsciiDigit hd (by decide)⟩
  | _ => exact ⟨_, _, rfl, by decide, by decide⟩

theorem Items.Spells.exists_cons {items : Items} (h : items.Spells text) (rest : List Char) :
    ∃ c tail, skipJsonBlanks (text ++ rest) = c :: tail ∧ c ≠ ']' := by
  have hfilled {t : Tree} {text rest : List Char} (h : t.Fills text) :
      ∃ c tail, skipJsonBlanks (text ++ rest) = c :: tail ∧ c ≠ ']' := by
    cases h with
    | padded blank spelled blank' =>
      obtain ⟨c, tail, rfl, hblank, hc⟩ := spelled.exists_cons
      simp only [List.append_assoc, List.cons_append, skipJsonBlanks_cons blank hblank]
      exact ⟨_, _, rfl, hc⟩
  cases h with
  | last item => exact hfilled item
  | next item tail =>
    rw [List.append_assoc]
    exact hfilled item

theorem Members.Spells.exists_cons {members : Members} (h : members.Spells text)
    (rest : List Char) : ∃ tail, skipJsonBlanks (text ++ rest) = '"' :: tail := by
  have hnamed {q : Quoted} {name rest : List Char} (h : q.Fills name) :
      ∃ tail, skipJsonBlanks (name ++ rest) = '"' :: tail := by
    obtain ⟨before, body, behind, blank, -, -, -, rfl⟩ := h
    simp only [List.append_assoc, List.cons_append,
      skipJsonBlanks_cons blank (c := '"') (by decide)]
    exact ⟨_, rfl⟩
  cases h with
  | last named => exact List.append_assoc .. ▸ hnamed named
  | next named => exact List.append_assoc .. ▸ hnamed named

namespace Tree

/-! ## Scalars -/

theorem passLetters_append (word rest : List Char) :
    passLetters word (word ++ rest) = .ok rest := by
  induction word with
  | nil => cases rest <;> rfl
  | cons c word ih => simp [passLetters, ih]

private theorem readScalar_word (w : Word) (rest : List Char) :
    ∃ c tail, w.text.toList = c :: tail ∧ c ≠ '[' ∧ c ≠ '\x7b' ∧
      readScalar c (tail ++ rest) = (.word w, rest) := by
  have hletters : ∃ c tail, w.text.toList = c :: tail ∧ Word.ofLetter? c = some w ∧
      c ∉ ['"', '-', '[', '\x7b'] ∧ isAsciiDigit c = false := by
    cases w <;> exact ⟨_, _, by rfl, by rfl, by decide, by decide⟩
  obtain ⟨c, tail, htext, hletter, hother, hdigit⟩ := hletters
  have hpass : passLetters w.text.toList.tail (tail ++ rest) = .ok rest := by
    rw [htext]
    exact passLetters_append tail rest
  simp only [List.mem_cons, List.not_mem_nil, or_false, not_or] at hother
  obtain ⟨hquote, hminus, hbracket, hbrace⟩ := hother
  refine ⟨c, tail, htext, hbracket, hbrace, ?_⟩
  simp only [readScalar, hquote, hminus, hdigit, hletter, hpass, if_false, Bool.false_eq_true]

private theorem readScalar_number {n : Numeral} (h : n.Spells text) (stop : EndsNumber rest) :
    ∃ c tail, text = c :: tail ∧ c ≠ '[' ∧ c ≠ '\x7b' ∧
      readScalar c (tail ++ rest) = (.number n, rest) := by
  obtain ⟨digits, hdigits, rfl⟩ := h
  obtain ⟨d, ds, rfl, hd⟩ := hdigits.exists_cons
  have hread := Numeral.read_append hdigits stop
  cases hsign : n.negative with
  | true =>
    rw [hsign] at hread
    refine ⟨'-', d :: ds, by simp, by decide, by decide, ?_⟩
    rw [readScalar, if_neg (by decide), if_pos rfl, hread]
    rfl
  | false =>
    rw [hsign, List.cons_append] at hread
    have hother : d ≠ '"' ∧ d ≠ '-' :=
      ⟨ne_of_isAsciiDigit hd (by decide), ne_of_isAsciiDigit hd (by decide)⟩
    refine ⟨d, ds, by simp, ne_of_isAsciiDigit hd (by decide),
      ne_of_isAsciiDigit hd (by decide), ?_⟩
    rw [readScalar, if_neg hother.1, if_neg hother.2, if_pos hd, hread]
    rfl

/-- A word, a number or a string. -/
inductive IsScalar : Tree → Prop
  | word (w : Word) : IsScalar (.word w)
  | number (n : Numeral) : IsScalar (.number n)
  | string (q : Quoted) : IsScalar (.string q)

theorem readScalar_spelled {t : Tree} (scalar : t.IsScalar) (h : t.Spells text)
    (stop : EndsNumber rest) :
    ∃ c tail, text = c :: tail ∧ c ≠ '[' ∧ c ≠ '\x7b' ∧
      readScalar c (tail ++ rest) = (t, rest) := by
  cases h with
  | word w => exact readScalar_word w rest
  | number spelled => exact readScalar_number spelled stop
  | @string body spelled =>
    refine ⟨'"', body ++ ['"'], rfl, by decide, by decide, ?_⟩
    rw [readScalar, if_pos rfl, List.append_assoc, List.singleton_append,
      Quoted.read_body spelled]
  | _ => cases scalar

/-! ## Brackets -/

theorem Behind.of_close {bracket : Char} (h : bracket = ']' ∨ bracket = '\x7d')
    (blank : IsJsonBlanks blanks) (rest : List Char) :
    Behind.of bracket (blanks ++ bracket :: rest) = .close rest := by
  have hbracket : isJsonBlank bracket = false := by
    rcases h with rfl | rfl <;> decide
  rw [Behind.of, skipJsonBlanks_cons blank hbracket]
  simp

theorem Behind.of_comma {bracket : Char} (h : bracket = ']' ∨ bracket = '\x7d')
    (blank : IsJsonBlanks blanks) {tail : List Char} (next : skipJsonBlanks rest = c :: tail)
    (hc : c ≠ bracket) : Behind.of bracket (blanks ++ ',' :: rest) = .comma (c :: tail) := by
  have hbracket : ',' ≠ bracket := by
    rcases h with rfl | rfl <;> decide
  rw [Behind.of, skipJsonBlanks_cons blank (by decide)]
  simp [hbracket, next, hc]

/-! ## Values -/

/-- Values are read with this fuel: every character of a text pays for two calls. -/
private def ReadsValues (fuel : Nat) : Prop :=
  ∀ {t : Tree} {core : List Char} (before rest : List Char), IsJsonBlanks before → t.Spells core →
    EndsNumber rest → 2 * core.length ≤ fuel → readValue fuel (before ++ core ++ rest) = (t, rest)

private def ReadsItems (fuel : Nat) : Prop :=
  ∀ {items : Items} {text : List Char} (rest : List Char), items.Spells text →
    2 * text.length + 2 ≤ fuel →
    readItems fuel (skipJsonBlanks (text ++ ']' :: rest)) = (items, rest)

private def ReadsMembers (fuel : Nat) : Prop :=
  ∀ {members : Members} {text inner : List Char} (rest : List Char), members.Spells text →
    2 * text.length + 2 ≤ fuel → skipJsonBlanks (text ++ '\x7d' :: rest) = '"' :: inner →
    readMembers fuel inner = (members, rest)

private theorem readValue_step {fuel : Nat} (hitems : ReadsItems fuel)
    (hmembers : ReadsMembers fuel) : ReadsValues (fuel + 1) := by
  intro t core before rest blank spelled stop hfuel
  have hskip : skipJsonBlanks (before ++ core ++ rest) = core ++ rest := by
    obtain ⟨c, tail, rfl, hc, -⟩ := spelled.exists_cons
    rw [List.append_assoc, List.cons_append, skipJsonBlanks_cons blank hc]
  have hscalar (scalar : t.IsScalar) :
      readValue (fuel + 1) (before ++ core ++ rest) = (t, rest) := by
    obtain ⟨c, tail, rfl, hbracket, hbrace, hread⟩ := readScalar_spelled scalar spelled stop
    rw [readValue, hskip, List.cons_append]
    split <;> simp_all
  cases spelled with
  | word w => exact hscalar (.word w)
  | number => exact hscalar (.number _)
  | string => exact hscalar (.string _)
  | @emptyArray blanks blank' =>
    have hinside := skipJsonBlanks_cons (c := ']') blank' (by decide) rest
    rw [readValue, hskip]
    simp [hinside]
  | @array items text spelled =>
    obtain ⟨c, tail, hfirst, hc⟩ := spelled.exists_cons (']' :: rest)
    have hread := hitems rest spelled (by simp at hfuel; omega)
    rw [readValue, hskip]
    rw [hfirst] at hread
    simp [hfirst, hc, hread]
  | @emptyObject blanks blank' =>
    have hinside := skipJsonBlanks_cons (c := '\x7d') blank' (by decide) rest
    rw [readValue, hskip]
    simp [hinside]
  | @object members text spelled =>
    obtain ⟨tail, hfirst⟩ := spelled.exists_cons ('\x7d' :: rest)
    have hread := hmembers rest spelled (by simp at hfuel; omega) hfirst
    rw [readValue, hskip]
    simp [hfirst, hread]

/-- A value is read with the blanks in front of it, which may be passed over before. -/
private theorem ReadsValues.fills {fuel : Nat} (h : ReadsValues fuel) {t : Tree}
    (filled : t.Fills text) (rest : List Char) (stop : EndsNumber rest)
    (hfuel : 2 * text.length ≤ fuel) : ∃ behind, IsJsonBlanks behind ∧
      readValue fuel (text ++ rest) = (t, behind ++ rest) ∧
      readValue fuel (skipJsonBlanks (text ++ rest)) = (t, behind ++ rest) := by
  cases filled with
  | @padded _ before core behind blank spelled blank' =>
    have hskip : skipJsonBlanks (before ++ core ++ behind ++ rest) = core ++ (behind ++ rest) := by
      obtain ⟨c, tail, rfl, hc, -⟩ := spelled.exists_cons
      simp [skipJsonBlanks_cons blank hc]
    have hstop := endsNumber_blanks blank' stop
    have hcore : 2 * core.length ≤ fuel := by
      simp only [List.length_append] at hfuel
      omega
    refine ⟨behind, blank', ?_, ?_⟩
    · rw [List.append_assoc]
      exact h before _ blank spelled hstop hcore
    · rw [hskip]
      exact h [] _ (by simp [IsJsonBlanks]) spelled hstop hcore

private theorem readItems_step {fuel : Nat} (hvalues : ReadsValues fuel)
    (hitems : ReadsItems fuel) : ReadsItems (fuel + 1) := by
  intro items text rest spelled hfuel
  cases spelled with
  | last item =>
    obtain ⟨behind, blank, -, hread⟩ :=
      hvalues.fills item (']' :: rest) (endsNumber_cons (by simp)) (by omega)
    rw [readItems, hread]
    simp only [Behind.of_close (.inl rfl) blank]
  | @next value others text more item tail =>
    simp only [List.length_append, List.length_cons] at hfuel
    obtain ⟨behind, blank, -, hread⟩ := hvalues.fills item (',' :: (more ++ ']' :: rest))
      (endsNumber_cons (by simp)) (by omega)
    obtain ⟨c, first, hnext, hc⟩ := tail.exists_cons (']' :: rest)
    have hothers := hitems rest tail (by omega)
    rw [hnext] at hothers
    rw [List.append_assoc, List.cons_append, readItems, hread]
    simp only [Behind.of_comma (.inl rfl) blank hnext hc, hothers]

private theorem readMembers_step {fuel : Nat} (hvalues : ReadsValues fuel)
    (hmembers : ReadsMembers fuel) : ReadsMembers (fuel + 1) := by
  have hkey {key : Quoted} {name rest inner : List Char} (named : key.Fills name)
      (hinner : skipJsonBlanks (name ++ ':' :: rest) = '"' :: inner) :
      ∃ behind, Quoted.read inner = (key, behind) ∧ skipJsonBlanks behind = ':' :: rest := by
    obtain ⟨before, body, behind, blank, spelled, blank', rfl, rfl⟩ := named
    have hquote := skipJsonBlanks_cons (c := '"') blank (by decide)
      (body ++ '"' :: (behind ++ ':' :: rest))
    simp only [List.append_assoc, List.cons_append, hquote, List.cons.injEq, true_and] at hinner
    subst hinner
    exact ⟨_, Quoted.read_body spelled _, skipJsonBlanks_cons blank' (by decide) rest⟩
  intro members text inner rest spelled hfuel hinner
  cases spelled with
  | @last key value name text named filled =>
    rw [List.append_assoc, List.cons_append] at hinner
    simp only [List.length_append, List.length_cons] at hfuel
    obtain ⟨colon, hname, hcolon⟩ := hkey named hinner
    obtain ⟨behind, blank, hread, -⟩ :=
      hvalues.fills filled ('\x7d' :: rest) (endsNumber_cons (by simp)) (by omega)
    rw [readMembers, hname]
    simp only [hcolon, hread, Behind.of_close (.inr rfl) blank]
  | @next key value others name text more named filled tail =>
    rw [List.append_assoc, List.cons_append, List.append_assoc, List.cons_append] at hinner
    simp only [List.length_append, List.length_cons] at hfuel
    obtain ⟨colon, hname, hcolon⟩ := hkey named hinner
    obtain ⟨behind, blank, hread, -⟩ := hvalues.fills filled
      (',' :: (more ++ '\x7d' :: rest)) (endsNumber_cons (by simp)) (by omega)
    obtain ⟨first, hnext⟩ := tail.exists_cons ('\x7d' :: rest)
    have hothers := hmembers rest tail (by omega) hnext
    rw [readMembers, hname]
    simp only [hcolon, hread, Behind.of_comma (.inr rfl) blank hnext (by decide),
      hothers]

private theorem reads_all (fuel : Nat) :
    ReadsValues fuel ∧ ReadsItems fuel ∧ ReadsMembers fuel := by
  induction fuel with
  | zero =>
    refine ⟨fun _ _ _ spelled _ hfuel => ?_, fun _ _ hfuel => ?_, fun _ _ hfuel => ?_⟩
    · obtain ⟨c, tail, rfl, -⟩ := spelled.exists_cons
      simp at hfuel
    · omega
    · omega
  | succ fuel ih =>
    obtain ⟨hvalues, hitems, hmembers⟩ := ih
    exact ⟨readValue_step hitems hmembers, readItems_step hvalues hitems,
      readMembers_step hvalues hmembers⟩

/-- A text that spells a tree is read as this tree, and nothing but blanks is left of it. -/
theorem Fills.read_eq {t : Tree} (h : t.Fills text) :
    ∃ behind, IsJsonBlanks behind ∧ read text = (t, behind) := by
  have hvalues : ReadsValues (2 * text.length + 2) := (reads_all _).1
  obtain ⟨behind, blank, hread, -⟩ :=
    hvalues.fills h [] (by simp [EndsNumber]) (by omega)
  rw [List.append_nil, List.append_nil] at hread
  exact ⟨behind, blank, hread⟩

end Tree
end SyntaxPaint
