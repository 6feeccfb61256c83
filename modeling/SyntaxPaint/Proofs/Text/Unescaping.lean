import SyntaxPaint.Proofs.Color.Spelling
import SyntaxPaint.Text.Escape
/-!
# Escaped text read back

Behind a backslash stands a letter for one character, or the number of any character between braces.
Whatever is escaped, one character after the other is read back from it.
-/
namespace SyntaxPaint

/-! ## Numbers -/

/-- The number that hexadecimal digits of either case stand for. -/
def hexNumberValue (digits : List Char) : Nat := digits.foldl (fun n c => 16 * n + hexPlace c) 0

private theorem digitChar_spec {d : Nat} (h : d < 16) :
    d.digitChar ∈ hexAlphabet ∧ hexPlace d.digitChar = d := by
  have hall : ∀ d < 16, d.digitChar ∈ hexAlphabet ∧ hexPlace d.digitChar = d := by decide
  exact hall d h

theorem mem_hexAlphabet_of_mem_hexNumber {n : Nat} {c : Char} (h : c ∈ hexNumber n) :
    c ∈ hexAlphabet := by
  induction n using Nat.strong_induction_on with
  | _ n ih =>
    rcases Nat.lt_or_ge n 16 with hn | hn
    · rw [hexNumber, Nat.toDigits_of_lt_base hn, List.mem_singleton] at h
      exact h ▸ (digitChar_spec hn).1
    · rw [hexNumber, Nat.toDigits_of_base_le (by decide) hn, List.mem_append,
        List.mem_singleton] at h
      rcases h with h | rfl
      · exact ih (n / 16) (by omega) h
      · exact (digitChar_spec (Nat.mod_lt n (by decide))).1

theorem hexNumberValue_hexNumber (n : Nat) : hexNumberValue (hexNumber n) = n := by
  induction n using Nat.strong_induction_on with
  | _ n ih =>
    rcases Nat.lt_or_ge n 16 with hn | hn
    · simp [hexNumber, hexNumberValue, Nat.toDigits_of_lt_base hn, digitChar_spec hn]
    · have hdigits : hexNumber n = hexNumber (n / 16) ++ [(n % 16).digitChar] :=
        Nat.toDigits_of_base_le (by decide) hn
      have hfront := ih (n / 16) (by omega)
      have hlast := (digitChar_spec (Nat.mod_lt n (by decide : 0 < 16))).2
      simp only [hexNumberValue] at hfront
      simp only [hdigits, hexNumberValue, List.foldl_append, hfront, List.foldl_cons,
        List.foldl_nil, hlast]
      omega

/-! ## Escapes -/

/-- The characters that have a letter of their own behind the backslash. -/
def lettered : List (Char × Char) :=
  [('0', '\x00'), ('t', '\t'), ('r', '\r'), ('n', '\n'), ('\\', '\\'), ('"', '"'), ('\'', '\'')]

/-- The character that is meant behind a backslash, and the text behind its escape. -/
def readEscape : List Char → Option (Char × List Char)
  | 'u' :: '\x7b' :: text =>
    let digits := text.takeWhile (· ≠ '\x7d')
    some (Char.ofNat (hexNumberValue digits), text.drop (digits.length + 1))
  | letter :: text => (lettered.lookup letter).map (·, text)
  | [] => none

theorem length_of_readEscape {text rest : List Char} {c : Char}
    (h : readEscape text = some (c, rest)) : rest.length < text.length := by
  rw [readEscape.eq_def] at h
  split at h
  · rw [Option.some.injEq, Prod.mk.injEq] at h
    simp only [← h.2, List.length_drop, List.length_cons]
    omega
  · rw [Option.map_eq_some_iff] at h
    obtain ⟨_, -, h⟩ := h
    simp [← (Prod.mk.inj h).2]
  · cases h

/-- The text that is written with escapes; nothing if an escape says nothing. -/
def unescape : List Char → Option (List Char)
  | [] => some []
  | c :: text =>
    if c = '\\' then
      match _h : readEscape text with
      | some (meant, rest) => (unescape rest).map (meant :: ·)
      | none => none
    else (unescape text).map (c :: ·)
termination_by text => text.length
decreasing_by
  · have hrest := length_of_readEscape ‹_›
    simp only [List.length_cons]
    omega
  · simp

section Unescape

variable {c : Char} {text rest : List Char} {marks quotes : Bool}

theorem unescape_plain (h : c ≠ '\\') : unescape (c :: text) = (unescape text).map (c :: ·) := by
  rw [unescape, if_neg h]

theorem unescape_escape (h : readEscape text = some (c, rest)) :
    unescape ('\\' :: text) = (unescape rest).map (c :: ·) := by
  rw [unescape, if_pos rfl]
  split
  · next h' =>
    rw [h, Option.some.injEq, Prod.mk.injEq] at h'
    rw [h'.1, h'.2]
  · next h' => simp [h] at h'

theorem readEscape_number (n : Nat) :
    readEscape ('u' :: '\x7b' :: (hexNumber n ++ '\x7d' :: text)) = some (Char.ofNat n, text) := by
  have hdigits : ∀ d ∈ hexNumber n, decide (d ≠ '\x7d') = true := by
    intro d hd
    have hmem := mem_hexAlphabet_of_mem_hexNumber hd
    simp only [decide_eq_true_eq]
    rintro rfl
    exact absurd hmem (by decide)
  have hfront : (hexNumber n ++ '\x7d' :: text).takeWhile (· ≠ '\x7d') = hexNumber n := by
    rw [List.takeWhile_append_of_pos hdigits]
    simp
  have hbehind : (hexNumber n ++ '\x7d' :: text).drop ((hexNumber n).length + 1) = text := by
    rw [List.drop_append]
    simp
  rw [readEscape]
  simp only [hfront, hbehind, hexNumberValue_hexNumber]

theorem readEscape_letter {letter : Char} (h : (letter, c) ∈ lettered) :
    readEscape (letter :: text) = some (c, text) := by
  have hlisted : ∀ entry ∈ lettered, entry.1 ≠ 'u' ∧
      lettered.lookup entry.1 = some entry.2 := by decide
  obtain ⟨hu, hlookup⟩ := hlisted _ h
  rw [readEscape.eq_def]
  split
  · next heq => exact absurd (List.cons.inj heq).1 hu
  · next heq =>
    rw [List.cons.injEq] at heq
    rw [← heq.1, ← heq.2, hlookup]
    rfl
  · next heq => cases heq

theorem escapeChar_cases (marks quotes : Bool) (c : Char) :
    (∃ letter, (letter, c) ∈ lettered ∧ escapeChar marks quotes c = ['\\', letter]) ∨
    escapeChar marks quotes c = numericEscape c ∨
    c ≠ '\\' ∧ c ≠ '\n' ∧ escapeChar marks quotes c = [c] := by
  rw [escapeChar.eq_def]
  split
  case h_7 =>
    by_cases h : quotes = true
    · exact .inl ⟨'\'', by decide, if_pos h⟩
    · exact .inr (.inr ⟨by decide, by decide, if_neg h⟩)
  case h_8 =>
    split
    · exact .inr (.inl rfl)
    · exact .inr (.inr ⟨by assumption, by assumption, rfl⟩)
  all_goals exact .inl ⟨_, by decide, rfl⟩

theorem unescape_escapeChar (marks quotes : Bool) (c : Char) (text : List Char) :
    unescape (escapeChar marks quotes c ++ text) = (unescape text).map (c :: ·) := by
  obtain ⟨letter, hletter, h⟩ | h | ⟨hplain, -, h⟩ := escapeChar_cases marks quotes c
  · rw [h]
    exact unescape_escape (readEscape_letter hletter)
  · have hnumber : numericEscape c ++ text =
        '\\' :: 'u' :: '\x7b' :: (hexNumber c.toNat ++ '\x7d' :: text) := by
      simp [numericEscape]
    rw [h, hnumber, unescape_escape (readEscape_number c.toNat), Char.ofNat_toNat]
  · rw [h]
    exact unescape_plain hplain

theorem unescape_flatMap (marks quotes : Bool) (text : List Char) :
    unescape (text.flatMap (escapeChar marks quotes)) = some text := by
  induction text with
  | nil => simp [unescape]
  | cons c text ih => simp [unescape_escapeChar, ih]

/-- What is escaped is read back, whichever marks and quotes were escaped in it. -/
theorem unescape_escaped (text : List Char) : unescape (escaped text) = some text := by
  cases text with
  | nil => simp [escaped, unescape]
  | cons c text => simp [escaped, unescape_escapeChar, unescape_flatMap]

theorem newline_not_mem_escapeChar (marks quotes : Bool) (c : Char) :
    '\n' ∉ escapeChar marks quotes c := by
  obtain ⟨letter, hletter, h⟩ | h | ⟨-, hnewline, h⟩ := escapeChar_cases marks quotes c
  · have hlisted : ∀ entry ∈ lettered, entry.1 ≠ '\n' := by decide
    have hne := hlisted _ hletter
    simp [h, Ne.symm hne]
  · have hdigits : '\n' ∉ hexNumber c.toNat := fun hmem =>
      absurd (mem_hexAlphabet_of_mem_hexNumber hmem) (by decide)
    simp [h, numericEscape, hdigits]
  · simp [h, Ne.symm hnewline]

theorem newline_not_mem_escaped (text : List Char) : '\n' ∉ escaped text := by
  cases text with
  | nil => simp [escaped]
  | cons c text => simp [escaped, newline_not_mem_escapeChar]

end Unescape
end SyntaxPaint
