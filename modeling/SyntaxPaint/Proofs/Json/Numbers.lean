import SyntaxPaint.Json.Numeral
import SyntaxPaint.Proofs.Json.Grammar
import SyntaxPaint.Proofs.Paint.Screen
import SyntaxPaint.Proofs.Theme.FirstFault
import SyntaxPaint.Proofs.Token.Scanners
/-!
# Numbers of JSON

A number of the grammar is read whole where nothing behind it could belong to it, and nothing else
is read as a number. A natural number that fits a word is read back from its decimal digits.
-/
namespace SyntaxPaint

/-- No number goes on with this text. -/
def EndsNumber (text : List Char) : Prop :=
  ∀ c ∈ text.head?, isAsciiDigit c = false ∧ c ≠ '.' ∧ c ≠ 'e' ∧ c ≠ 'E'

namespace Numeral

variable {digits text rest point power : List Char} {fraction : Option (List Char)}
  {exponent : Option (Bool × List Char)} {negative : Bool} {n : Numeral}

/-! ## Parts of a number -/

private theorem takeWhile_digits (h : IsDigits digits)
    (stop : ∀ c ∈ rest.head?, isAsciiDigit c = false) :
    (digits ++ rest).takeWhile isAsciiDigit = digits := takeWhile_append_of_stop h.2 stop

private theorem isDigits_of_takeWhile (h : text.takeWhile isAsciiDigit = digits)
    (hne : digits ≠ []) : IsDigits digits ∧ text = digits ++ text.drop digits.length := by
  subst h
  exact ⟨⟨hne, fun c hc => List.mem_takeWhile_imp hc⟩,
    (List.prefix_iff_eq_append.mp (List.takeWhile_prefix _)).symm⟩

private theorem readWhole_append (h : IsWhole digits)
    (stop : ∀ c ∈ rest.head?, isAsciiDigit c = false) :
    readWhole (digits ++ rest) = .ok (digits, rest) := by
  rw [readWhole, takeWhile_digits h.1 stop]
  split
  · exact absurd rfl h.1.1
  · have hzero := h.2 rfl
    simp at hzero
  · simp

private theorem whole_of_readWhole (h : readWhole text = .ok (digits, rest)) :
    IsWhole digits ∧ text = digits ++ rest := by
  rw [readWhole] at h
  split at h
  · cases h
  · cases h
  · next hne hzero =>
    simp only [Except.ok.injEq, Prod.mk.injEq] at h
    obtain ⟨rfl, rfl⟩ := h
    obtain ⟨hdigits, htext⟩ := isDigits_of_takeWhile rfl hne
    refine ⟨⟨hdigits, fun hfirst => ?_⟩, htext⟩
    rcases hcases : text.takeWhile isAsciiDigit with _ | ⟨d, _ | ⟨e, ds⟩⟩
    · exact absurd hcases hne
    · rw [hcases] at hfirst
      rw [Option.some.inj hfirst]
    · rw [hcases] at hfirst
      exact absurd (Option.some.inj hfirst ▸ hcases) (hzero e ds)

private theorem readFraction_append (h : FractionSpells fraction point)
    (stop : ∀ c ∈ rest.head?, isAsciiDigit c = false ∧ c ≠ '.') :
    readFraction (point ++ rest) = .ok (fraction, rest) := by
  cases h with
  | none =>
    rw [List.nil_append, readFraction.eq_def]
    split
    · exact absurd rfl (stop '.' rfl).2
    · rfl
  | some spelled =>
    rw [List.cons_append, readFraction,
      takeWhile_digits spelled fun c hc => (stop c hc).1]
    split
    · exact absurd rfl spelled.1
    · simp

private theorem fraction_of_readFraction (h : readFraction text = .ok (fraction, rest)) :
    ∃ point, FractionSpells fraction point ∧ text = point ++ rest := by
  rw [readFraction.eq_def] at h
  split at h
  · split at h
    · cases h
    · next hne =>
      simp only [Except.ok.injEq, Prod.mk.injEq] at h
      obtain ⟨rfl, rfl⟩ := h
      obtain ⟨hdigits, htext⟩ := isDigits_of_takeWhile rfl hne
      exact ⟨_, .some hdigits, congrArg ('.' :: ·) htext⟩
  · simp only [Except.ok.injEq, Prod.mk.injEq] at h
    obtain ⟨rfl, rfl⟩ := h
    exact ⟨[], .none, rfl⟩

private theorem readExponent_append (h : ExponentSpells exponent power) (stop : EndsNumber rest) :
    readExponent (power ++ rest) = .ok (exponent, rest) := by
  cases h with
  | none =>
    cases rest with
    | nil => rfl
    | cons c rest =>
      obtain ⟨-, -, he, hE⟩ := stop c rfl
      simp [readExponent, he, hE]
  | @some mark down sign digits marked signed spelled =>
    have hstop : ∀ c ∈ rest.head?, isAsciiDigit c = false := fun c hc => (stop c hc).1
    obtain ⟨d, ds, rfl⟩ := List.exists_cons_of_ne_nil spelled.1
    have hd : isAsciiDigit d = true := spelled.2 d List.mem_cons_self
    have hminus : d ≠ '-' := by
      rintro rfl
      exact absurd hd (by decide)
    have hplus : d ≠ '+' := by
      rintro rfl
      exact absurd hd (by decide)
    have hdigits := takeWhile_digits spelled hstop
    rw [List.cons_append] at hdigits
    simp only [List.mem_cons, Prod.mk.injEq, List.not_mem_nil, or_false] at signed
    rcases signed with ⟨rfl, rfl⟩ | ⟨rfl, rfl⟩ | ⟨rfl, rfl⟩ <;>
      simp [readExponent, marked, hdigits, hminus, hplus]

private theorem exponent_of_takeWhile {mark : Char} {down : Bool} (sign : List Char)
    (marked : mark = 'e' ∨ mark = 'E')
    (signed : (down, sign) ∈ [(true, ['-']), (false, []), (false, ['+'])])
    (found : text.takeWhile isAsciiDigit = digits) (hne : digits ≠ [])
    (h : (some (down, digits), text.drop digits.length) = (exponent, rest)) :
    ∃ power, ExponentSpells exponent power ∧ mark :: (sign ++ text) = power ++ rest := by
  obtain ⟨rfl, rfl⟩ := Prod.mk.inj h
  obtain ⟨hdigits, htext⟩ := isDigits_of_takeWhile found hne
  refine ⟨_, .some marked signed hdigits, ?_⟩
  rw [List.cons_append, List.cons_append, List.append_assoc, ← htext]

private theorem exponent_of_readExponent (h : readExponent text = .ok (exponent, rest)) :
    ∃ power, ExponentSpells exponent power ∧ text = power ++ rest := by
  rw [readExponent.eq_def] at h
  split at h
  · simp only [Except.ok.injEq, Prod.mk.injEq] at h
    obtain ⟨rfl, rfl⟩ := h
    exact ⟨[], .none, rfl⟩
  · next mark tail =>
    split_ifs at h with hmark
    · dsimp only at h
      split at h
      · cases h
      · next hne =>
        -- The digits stand behind a sign or begin at once.
        replace h := Except.ok.inj h
        revert hne h
        split
        · exact exponent_of_takeWhile ['-'] hmark (by simp) rfl
        · exact exponent_of_takeWhile ['+'] hmark (by simp) rfl
        · exact exponent_of_takeWhile [] hmark (by simp) rfl
    · simp only [Except.ok.injEq, Prod.mk.injEq] at h
      obtain ⟨rfl, rfl⟩ := h
      exact ⟨[], .none, rfl⟩

/-! ## Numbers -/

theorem read_append (h : n.Digits digits) (stop : EndsNumber rest) :
    read n.negative (digits ++ rest) = .ok (n, rest) := by
  obtain ⟨negative, whole, fraction, exponent⟩ := n
  obtain ⟨hwhole, point, power, hpoint, hpower, rfl⟩ := h
  dsimp only at hwhole hpoint hpower
  have hbehind : ∀ c ∈ (power ++ rest).head?, isAsciiDigit c = false ∧ c ≠ '.' := by
    cases hpower with
    | none => exact fun c hc => ⟨(stop c hc).1, (stop c hc).2.1⟩
    | some marked signed spelled =>
      rcases marked with rfl | rfl <;> simp [isAsciiDigit]
  have hfront : ∀ c ∈ (point ++ (power ++ rest)).head?, isAsciiDigit c = false := by
    cases hpoint with
    | none => exact fun c hc => (hbehind c hc).1
    | some spelled => simp [isAsciiDigit]
  rw [read, List.append_assoc, List.append_assoc, readWhole_append hwhole hfront]
  simp only [bind, Except.bind, readFraction_append hpoint hbehind, readExponent_append hpower stop]
  rfl

theorem digits_of_read (h : read negative text = .ok (n, rest)) :
    n.negative = negative ∧ ∃ digits, n.Digits digits ∧ text = digits ++ rest := by
  obtain ⟨⟨whole, tail⟩, hwhole, h⟩ := bind_eq_ok_iff.mp h
  obtain ⟨⟨fraction, tail'⟩, hfraction, h⟩ := bind_eq_ok_iff.mp h
  obtain ⟨⟨exponent, tail''⟩, hexponent, h⟩ := bind_eq_ok_iff.mp h
  obtain ⟨rfl, rfl⟩ := Prod.mk.inj (Except.ok.inj h)
  obtain ⟨hdigits, rfl⟩ := whole_of_readWhole hwhole
  obtain ⟨point, hpoint, rfl⟩ := fraction_of_readFraction hfraction
  obtain ⟨power, hpower, rfl⟩ := exponent_of_readExponent hexponent
  exact ⟨rfl, whole ++ point ++ power, ⟨hdigits, point, power, hpoint, hpower, rfl⟩, by simp⟩

/-! ## Natural numbers -/

/-- The number that is written in decimal digits. -/
def ofNat (n : Nat) : Numeral := ⟨false, decimal n, none, none⟩

private theorem toDigits_of_head? {n : Nat} (h : (Nat.toDigits 10 n).head? = some '0') :
    Nat.toDigits 10 n = ['0'] := by
  induction n using Nat.strong_induction_on with
  | _ n ih =>
    rcases Nat.lt_or_ge n 10 with hn | hn
    · rw [Nat.toDigits_of_lt_base hn] at h ⊢
      rw [Option.some.inj h]
    · have hfront : (Nat.toDigits 10 (n / 10)).head? = some '0' := by
        rw [Nat.toDigits_of_base_le (by decide) hn,
          List.head?_append_of_ne_nil _ Nat.toDigits_ne_nil] at h
        exact h
      have hvalue := @Nat.ofDigitChars_ten_toDigits (n / 10)
      rw [ih (n / 10) (by omega) hfront] at hvalue
      have hzero : 0 = n / 10 := hvalue
      omega

private theorem isWhole_decimal (n : Nat) : IsWhole (decimal n) := by
  rw [decimal_eq]
  refine ⟨⟨Nat.toDigits_ne_nil, fun c hc => ?_⟩, toDigits_of_head?⟩
  exact Nat.isDigit_of_mem_toDigits (by decide) (by decide) hc

theorem spells_ofNat (n : Nat) : (ofNat n).Spells (decimal n) :=
  ⟨decimal n, ⟨isWhole_decimal n, [], [], .none, .none, by simp [ofNat]⟩, rfl⟩

theorem value?_ofNat {n : Nat} (h : n < UInt64.size) : (ofNat n).value? = some (.integer n) := by
  have hspelled : spelled (decimal n) = n := by
    rw [decimal_eq]
    exact Nat.ofDigitChars_ten_toDigits
  simp [value?, ofNat, hspelled, h]

end Numeral
end SyntaxPaint
