import SyntaxPaint.Proofs.Text.Classes
import SyntaxPaint.Proofs.Token.Lexemes
import SyntaxPaint.Proofs.Token.Spelling
/-!
# Scanners and spellings

For each scanner there are two kinds of lemmas: on a text that begins as its kind is spelled it
takes just that, and every text begins so.
-/
namespace SyntaxPaint

section Runs

variable {p : Char → Bool} {tail rest : List Char}

theorem takeWhile_append_of_stop (inside : ∀ c ∈ tail, p c = true)
    (stop : ∀ d ∈ rest.head?, p d = false) : (tail ++ rest).takeWhile p = tail := by
  rw [List.takeWhile_append_of_pos inside]
  cases rest with
  | nil => simp
  | cons d rest => rw [List.takeWhile_cons_of_neg (by simp [stop d rfl]), List.append_nil]

theorem dropWhile_append_of_stop (inside : ∀ c ∈ tail, p c = true)
    (stop : ∀ d ∈ rest.head?, p d = false) : (tail ++ rest).dropWhile p = rest := by
  rw [List.dropWhile_append_of_pos inside]
  cases rest with
  | nil => rfl
  | cons d rest => rw [List.dropWhile_cons_of_neg (by simp [stop d rfl])]

theorem exists_run (p : Char → Bool) (cs : List Char) :
    ∃ tail rest, cs = tail ++ rest ∧ (∀ c ∈ tail, p c = true) ∧ ∀ d ∈ rest.head?, p d = false := by
  induction cs with
  | nil => exact ⟨[], [], rfl, by simp, by simp⟩
  | cons c cs ih =>
    by_cases hc : p c = true
    · rcases ih with ⟨tail, rest, rfl, inside, stop⟩
      exact ⟨c :: tail, rest, rfl, by simpa [hc] using inside, stop⟩
    · exact ⟨[], c :: cs, rfl, by simp, by simpa using hc⟩

end Runs

section Numbers

variable {whole part rest : List Char}

theorem numberTail_integer (digit : ∀ c ∈ whole, isDigit c = true)
    (stop : ∀ d ∈ rest.head?, isDigit d = false ∧ d ≠ '.') :
    numberTail (whole ++ rest) = whole := by
  have hstop : ∀ d ∈ rest.head?, isDigit d = false := fun d hd => (stop d hd).1
  rw [numberTail, takeWhile_append_of_stop digit hstop, dropWhile_append_of_stop digit hstop]
  cases rest with
  | nil => simp
  | cons d rest =>
    have hpoint : d ≠ '.' := (stop d rfl).2
    split
    · rename_i heq
      exact absurd (List.cons.inj heq).1 hpoint
    · exact List.append_nil whole

theorem numberTail_fraction (digit : ∀ c ∈ whole, isDigit c = true)
    (behind : ∀ c ∈ part, isDigit c = true) (stop : ∀ d ∈ rest.head?, isDigit d = false) :
    numberTail (whole ++ '.' :: part ++ rest) = whole ++ '.' :: part := by
  have hpoint : ∀ d ∈ ('.' :: (part ++ rest)).head?, isDigit d = false := by
    intro d hd
    obtain rfl : '.' = d := Option.some.inj hd
    exact (not_class_of_sign (by simp)).2.2
  rw [List.append_assoc, List.cons_append, numberTail, takeWhile_append_of_stop digit hpoint,
    dropWhile_append_of_stop digit hpoint]
  simp only [takeWhile_append_of_stop behind stop]

end Numbers

section Quoted

variable {body rest : List Char}

private theorem quotedTail_cons {c : Char} {cs : List Char} (quote : c ≠ '"')
    (backslash : c ≠ '\\') : quotedTail (c :: cs) = c :: quotedTail cs := by
  rw [quotedTail.eq_def]
  split <;> simp_all

private theorem closesQuoted_cons {c : Char} {cs : List Char} (quote : c ≠ '"')
    (backslash : c ≠ '\\') : closesQuoted (c :: cs) = closesQuoted cs := by
  rw [closesQuoted.eq_def]
  split <;> simp_all

theorem quotedTail_closed (inside : QuotedBody body) :
    quotedTail (body ++ '"' :: rest) = body ++ ['"'] := by
  induction inside with
  | nil => rfl
  | plain quote backslash _ ih =>
    rw [List.cons_append, quotedTail_cons quote backslash, ih, List.cons_append]
  | escaped c _ ih =>
    rw [List.cons_append, List.cons_append, quotedTail, ih, List.cons_append, List.cons_append]

theorem quotedTail_open (inside : QuotedBody body) : quotedTail body = body := by
  induction inside with
  | nil => rfl
  | plain quote backslash _ ih => rw [quotedTail_cons quote backslash, ih]
  | escaped c _ ih => rw [quotedTail, ih]

theorem quotedTail_broken (inside : QuotedBody body) :
    quotedTail (body ++ ['\\']) = body ++ ['\\'] := by
  induction inside with
  | nil => rfl
  | plain quote backslash _ ih =>
    rw [List.cons_append, quotedTail_cons quote backslash, ih]
  | escaped c _ ih => rw [List.cons_append, List.cons_append, quotedTail, ih]

/-- Every text begins with a closed body, or is one that the end of the text cut short. -/
theorem exists_quotedBody (cs : List Char) : ∃ body, QuotedBody body ∧
    ((∃ rest, cs = body ++ '"' :: rest) ∨ cs = body ∨ cs = body ++ ['\\']) := by
  fun_induction quotedTail cs with
  | case1 => exact ⟨[], .nil, .inr (.inl rfl)⟩
  | case2 rest => exact ⟨[], .nil, .inl ⟨rest, rfl⟩⟩
  | case3 c cs ih =>
    rcases ih with ⟨body, inside, hcs⟩
    refine ⟨'\\' :: c :: body, .escaped c inside, ?_⟩
    simpa using hcs
  | case4 c cs quote escape ih =>
    by_cases backslash : c = '\\'
    · subst backslash
      obtain rfl : cs = [] := by
        cases cs with
        | nil => rfl
        | cons d cs => exact absurd rfl (escape d cs rfl)
      exact ⟨[], .nil, .inr (.inr rfl)⟩
    · rcases ih with ⟨body, inside, hcs⟩
      refine ⟨c :: body, .plain quote backslash inside, ?_⟩
      simpa using hcs

theorem closesQuoted_closed (inside : QuotedBody body) :
    closesQuoted (body ++ '"' :: rest) = true := by
  induction inside with
  | nil => rfl
  | plain quote backslash _ ih =>
    rwa [List.cons_append, closesQuoted_cons quote backslash]
  | escaped c _ ih =>
    rwa [List.cons_append, List.cons_append, closesQuoted]

theorem closesQuoted_open (inside : QuotedBody body) : closesQuoted body = false := by
  induction inside with
  | nil => rfl
  | plain quote backslash _ ih => rwa [closesQuoted_cons quote backslash]
  | escaped c _ ih => rwa [closesQuoted]

theorem closesQuoted_broken (inside : QuotedBody body) :
    closesQuoted (body ++ ['\\']) = false := by
  induction inside with
  | nil => rfl
  | plain quote backslash _ ih =>
    rwa [List.cons_append, closesQuoted_cons quote backslash]
  | escaped c _ ih =>
    rwa [List.cons_append, List.cons_append, closesQuoted]

end Quoted

section Blocks

variable {body rest : List Char}

private theorem blockTail_cons {c : Char} {cs : List Char} (h : ¬ ['*', '/'] <+: c :: cs) :
    blockTail (c :: cs) = c :: blockTail cs := by
  rw [blockTail.eq_def]
  split
  · rename_i heq
    cases heq
  · rename_i cs' heq
    rw [heq] at h
    exact absurd (List.prefix_append ['*', '/'] cs') h
  · rename_i heq
    rcases List.cons.inj heq with ⟨rfl, rfl⟩
    rfl

/-- Where the first closing stands behind some characters, none begins at the first of them. -/
private theorem not_front_of_first {c : Char}
    (first : ¬ ['*', '/'] <:+: (c :: body) ++ ['*']) :
    ¬ ['*', '/'] <+: c :: (body ++ '*' :: '/' :: rest) := by
  intro hfront
  have hlong : ['*', '/'] <+: (c :: body ++ ['*']) ++ '/' :: rest := by simpa using hfront
  have hshort : ['*', '/'] <+: c :: body ++ ['*'] :=
    List.prefix_of_prefix_length_le hlong (List.prefix_append _ _) (by simp)
  exact first hshort.isInfix

private theorem first_tail {c : Char} (first : ¬ ['*', '/'] <:+: (c :: body) ++ ['*']) :
    ¬ ['*', '/'] <:+: body ++ ['*'] := by
  intro hinside
  exact first (hinside.trans (List.suffix_cons c (body ++ ['*'])).isInfix)

theorem blockTail_closed (first : ¬ ['*', '/'] <:+: body ++ ['*']) :
    blockTail (body ++ '*' :: '/' :: rest) = body ++ ['*', '/'] := by
  induction body with
  | nil => rfl
  | cons c body ih =>
    rw [List.cons_append, blockTail_cons (not_front_of_first first), ih (first_tail first),
      List.cons_append]

theorem blockTail_open (never : ¬ ['*', '/'] <:+: body) : blockTail body = body := by
  induction body with
  | nil => rfl
  | cons c body ih =>
    rw [List.infix_cons_iff, not_or] at never
    rw [blockTail_cons never.1, ih never.2]

theorem exists_blockBody (cs : List Char) :
    (∃ body rest, cs = body ++ '*' :: '/' :: rest ∧ ¬ ['*', '/'] <:+: body ++ ['*']) ∨
      ¬ ['*', '/'] <:+: cs := by
  induction cs with
  | nil => exact .inr (by simp)
  | cons c cs ih =>
    by_cases here : ['*', '/'] <+: c :: cs
    · rcases here with ⟨rest, hrest⟩
      refine .inl ⟨[], rest, by simpa using hrest.symm, ?_⟩
      intro hinside
      simpa using hinside.length_le
    · rcases ih with ⟨body, rest, rfl, first⟩ | never
      · refine .inl ⟨c :: body, rest, rfl, ?_⟩
        rw [List.cons_append, List.infix_cons_iff, not_or]
        refine ⟨fun hfront => here ?_, first⟩
        have hwhole : c :: (body ++ '*' :: '/' :: rest) =
            (c :: (body ++ ['*'])) ++ '/' :: rest := by
          simp
        rw [hwhole]
        exact hfront.trans (List.prefix_append _ _)
      · refine .inr ?_
        rw [List.infix_cons_iff, not_or]
        exact ⟨here, never⟩

theorem closesBlock_iff (cs : List Char) : closesBlock cs = true ↔ ['*', '/'] <:+: cs := by
  fun_induction closesBlock cs with
  | case1 => simp
  | case2 rest => simpa using (List.prefix_append ['*', '/'] rest).isInfix
  | case3 c cs here ih =>
    have hfront : ¬ ['*', '/'] <+: c :: cs := by
      intro hfront
      rcases hfront with ⟨rest, hrest⟩
      rcases List.cons.inj hrest with ⟨rfl, rfl⟩
      exact here rest rfl rfl
    rw [ih, List.infix_cons_iff]
    exact (or_iff_right hfront).symm

end Blocks

end SyntaxPaint
