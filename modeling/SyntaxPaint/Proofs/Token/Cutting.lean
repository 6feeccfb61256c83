import Mathlib.Tactic.ByContra
import SyntaxPaint.Proofs.Token.Scanners
import SyntaxPaint.Proofs.Token.Start
/-!
# Cutting off the first lexeme

Where a text begins with a lexeme that is spelled as its kind demands and that does not absorb what
follows, this lexeme is cut off (`Lexeme.cutsOff_of_spelling`). Every text begins so, and the
scanners give one answer, hence nothing else is cut off (`Lexeme.cutsOff_iff`).
-/
namespace SyntaxPaint

/-! ## What a lexeme absorbs -/

section Absorbs

variable {body text whole part : List Char} {d : Char}

private theorem absorbs_integer (digit : ∀ c ∈ text, isDigit c = true) :
    (⟨.number, text⟩ : Lexeme).absorbs d = (isDigit d || d == '.') := by
  have hpoint : '.' ∉ text := by
    intro hmem
    exact absurd (digit '.' hmem) (by decide)
  simp [Lexeme.absorbs, hpoint]

private theorem absorbs_fraction :
    (⟨.number, whole ++ '.' :: part⟩ : Lexeme).absorbs d = isDigit d := by
  simp [Lexeme.absorbs]

private theorem absorbs_closedString (inside : QuotedBody body) :
    (⟨.string, '"' :: (body ++ ['"'])⟩ : Lexeme).absorbs d = false := by
  simp [Lexeme.absorbs, Lexeme.isOpen, closesQuoted_closed inside]

theorem absorbs_openString (inside : QuotedBody body) :
    (⟨.string, '"' :: body⟩ : Lexeme).absorbs d = true := by
  simp [Lexeme.absorbs, Lexeme.isOpen, closesQuoted_open inside]

theorem absorbs_brokenString (inside : QuotedBody body) :
    (⟨.string, '"' :: (body ++ ['\\'])⟩ : Lexeme).absorbs d = true := by
  simp [Lexeme.absorbs, Lexeme.isOpen, closesQuoted_broken inside]

theorem absorbs_closedComment :
    (⟨.comment, '/' :: '*' :: (body ++ ['*', '/'])⟩ : Lexeme).absorbs d = false := by
  have hcloses : closesBlock (body ++ ['*', '/']) = true :=
    (closesBlock_iff _).mpr (List.suffix_append body ['*', '/']).isInfix
  simp [Lexeme.absorbs, Lexeme.isOpen, hcloses]

theorem absorbs_openComment (never : ¬ ['*', '/'] <:+: body) :
    (⟨.comment, '/' :: '*' :: body⟩ : Lexeme).absorbs d = true := by
  have hcloses : closesBlock body = false := by
    rw [Bool.eq_false_iff, ne_eq, closesBlock_iff]
    exact never
  simp [Lexeme.absorbs, Lexeme.isOpen, hcloses]

theorem eq_nil_of_absorbs {l : Lexeme} {rest : List Char} (all : ∀ d, l.absorbs d = true)
    (stop : ∀ d ∈ rest.head?, l.absorbs d = false) : rest = [] := by
  cases rest with
  | nil => rfl
  | cons d rest =>
    have hstop := stop d rfl
    rw [all d] at hstop
    cases hstop

end Absorbs

/-! ## Cutting -/

/-- In front of the rest the lexeme is what is cut off. -/
def Lexeme.CutsOff (l : Lexeme) (rest : List Char) : Prop :=
  ∃ c tail, l.text = c :: tail ∧ lexemeTail c (tail ++ rest) = (l.kind, tail)

section Cutting

theorem letters_of_keyword {text : List Char} (word : String.ofList text ∈ keywords) :
    text ≠ [] ∧ ∀ c ∈ text, isLetter c = true := by
  have hall : keywords.all
      (fun word => !word.toList.isEmpty && word.toList.all isLetter) = true := by
    decide +kernel
  simpa using List.all_eq_true.mp hall _ word

private theorem signs_of_compound {text : List Char}
    (listed : String.ofList text ∈ compoundOperators) :
    ∃ c d, text = [c, d] ∧ c ∈ operatorChars ∧ d ≠ '/' ∧ d ≠ '*' := by
  have hall : compoundOperators.all (fun sign => operatorChars.any fun c =>
      operatorChars.any fun d => sign.toList == [c, d] && (d != '/' && d != '*')) = true := by
    decide +kernel
  have hsigns := List.all_eq_true.mp hall _ listed
  simp only [String.toList_ofList, List.any_eq_true, Bool.and_eq_true, beq_iff_eq,
    bne_iff_ne] at hsigns
  rcases hsigns with ⟨c, hc, d, -, htext, hd⟩
  exact ⟨c, d, htext, hc, hd⟩

private theorem cutsOff_word {c : Char} {tail rest : List Char} {kind : Kind}
    (start : isIdentifierStart c = true) (inside : ∀ d ∈ tail, isIdentifierPart d = true)
    (stop : ∀ d ∈ rest.head?, isIdentifierPart d = false)
    (hkind : kind = if isKeyword (c :: tail) then .keyword else .identifier) :
    (⟨kind, c :: tail⟩ : Lexeme).CutsOff rest := by
  refine ⟨c, tail, rfl, ?_⟩
  rw [lexemeTail_start start, takeWhile_append_of_stop inside stop, hkind]

theorem Lexeme.cutsOff_of_spelling {l : Lexeme} {rest : List Char}
    (spelling : Spelling l.kind l.text) (stop : ∀ d ∈ rest.head?, l.absorbs d = false) :
    l.CutsOff rest := by
  rcases l with ⟨kind, text⟩
  cases spelling with
  | whitespace nonempty blank =>
    rcases List.exists_cons_of_ne_nil nonempty with ⟨c, tail, rfl⟩
    rcases List.forall_mem_cons.mp blank with ⟨hc, htail⟩
    refine ⟨c, tail, rfl, ?_⟩
    rw [lexemeTail_blank hc, takeWhile_append_of_stop htail stop]
  | keyword word =>
    rcases letters_of_keyword word with ⟨nonempty, letters⟩
    rcases List.exists_cons_of_ne_nil nonempty with ⟨c, tail, rfl⟩
    rcases List.forall_mem_cons.mp letters with ⟨hc, htail⟩
    have hword : isKeyword (c :: tail) = true := List.contains_iff_mem.mpr word
    refine cutsOff_word (by simp [isIdentifierStart, hc]) ?_ stop (by rw [if_pos hword])
    intro d hd
    simp [isIdentifierPart, htail d hd]
  | @identifier c tail start part free =>
    have hword : ¬ isKeyword (c :: tail) = true := by simpa [isKeyword] using free
    exact cutsOff_word start part stop (by rw [if_neg hword])
  | integer nonempty digit =>
    simp only [absorbs_integer digit, Bool.or_eq_false_iff, beq_eq_false_iff_ne] at stop
    rcases List.exists_cons_of_ne_nil nonempty with ⟨c, tail, rfl⟩
    rcases List.forall_mem_cons.mp digit with ⟨hc, htail⟩
    refine ⟨c, tail, rfl, ?_⟩
    rw [lexemeTail_digit hc, numberTail_integer htail stop]
  | @fraction whole part nonempty digit behind =>
    have hstop : ∀ d ∈ rest.head?, isDigit d = false := by
      intro d hd
      exact absorbs_fraction.symm.trans (stop d hd)
    rcases List.exists_cons_of_ne_nil nonempty with ⟨c, whole, rfl⟩
    rcases List.forall_mem_cons.mp digit with ⟨hc, hwhole⟩
    refine ⟨c, whole ++ '.' :: part, rfl, ?_⟩
    rw [lexemeTail_digit hc, numberTail_fraction hwhole behind hstop]
  | @closedString body inside =>
    refine ⟨'"', body ++ ['"'], rfl, ?_⟩
    rw [lexemeTail_quote, List.append_assoc]
    exact congrArg _ (quotedTail_closed inside)
  | @openString body inside =>
    obtain rfl := eq_nil_of_absorbs (fun _ => absorbs_openString inside) stop
    refine ⟨'"', body, rfl, ?_⟩
    rw [lexemeTail_quote, List.append_nil, quotedTail_open inside]
  | @brokenString body inside =>
    obtain rfl := eq_nil_of_absorbs (fun _ => absorbs_brokenString inside) stop
    refine ⟨'"', body ++ ['\\'], rfl, ?_⟩
    rw [lexemeTail_quote, List.append_nil, quotedTail_broken inside]
  | @lineComment body line =>
    have inside : ∀ c ∈ body, (!isLineEnd c) = true := by
      intro c hc
      simp [isLineEnd, line c hc]
    refine ⟨'/', '/' :: body, rfl, ?_⟩
    rw [List.cons_append, lexemeTail_line, takeWhile_append_of_stop inside stop]
  | @closedComment body first =>
    refine ⟨'/', '*' :: (body ++ ['*', '/']), rfl, ?_⟩
    rw [List.cons_append, lexemeTail_block, List.append_assoc]
    exact congrArg (fun tail => (Kind.comment, '*' :: tail)) (blockTail_closed first)
  | @openComment body never =>
    obtain rfl := eq_nil_of_absorbs (fun _ => absorbs_openComment never) stop
    refine ⟨'/', '*' :: body, rfl, ?_⟩
    rw [List.append_nil, lexemeTail_block, blockTail_open never]
  | compound listed =>
    rcases signs_of_compound listed with ⟨c, d, rfl, hc, hline, hblock⟩
    have hcompound : isCompound c d = true := List.contains_iff_mem.mpr listed
    refine ⟨c, [d], rfl, ?_⟩
    rw [lexemeTail_sign hc ?plain, List.singleton_append, operatorTail, if_pos hcompound]
    case plain =>
      intro _ e he
      obtain rfl : d = e := Option.some.inj he
      exact ⟨hline, hblock⟩
  | @sign c listed =>
    have hstop : ∀ d ∈ rest.head?, isCompound c d = false ∧ (c = '/' → d ≠ '/' ∧ d ≠ '*') := by
      intro d hd
      simpa [Lexeme.absorbs] using stop d hd
    refine ⟨c, [], rfl, ?_⟩
    rw [List.nil_append, lexemeTail_sign listed fun hslash d hd => (hstop d hd).2 hslash]
    cases rest with
    | nil => rfl
    | cons d rest =>
      have hsingle := (hstop d rfl).1
      rw [operatorTail, if_neg (by simp [hsingle])]
  | @unknown c blank start digit quote sign =>
    exact ⟨c, [], rfl, lexemeTail_unknown blank start digit quote sign⟩

/-- A lexeme that begins the text: it is spelled right and absorbs nothing of what follows. -/
private def BeginsWith (text : List Char) (l : Lexeme) : Prop :=
  ∃ rest, text = l.text ++ rest ∧ Spelling l.kind l.text ∧ ∀ d ∈ rest.head?, l.absorbs d = false

private theorem exists_whitespace {c : Char} (cs : List Char) (h : isBlank c = true) :
    ∃ l, BeginsWith (c :: cs) l := by
  rcases exists_run isBlank cs with ⟨tail, rest, rfl, inside, stop⟩
  have hall : ∀ d ∈ c :: tail, isBlank d = true := List.forall_mem_cons.mpr ⟨h, inside⟩
  exact ⟨⟨.whitespace, c :: tail⟩, rest, rfl, .whitespace (List.cons_ne_nil c tail) hall, stop⟩

private theorem exists_word {c : Char} (cs : List Char) (h : isIdentifierStart c = true) :
    ∃ l, BeginsWith (c :: cs) l := by
  rcases exists_run isIdentifierPart cs with ⟨tail, rest, rfl, inside, stop⟩
  by_cases word : String.ofList (c :: tail) ∈ keywords
  · exact ⟨⟨.keyword, c :: tail⟩, rest, rfl, .keyword word, stop⟩
  · exact ⟨⟨.identifier, c :: tail⟩, rest, rfl, .identifier h inside word, stop⟩

private theorem exists_number {c : Char} (cs : List Char) (h : isDigit c = true) :
    ∃ l, BeginsWith (c :: cs) l := by
  rcases exists_run isDigit cs with ⟨tail, rest, rfl, inside, stop⟩
  have nonempty : c :: tail ≠ [] := List.cons_ne_nil c tail
  have hall : ∀ d ∈ c :: tail, isDigit d = true := List.forall_mem_cons.mpr ⟨h, inside⟩
  by_cases point : rest.head? = some '.'
  · rcases List.head?_eq_some_iff.mp point with ⟨rest, rfl⟩
    rcases exists_run isDigit rest with ⟨part, rest, rfl, behind, stop⟩
    refine ⟨⟨.number, c :: tail ++ '.' :: part⟩, rest, by simp, .fraction nonempty hall behind, ?_⟩
    intro d hd
    rw [absorbs_fraction, stop d hd]
  · refine ⟨⟨.number, c :: tail⟩, rest, rfl, .integer nonempty hall, ?_⟩
    intro d hd
    have hpoint : d ≠ '.' := by
      intro heq
      exact point (heq ▸ hd)
    simp [absorbs_integer hall, stop d hd, hpoint]

private theorem exists_string (cs : List Char) : ∃ l, BeginsWith ('"' :: cs) l := by
  rcases exists_quotedBody cs with ⟨body, inside, ⟨rest, rfl⟩ | rfl | rfl⟩
  · refine ⟨⟨.string, '"' :: (body ++ ['"'])⟩, rest, by simp, .closedString inside, ?_⟩
    intro d hd
    exact absorbs_closedString inside
  · exact ⟨⟨.string, '"' :: cs⟩, [], by simp, .openString inside, by simp⟩
  · exact ⟨⟨.string, '"' :: (body ++ ['\\'])⟩, [], by simp, .brokenString inside, by simp⟩

private theorem exists_lineComment (cs : List Char) : ∃ l, BeginsWith ('/' :: '/' :: cs) l := by
  rcases exists_run (!isLineEnd ·) cs with ⟨body, rest, rfl, inside, stop⟩
  have line : ∀ c ∈ body, c ≠ '\n' ∧ c ≠ '\r' := by
    intro c hc
    simpa [isLineEnd] using inside c hc
  exact ⟨⟨.comment, '/' :: '/' :: body⟩, rest, rfl, .lineComment line, stop⟩

private theorem exists_blockComment (cs : List Char) : ∃ l, BeginsWith ('/' :: '*' :: cs) l := by
  rcases exists_blockBody cs with ⟨body, rest, rfl, first⟩ | never
  · refine ⟨⟨.comment, '/' :: '*' :: (body ++ ['*', '/'])⟩, rest, by simp, .closedComment first, ?_⟩
    intro d hd
    exact absorbs_closedComment
  · exact ⟨⟨.comment, '/' :: '*' :: cs⟩, [], by simp, .openComment never, by simp⟩

private theorem exists_operator {c : Char} (cs : List Char) (h : c ∈ operatorChars)
    (plain : c = '/' → ∀ d ∈ cs.head?, d ≠ '/' ∧ d ≠ '*') : ∃ l, BeginsWith (c :: cs) l := by
  by_cases double : ∃ d ∈ cs.head?, isCompound c d = true
  · rcases double with ⟨d, hd, hcompound⟩
    rcases List.head?_eq_some_iff.mp hd with ⟨cs, rfl⟩
    have listed : String.ofList [c, d] ∈ compoundOperators := List.contains_iff_mem.mp hcompound
    exact ⟨⟨.operator, [c, d]⟩, cs, rfl, .compound listed, by simp [Lexeme.absorbs]⟩
  · refine ⟨⟨.operator, [c]⟩, cs, rfl, .sign h, ?_⟩
    intro d hd
    have hsingle : isCompound c d = false := by
      by_contra hcompound
      exact double ⟨d, hd, by simpa using hcompound⟩
    simpa [Lexeme.absorbs, hsingle] using fun hc => plain hc d hd

private theorem exists_beginsWith (c : Char) (cs : List Char) : ∃ l, BeginsWith (c :: cs) l := by
  by_cases hblank : isBlank c = true
  · exact exists_whitespace cs hblank
  by_cases hstart : isIdentifierStart c = true
  · exact exists_word cs hstart
  by_cases hdigit : isDigit c = true
  · exact exists_number cs hdigit
  by_cases hquote : c = '"'
  · rw [hquote]
    exact exists_string cs
  by_cases hsign : c ∈ operatorChars
  · by_cases hline : c = '/' ∧ cs.head? = some '/'
    · rcases hline with ⟨rfl, hhead⟩
      rcases List.head?_eq_some_iff.mp hhead with ⟨cs, rfl⟩
      exact exists_lineComment cs
    by_cases hblock : c = '/' ∧ cs.head? = some '*'
    · rcases hblock with ⟨rfl, hhead⟩
      rcases List.head?_eq_some_iff.mp hhead with ⟨cs, rfl⟩
      exact exists_blockComment cs
    apply exists_operator cs hsign
    intro hslash d hd
    refine ⟨fun heq => hline ⟨hslash, ?_⟩, fun heq => hblock ⟨hslash, ?_⟩⟩ <;> exact heq ▸ hd
  · simp only [Bool.not_eq_true] at hblank hstart hdigit
    exact ⟨⟨.unknown, [c]⟩, cs, rfl, .unknown hblank hstart hdigit hquote hsign,
      by simp [Lexeme.absorbs]⟩

/-- A lexeme is cut off exactly where it is spelled right and absorbs nothing of what follows. -/
theorem Lexeme.cutsOff_iff {l : Lexeme} {rest : List Char} :
    l.CutsOff rest ↔ Spelling l.kind l.text ∧ ∀ d ∈ rest.head?, l.absorbs d = false := by
  constructor
  · intro h
    rcases h with ⟨c, tail, htext, hcut⟩
    rcases exists_beginsWith c (tail ++ rest) with ⟨found, behind, hsplit, spelling, stop⟩
    rcases cutsOff_of_spelling spelling stop with ⟨c', tail', htext', hcut'⟩
    rw [htext', List.cons_append, List.cons.injEq] at hsplit
    rcases hsplit with ⟨rfl, hsplit⟩
    rw [← hsplit, hcut] at hcut'
    rcases Prod.mk.inj hcut' with ⟨hkind, rfl⟩
    obtain rfl : rest = behind := List.append_cancel_left hsplit
    obtain rfl : l = found := by
      rw [Lexeme.mk.injEq l.kind l.text found.kind found.text]
      exact ⟨hkind, htext.trans htext'.symm⟩
    exact ⟨spelling, stop⟩
  · intro h
    exact cutsOff_of_spelling h.1 h.2

end Cutting

end SyntaxPaint
