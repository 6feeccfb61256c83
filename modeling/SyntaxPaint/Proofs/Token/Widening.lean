import SyntaxPaint.Proofs.Token.Spacing
/-!
# More blanks between lexemes

Blanks written between two lexemes become a lexeme of their own, or a part of the blanks or of the
comment that they stand beside. None of this is seen by the grammar. Only an open quoted text at the
end of a text would take them in and be another lexeme for it.
-/
namespace SyntaxPaint

section

variable {l : Lexeme} {blanks rest : List Char}

private theorem filter_lexemes_run (blank : ∀ c ∈ blanks, isBlank c = true)
    (stop : ∀ d ∈ rest.head?, isBlank d = false) :
    (lexemes (blanks ++ rest)).filter Lexeme.isSolid = (lexemes rest).filter Lexeme.isSolid := by
  obtain rfl | nonempty := eq_or_ne blanks []
  · rfl
  · have hcut : (⟨.whitespace, blanks⟩ : Lexeme).CutsOff rest :=
      Lexeme.cutsOff_of_spelling (.whitespace nonempty blank) stop
    have hfirst := lexemes_of_cutsOff hcut
    rw [hfirst]
    exact List.filter_cons_of_neg Bool.false_ne_true

theorem filter_lexemes_blanks (blank : ∀ c ∈ blanks, isBlank c = true) (rest : List Char) :
    (lexemes (blanks ++ rest)).filter Lexeme.isSolid = (lexemes rest).filter Lexeme.isSolid := by
  obtain ⟨more, rest, rfl, hmore, stop⟩ := exists_run isBlank rest
  have hall : ∀ c ∈ blanks ++ more, isBlank c = true := List.forall_mem_append.mpr ⟨blank, hmore⟩
  rw [← List.append_assoc, filter_lexemes_run hall stop, filter_lexemes_run hmore stop]

/-- No closing of a block comment comes about by blanks. -/
private theorem not_closing_of_blanks {body : List Char} (never : ¬ ['*', '/'] <:+: body)
    (blank : ∀ c ∈ blanks, isBlank c = true) : ¬ ['*', '/'] <:+: body ++ blanks := by
  rintro ⟨before, after, hclosing⟩
  obtain ⟨more, hbody, -⟩ | ⟨more, hlonger, rfl⟩ := List.append_eq_append_iff.mp hclosing
  · exact never ⟨before, more, hbody.symm⟩
  · obtain rfl | ⟨front, c, rfl⟩ := List.eq_nil_or_concat more
    · rw [List.append_nil] at hlonger
      exact never ⟨before, [], by rw [List.append_nil, hlonger]⟩
    · have hlast := congrArg List.getLast? hlonger
      obtain rfl : '/' = c := by simpa using hlast
      exact absurd (blank '/' (by simp)) (by decide)

/-- A comment takes in some of the blanks behind it, and is a comment still. -/
private theorem exists_comment_cutsOff (hkind : l.kind = .comment) (cut : l.CutsOff rest)
    (blank : ∀ c ∈ blanks, isBlank c = true) :
    ∃ taken left, blanks = taken ++ left ∧
      (⟨.comment, l.text ++ taken⟩ : Lexeme).CutsOff (left ++ rest) := by
  obtain ⟨spelling, stop⟩ := Lexeme.cutsOff_iff.mp cut
  obtain ⟨kind, text⟩ := l
  subst hkind
  cases spelling with
  | @lineComment body line =>
    obtain ⟨taken, left, rfl, htaken, hleft⟩ := exists_run (!isLineEnd ·) blanks
    have hmore : ∀ c ∈ taken, c ≠ '\n' ∧ c ≠ '\r' := by
      intro c hc
      simpa [isLineEnd] using htaken c hc
    have hline := List.forall_mem_append.mpr ⟨line, hmore⟩
    refine ⟨taken, left, rfl, Lexeme.cutsOff_of_spelling (.lineComment hline) ?_⟩
    cases left with
    | nil => exact stop
    | cons d left => exact hleft
  | closedComment first =>
    refine ⟨[], blanks, rfl, ?_⟩
    rw [List.append_nil]
    exact Lexeme.cutsOff_of_spelling (.closedComment first) fun _ _ => absorbs_closedComment
  | @openComment body never =>
    obtain rfl := eq_nil_of_absorbs (fun _ => absorbs_openComment never) stop
    have hnever := not_closing_of_blanks never blank
    refine ⟨blanks, [], (List.append_nil _).symm, ?_⟩
    exact Lexeme.cutsOff_of_spelling (.openComment hnever) (by simp)

private theorem solid_cutsOff (solid : l.isSolid = true) (cut : l.CutsOff rest)
    (blank : ∀ c ∈ blanks, isBlank c = true)
    (closed : rest = [] → l.kind = .string → l.isOpen = false) : l.CutsOff (blanks ++ rest) := by
  obtain ⟨spelling, stop⟩ := Lexeme.cutsOff_iff.mp cut
  have hclosed : l.kind = .string → l.isOpen = false := by
    cases rest with
    | nil => exact closed rfl
    | cons d rest => exact Lexeme.isOpen_of_absorbs (stop d rfl)
  cases blanks with
  | nil => exact cut
  | cons b blanks =>
    apply Lexeme.cutsOff_of_spelling spelling
    intro d hd
    obtain rfl : b = d := Option.some.inj hd
    exact Lexeme.absorbs_blank solid hclosed (blank b List.mem_cons_self)

private theorem filter_lexemes_behind (cut : l.CutsOff rest)
    (blank : ∀ c ∈ blanks, isBlank c = true)
    (closed : rest = [] → l.kind = .string → l.isOpen = false) :
    (lexemes (l.text ++ (blanks ++ rest))).filter Lexeme.isSolid =
      (l :: lexemes rest).filter Lexeme.isSolid := by
  by_cases solid : l.isSolid = true
  · rw [lexemes_of_cutsOff (solid_cutsOff solid cut blank closed), List.filter_cons_of_pos solid,
      List.filter_cons_of_pos solid, filter_lexemes_blanks blank]
  · rw [List.filter_cons_of_neg solid]
    have htrivia : l.kind = .whitespace ∨ l.kind = .comment := by
      cases h : l.kind <;> simp_all [Lexeme.isSolid, Kind.isTrivia]
    -- Blanks join those in front of them, and a comment takes in what its line still holds.
    obtain hkind | hkind := htrivia
    · have htext : ∀ c ∈ l.text, isBlank c = true := by
        have spelling := (Lexeme.cutsOff_iff.mp cut).1
        rw [hkind] at spelling
        cases spelling with
        | whitespace nonempty blank => exact blank
      have hblank := List.forall_mem_append.mpr ⟨htext, blank⟩
      rw [← List.append_assoc, filter_lexemes_blanks hblank]
    · obtain ⟨taken, left, rfl, hcut⟩ := exists_comment_cutsOff hkind cut blank
      have hleft : ∀ c ∈ left, isBlank c = true := (List.forall_mem_append.mp blank).2
      have hfirst := lexemes_of_cutsOff hcut
      simp only [List.append_assoc] at hfirst ⊢
      rw [hfirst, List.filter_cons_of_neg Bool.false_ne_true, filter_lexemes_blanks hleft]

/-- Blanks between the lexemes of a text change nothing that is seen, unless an open quoted text at
its end takes them in. -/
theorem filter_lexemes_insert {text : List Char} {first later : List Lexeme}
    (split : lexemes text = first ++ later) (blank : ∀ c ∈ blanks, isBlank c = true)
    (closed : later = [] → ∀ l ∈ first.getLast?, l.kind = .string → l.isOpen = false) :
    (lexemes (first.flatMap Lexeme.text ++ (blanks ++ later.flatMap Lexeme.text))).filter
        Lexeme.isSolid =
      (lexemes text).filter Lexeme.isSolid := by
  obtain rfl | ⟨before, l, rfl⟩ := List.eq_nil_or_concat first
  · rw [List.flatMap_nil, List.nil_append, filter_lexemes_blanks blank, ← List.nil_append later,
      ← split, flatMap_lexemes]
  · have hsplit : lexemes text = before ++ l :: later := by simpa using split
    have hcut := cutsOff_of_lexemes_eq_append hsplit
    have hlater := lexemes_of_append split
    have hclosed : later.flatMap Lexeme.text = [] → l.kind = .string → l.isOpen = false := by
      intro hnone
      rw [hnone, lexemes] at hlater
      exact closed hlater.symm l (by simp)
    have hnonempty : l.text ≠ [] := text_ne_nil_of_mem_lexemes (by rw [hsplit]; simp)
    have hhead : ((l :: later).flatMap Lexeme.text).head? =
        (l.text ++ (blanks ++ later.flatMap Lexeme.text)).head? := by
      rw [List.flatMap_cons, List.head?_append_of_ne_nil _ hnonempty,
        List.head?_append_of_ne_nil _ hnonempty]
    rw [List.concat_eq_append, List.flatMap_append, List.flatMap_singleton, List.append_assoc,
      lexemes_append_of_head?_eq hsplit hhead, List.filter_append,
      filter_lexemes_behind hcut blank hclosed, hlater, hsplit, List.filter_append]

end

/-! ## Where tokens meet -/

section Borders

variable {source blanks : List Char} {k : Nat}

private theorem exists_lexemes_eq_append (border : k = 0 ∨ ∃ t ∈ tokenize source, t.stop = k) :
    ∃ first later, lexemes source = first ++ later ∧
      byteLength (first.flatMap Lexeme.text) = k := by
  obtain rfl | ⟨t, ht, rfl⟩ := border
  · exact ⟨[], lexemes source, rfl, rfl⟩
  · obtain ⟨before, after, hsplit, -, hstop⟩ := exists_of_mem_place .origin ht
    refine ⟨before ++ [t.lexeme], after, by simpa using hsplit, ?_⟩
    rw [List.flatMap_append, List.flatMap_singleton, Token.stop, hstop,
      Position.offset_after_origin]
    rfl

private theorem closed_of_last {l : Lexeme}
    (closed : ∀ t ∈ (tokenize source).getLast?, t.kind = .string → t.lexeme.isOpen = false)
    (last : l ∈ (lexemes source).getLast?) : l.kind = .string → l.isOpen = false := by
  rw [← map_lexeme_tokenize, List.getLast?_map] at last
  obtain ⟨t, ht, rfl⟩ := Option.map_eq_some_iff.mp last
  exact closed t ht

theorem map_lexeme_significant_widened (border : k = 0 ∨ ∃ t ∈ tokenize source, t.stop = k)
    (blank : ∀ c ∈ blanks, isBlank c = true)
    (closed : k = byteLength source → ∀ t ∈ (tokenize source).getLast?,
      t.kind = .string → t.lexeme.isOpen = false) :
    (significant (tokenize (takeBytes k source ++ (blanks ++ dropBytes k source)))).map
        Token.lexeme =
      (significant (tokenize source)).map Token.lexeme := by
  obtain ⟨first, later, hsplit, rfl⟩ := exists_lexemes_eq_append border
  have hsource : first.flatMap Lexeme.text ++ later.flatMap Lexeme.text = source := by
    rw [← List.flatMap_append, ← hsplit, flatMap_lexemes]
  have hfront := takeBytes_append (first.flatMap Lexeme.text) (later.flatMap Lexeme.text)
  have hback := dropBytes_append (first.flatMap Lexeme.text) (later.flatMap Lexeme.text)
  rw [hsource] at hfront hback
  rw [map_lexeme_significant_tokenize, map_lexeme_significant_tokenize, hfront, hback]
  apply filter_lexemes_insert hsplit blank
  rintro rfl l hl
  rw [List.flatMap_nil, List.append_nil] at hsource
  rw [List.append_nil] at hsplit
  rw [← hsplit] at hl
  exact closed_of_last (closed (congrArg byteLength hsource)) hl

example : (lexemes "\"a ".toList).filter Lexeme.isSolid = [⟨.string, "\"a ".toList⟩] := by
  decide +kernel

end Borders

end SyntaxPaint
