import SyntaxPaint.Proofs.Json.Whole
/-!
# Tokens of JSON

A text spells a tree when it consists of the tokens of the tree with blanks before, between and
behind them. So blanks may be put between tokens and taken away.
-/
namespace SyntaxPaint

/-- A text of these tokens, with any blanks around them. -/
inductive Spread : List (List Char) → List Char → Prop
  | nil {blanks : List Char} (blank : IsJsonBlanks blanks) : Spread [] blanks
  | cons {token blanks text : List Char} {tokens : List (List Char)} (blank : IsJsonBlanks blanks)
      (tail : Spread tokens text) : Spread (token :: tokens) (blanks ++ token ++ text)

def quotedToken (body : List Char) : List Char := '"' :: body ++ ['"']

mutual

/-- The tokens of a value: brackets, colons, commas, strings, numbers and words. -/
inductive Tree.Tokens : Tree → List (List Char) → Prop
  | word (w : Word) : Tree.Tokens (.word w) [w.text.toList]
  | number {n : Numeral} {text : List Char} (spelled : n.Spells text) :
      Tree.Tokens (.number n) [text]
  | string {body : List Char} (spelled : JsonBody body) :
      Tree.Tokens (.string (.ofBody body)) [quotedToken body]
  | emptyArray : Tree.Tokens (.array .closed) [['['], [']']]
  | array {items : Items} {tokens : List (List Char)} (inside : Items.Tokens items tokens) :
      Tree.Tokens (.array items) (['['] :: tokens ++ [[']']])
  | emptyObject : Tree.Tokens (.object .closed) [['\x7b'], ['\x7d']]
  | object {members : Members} {tokens : List (List Char)}
      (inside : Members.Tokens members tokens) :
      Tree.Tokens (.object members) (['\x7b'] :: tokens ++ [['\x7d']])

/-- The tokens of items, of which there is one at least. -/
inductive Items.Tokens : Items → List (List Char) → Prop
  | last {value : Tree} {tokens : List (List Char)} (item : Tree.Tokens value tokens) :
      Items.Tokens (.item value .closed) tokens
  | next {value : Tree} {rest : Items} {tokens more : List (List Char)}
      (item : Tree.Tokens value tokens) (tail : Items.Tokens rest more) :
      Items.Tokens (.item value rest) (tokens ++ [','] :: more)

/-- The tokens of members, of which there is one at least. -/
inductive Members.Tokens : Members → List (List Char) → Prop
  | last {body : List Char} {value : Tree} {tokens : List (List Char)} (named : JsonBody body)
      (filled : Tree.Tokens value tokens) :
      Members.Tokens (.member (.ofBody body) value .closed) (quotedToken body :: [':'] :: tokens)
  | next {body : List Char} {value : Tree} {rest : Members} {tokens more : List (List Char)}
      (named : JsonBody body) (filled : Tree.Tokens value tokens)
      (tail : Members.Tokens rest more) :
      Members.Tokens (.member (.ofBody body) value rest)
        (quotedToken body :: [':'] :: (tokens ++ [','] :: more))

end

/-! ## Texts of tokens -/

section Spread

variable {token blanks text more : List Char} {tokens tokens' : List (List Char)}

theorem spread_cons_iff : Spread (token :: tokens) text ↔
    ∃ blanks rest, IsJsonBlanks blanks ∧ Spread tokens rest ∧ text = blanks ++ token ++ rest := by
  constructor
  · rintro ⟨⟩
    exact ⟨_, _, ‹_›, ‹_›, rfl⟩
  · rintro ⟨blanks, rest, blank, tail, rfl⟩
    exact .cons blank tail

theorem Spread.behind (blank : IsJsonBlanks blanks) (h : Spread tokens text) :
    Spread tokens (blanks ++ text) := by
  cases h with
  | nil blank' => exact .nil (blank.append blank')
  | cons blank' tail =>
    rw [← List.append_assoc, ← List.append_assoc]
    exact .cons (blank.append blank') tail

theorem spread_append_iff : Spread (tokens ++ tokens') text ↔
    ∃ front back, Spread tokens front ∧ Spread tokens' back ∧ text = front ++ back := by
  induction tokens generalizing text with
  | nil =>
    constructor
    · exact fun h => ⟨[], text, .nil isJsonBlanks_nil, h, rfl⟩
    · rintro ⟨_, back, ⟨blank⟩, h, rfl⟩
      exact h.behind blank
  | cons token tokens ih =>
    simp only [List.cons_append, spread_cons_iff, ih]
    constructor
    · rintro ⟨blanks, _, blank, ⟨front, back, hfront, hback, rfl⟩, rfl⟩
      exact ⟨_, back, ⟨blanks, front, blank, hfront, rfl⟩, hback, by simp⟩
    · rintro ⟨_, back, ⟨blanks, front, blank, hfront, rfl⟩, hback, rfl⟩
      exact ⟨blanks, _, blank, ⟨front, back, hfront, hback, rfl⟩, by simp⟩

theorem Spread.before (blank : IsJsonBlanks blanks) (h : Spread tokens text) :
    Spread tokens (text ++ blanks) := by
  rw [← List.append_nil tokens]
  exact spread_append_iff.mpr ⟨text, blanks, h, .nil blank, rfl⟩

theorem spread_singleton_iff : Spread [token] text ↔ ∃ before behind, IsJsonBlanks before ∧
    IsJsonBlanks behind ∧ text = before ++ token ++ behind := by
  rw [spread_cons_iff]
  constructor
  · rintro ⟨before, behind, blank, ⟨blank'⟩, rfl⟩
    exact ⟨before, behind, blank, blank', rfl⟩
  · rintro ⟨before, behind, blank, blank', rfl⟩
    exact ⟨before, behind, blank, .nil blank', rfl⟩

/-- Blanks around a separator belong to what stands on its sides. -/
theorem spread_separated_iff {c : Char} : Spread (tokens ++ [c] :: tokens') text ↔
    ∃ front back, Spread tokens front ∧ Spread tokens' back ∧ text = front ++ c :: back := by
  rw [spread_append_iff]
  constructor
  · rintro ⟨front, _, hfront, hrest, rfl⟩
    obtain ⟨blanks, back, blank, hback, rfl⟩ := spread_cons_iff.mp hrest
    exact ⟨front ++ blanks, back, hfront.before blank, hback, by simp⟩
  · rintro ⟨front, back, hfront, hback, rfl⟩
    exact ⟨front, c :: back, hfront, .cons isJsonBlanks_nil hback, rfl⟩

theorem spread_separated (c : Char) (h : Spread tokens text) (h' : Spread tokens' more) :
    Spread (tokens ++ [c] :: tokens') (text ++ c :: more) :=
  spread_separated_iff.mpr ⟨text, more, h, h', rfl⟩

theorem spread_singleton (token : List Char) : Spread [token] token :=
  spread_singleton_iff.mpr ⟨[], [], isJsonBlanks_nil, isJsonBlanks_nil, by simp⟩

theorem spread_bracketed_iff {opening closing : Char} :
    Spread ([opening] :: tokens ++ [[closing]]) text ↔
      ∃ before inside behind, IsJsonBlanks before ∧ Spread tokens inside ∧ IsJsonBlanks behind ∧
        text = before ++ (opening :: inside ++ [closing]) ++ behind := by
  rw [List.cons_append, spread_cons_iff]
  constructor
  · rintro ⟨before, _, blank, h, rfl⟩
    obtain ⟨inside, _, hinside, ⟨blank'⟩, rfl⟩ := spread_separated_iff.mp h
    exact ⟨before, inside, _, blank, hinside, blank', by simp⟩
  · rintro ⟨before, inside, behind, blank, hinside, blank', rfl⟩
    exact ⟨before, _, blank, spread_separated closing hinside (.nil blank'), by simp⟩

theorem spread_bracketed {opening closing : Char} (h : Spread tokens text) :
    Spread ([opening] :: tokens ++ [[closing]]) (opening :: text ++ [closing]) :=
  spread_bracketed_iff.mpr ⟨[], text, [], isJsonBlanks_nil, h, isJsonBlanks_nil, by simp⟩

end Spread

/-! ## Tokens of texts -/

theorem Quoted.fills_of_spread {body text : List Char} (named : JsonBody body)
    (h : Spread [quotedToken body] text) : (Quoted.ofBody body).Fills text := by
  obtain ⟨before, behind, blank, blank', rfl⟩ := spread_singleton_iff.mp h
  exact ⟨before, body, behind, blank, named, blank', rfl, by simp [quotedToken]⟩

theorem Quoted.Fills.exists_tokens {q : Quoted} {text : List Char} (h : q.Fills text) :
    ∃ body, JsonBody body ∧ q = .ofBody body ∧ Spread [quotedToken body] text := by
  obtain ⟨before, body, behind, blank, named, blank', rfl, rfl⟩ := h
  refine ⟨body, named, rfl, spread_singleton_iff.mpr ⟨before, behind, blank, blank', ?_⟩⟩
  simp [quotedToken]

mutual

theorem Tree.Tokens.fills : ∀ {t : Tree} {tokens : List (List Char)} {text : List Char},
    t.Tokens tokens → Spread tokens text → t.Fills text
  | _, _, _, .word w, h => by
    obtain ⟨before, behind, blank, blank', rfl⟩ := spread_singleton_iff.mp h
    exact .padded blank (.word w) blank'
  | _, _, _, .number spelled, h => by
    obtain ⟨before, behind, blank, blank', rfl⟩ := spread_singleton_iff.mp h
    exact .padded blank (.number spelled) blank'
  | _, _, _, .string spelled, h => by
    obtain ⟨before, behind, blank, blank', rfl⟩ := spread_singleton_iff.mp h
    exact .padded blank (.string spelled) blank'
  | _, _, _, .emptyArray, h => by
    obtain ⟨before, _, behind, blank, ⟨blank''⟩, blank', rfl⟩ :=
      (@spread_bracketed_iff _ [] _ _).mp h
    exact .padded blank (.emptyArray blank'') blank'
  | _, _, _, .array inside, h => by
    obtain ⟨before, text, behind, blank, hinside, blank', rfl⟩ := spread_bracketed_iff.mp h
    exact .padded blank (.array (Items.Tokens.spells inside hinside)) blank'
  | _, _, _, .emptyObject, h => by
    obtain ⟨before, _, behind, blank, ⟨blank''⟩, blank', rfl⟩ :=
      (@spread_bracketed_iff _ [] _ _).mp h
    exact .padded blank (.emptyObject blank'') blank'
  | _, _, _, .object inside, h => by
    obtain ⟨before, text, behind, blank, hinside, blank', rfl⟩ := spread_bracketed_iff.mp h
    exact .padded blank (.object (Members.Tokens.spells inside hinside)) blank'

theorem Items.Tokens.spells : ∀ {items : Items} {tokens : List (List Char)} {text : List Char},
    items.Tokens tokens → Spread tokens text → items.Spells text
  | _, _, _, .last item, h => .last (Tree.Tokens.fills item h)
  | _, _, _, .next item tail, h => by
    obtain ⟨front, back, hfront, hback, rfl⟩ := spread_separated_iff.mp h
    exact .next (Tree.Tokens.fills item hfront) (Items.Tokens.spells tail hback)

theorem Members.Tokens.spells : ∀ {members : Members} {tokens : List (List Char)}
    {text : List Char}, members.Tokens tokens → Spread tokens text → members.Spells text
  | _, _, _, .last named filled, h => by
    obtain ⟨name, value, hname, hvalue, rfl⟩ := (@spread_separated_iff _ [_] _ _).mp h
    exact .last (Quoted.fills_of_spread named hname) (Tree.Tokens.fills filled hvalue)
  | _, _, _, .next named filled tail, h => by
    obtain ⟨name, _, hname, hrest, rfl⟩ := (@spread_separated_iff _ [_] _ _).mp h
    obtain ⟨value, more, hvalue, hmore, rfl⟩ := spread_separated_iff.mp hrest
    exact .next (Quoted.fills_of_spread named hname) (Tree.Tokens.fills filled hvalue)
      (Members.Tokens.spells tail hmore)

end

mutual

theorem Tree.Spells.exists_tokens : ∀ {t : Tree} {text : List Char}, t.Spells text →
    ∃ tokens, t.Tokens tokens ∧ Spread tokens text
  | _, _, .word w => ⟨_, .word w, spread_singleton _⟩
  | _, _, .number spelled => ⟨_, .number spelled, spread_singleton _⟩
  | _, _, .string spelled => ⟨_, .string spelled, spread_singleton _⟩
  | _, _, .emptyArray blank => ⟨_, .emptyArray, spread_bracketed (.nil blank)⟩
  | _, _, .array spelled => by
    obtain ⟨tokens, inside, h⟩ := Items.Spells.exists_tokens spelled
    exact ⟨_, .array inside, spread_bracketed h⟩
  | _, _, .emptyObject blank => ⟨_, .emptyObject, spread_bracketed (.nil blank)⟩
  | _, _, .object spelled => by
    obtain ⟨tokens, inside, h⟩ := Members.Spells.exists_tokens spelled
    exact ⟨_, .object inside, spread_bracketed h⟩

theorem Tree.Fills.exists_tokens : ∀ {t : Tree} {text : List Char}, t.Fills text →
    ∃ tokens, t.Tokens tokens ∧ Spread tokens text
  | _, _, .padded blank spelled blank' => by
    obtain ⟨tokens, inside, h⟩ := Tree.Spells.exists_tokens spelled
    exact ⟨tokens, inside, (h.behind blank).before blank'⟩

theorem Items.Spells.exists_tokens : ∀ {items : Items} {text : List Char}, items.Spells text →
    ∃ tokens, items.Tokens tokens ∧ Spread tokens text
  | _, _, .last item => by
    obtain ⟨tokens, inside, h⟩ := Tree.Fills.exists_tokens item
    exact ⟨tokens, .last inside, h⟩
  | _, _, .next item tail => by
    obtain ⟨tokens, inside, h⟩ := Tree.Fills.exists_tokens item
    obtain ⟨tokens', inside', h'⟩ := Items.Spells.exists_tokens tail
    exact ⟨_, .next inside inside', spread_separated ',' h h'⟩

theorem Members.Spells.exists_tokens : ∀ {members : Members} {text : List Char},
    members.Spells text → ∃ tokens, members.Tokens tokens ∧ Spread tokens text
  | _, _, .last named filled => by
    obtain ⟨body, hbody, rfl, hname⟩ := named.exists_tokens
    obtain ⟨tokens, inside, h⟩ := Tree.Fills.exists_tokens filled
    exact ⟨_, .last hbody inside, spread_separated ':' hname h⟩
  | _, _, .next named filled tail => by
    obtain ⟨body, hbody, rfl, hname⟩ := named.exists_tokens
    obtain ⟨tokens, inside, h⟩ := Tree.Fills.exists_tokens filled
    obtain ⟨tokens', inside', h'⟩ := Members.Spells.exists_tokens tail
    have hmore := spread_separated ',' h h'
    exact ⟨_, .next hbody inside inside', spread_separated ':' hname hmore⟩

end

/-- A text spells a tree exactly when it consists of tokens of the tree with blanks around them. -/
theorem Tree.fills_iff_tokens {t : Tree} {text : List Char} :
    t.Fills text ↔ ∃ tokens, t.Tokens tokens ∧ Spread tokens text :=
  ⟨Fills.exists_tokens, fun ⟨_, inside, h⟩ => inside.fills h⟩

end SyntaxPaint
