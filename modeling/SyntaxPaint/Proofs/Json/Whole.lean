import SyntaxPaint.Proofs.Json.Reading
/-!
# Trees without faults

A tree that was read without a fault is spelled by the text that was read. So the texts of JSON are
those of which a tree without faults is read.
-/
namespace SyntaxPaint

/-- The string says something, or it can be passed over at least. -/
def Quoted.IsWhole (q : Quoted) : Prop := (∃ s, q.value = .ok s) ∨ q.skipped = none

mutual

/-- The tree has no fault. -/
def Tree.IsWhole : Tree → Prop
  | .word _ | .number _ => True
  | .string q => q.IsWhole
  | .array items => items.IsWhole
  | .object members => members.IsWhole
  | .brokenWord _ _ | .brokenNumber _ | .absent _ => False

def Items.IsWhole : Items → Prop
  | .closed => True
  | .cut _ _ => False
  | .item value rest => value.IsWhole ∧ rest.IsWhole

def Members.IsWhole : Members → Prop
  | .closed => True
  | .cut _ _ => False
  | .member key value rest => key.IsWhole ∧ value.IsWhole ∧ rest.IsWhole

end

/-! ## Passing over -/

mutual

theorem Tree.isWhole_of_skipped : ∀ {t : Tree}, t.skipped = none → t.IsWhole
  | .word _, _ => trivial
  | .number _, _ => trivial
  | .string _, h => .inr h
  | .array _, h => Items.isWhole_of_skipped h
  | .object _, h => Members.isWhole_of_skipped h

theorem Items.isWhole_of_skipped : ∀ {items : Items}, items.skipped = none → items.IsWhole
  | .closed, _ => trivial
  | .item _ _, h =>
    have h := Option.or_eq_none_iff.mp h
    ⟨Tree.isWhole_of_skipped h.1, Items.isWhole_of_skipped h.2⟩

theorem Members.isWhole_of_skipped : ∀ {members : Members}, members.skipped = none →
    members.IsWhole
  | .closed, _ => trivial
  | .member _ _ _, h =>
    have h := Option.or_eq_none_iff.mp h
    have h' := Option.or_eq_none_iff.mp h.1
    ⟨.inr h'.1, Tree.isWhole_of_skipped h'.2, Members.isWhole_of_skipped h.2⟩

end

theorem Quoted.Fills.skipped_eq_none {q : Quoted} {text : List Char} (h : q.Fills text) :
    q.skipped = none := by
  obtain ⟨before, body, behind, -, -, -, rfl, -⟩ := h
  rfl

mutual

theorem Tree.Spells.skipped_eq_none : ∀ {t : Tree} {text : List Char}, t.Spells text →
    t.skipped = none
  | _, _, .word _ | _, _, .number _ | _, _, .string _ => rfl
  | _, _, .emptyArray _ | _, _, .emptyObject _ => rfl
  | _, _, .array spelled => Items.Spells.skipped_eq_none spelled
  | _, _, .object spelled => Members.Spells.skipped_eq_none spelled

theorem Tree.Fills.skipped_eq_none : ∀ {t : Tree} {text : List Char}, t.Fills text →
    t.skipped = none
  | _, _, .padded _ spelled _ => Tree.Spells.skipped_eq_none spelled

theorem Items.Spells.skipped_eq_none : ∀ {items : Items} {text : List Char}, items.Spells text →
    items.skipped = none
  | _, _, .last item => Option.or_eq_none_iff.mpr ⟨Tree.Fills.skipped_eq_none item, rfl⟩
  | _, _, .next item tail =>
    Option.or_eq_none_iff.mpr
      ⟨Tree.Fills.skipped_eq_none item, Items.Spells.skipped_eq_none tail⟩

theorem Members.Spells.skipped_eq_none : ∀ {members : Members} {text : List Char},
    members.Spells text → members.skipped = none
  | _, _, .last named filled =>
    Option.or_eq_none_iff.mpr ⟨Option.or_eq_none_iff.mpr
      ⟨named.skipped_eq_none, Tree.Fills.skipped_eq_none filled⟩, rfl⟩
  | _, _, .next named filled tail =>
    Option.or_eq_none_iff.mpr ⟨Option.or_eq_none_iff.mpr
      ⟨named.skipped_eq_none, Tree.Fills.skipped_eq_none filled⟩,
      Members.Spells.skipped_eq_none tail⟩

end

/-! ## What was read -/

section Blanks

variable {blanks text rest : List Char}

theorem exists_blanks (text : List Char) :
    ∃ blanks, IsJsonBlanks blanks ∧ text = blanks ++ skipJsonBlanks text :=
  ⟨text.takeWhile isJsonBlank, fun _ hc => List.mem_takeWhile_imp hc,
    List.takeWhile_append_dropWhile.symm⟩

theorem isJsonBlanks_nil : IsJsonBlanks [] := by simp [IsJsonBlanks]

theorem IsJsonBlanks.append {more : List Char} (h : IsJsonBlanks blanks)
    (h' : IsJsonBlanks more) : IsJsonBlanks (blanks ++ more) :=
  List.forall_mem_append.mpr ⟨h, h'⟩

theorem Tree.Fills.behind {t : Tree} (blank : IsJsonBlanks blanks) (h : t.Fills text) :
    t.Fills (blanks ++ text) := by
  cases h with
  | padded blank' spelled blank'' =>
    rw [← List.append_assoc, ← List.append_assoc]
    exact .padded (blank.append blank') spelled blank''

theorem Tree.Fills.before {t : Tree} (blank : IsJsonBlanks blanks) (h : t.Fills text) :
    t.Fills (text ++ blanks) := by
  cases h with
  | padded blank' spelled blank'' =>
    rw [List.append_assoc]
    exact .padded blank' spelled (blank''.append blank)

theorem Items.Spells.behind {items : Items} (blank : IsJsonBlanks blanks)
    (h : items.Spells text) : items.Spells (blanks ++ text) := by
  cases h with
  | last item => exact .last (item.behind blank)
  | next item tail =>
    rw [← List.append_assoc]
    exact .next (item.behind blank) tail

theorem Members.Spells.behind {members : Members} (blank : IsJsonBlanks blanks)
    (h : members.Spells text) : members.Spells (blanks ++ text) := by
  have hnamed {key : Quoted} {name : List Char} (named : key.Fills name) :
      key.Fills (blanks ++ name) := by
    obtain ⟨before, body, behind, blank', spelled, blank'', rfl, rfl⟩ := named
    exact ⟨blanks ++ before, body, behind, blank.append blank', spelled, blank'', rfl, by simp⟩
  cases h with
  | last named filled =>
    rw [← List.append_assoc]
    exact .last (hnamed named) filled
  | next named filled tail =>
    rw [← List.append_assoc]
    exact .next (hnamed named) filled tail

end Blanks

namespace Tree

variable {text rest : List Char} {t : Tree}

theorem text_of_passLetters {word : List Char} (h : passLetters word text = .ok rest) :
    text = word ++ rest := by
  induction word generalizing text with
  | nil =>
    obtain rfl := Except.ok.inj h
    rfl
  | cons w word ih =>
    cases text with
    | nil => cases h
    | cons c text =>
      rw [passLetters] at h
      split_ifs at h with hc
      rw [hc, ih h, List.cons_append]

theorem text_of_close {bracket : Char} (h : Behind.of bracket text = .close rest) :
    ∃ blanks, IsJsonBlanks blanks ∧ text = blanks ++ bracket :: rest := by
  obtain ⟨blanks, blank, htext⟩ := exists_blanks text
  refine ⟨blanks, blank, ?_⟩
  rw [Behind.of] at h
  split at h
  · cases h
  · next heq =>
    split_ifs at h with hbracket
    · obtain rfl := Behind.close.inj h
      rw [htext, heq, hbracket]
    · split at h
      · cases h
      · split_ifs at h

theorem text_of_comma {bracket : Char} (h : Behind.of bracket text = .comma rest) :
    ∃ blanks more, IsJsonBlanks blanks ∧ text = blanks ++ ',' :: more ∧
      rest = skipJsonBlanks more := by
  obtain ⟨blanks, blank, htext⟩ := exists_blanks text
  rw [Behind.of] at h
  split at h
  · cases h
  · next c more heq =>
    split_ifs at h with hbracket hcomma
    split at h
    · cases h
    · next hmore =>
      split_ifs at h
      obtain rfl := Behind.comma.inj h
      exact ⟨blanks, more, blank, by rw [htext, heq, hcomma], hmore.symm⟩

private theorem spells_of_ofNumeral {negative : Bool} (sign : List Char)
    (signed : sign = if negative then ['-'] else [])
    (h : ofNumeral (Numeral.read negative text) = (t, rest)) (whole : t.IsWhole) :
    ∃ core, t.Spells core ∧ sign ++ text = core ++ rest := by
  cases hread : Numeral.read negative text with
  | error fault =>
    rw [hread] at h
    obtain ⟨rfl, -⟩ := Prod.mk.inj h
    cases whole
  | ok found =>
    obtain ⟨n, behind⟩ := found
    rw [hread] at h
    obtain ⟨rfl, rfl⟩ := Prod.mk.inj h
    obtain ⟨hsign, digits, hdigits, rfl⟩ := Numeral.digits_of_read hread
    refine ⟨sign ++ digits, .number ⟨digits, hdigits, ?_⟩, (List.append_assoc ..).symm⟩
    rw [signed, hsign]
    split <;> rfl

private theorem text_of_ofLetter? {c : Char} {w : Word} (h : Word.ofLetter? c = some w) :
    w.text.toList = c :: w.text.toList.tail := by
  rw [Word.ofLetter?.eq_def] at h
  split at h
  all_goals
    cases h
    try rfl

theorem spells_of_readScalar {c : Char} (h : readScalar c text = (t, rest)) (whole : t.IsWhole) :
    ∃ core, t.Spells core ∧ c :: text = core ++ rest := by
  rw [readScalar] at h
  split_ifs at h with hquote hminus hdigit
  · generalize hread : Quoted.read text = found at h
    obtain ⟨q, behind⟩ := found
    obtain ⟨rfl, rfl⟩ := Prod.mk.inj h
    obtain ⟨body, hbody, rfl, rfl⟩ := Quoted.exists_body_of_read hread whole
    exact ⟨_, .string hbody, by simp [hquote]⟩
  · subst hminus
    exact spells_of_ofNumeral ['-'] rfl h whole
  · exact spells_of_ofNumeral [] rfl h whole
  · split at h
    · next w hletter =>
      split at h
      · next behind hpass =>
        obtain ⟨rfl, rfl⟩ := Prod.mk.inj h
        refine ⟨_, .word w, ?_⟩
        rw [text_of_passLetters hpass, ← List.cons_append, ← text_of_ofLetter? hletter]
      · obtain ⟨rfl, -⟩ := Prod.mk.inj h
        cases whole
    · obtain ⟨rfl, -⟩ := Prod.mk.inj h
      cases whole

/-! ## Values -/

/-- What was read with this fuel was spelled if it has no fault. -/
private def SpellsValues (fuel : Nat) : Prop :=
  ∀ {t : Tree} {text rest : List Char}, readValue fuel text = (t, rest) → t.IsWhole →
    ∃ before core, IsJsonBlanks before ∧ t.Spells core ∧ text = before ++ core ++ rest

private def SpellsItems (fuel : Nat) : Prop :=
  ∀ {items : Items} {text rest : List Char}, readItems fuel text = (items, rest) →
    items.IsWhole → ∃ inside, items.Spells inside ∧ text = inside ++ ']' :: rest

private def SpellsMembers (fuel : Nat) : Prop :=
  ∀ {members : Members} {text rest : List Char}, readMembers fuel text = (members, rest) →
    members.IsWhole → ∃ inside, members.Spells ('"' :: inside) ∧ text = inside ++ '\x7d' :: rest

private theorem spellsValues_step {fuel : Nat} (hitems : SpellsItems fuel)
    (hmembers : SpellsMembers fuel) : SpellsValues (fuel + 1) := by
  intro t text rest h whole
  obtain ⟨before, blank, htext⟩ := exists_blanks text
  suffices hcore : ∃ core, t.Spells core ∧ skipJsonBlanks text = core ++ rest by
    obtain ⟨core, spelled, hskip⟩ := hcore
    exact ⟨before, core, blank, spelled, by rw [htext, hskip, List.append_assoc]⟩
  rw [readValue] at h
  split at h
  · obtain ⟨rfl, -⟩ := Prod.mk.inj h
    cases whole
  · next inner hskip =>
    obtain ⟨blanks, blank', hinner⟩ := exists_blanks inner
    split at h
    · next behind hclose =>
      obtain ⟨rfl, rfl⟩ := Prod.mk.inj h
      refine ⟨_, .emptyArray blank', ?_⟩
      rw [hskip, hinner, hclose]
      simp
    · obtain ⟨rfl, -⟩ := Prod.mk.inj h
      cases whole
    · generalize hread : readItems fuel (skipJsonBlanks inner) = found at h
      obtain ⟨items, behind⟩ := found
      obtain ⟨rfl, rfl⟩ := Prod.mk.inj h
      obtain ⟨inside, spelled, hinside⟩ := hitems hread whole
      refine ⟨_, .array (spelled.behind blank'), ?_⟩
      rw [hskip, hinner, hinside]
      simp
  · next inner hskip =>
    obtain ⟨blanks, blank', hinner⟩ := exists_blanks inner
    split at h
    · next behind hclose =>
      obtain ⟨rfl, rfl⟩ := Prod.mk.inj h
      refine ⟨_, .emptyObject blank', ?_⟩
      rw [hskip, hinner, hclose]
      simp
    · obtain ⟨rfl, -⟩ := Prod.mk.inj h
      cases whole
    · next keys hquote =>
      generalize hread : readMembers fuel keys = found at h
      obtain ⟨members, behind⟩ := found
      obtain ⟨rfl, rfl⟩ := Prod.mk.inj h
      obtain ⟨inside, spelled, hinside⟩ := hmembers hread whole
      refine ⟨_, .object (spelled.behind blank'), ?_⟩
      rw [hskip, hinner, hquote, hinside]
      simp
    · obtain ⟨rfl, -⟩ := Prod.mk.inj h
      cases whole
  · next c tail _ _ hskip =>
    rw [hskip]
    exact spells_of_readScalar h whole

private theorem spellsItems_step {fuel : Nat} (hvalues : SpellsValues fuel)
    (hitems : SpellsItems fuel) : SpellsItems (fuel + 1) := by
  intro items text rest h whole
  rw [readItems] at h
  generalize hread : readValue fuel text = found at h
  obtain ⟨value, behind⟩ := found
  dsimp only at h
  split at h
  · next hclose =>
    obtain ⟨rfl, rfl⟩ := Prod.mk.inj h
    obtain ⟨blanks, blank, rfl⟩ := text_of_close hclose
    obtain ⟨before, core, blank', spelled, rfl⟩ := hvalues hread whole.1
    exact ⟨_, .last (.padded blank' spelled blank), by simp⟩
  · next next hcomma =>
    generalize hothers : readItems fuel next = found at h
    obtain ⟨others, behind'⟩ := found
    obtain ⟨rfl, rfl⟩ := Prod.mk.inj h
    obtain ⟨blanks, more, blank, rfl, rfl⟩ := text_of_comma hcomma
    obtain ⟨before, core, blank', spelled, rfl⟩ := hvalues hread whole.1
    obtain ⟨inside, spelled', hinside⟩ := hitems hothers whole.2
    obtain ⟨blanks', blank'', hmore⟩ := exists_blanks more
    refine ⟨_, .next (.padded blank' spelled blank) (spelled'.behind blank''), ?_⟩
    rw [hmore, hinside]
    simp
  · obtain ⟨rfl, -⟩ := Prod.mk.inj h
    cases whole.2

private theorem fills_of_read_key {key : Quoted} {text behind inner : List Char}
    (h : Quoted.read text = (key, behind)) (colon : skipJsonBlanks behind = ':' :: inner)
    (whole : key.IsWhole) : ∃ name, key.Fills ('"' :: name) ∧ text = name ++ ':' :: inner := by
  obtain ⟨body, hbody, rfl, rfl⟩ := Quoted.exists_body_of_read h whole
  obtain ⟨blanks, blank, hbehind⟩ := exists_blanks behind
  rw [colon] at hbehind
  exact ⟨body ++ '"' :: blanks, ⟨[], body, blanks, isJsonBlanks_nil, hbody, blank, rfl, rfl⟩,
    by simp [hbehind]⟩

private theorem spellsMembers_step {fuel : Nat} (hvalues : SpellsValues fuel)
    (hmembers : SpellsMembers fuel) : SpellsMembers (fuel + 1) := by
  intro members text rest h whole
  rw [readMembers] at h
  generalize hkey : Quoted.read text = found at h
  obtain ⟨key, behind⟩ := found
  dsimp only at h
  split at h
  · next inner hcolon =>
    generalize hread : readValue fuel inner = found at h
    obtain ⟨value, behind'⟩ := found
    dsimp only at h
    split at h
    · next hclose =>
      obtain ⟨rfl, rfl⟩ := Prod.mk.inj h
      obtain ⟨blanks, blank, rfl⟩ := text_of_close hclose
      obtain ⟨name, named, rfl⟩ := fills_of_read_key hkey hcolon whole.1
      obtain ⟨before, core, blank', spelled, rfl⟩ := hvalues hread whole.2.1
      exact ⟨_, .last named (.padded blank' spelled blank), by simp⟩
    · next keys hcomma =>
      generalize hothers : readMembers fuel keys = found at h
      obtain ⟨others, behind''⟩ := found
      obtain ⟨rfl, rfl⟩ := Prod.mk.inj h
      obtain ⟨blanks, more, blank, rfl, hquote⟩ := text_of_comma hcomma
      obtain ⟨name, named, rfl⟩ := fills_of_read_key hkey hcolon whole.1
      obtain ⟨before, core, blank', spelled, rfl⟩ := hvalues hread whole.2.1
      obtain ⟨inside, spelled', hinside⟩ := hmembers hothers whole.2.2
      obtain ⟨blanks', blank'', hmore⟩ := exists_blanks more
      refine ⟨_, .next named (.padded blank' spelled blank) (spelled'.behind blank''), ?_⟩
      rw [hmore, ← hquote, hinside]
      simp
    · obtain ⟨rfl, -⟩ := Prod.mk.inj h
      cases whole.2.2
    · obtain ⟨rfl, -⟩ := Prod.mk.inj h
      cases whole.2.2
  · obtain ⟨rfl, -⟩ := Prod.mk.inj h
    cases whole.2.1

private theorem spells_all (fuel : Nat) :
    SpellsValues fuel ∧ SpellsItems fuel ∧ SpellsMembers fuel := by
  induction fuel with
  | zero =>
    refine ⟨fun h whole => ?_, fun h whole => ?_, fun h whole => ?_⟩
    all_goals
      obtain ⟨rfl, -⟩ := Prod.mk.inj h
      cases whole
  | succ fuel ih =>
    obtain ⟨hvalues, hitems, hmembers⟩ := ih
    exact ⟨spellsValues_step hitems hmembers, spellsItems_step hvalues hitems,
      spellsMembers_step hvalues hmembers⟩

/-- A text of which a tree without faults is read spells this tree, if nothing but blanks is left
of it. -/
theorem fills_of_read (h : read text = (t, rest)) (whole : t.IsWhole)
    (blank : IsJsonBlanks rest) : t.Fills text := by
  obtain ⟨before, core, blank', spelled, rfl⟩ := (spells_all _).1 h whole
  exact .padded blank' spelled blank

/-- The texts of JSON are those of which a tree without faults is read. -/
theorem fills_iff : t.Fills text ↔
    ∃ rest, read text = (t, rest) ∧ t.IsWhole ∧ IsJsonBlanks rest := by
  constructor
  · intro h
    obtain ⟨rest, blank, hread⟩ := h.read_eq
    exact ⟨rest, hread, isWhole_of_skipped h.skipped_eq_none, blank⟩
  · rintro ⟨rest, hread, whole, blank⟩
    exact fills_of_read hread whole blank

end Tree
end SyntaxPaint
