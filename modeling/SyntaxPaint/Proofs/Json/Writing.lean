import SyntaxPaint.Json.Value
import SyntaxPaint.Proofs.Json.Numbers
import SyntaxPaint.Proofs.Json.Whole
/-!
# Written JSON

A value that is written, on one line or on several, spells its tree.
-/
namespace SyntaxPaint

/-- The string that says this. -/
def Quoted.saying (s : String) : Quoted := ⟨.ok s, none⟩

/-! ## Trees of values -/

namespace Json

mutual

def tree : Json → Tree
  | null => .word .null
  | number n => .number (.ofNat n)
  | string s => .string (.saying s)
  | array items => .array (.ofList (itemTrees items))
  | object members => .object (.ofList (memberTrees members))

def itemTrees : List Json → List Tree
  | [] => []
  | item :: items => item.tree :: itemTrees items

def memberTrees : List (String × Json) → List (Quoted × Tree)
  | [] => []
  | (key, value) :: members => (.saying key, value.tree) :: memberTrees members

end

@[simp] theorem itemTrees_eq_map (items : List Json) : itemTrees items = items.map tree := by
  induction items with
  | nil => rfl
  | cons item items ih => simp [itemTrees, ih]

@[simp] theorem memberTrees_eq_map (members : List (String × Json)) :
    memberTrees members = members.map fun member => (.saying member.1, member.2.tree) := by
  induction members with
  | nil => rfl
  | cons member members ih => simp [memberTrees, ih]

/-! ## Strings -/

theorem escapeChar_cases (c : Char) :
    (∃ x, escapeChar c = ['\\', x] ∧ simpleEscape? x = some c) ∨
      (c.toNat < 0x20 ∧ escapeChar c = '\\' :: 'u' :: fourDigits c.toNat) ∨
      (0x20 ≤ c.toNat ∧ c ≠ '"' ∧ c ≠ '\\' ∧ escapeChar c = [c]) := by
  rw [escapeChar.eq_def]
  split
  case h_8 =>
    split_ifs with hc
    · exact .inr (.inl ⟨hc, rfl⟩)
    · exact .inr (.inr ⟨Nat.not_lt.mp hc, by assumption, by assumption, rfl⟩)
  all_goals exact .inl ⟨_, rfl, rfl⟩

theorem exists_fourDigits {n : Nat} (h : n < 0x20) :
    ∃ a b c d, fourDigits n = [a, b, c, d] ∧ (∀ x ∈ [a, b, c, d], x ∈ hexAlphabet) ∧
      hexQuad? a b c d = some n := by
  have hdigit : ∀ d < 16, Nat.digitChar d ∈ hexAlphabet := by decide
  have hdigits : ∀ n < 0x20,
      fourDigits n = ['0', '0', Nat.digitChar (n / 16), Nat.digitChar (n % 16)] := by decide
  have hvalue : ∀ n < 0x20,
      hexQuad? '0' '0' (Nat.digitChar (n / 16)) (Nat.digitChar (n % 16)) = some n := by decide
  have hzero : '0' ∈ hexAlphabet := hdigit 0 (by decide)
  have hhigh : Nat.digitChar (n / 16) ∈ hexAlphabet := hdigit _ (by omega)
  have hlow : Nat.digitChar (n % 16) ∈ hexAlphabet := hdigit _ (by omega)
  exact ⟨_, _, _, _, hdigits n h, by simp [hzero, hhigh, hlow], hvalue n h⟩

/-- A written string is closed by its quote and by no character before it, and says what was
written. -/
theorem escaped_body (chars : List Char) : JsonBody (chars.flatMap escapeChar) ∧
    Quoted.contents (chars.flatMap escapeChar ++ ['"']) = .ok chars := by
  induction chars with
  | nil => exact ⟨.nil, rfl⟩
  | cons c chars ih =>
    obtain ⟨hbody, hcontents⟩ := ih
    rw [List.flatMap_cons]
    obtain ⟨x, hx, hvalue⟩ | ⟨hc, hx⟩ | ⟨hc, hquote, hbackslash, hx⟩ := escapeChar_cases c
    · rw [hx]
      refine ⟨.letter (simpleEscape?_isSome_iff.mp ⟨c, hvalue⟩) hbody, ?_⟩
      simp [Quoted.contents_letter hvalue, hcontents, Except.map]
    · obtain ⟨a, b, c', d, hdigits, hhex, hvalue⟩ := exists_fourDigits hc
      rw [hx, hdigits]
      refine ⟨.code hhex hbody, ?_⟩
      have hlow : c.toNat < 0xD800 := by omega
      simp [Quoted.contents, hvalue, hlow, hcontents, Except.map]
    · rw [hx]
      refine ⟨.plain hc hquote hbackslash hbody, ?_⟩
      simp [Quoted.contents_plain hc hquote hbackslash, hcontents, Except.map]

theorem ofBody_escaped (s : String) :
    Quoted.ofBody (s.toList.flatMap escapeChar) = .saying s := by
  simp [Quoted.ofBody, (escaped_body s.toList).2, Except.map, Quoted.saying]

theorem fills_quote (s : String) : (Quoted.saying s).Fills (quote s) :=
  ⟨[], s.toList.flatMap escapeChar, [], isJsonBlanks_nil, (escaped_body _).1, isJsonBlanks_nil,
    (ofBody_escaped s).symm, rfl⟩

/-! ## Lists -/

/-- A part of an object's text: a key, a colon and a value. -/
def FillsMember (member : Quoted × Tree) (part : List Char) : Prop :=
  ∃ name text, member.1.Fills name ∧ member.2.Fills text ∧ part = name ++ ':' :: text

section Joined

variable {gap closing part : List Char} {parts : List (List Char)}

theorem spells_joined_items {t : Tree} {trees : List Tree} (blank : IsJsonBlanks gap)
    (blank' : IsJsonBlanks closing) (first : t.Fills part)
    (others : List.Forall₂ Tree.Fills trees parts) :
    (Items.ofList (t :: trees)).Spells (joined (',' :: gap) (part :: parts) ++ closing) := by
  induction others generalizing t part with
  | nil => exact .last (first.before blank')
  | cons next others ih =>
    have htail := (ih next).behind blank
    simp only [joined, List.append_assoc, List.cons_append]
    exact .next first htail

theorem spells_joined_members {member : Quoted × Tree} {members : List (Quoted × Tree)}
    (blank : IsJsonBlanks gap) (blank' : IsJsonBlanks closing) (first : FillsMember member part)
    (others : List.Forall₂ FillsMember members parts) :
    (Members.ofList (member :: members)).Spells
      (joined (',' :: gap) (part :: parts) ++ closing) := by
  induction others generalizing member part with
  | nil =>
    obtain ⟨name, text, named, filled, rfl⟩ := first
    rw [joined, List.append_assoc, List.cons_append]
    exact .last named (filled.before blank')
  | cons next others ih =>
    obtain ⟨name, text, named, filled, rfl⟩ := first
    have htail := (ih next).behind blank
    simp only [joined, List.append_assoc, List.cons_append]
    exact .next named filled htail

theorem isJsonBlanks_newLine (level : Nat) : IsJsonBlanks (newLine level) := by
  simp [IsJsonBlanks, newLine, isJsonBlank]

theorem spells_array {trees : List Tree} (h : List.Forall₂ Tree.Fills trees parts) :
    (Tree.array (.ofList trees)).Spells (['['] ++ joined [','] parts ++ [']']) := by
  cases h with
  | nil => exact .emptyArray isJsonBlanks_nil
  | cons first others =>
    have hspelled := spells_joined_items isJsonBlanks_nil isJsonBlanks_nil first others
    rw [List.append_nil] at hspelled
    exact .array hspelled

theorem spells_object {members : List (Quoted × Tree)}
    (h : List.Forall₂ FillsMember members parts) :
    (Tree.object (.ofList members)).Spells (['\x7b'] ++ joined [','] parts ++ ['\x7d']) := by
  cases h with
  | nil => exact .emptyObject isJsonBlanks_nil
  | cons first others =>
    have hspelled := spells_joined_members isJsonBlanks_nil isJsonBlanks_nil first others
    rw [List.append_nil] at hspelled
    exact .object hspelled

theorem spells_bracketed_items {trees : List Tree} (level : Nat)
    (h : List.Forall₂ Tree.Fills trees parts) :
    (Tree.array (.ofList trees)).Spells (bracketed level '[' ']' parts) := by
  cases h with
  | nil => exact .emptyArray isJsonBlanks_nil
  | cons first others =>
    have hspelled := spells_joined_items (isJsonBlanks_newLine (level + 1))
      (isJsonBlanks_newLine level) first others
    have hspelled := Tree.Spells.array (hspelled.behind (isJsonBlanks_newLine (level + 1)))
    simpa [bracketed] using hspelled

theorem spells_bracketed_members {members : List (Quoted × Tree)} (level : Nat)
    (h : List.Forall₂ FillsMember members parts) :
    (Tree.object (.ofList members)).Spells (bracketed level '\x7b' '\x7d' parts) := by
  cases h with
  | nil => exact .emptyObject isJsonBlanks_nil
  | cons first others =>
    have hspelled := spells_joined_members (isJsonBlanks_newLine (level + 1))
      (isJsonBlanks_newLine level) first others
    have hspelled := Tree.Spells.object (hspelled.behind (isJsonBlanks_newLine (level + 1)))
    simpa [bracketed] using hspelled

end Joined

/-! ## Values -/

theorem fills_of_spells {t : Tree} {text : List Char} (h : t.Spells text) : t.Fills text := by
  have hfilled := Tree.Fills.padded isJsonBlanks_nil h isJsonBlanks_nil
  rwa [List.nil_append, List.append_nil] at hfilled

theorem spells_quote (s : String) : (Tree.string (.saying s)).Spells (quote s) := by
  rw [← ofBody_escaped]
  exact .string (escaped_body s.toList).1

mutual

theorem spells_compact : ∀ j : Json, j.tree.Spells j.compact
  | .null => .word .null
  | .number n => .number (Numeral.spells_ofNat n)
  | .string s => spells_quote s
  | .array items => spells_array (fills_compactItems items)
  | .object members => spells_object (fills_compactMembers members)

theorem fills_compactItems : ∀ items : List Json,
    List.Forall₂ Tree.Fills (itemTrees items) (compactItems items)
  | [] => .nil
  | item :: items => .cons (fills_of_spells (spells_compact item)) (fills_compactItems items)

theorem fills_compactMembers : ∀ members : List (String × Json),
    List.Forall₂ FillsMember (memberTrees members) (compactMembers members)
  | [] => .nil
  | (key, value) :: members =>
    .cons ⟨_, _, fills_quote key, fills_of_spells (spells_compact value),
      List.append_assoc ..⟩ (fills_compactMembers members)

end

mutual

theorem spells_prettyAt : ∀ (level : Nat) (j : Json), j.tree.Spells (j.prettyAt level)
  | _, .null => .word .null
  | _, .number n => .number (Numeral.spells_ofNat n)
  | _, .string s => spells_quote s
  | level, .array items => spells_bracketed_items level (fills_prettyItems (level + 1) items)
  | level, .object members =>
    spells_bracketed_members level (fills_prettyMembers (level + 1) members)

theorem fills_prettyItems : ∀ (level : Nat) (items : List Json),
    List.Forall₂ Tree.Fills (itemTrees items) (prettyItems level items)
  | _, [] => .nil
  | level, item :: items =>
    .cons (fills_of_spells (spells_prettyAt level item)) (fills_prettyItems level items)

theorem fills_prettyMembers : ∀ (level : Nat) (members : List (String × Json)),
    List.Forall₂ FillsMember (memberTrees members) (prettyMembers level members)
  | _, [] => .nil
  | level, (key, value) :: members =>
    have hblank : IsJsonBlanks [' '] := by simp [IsJsonBlanks, isJsonBlank]
    .cons ⟨_, _, fills_quote key, (fills_of_spells (spells_prettyAt level value)).behind hblank,
      List.append_assoc ..⟩ (fills_prettyMembers level members)

end

/-- A written value fills its text, however it is laid out. -/
theorem fills_compact (j : Json) : j.tree.Fills j.compact := fills_of_spells j.spells_compact

theorem fills_pretty (j : Json) : j.tree.Fills j.pretty := fills_of_spells (j.spells_prettyAt 0)

/-! ## Lists with texts -/

private theorem exists_forall₂ {α β : Type} {r : α → β → Prop} {as : List α}
    (h : ∀ a ∈ as, ∃ b, r a b) : ∃ bs, List.Forall₂ r as bs := by
  induction as with
  | nil => exact ⟨[], .nil⟩
  | cons a as ih =>
    obtain ⟨⟨b, hb⟩, hrest⟩ := List.forall_mem_cons.mp h
    obtain ⟨bs, hbs⟩ := ih hrest
    exact ⟨b :: bs, .cons hb hbs⟩

private theorem fills_of_spells_items {trees : List Tree} {text : List Char}
    (h : (Items.ofList trees).Spells text) : ∀ t ∈ trees, ∃ text, t.Fills text := by
  induction trees generalizing text with
  | nil => cases h
  | cons t trees ih =>
    rw [Items.ofList] at h
    generalize hrest : Items.ofList trees = rest at h
    cases h with
    | last item =>
      cases trees with
      | nil => exact List.forall_mem_singleton.mpr ⟨_, item⟩
      | cons => cases hrest
    | next item tail => exact List.forall_mem_cons.mpr ⟨⟨_, item⟩, ih (hrest ▸ tail)⟩

private theorem fills_of_spells_members {members : List (Quoted × Tree)} {text : List Char}
    (h : (Members.ofList members).Spells text) :
    ∀ member ∈ members, ∃ part, FillsMember member part := by
  induction members generalizing text with
  | nil => cases h
  | cons member members ih =>
    rw [Members.ofList] at h
    generalize hrest : Members.ofList members = rest at h
    cases h with
    | last named filled =>
      cases members with
      | nil => exact List.forall_mem_singleton.mpr ⟨_, _, _, named, filled, rfl⟩
      | cons => cases hrest
    | next named filled tail =>
      exact List.forall_mem_cons.mpr ⟨⟨_, _, _, named, filled, rfl⟩, ih (hrest ▸ tail)⟩

theorem exists_fills_array_iff {trees : List Tree} :
    (∃ text, (Tree.array (.ofList trees)).Fills text) ↔ ∀ t ∈ trees, ∃ text, t.Fills text := by
  constructor
  · rintro ⟨_, ⟨-, spelled, -⟩⟩
    generalize hitems : Items.ofList trees = items at spelled
    cases spelled with
    | emptyArray =>
      cases trees with
      | nil => simp
      | cons => cases hitems
    | array inside => exact fills_of_spells_items (hitems ▸ inside)
  · intro h
    obtain ⟨parts, hparts⟩ := exists_forall₂ h
    exact ⟨_, fills_of_spells (spells_array hparts)⟩

theorem exists_fills_object_iff {members : List (Quoted × Tree)} :
    (∃ text, (Tree.object (.ofList members)).Fills text) ↔
      ∀ member ∈ members, ∃ part, FillsMember member part := by
  constructor
  · rintro ⟨_, ⟨-, spelled, -⟩⟩
    generalize hmembers : Members.ofList members = inside at spelled
    cases spelled with
    | emptyObject =>
      cases members with
      | nil => simp
      | cons => cases hmembers
    | object spelled => exact fills_of_spells_members (hmembers ▸ spelled)
  · intro h
    obtain ⟨parts, hparts⟩ := exists_forall₂ h
    exact ⟨_, fills_of_spells (spells_object hparts)⟩

theorem exists_fillsMember_saying_iff {name : String} {value : Tree} :
    (∃ part, FillsMember (.saying name, value) part) ↔ ∃ text, value.Fills text :=
  ⟨fun ⟨_, _, text, _, filled, _⟩ => ⟨text, filled⟩,
    fun ⟨text, filled⟩ => ⟨_, quote name, text, fills_quote name, filled, rfl⟩⟩

end Json
end SyntaxPaint
