import SyntaxPaint.Proofs.Settings.Schema
/-!
# Missing members

A field whose member is deleted has its standard value, and all other fields keep what they have.
-/
namespace SyntaxPaint

/-! ## Fields -/

inductive ThemeSettings.Slot where
  | name
  | background
  | foreground
  | colors

inductive LoggingSettings.Slot where
  | level
  | override (p : Phase)

/-- A field of the settings for painting, or of the theme in some place of them. -/
inductive HighlightSettings.Slot where
  | theme
  | themes
  | ofTheme (index : Nat) (slot : ThemeSettings.Slot)

/-- A field of the settings, at any depth. -/
inductive Settings.Slot where
  | logging
  | limits
  | highlight
  | ofLogging (slot : LoggingSettings.Slot)
  | maxNestingDepth
  | ofHighlight (slot : HighlightSettings.Slot)

/-! ## Places of fields -/

/-- The way to a part of a tree. -/
inductive Tree.Key where
  | member (name : String)
  | item (index : Nat)

def ThemeSettings.Slot.field : ThemeSettings.Slot → String
  | name => "name"
  | background => "background"
  | foreground => "foreground"
  | colors => "colors"

def LoggingSettings.Slot.field : LoggingSettings.Slot → String
  | level => "level"
  | override p => p.name

def HighlightSettings.Slot.path : HighlightSettings.Slot → List Tree.Key
  | theme => [.member "theme"]
  | themes => [.member "themes"]
  | ofTheme index slot => [.member "themes", .item index, .member slot.field]

def Settings.Slot.path : Settings.Slot → List Tree.Key
  | logging => [.member "logging"]
  | limits => [.member "limits"]
  | highlight => [.member "highlight"]
  | ofLogging slot => [.member "logging", .member slot.field]
  | maxNestingDepth => [.member "limits", .member "max_nesting_depth"]
  | ofHighlight slot => .member "highlight" :: slot.path

/-- The second tree is the first without the member at the end of the path. -/
inductive Tree.Drops : List Key → Tree → Tree → Prop
  | member {name : String} {value : Tree} {front back : List (Quoted × Tree)} :
      Drops [.member name] (.object (.ofList (front ++ (.saying name, value) :: back)))
        (.object (.ofList (front ++ back)))
  | inMember {path : List Key} {name : String} {value value' : Tree}
      {front back : List (Quoted × Tree)} (inside : Drops path value value') :
      Drops (.member name :: path) (.object (.ofList (front ++ (.saying name, value) :: back)))
        (.object (.ofList (front ++ (.saying name, value') :: back)))
  | inItem {path : List Key} {index : Nat} {value value' : Tree} {front back : List Tree}
      (place : front.length = index) (inside : Drops path value value') :
      Drops (.item index :: path) (.array (.ofList (front ++ value :: back)))
        (.array (.ofList (front ++ value' :: back)))

/-! ## Standard values -/

/-- The theme with the standard value in this field. -/
def ThemeSettings.Slot.reset : ThemeSettings.Slot → ThemeSettings → ThemeSettings
  | name, s => { s with name := ThemeSettings.blank.name }
  | background, s => { s with background := ThemeSettings.blank.background }
  | foreground, s => { s with foreground := ThemeSettings.blank.foreground }
  | colors, s => { s with colors := ThemeSettings.blank.colors }

def LoggingSettings.Slot.reset : LoggingSettings.Slot → LoggingSettings → LoggingSettings
  | level, s => { s with level := LoggingSettings.standard.level }
  | override .lexer, s => { s with lexer := LoggingSettings.standard.lexer }
  | override .parser, s => { s with parser := LoggingSettings.standard.parser }
  | override .highlight, s => { s with highlight := LoggingSettings.standard.highlight }

def HighlightSettings.Slot.reset : HighlightSettings.Slot → HighlightSettings → HighlightSettings
  | theme, s => { s with theme := HighlightSettings.standard.theme }
  | themes, s => { s with themes := HighlightSettings.standard.themes }
  | ofTheme index slot, s => { s with themes := s.themes.modify index slot.reset }

/-- The settings with the standard value in this field. -/
def Settings.Slot.reset : Settings.Slot → Settings → Settings
  | logging, s => { s with logging := .standard }
  | limits, s => { s with limits := .standard }
  | highlight, s => { s with highlight := .standard }
  | ofLogging slot, s => { s with logging := slot.reset s.logging }
  | maxNestingDepth, s =>
    { s with limits := { s.limits with maxNestingDepth := LimitSettings.standard.maxNestingDepth } }
  | ofHighlight slot, s => { s with highlight := slot.reset s.highlight }

/-! ## Deletions -/

/-- Without the member at the end of the path, what is read changes in this way. -/
def Loses {α : Type} (read : Tree → Reading α) (path : List Tree.Key) (change : α → α) : Prop :=
  ∀ ⦃t t' : Tree⦄ ⦃x : α⦄, Tree.Drops path t t' → read t = .ok x → read t' = .ok (change x)

section Records

variable {ρ α : Type} {fields : List (Field ρ)} {wanted : Wanted} {standard : ρ} {i : Nat}
  {name : String} {read : Tree → Reading α} {put : α → ρ → ρ} {change : ρ → ρ}

theorem readMembers_field_iff (independent : Field.Independent fields)
    (known : fields[i]? = some (.of name read put)) {value : Tree} {result : ρ}
    {front back : List (Quoted × Tree)} :
    readMembers fields (.ofList (front ++ (.saying name, value) :: back)) [] standard =
        .ok result ↔
      ∃ v, read value = .ok v ∧
        readMembers fields (.ofList (front ++ back)) [name] (put v standard) = .ok result := by
  have hmem : Field.of name read put ∈ fields := List.mem_of_getElem? known
  rw [readMembers_middle_iff independent]
  constructor
  · rintro ⟨_, p, reads, hrest⟩
    cases reads with
    | unknown said other =>
      obtain rfl := Except.ok.inj said
      exact absurd rfl (other _ hmem)
    | known said found hp =>
      have hname := Except.ok.inj said
      obtain rfl := independent.eq_of_name hmem (List.mem_of_find?_eq_some found) hname
      obtain ⟨v, hv, rfl⟩ := map_eq_ok_iff.mp hp
      exact ⟨v, hv, hrest⟩
  · rintro ⟨v, hv, hrest⟩
    refine ⟨some name, put v, ?_, hrest⟩
    have hfound : ∃ field, fields.find? (fun other => other.name == name) = some field :=
      Option.isSome_iff_exists.mp (List.find?_isSome.mpr ⟨_, hmem, by simp [Field.of]⟩)
    obtain ⟨field, hfield⟩ := hfound
    have hname : field.name = name := by simpa using List.find?_some hfield
    obtain rfl := independent.eq_of_name hmem (List.mem_of_find?_eq_some hfield) hname.symm
    have hset : (Field.of name read put).set value = .ok (put v) := map_eq_ok_iff.mpr ⟨v, hv, rfl⟩
    exact @Field.Reads.known ρ fields _ _ (.of name read put) _ rfl hfield hset

theorem loses_member (independent : Field.Independent fields)
    (known : fields[i]? = some (.of name read put))
    (spares : ∀ field ∈ fields, field.Spares [name] change)
    (own : ∀ v, change (put v standard) = standard) :
    Loses (readRecord wanted fields standard) [.member name] change := by
  intro t t' x drops hread
  cases drops with
  | member =>
    obtain ⟨v, -, hrest⟩ := (readMembers_field_iff independent known).mp hread
    have hchanged := readMembers_of_change hrest spares (List.nil_subset _)
    rwa [own] at hchanged
  | inMember inside => nomatch inside

/-- What is missing inside a member changes the value of its field. -/
theorem loses_inMember {inner : α → α} {path : List Tree.Key}
    (independent : Field.Independent fields) (known : fields[i]? = some (.of name read put))
    (spares : ∀ field ∈ fields, field.Spares [name] change)
    (own : ∀ v, change (put v standard) = put (inner v) standard)
    (inside : Loses read path inner) (deeper : path ≠ []) :
    Loses (readRecord wanted fields standard) (.member name :: path) change := by
  intro t t' x drops hread
  cases drops with
  | member => exact absurd rfl deeper
  | inMember drops =>
    obtain ⟨v, hv, hrest⟩ := (readMembers_field_iff independent known).mp hread
    have hchanged := readMembers_of_change hrest spares (List.Subset.refl _)
    rw [own] at hchanged
    exact (readMembers_field_iff independent known).mpr ⟨inner v, inside drops hv, hchanged⟩

theorem loses_inItem {inner : α → α} {path : List Tree.Key} {index : Nat}
    (inside : Loses read path inner) :
    Loses (readSequence read) (.item index :: path) (·.modify index inner) := by
  intro t t' xs drops hread
  cases drops with
  | inItem place drops =>
    subst place
    exact readEach_of_change (fun x hx => inside drops hx) hread

end Records

/-! ## Fields of the settings -/

-- In each record the member of the slot itself need not be spared, and what the other fields put is
-- another part of the record.

theorem ThemeSettings.Slot.loses (slot : ThemeSettings.Slot) :
    Loses readTheme [.member slot.field] slot.reset := by
  have hspares : ∀ field ∈ fields, field.Spares [slot.field] slot.reset := by
    simp only [fields, List.forall_mem_cons, List.not_mem_nil, false_imp_iff, implies_true,
      and_true]
    cases slot <;> refine ⟨?_, ?_, ?_, ?_⟩ <;>
      first | exact Field.spares_of_mem List.mem_cons_self | exact Field.spares_of fun _ _ => rfl
  cases slot with
  | name => exact loses_member independent (i := 0) rfl hspares fun _ => rfl
  | background => exact loses_member independent (i := 1) rfl hspares fun _ => rfl
  | foreground => exact loses_member independent (i := 2) rfl hspares fun _ => rfl
  | colors => exact loses_member independent (i := 3) rfl hspares fun _ => rfl

theorem LoggingSettings.Slot.loses (slot : LoggingSettings.Slot) :
    Loses (readRecord .logging LoggingSettings.fields .standard) [.member slot.field]
      slot.reset := by
  have hspares : ∀ field ∈ fields, field.Spares [slot.field] slot.reset := by
    simp only [fields, List.forall_mem_cons, List.not_mem_nil, false_imp_iff, implies_true,
      and_true]
    rcases slot with _ | (_ | _ | _) <;> refine ⟨?_, ?_, ?_, ?_⟩ <;>
      first | exact Field.spares_of_mem List.mem_cons_self | exact Field.spares_of fun _ _ => rfl
  cases slot with
  | level => exact loses_member independent (i := 0) rfl hspares fun _ => rfl
  | override p =>
    cases p with
    | lexer => exact loses_member independent (i := 1) rfl hspares fun _ => rfl
    | parser => exact loses_member independent (i := 2) rfl hspares fun _ => rfl
    | highlight => exact loses_member independent (i := 3) rfl hspares fun _ => rfl

theorem loses_maxNestingDepth :
    Loses (readRecord .limits LimitSettings.fields .standard) [.member "max_nesting_depth"]
      fun s => { s with maxNestingDepth := LimitSettings.standard.maxNestingDepth } :=
  loses_member LimitSettings.independent (i := 0) rfl
    (List.forall_mem_singleton.mpr (Field.spares_of_mem List.mem_cons_self)) fun _ => rfl

theorem HighlightSettings.Slot.loses (slot : HighlightSettings.Slot) :
    Loses (readRecord .highlight HighlightSettings.fields .standard) slot.path slot.reset := by
  have hspares (name : String) (h : slot.path.head? = some (.member name)) :
      ∀ field ∈ fields, field.Spares [name] slot.reset := by
    simp only [fields, List.forall_mem_cons, List.not_mem_nil, false_imp_iff, implies_true,
      and_true]
    cases slot <;> cases h <;> refine ⟨?_, ?_⟩ <;>
      first | exact Field.spares_of_mem List.mem_cons_self | exact Field.spares_of fun _ _ => rfl
  cases slot with
  | theme => exact loses_member independent (i := 0) rfl (hspares _ rfl) fun _ => rfl
  | themes => exact loses_member independent (i := 1) rfl (hspares _ rfl) fun _ => rfl
  | ofTheme index slot =>
    exact loses_inMember independent (i := 1) rfl (hspares _ rfl) (fun _ => rfl)
      (loses_inItem slot.loses) (List.cons_ne_nil _ _)

theorem Settings.Slot.loses (slot : Settings.Slot) : Loses readSettings slot.path slot.reset := by
  have hspares (name : String) (h : slot.path.head? = some (.member name)) :
      ∀ field ∈ fields, field.Spares [name] slot.reset := by
    simp only [fields, List.forall_mem_cons, List.not_mem_nil, false_imp_iff, implies_true,
      and_true]
    cases slot <;> cases h <;> refine ⟨?_, ?_, ?_⟩ <;>
      first | exact Field.spares_of_mem List.mem_cons_self | exact Field.spares_of fun _ _ => rfl
  cases slot with
  | logging => exact loses_member independent (i := 0) rfl (hspares _ rfl) fun _ => rfl
  | limits => exact loses_member independent (i := 1) rfl (hspares _ rfl) fun _ => rfl
  | highlight => exact loses_member independent (i := 2) rfl (hspares _ rfl) fun _ => rfl
  | ofLogging slot =>
    exact loses_inMember independent (i := 0) rfl (hspares _ rfl) (fun _ => rfl) slot.loses
      (List.cons_ne_nil _ _)
  | maxNestingDepth =>
    exact loses_inMember independent (i := 1) rfl (hspares _ rfl) (fun _ => rfl)
      loses_maxNestingDepth (List.cons_ne_nil _ _)
  | ofHighlight slot =>
    have hpath : slot.path ≠ [] := by cases slot <;> exact List.cons_ne_nil _ _
    exact loses_inMember independent (i := 2) rfl (hspares _ rfl) (fun _ => rfl) slot.loses hpath

end SyntaxPaint
