import SyntaxPaint.Proofs.Json.Writing
import SyntaxPaint.Proofs.Settings.Records
/-!
# Where records stand in settings

The members of a record may change places, and members with unknown names may join them, without a
change of what is read. This holds for the records inside other values too.
-/
namespace SyntaxPaint

/-- What may stand at a place of the settings: a value that is read as a whole, a record with its
fields, or a list. -/
inductive Schema where
  | plain
  | record (fields : List (String × Schema))
  | list (item : Schema)

def LoggingSettings.schema : Schema :=
  .record [("level", .plain), ("lexer", .plain), ("parser", .plain), ("highlight", .plain)]

def LimitSettings.schema : Schema := .record [("max_nesting_depth", .plain)]

def ThemeSettings.schema : Schema :=
  .record [("name", .plain), ("background", .plain), ("foreground", .plain), ("colors", .plain)]

def HighlightSettings.schema : Schema :=
  .record [("theme", .plain), ("themes", .list ThemeSettings.schema)]

def Settings.schema : Schema :=
  .record [("logging", LoggingSettings.schema), ("limits", LimitSettings.schema),
    ("highlight", HighlightSettings.schema)]

/-- One change of a record, at any depth. -/
inductive Schema.Step : Schema → Tree → Tree → Prop
  /-- The members of an object change places. -/
  | permute {fields : List (String × Schema)} {members members' : List (Quoted × Tree)}
      (perm : members.Perm members') :
      Step (.record fields) (.object (.ofList members)) (.object (.ofList members'))
  /-- A member with an unknown name and any value joins an object. -/
  | insert {fields : List (String × Schema)} {name : String} {value : Tree}
      {front back : List (Quoted × Tree)} (unknown : name ∉ fields.map Prod.fst)
      (valid : ∃ text, value.Fills text) :
      Step (.record fields) (.object (.ofList (front ++ back)))
        (.object (.ofList (front ++ (.saying name, value) :: back)))
  | member {fields : List (String × Schema)} {name : String} {schema : Schema}
      {value value' : Tree} {front back : List (Quoted × Tree)} (known : (name, schema) ∈ fields)
      (inside : Step schema value value') :
      Step (.record fields) (.object (.ofList (front ++ (.saying name, value) :: back)))
        (.object (.ofList (front ++ (.saying name, value') :: back)))
  | item {schema : Schema} {value value' : Tree} {front back : List Tree}
      (inside : Step schema value value') :
      Step (.list schema) (.array (.ofList (front ++ value :: back)))
        (.array (.ofList (front ++ value' :: back)))

/-- Changes by the schema do not change what is read. -/
def Schema.Suits {α : Type} (schema : Schema) (read : Tree → Reading α) : Prop :=
  ∀ ⦃t t' : Tree⦄ ⦃x : α⦄, schema.Step t t' → read t = .ok x → read t' = .ok x

theorem Schema.suits_plain {α : Type} (read : Tree → Reading α) : plain.Suits read :=
  fun _ _ _ step => nomatch step

section Records

variable {ρ α : Type} {fields : List (Field ρ)} {schemas : List (String × Schema)}

theorem Schema.suits_of {schema : Schema} {name : String} {read : Tree → Reading α}
    {put : α → ρ → ρ} (h : schema.Suits read) : schema.Suits (Field.of name read put).set := by
  intro t t' p step hread
  obtain ⟨x, hx, rfl⟩ := map_eq_ok_iff.mp hread
  exact map_eq_ok_iff.mpr ⟨x, h step hx, rfl⟩

/-- A field of a record, and the schema of its values under its name. -/
def Field.Fits (field : Field ρ) (entry : String × Schema) : Prop :=
  field.name = entry.1 ∧ entry.2.Suits field.set

theorem Field.map_name_of_fits (h : List.Forall₂ Field.Fits fields schemas) :
    fields.map Field.name = schemas.map Prod.fst := by
  induction h with
  | nil => rfl
  | cons fits rest ih => simp [fits.1, ih]

theorem Field.suits_of_fits (h : List.Forall₂ Field.Fits fields schemas)
    (names : (fields.map Field.name).Nodup) {field : Field ρ} {schema : Schema}
    (hfield : field ∈ fields) (hschema : (field.name, schema) ∈ schemas) :
    schema.Suits field.set := by
  induction h with
  | nil => simp at hfield
  | @cons first entry fields schemas fits rest ih =>
    have hnames := Field.map_name_of_fits rest
    rw [List.map_cons, List.nodup_cons] at names
    rcases List.mem_cons.mp hfield with rfl | hfield
    · rcases List.mem_cons.mp hschema with rfl | hschema
      · exact fits.2
      · exact absurd (hnames ▸ List.mem_map_of_mem hschema) names.1
    · rcases List.mem_cons.mp hschema with rfl | hschema
      · exact absurd (fits.1 ▸ List.mem_map_of_mem hfield) names.1
      · exact ih names.2 hfield hschema

/-- A record is read alike however its members stand and whatever unknown ones there are. -/
theorem Schema.suits_readRecord {wanted : Wanted} {standard : ρ}
    (independent : Field.Independent fields) (h : List.Forall₂ Field.Fits fields schemas) :
    (record schemas).Suits (readRecord wanted fields standard) := by
  intro t t' x step hread
  have hnames := Field.map_name_of_fits h
  cases step with
  | permute perm => exact readMembers_of_perm independent perm hread
  | @insert _ name value front back unknown valid =>
    obtain ⟨text, filled⟩ := valid
    have hother : ∀ field ∈ fields, field.name ≠ name := fun field hfield hname =>
      unknown (hnames ▸ hname ▸ List.mem_map_of_mem hfield)
    exact (readMembers_middle_iff independent).mpr
      ⟨none, id, .unknown rfl hother filled.skipped_eq_none, hread⟩
  | @member _ name schema value value' front back known inside =>
    obtain ⟨known', put, reads, hrest⟩ := (readMembers_middle_iff independent).mp hread
    refine (readMembers_middle_iff independent).mpr ⟨known', put, ?_, hrest⟩
    cases reads with
    | unknown said other =>
      obtain rfl := Except.ok.inj said
      have hname : name ∈ fields.map Field.name := hnames ▸ List.mem_map_of_mem known
      obtain ⟨field, hfield, hname⟩ := List.mem_map.mp hname
      exact absurd hname (other field hfield)
    | known said found read =>
      obtain rfl := Except.ok.inj said
      have hsuits := Field.suits_of_fits h independent.names (List.mem_of_find?_eq_some found) known
      exact .known said found (hsuits inside read)

end Records

section Sequences

variable {α : Type} {read : Tree → Reading α} {value value' : Tree} {front back : List Tree}
  {xs : List α}

theorem readEach_of_change {change : α → α}
    (h : ∀ x, read value = .ok x → read value' = .ok (change x))
    (hread : readEach read (.ofList (front ++ value :: back)) = .ok xs) :
    readEach read (.ofList (front ++ value' :: back)) = .ok (xs.modify front.length change) := by
  induction front generalizing xs with
  | nil =>
    obtain ⟨x, hx, hread⟩ := bind_eq_ok_iff.mp hread
    obtain ⟨xs, hxs, hread⟩ := bind_eq_ok_iff.mp hread
    obtain rfl := Except.ok.inj hread
    exact bind_eq_ok_iff.mpr ⟨change x, h x hx, bind_eq_ok_iff.mpr ⟨xs, hxs, rfl⟩⟩
  | cons first front ih =>
    obtain ⟨x, hx, hread⟩ := bind_eq_ok_iff.mp hread
    obtain ⟨xs, hxs, hread⟩ := bind_eq_ok_iff.mp hread
    obtain rfl := Except.ok.inj hread
    exact bind_eq_ok_iff.mpr ⟨x, hx, bind_eq_ok_iff.mpr ⟨_, ih hxs, rfl⟩⟩

theorem Schema.suits_readSequence {schema : Schema} (h : schema.Suits read) :
    (list schema).Suits (readSequence read) := by
  intro t t' xs step hread
  cases step with
  | @item _ value value' front back inside =>
    have hsame : ∀ x, read value = .ok x → read value' = .ok (id x) := fun x hx => h inside hx
    have hchanged := readEach_of_change hsame hread
    rwa [List.modify_id] at hchanged

end Sequences

/-! ## Records of settings -/

theorem ThemeSettings.independent : Field.Independent ThemeSettings.fields where
  names := by decide
  commute := by
    simp only [fields, List.pairwise_cons, List.forall_mem_cons, List.not_mem_nil,
      false_imp_iff, implies_true, and_true, List.Pairwise.nil]
    refine ⟨⟨?_, ?_, ?_⟩, ⟨?_, ?_⟩, ?_⟩ <;> exact Field.commutes_of fun _ _ _ => rfl

theorem LoggingSettings.independent : Field.Independent LoggingSettings.fields where
  names := by decide
  commute := by
    simp only [fields, List.pairwise_cons, List.forall_mem_cons, List.not_mem_nil,
      false_imp_iff, implies_true, and_true, List.Pairwise.nil]
    refine ⟨⟨?_, ?_, ?_⟩, ⟨?_, ?_⟩, ?_⟩ <;> exact Field.commutes_of fun _ _ _ => rfl

theorem LimitSettings.independent : Field.Independent LimitSettings.fields where
  names := by decide
  commute := List.pairwise_singleton _ _

theorem HighlightSettings.independent : Field.Independent HighlightSettings.fields where
  names := by decide
  commute := List.pairwise_pair.mpr (Field.commutes_of fun _ _ _ => rfl)

theorem Settings.independent : Field.Independent Settings.fields where
  names := by decide
  commute := by
    simp only [fields, List.pairwise_cons, List.forall_mem_cons, List.not_mem_nil,
      false_imp_iff, implies_true, and_true, List.Pairwise.nil]
    refine ⟨⟨?_, ?_⟩, ?_⟩ <;> exact Field.commutes_of fun _ _ _ => rfl

namespace Schema

theorem suits_readTheme : ThemeSettings.schema.Suits readTheme :=
  suits_readRecord ThemeSettings.independent
    (.cons ⟨rfl, suits_plain _⟩ (.cons ⟨rfl, suits_plain _⟩ (.cons ⟨rfl, suits_plain _⟩
      (.cons ⟨rfl, suits_plain _⟩ .nil))))

theorem suits_readLogging :
    LoggingSettings.schema.Suits (readRecord .logging LoggingSettings.fields .standard) :=
  suits_readRecord LoggingSettings.independent
    (.cons ⟨rfl, suits_plain _⟩ (.cons ⟨rfl, suits_plain _⟩ (.cons ⟨rfl, suits_plain _⟩
      (.cons ⟨rfl, suits_plain _⟩ .nil))))

theorem suits_readLimits :
    LimitSettings.schema.Suits (readRecord .limits LimitSettings.fields .standard) :=
  suits_readRecord LimitSettings.independent (.cons ⟨rfl, suits_plain _⟩ .nil)

theorem suits_readHighlight :
    HighlightSettings.schema.Suits (readRecord .highlight HighlightSettings.fields .standard) :=
  suits_readRecord HighlightSettings.independent
    (.cons ⟨rfl, suits_plain _⟩
      (.cons ⟨rfl, suits_of (suits_readSequence suits_readTheme)⟩ .nil))

theorem suits_readSettings : Settings.schema.Suits readSettings :=
  suits_readRecord Settings.independent
    (.cons ⟨rfl, suits_of suits_readLogging⟩ (.cons ⟨rfl, suits_of suits_readLimits⟩
      (.cons ⟨rfl, suits_of suits_readHighlight⟩ .nil)))

end Schema
end SyntaxPaint
