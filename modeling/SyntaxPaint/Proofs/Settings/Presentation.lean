import SyntaxPaint.Proofs.Json.Tokens
import SyntaxPaint.Proofs.Settings.Deletion
/-!
# Settings in other words

What a text says about the settings does not depend on the blanks between its tokens, on the order
of the members of its records, or on members that are no fields. A missing member stands for the
standard value of its field.
-/
namespace SyntaxPaint

variable {t t' : Tree} {text : List Char} {s : Settings}

/-! ## Trees with texts -/

theorem Tree.Fills.unique (h : t.Fills text) (h' : t'.Fills text) : t = t' := by
  obtain ⟨_, -, hread⟩ := h.read_eq
  obtain ⟨_, -, hread'⟩ := h'.read_eq
  rw [hread] at hread'
  exact congrArg Prod.fst hread'

theorem Settings.parse_of_fills (h : t.Fills text) :
    Settings.parse text = .ok s ↔ readSettings t = .ok s := by
  rw [parse_eq_ok_iff]
  constructor
  · rintro ⟨t', h', hread⟩
    rwa [h.unique h']
  · exact fun hread => ⟨t, h, hread⟩

/-- The tree can be written, and all of its texts hold these settings. -/
def Tree.Holds (t : Tree) (s : Settings) : Prop :=
  (∃ text, t.Fills text) ∧ ∀ text, t.Fills text → Settings.parse text = .ok s

theorem Tree.holds_of_read (h : ∃ text, t.Fills text) (hread : readSettings t = .ok s) :
    t.Holds s := ⟨h, fun _ filled => (Settings.parse_of_fills filled).mpr hread⟩

theorem Schema.Step.exists_text {schema : Schema} (h : schema.Step t t')
    (written : ∃ text, t.Fills text) : ∃ text, t'.Fills text := by
  induction h with
  | permute perm =>
    rw [Json.exists_fills_object_iff] at written ⊢
    exact fun member hmember => written member (perm.mem_iff.mpr hmember)
  | insert unknown valid =>
    rw [Json.exists_fills_object_iff] at written ⊢
    rw [List.forall_mem_append] at written ⊢
    exact ⟨written.1, List.forall_mem_cons.mpr
      ⟨Json.exists_fillsMember_saying_iff.mpr valid, written.2⟩⟩
  | member known inside ih =>
    rw [Json.exists_fills_object_iff, List.forall_mem_append, List.forall_mem_cons,
      Json.exists_fillsMember_saying_iff] at written ⊢
    exact ⟨written.1, ih written.2.1, written.2.2⟩
  | item inside ih =>
    rw [Json.exists_fills_array_iff, List.forall_mem_append, List.forall_mem_cons] at written ⊢
    exact ⟨written.1, ih written.2.1, written.2.2⟩

theorem Tree.Drops.exists_text {path : List Tree.Key} (h : Tree.Drops path t t')
    (written : ∃ text, t.Fills text) : ∃ text, t'.Fills text := by
  induction h with
  | member =>
    rw [Json.exists_fills_object_iff, List.forall_mem_append] at written ⊢
    exact ⟨written.1, (List.forall_mem_cons.mp written.2).2⟩
  | inMember inside ih =>
    rw [Json.exists_fills_object_iff, List.forall_mem_append, List.forall_mem_cons,
      Json.exists_fillsMember_saying_iff] at written ⊢
    exact ⟨written.1, ih written.2.1, written.2.2⟩
  | inItem place inside ih =>
    rw [Json.exists_fills_array_iff, List.forall_mem_append, List.forall_mem_cons] at written ⊢
    exact ⟨written.1, ih written.2.1, written.2.2⟩

/-! ## Changes of settings -/

theorem Tree.Holds.of_steps (holds : t.Holds s)
    (steps : Relation.ReflTransGen Settings.schema.Step t t') : t'.Holds s := by
  induction steps with
  | refl => exact holds
  | tail _ step ih =>
    obtain ⟨⟨text, filled⟩, hparse⟩ := ih
    have hread := (Settings.parse_of_fills filled).mp (hparse text filled)
    exact Tree.holds_of_read (step.exists_text ⟨text, filled⟩)
      (Schema.suits_readSettings step hread)

/-- Settings are read alike however the tokens of their text are spaced, in whatever order the
members of their records stand, and whatever members with unknown names there are. Without the
member of a field, the field has its standard value and all others keep theirs. -/
theorem Settings.parse_presentation (h : Settings.parse text = .ok s) :
    (∃ t tokens, Tree.Tokens t tokens ∧ Spread tokens text) ∧
      ∀ t tokens, Tree.Tokens t tokens → Spread tokens text →
        (∀ text', Spread tokens text' → Settings.parse text' = .ok s) ∧
        (∀ t', Relation.ReflTransGen Settings.schema.Step t t' → t'.Holds s) ∧
        ∀ (slot : Settings.Slot) (t' : Tree), Tree.Drops slot.path t t' →
          t'.Holds (slot.reset s) := by
  constructor
  · obtain ⟨t, filled, -⟩ := parse_eq_ok_iff.mp h
    exact ⟨t, Tree.fills_iff_tokens.mp filled⟩
  · intro t tokens htokens hspread
    have filled : t.Fills text := htokens.fills hspread
    have hread : readSettings t = .ok s := (parse_of_fills filled).mp h
    refine ⟨fun text' hspread' => ?_, fun t' steps => ?_, fun slot t' drops => ?_⟩
    · exact (parse_of_fills (htokens.fills hspread')).mpr hread
    · exact (Tree.holds_of_read ⟨text, filled⟩ hread).of_steps steps
    · exact Tree.holds_of_read (drops.exists_text ⟨text, filled⟩) (slot.loses drops hread)

theorem Settings.parse_presentation_nested :
    Settings.parse (Json.object [("limits", .object [("max_nesting_depth", .number 8)]),
      ("logging", .object [])]).compact = .ok { Settings.standard with limits := ⟨8⟩ } ∧
    Settings.parse (Json.object [("logging", .object [("other", .array [])]),
      ("limits", .object [("max_nesting_depth", .number 8)])]).pretty =
        .ok { Settings.standard with limits := ⟨8⟩ } ∧
    Settings.parse (Json.object [("limits", .object []), ("logging", .object [])]).compact =
      .ok Settings.standard := by
  have hread : Settings.parse (Json.object [("limits", .object [("max_nesting_depth", .number 8)]),
      ("logging", .object [])]).compact = .ok { Settings.standard with limits := ⟨8⟩ } := rfl
  obtain ⟨tokens, htokens, hspread⟩ := (Json.fills_compact _).exists_tokens
  obtain ⟨-, hsteps, hdrops⟩ := (Settings.parse_presentation hread).2 _ tokens htokens hspread
  refine ⟨hread, (hsteps _ (.tail (.single (.permute (.swap _ _ _))) ?_)).2 _ (Json.fills_pretty _),
    (hdrops .maxNestingDepth _ ?_).2 _ (Json.fills_compact _)⟩
  · have hinsert : LoggingSettings.schema.Step (Json.object []).tree
        (Json.object [("other", .array [])]).tree :=
      @Schema.Step.insert _ "other" _ [] [] (by decide) ⟨_, Json.fills_compact (.array [])⟩
    exact @Schema.Step.member _ "logging" _ _ _ [] _ (by simp) hinsert
  · exact @Tree.Drops.inMember _ "limits" _ _ [] _ (@Tree.Drops.member _ _ [] [])

end SyntaxPaint
