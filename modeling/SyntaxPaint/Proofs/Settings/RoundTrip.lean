import SyntaxPaint.Proofs.Json.Writing
import SyntaxPaint.Proofs.Settings.Acceptance
import SyntaxPaint.Proofs.Text.Dictionary
import SyntaxPaint.Settings.Writer
/-!
# Settings written and read

Settings that are written are read back, whatever the level names, limits, theme names and colours
are, and however the text is laid out.
-/
namespace SyntaxPaint

/-! ## Values -/

@[simp] theorem Quoted.said_saying (s : String) : (Quoted.saying s).said = .ok s := rfl

@[simp] theorem readText_saying (s : String) : readText (.string (.saying s)) = .ok s := rfl

@[simp] theorem readLevel_json (level : Level) : readLevel level.json.tree = .ok level := by
  cases level <;> rfl

@[simp] theorem readOverride_json (level : Option Level) :
    readOverride (overrideJson level).tree = .ok level := by
  cases level with
  | none => rfl
  | some level => cases level <;> rfl

@[simp] theorem readCount_ofNat (n : UInt64) : readCount (.number (.ofNat n.toNat)) = .ok n := by
  rw [readCount, Numeral.value?_ofNat n.toNat_lt_size]
  simp

/-! ## Lists -/

theorem readEntries_written (entries : List (String × String)) (d : Dictionary) :
    readEntries (.ofList (entries.map fun e => (.saying e.1, .string (.saying e.2)))) d =
      .ok (entries.foldl (fun d e => d.insert e.1 e.2) d) := by
  induction entries generalizing d with
  | nil => rfl
  | cons entry entries ih => exact ih (d.insert entry.1 entry.2)

@[simp] theorem readDictionary_json (d : Dictionary) : readDictionary d.json.tree = .ok d := by
  have hentries := readEntries_written d.entries .empty
  rw [← Dictionary.ofList, Dictionary.ofList_entries] at hentries
  simpa [Dictionary.json, Json.tree, readDictionary, Function.comp_def] using hentries

theorem readEach_written {α : Type} {read : Tree → Reading α} {write : α → Tree}
    (h : ∀ x, read (write x) = .ok x) (xs : List α) :
    readEach read (.ofList (xs.map write)) = .ok xs := by
  induction xs with
  | nil => rfl
  | cons x xs ih => simp [Items.ofList, readEach, h, ih, bind, Except.bind, pure, Except.pure]

/-! ## Records -/

section Records

@[simp] theorem readRecord_object {ρ : Type} (wanted : Wanted) (fields : List (Field ρ))
    (standard : ρ) (members : Members) :
    readRecord wanted fields standard (.object members) =
      readMembers fields members [] standard := rfl

attribute [local simp] Json.tree Members.ofList readMembers Field.of bind Except.bind Except.map

@[simp] theorem readTheme_json (s : ThemeSettings) : readTheme s.json.tree = .ok s := by
  simp [ThemeSettings.json, readTheme, ThemeSettings.fields]

@[simp] theorem readLogging_json (s : LoggingSettings) :
    readRecord .logging LoggingSettings.fields .standard s.json.tree = .ok s := by
  simp [LoggingSettings.json, LoggingSettings.fields]

@[simp] theorem readLimits_json (s : LimitSettings) :
    readRecord .limits LimitSettings.fields .standard s.json.tree = .ok s := by
  simp [LimitSettings.json, LimitSettings.fields]

@[simp] theorem readHighlight_json (s : HighlightSettings) :
    readRecord .highlight HighlightSettings.fields .standard s.json.tree = .ok s := by
  have hthemes := readEach_written readTheme_json s.themes
  simp [HighlightSettings.json, HighlightSettings.fields, readSequence, Function.comp_def, hthemes]

theorem readSettings_json (s : Settings) : readSettings s.json.tree = .ok s := by
  simp [Settings.json, readSettings, Settings.fields]

end Records

/-- Settings that are written are read back, on one line as in a settings file or on several. -/
theorem Settings.parse_written (s : Settings) :
    Settings.parse s.text = .ok s ∧ Settings.parse s.json.pretty = .ok s := by
  have hread := readSettings_json s
  constructor
  · exact parse_eq_ok_iff.mpr ⟨s.json.tree, s.json.fills_compact, hread⟩
  · exact parse_eq_ok_iff.mpr ⟨s.json.tree, s.json.fills_pretty, hread⟩

/-- Every field is written, the levels by name, and `null` where a phase has none of its own. -/
example : (LoggingSettings.json ⟨.off, none, some .trace, none⟩).compact =
    "\x7b\"level\":\"off\",\"lexer\":null,\"parser\":\"trace\",\"highlight\":null\x7d".toList := rfl

end SyntaxPaint
