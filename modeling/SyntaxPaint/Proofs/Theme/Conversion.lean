import SyntaxPaint.Proofs.Color.Hex
import SyntaxPaint.Proofs.Text.ByteOrder
import SyntaxPaint.Proofs.Theme.FirstFault
import SyntaxPaint.Theme.Settings
/-!
# Themes and the settings that write them

The settings of a theme are checked item by item: the name, the two grounds, and then the colours in
the order of the bytes of their keys, each with its kind before its value. Settings without a faulty
item are read as a theme, in which a kind has the colour of the greatest key that spells it; of all
others the first faulty item is reported.
-/
namespace SyntaxPaint

/-! ## Kinds by name -/

namespace Kind

variable {k : Kind} {s : String}

theorem ofName?_eq_some_iff : ofName? s = some k ↔ sameName k.name s = true := by
  refine ⟨sameName_of_ofName?, fun h => ?_⟩
  have hfolded : ofName? s = ofName? k.name := by
    simp only [ofName?, sameName, sameName_iff.mp h]
  rw [hfolded, ofName?_name]

theorem ofName_eq_ok_iff : ofName s = .ok k ↔ sameName k.name s = true := by
  rw [← ofName?_eq_some_iff, ofName]
  cases ofName? s <;> simp

theorem ofName_eq_error_iff {e : UnknownKindName} :
    ofName s = .error e ↔ (∀ k : Kind, sameName k.name s = false) ∧ e = ⟨s⟩ := by
  have hnone : ofName? s = none ↔ ∀ k : Kind, sameName k.name s = false := by
    simp [ofName?, mem_all]
  rw [← hnone, ofName]
  cases ofName? s <;> simp [eq_comm]

end Kind

/-! ## Faulty items -/

/-- What the settings of a theme write, place by place. -/
inductive ThemeItem where
  | name (written : String)
  | ground (field written : String)
  | kind (key : String)
  | color (key written : String)

/-- The items in the order in which they are checked. -/
def ThemeSettings.items (s : ThemeSettings) : List ThemeItem :=
  .name s.name :: .ground "background" s.background :: .ground "foreground" s.foreground ::
    s.colors.entries.flatMap fun entry => [.kind entry.1, .color entry.1 entry.2]

namespace ThemeItem

/-- What is wrong with an item, and how it is reported for a theme of some name. -/
inductive Offends (theme : String) : ThemeItem → ThemeError → Prop
  | noName {written : String} (blank : IsAllBlank written) :
    Offends theme (.name written) .missingName
  | noGround {field written : String} (blank : IsAllBlank written) :
    Offends theme (.ground field written) (.missingColor theme field)
  | badGround {field written : String} {cause : ColorError} (set : ¬ IsAllBlank written)
    (unread : Color.read written = .error cause) :
    Offends theme (.ground field written) (.invalidColor theme field cause)
  | badKind {key : String} (unknown : ∀ k : Kind, sameName k.name key = false) :
    Offends theme (.kind key) (.unknownKind theme ⟨key⟩)
  | badColor {key written : String} {cause : ColorError}
    (unread : Color.read written = .error cause) :
    Offends theme (.color key written) (.invalidColor theme key cause)

variable {theme field key written : String} {e : ThemeError}

theorem offends_name_iff :
    Offends theme (.name written) e ↔ IsAllBlank written ∧ e = .missingName := by
  constructor
  · rintro (blank | _)
    exact ⟨blank, rfl⟩
  · rintro ⟨blank, rfl⟩
    exact .noName blank

theorem readGround_eq_error_iff :
    Theme.readGround theme field written = .error e ↔ Offends theme (.ground field written) e := by
  rw [Theme.readGround]
  by_cases hblank : IsAllBlank written
  · rw [if_pos (trimmed_eq_empty_iff.mpr hblank), Except.error.injEq]
    constructor
    · rintro rfl
      exact .noGround hblank
    · rintro (_ | _ | ⟨set, -⟩)
      · rfl
      · exact absurd hblank set
  · rw [if_neg (mt trimmed_eq_empty_iff.mp hblank), mapError_eq_error_iff]
    constructor
    · rintro ⟨cause, unread, rfl⟩
      exact .badGround hblank unread
    · rintro (_ | blank | ⟨-, unread⟩)
      · exact absurd blank hblank
      · exact ⟨_, unread, rfl⟩

theorem readKind_eq_error_iff : (Kind.ofName key).mapError (.unknownKind theme) = .error e ↔
    Offends theme (.kind key) e := by
  simp only [mapError_eq_error_iff, Kind.ofName_eq_error_iff]
  constructor
  · rintro ⟨_, ⟨unknown, rfl⟩, rfl⟩
    exact .badKind unknown
  · rintro (_ | _ | _ | unknown)
    exact ⟨_, ⟨unknown, rfl⟩, rfl⟩

theorem readColor_eq_error_iff :
    (Color.read written).mapError (.invalidColor theme key) = .error e ↔
    Offends theme (.color key written) e := by
  rw [mapError_eq_error_iff]
  constructor
  · rintro ⟨cause, unread, rfl⟩
    exact .badColor unread
  · rintro (_ | _ | _ | _ | unread)
    exact ⟨_, unread, rfl⟩

end ThemeItem

namespace Theme

open ThemeItem

variable {s : ThemeSettings} {t t' : Theme} {theme : String} {entry : String × String}
  {entries : List (String × String)} {e : ThemeError}

theorem readEntry_eq_error_iff : readEntry theme entry = .error e ↔
    FirstFault (Offends theme) [.kind entry.1, .color entry.1 entry.2] e := by
  refine bind_eq_error_iff_firstFault (fun _ => readKind_eq_error_iff) fun kind _ => ?_
  refine bind_eq_error_iff_firstFault (fun _ => readColor_eq_error_iff) fun color _ => ?_
  simp [pure, Except.pure]

theorem addEntries_eq_error_iff : t.addEntries entries = .error e ↔
    FirstFault (fun entry e => readEntry t.name entry = .error e) entries e := by
  induction entries generalizing t with
  | nil => simp [addEntries]
  | cons entry entries ih =>
    rw [addEntries]
    exact bind_eq_error_iff_firstFault (fun _ => Iff.rfl) fun mapped _ => ih

/-- Settings that cannot be read are reported by their first faulty item. -/
theorem ofSettings_eq_error_iff : ofSettings s = .error e ↔
    FirstFault (Offends (trimmed s.name)) s.items e := by
  rw [ofSettings, ThemeSettings.items]
  by_cases hblank : IsAllBlank s.name
  · rw [if_pos (trimmed_eq_empty_iff.mpr hblank), Except.error.injEq]
    simp only [firstFault_cons_iff, offends_name_iff, hblank]
    simp [eq_comm]
  · rw [if_neg (mt trimmed_eq_empty_iff.mp hblank), firstFault_cons_iff]
    simp only [offends_name_iff, hblank, false_and, not_false_eq_true, implies_true, true_and,
      false_or]
    refine bind_eq_error_iff_firstFault (fun _ => readGround_eq_error_iff) fun background _ => ?_
    refine bind_eq_error_iff_firstFault (fun _ => readGround_eq_error_iff) fun foreground _ => ?_
    rw [addEntries_eq_error_iff, firstFault_flatMap_iff]
    simp only [readEntry_eq_error_iff]
    rfl

theorem readGround_eq_ok_iff {field written : String} {c : Color} :
    readGround theme field written = .ok c ↔ Color.read written = .ok c := by
  rw [readGround]
  by_cases hblank : IsAllBlank written
  · simp [trimmed_eq_empty_iff.mpr hblank, Color.read_of_isAllBlank hblank]
  · rw [if_neg (mt trimmed_eq_empty_iff.mp hblank), mapError_eq_ok_iff]

theorem readEntry_eq_ok_iff {k : Kind} {c : Color} : readEntry theme entry = .ok (k, c) ↔
    sameName k.name entry.1 = true ∧ Color.read entry.2 = .ok c := by
  simp only [readEntry, bind_eq_ok_iff, mapError_eq_ok_iff, Kind.ofName_eq_ok_iff, pure,
    Except.pure, Except.ok.injEq, Prod.mk.injEq]
  constructor
  · rintro ⟨_, spells, _, reads, rfl, rfl⟩
    exact ⟨spells, reads⟩
  · rintro ⟨spells, reads⟩
    exact ⟨k, spells, c, reads, rfl, rfl⟩

theorem exists_ofSettings_iff : (∃ t, ofSettings s = .ok t) ↔
    trimmed s.name ≠ "" ∧ (∃ c, Color.read s.background = .ok c) ∧
    (∃ c, Color.read s.foreground = .ok c) ∧
    ∀ entry ∈ s.colors.entries, (∃ k : Kind, sameName k.name entry.1 = true) ∧
      ∃ c, Color.read entry.2 = .ok c := by
  have hground (field written : String) :
      (∀ e, ¬ Offends (trimmed s.name) (.ground field written) e) ↔
        ∃ c, Color.read written = .ok c := by
    simp only [← readGround_eq_error_iff, ← exists_eq_ok_iff, readGround_eq_ok_iff]
  have hkind (key : String) : (∀ e, ¬ Offends (trimmed s.name) (.kind key) e) ↔
      ∃ k : Kind, sameName k.name key = true := by
    simp only [← readKind_eq_error_iff, ← exists_eq_ok_iff, mapError_eq_ok_iff,
      Kind.ofName_eq_ok_iff]
  have hcolor (key written : String) :
      (∀ e, ¬ Offends (trimmed s.name) (.color key written) e) ↔
        ∃ c, Color.read written = .ok c := by
    simp only [← readColor_eq_error_iff, ← exists_eq_ok_iff, mapError_eq_ok_iff]
  have hsound : (∃ t, ofSettings s = .ok t) ↔
      ∀ item ∈ s.items, ∀ e, ¬ Offends (trimmed s.name) item e := by
    rw [exists_eq_ok_iff, ← not_exists]
    simp only [ofSettings_eq_error_iff, exists_firstFault_iff]
    simp
  rw [hsound, ThemeSettings.items]
  simp only [List.forall_mem_cons, List.forall_mem_flatMap, hground, hkind, hcolor]
  simp [offends_name_iff, trimmed_eq_empty_iff]

end Theme

/-! ## Colours of kinds -/

/-- The entry that gives a kind its colour: of those whose key spells the kind, the one with the
greatest key. -/
structure ThemeSettings.Decides (s : ThemeSettings) (k : Kind) (entry : String × String) :
    Prop where
  listed : entry ∈ s.colors.entries
  spells : sameName k.name entry.1 = true
  greatest : ∀ other ∈ s.colors.entries, sameName k.name other.1 = true →
    other = entry ∨ BytesBefore other.1 entry.1

/-- The last of some entries whose key spells a kind. -/
def lastSpelling (k : Kind) (entries : List (String × String)) : Option (String × String) :=
  entries.reverse.find? fun entry => sameName k.name entry.1

section Spelling

variable {s : ThemeSettings} {k : Kind} {entry : String × String}
  {entries : List (String × String)}

theorem lastSpelling_cons : lastSpelling k (entry :: entries) =
    (lastSpelling k entries).or (if sameName k.name entry.1 then some entry else none) := by
  simp [lastSpelling, List.find?_append, List.find?_singleton]

theorem lastSpelling_eq_none_iff : lastSpelling k entries = none ↔
    ∀ entry ∈ entries, sameName k.name entry.1 = false := by
  simp [lastSpelling]

theorem decides_of_lastSpelling (h : lastSpelling k s.colors.entries = some entry) :
    s.Decides k entry := by
  have hfound := List.find?_eq_some_iff_append.mp h
  obtain ⟨spells, behind, before, hsplit, hbehind⟩ := hfound
  have hentries : s.colors.entries = before.reverse ++ entry :: behind.reverse := by
    rw [← List.reverse_reverse s.colors.entries, hsplit]
    simp
  have hascending := s.colors.pairwise_bytesBefore
  rw [hentries, List.pairwise_append] at hascending
  refine ⟨by simp [hentries], spells, fun other hother hspells => ?_⟩
  rw [hentries, List.mem_append, List.mem_cons] at hother
  rcases hother with hother | rfl | hother
  · exact .inr (hascending.2.2 other hother entry List.mem_cons_self)
  · exact .inl rfl
  · have hnone := hbehind other (List.mem_reverse.mp hother)
    simp [hspells] at hnone

end Spelling

namespace Theme

open ThemeItem

variable {s : ThemeSettings} {t t' : Theme} {entries : List (String × String)}

theorem of_addEntries (h : t.addEntries entries = .ok t') :
    t'.name = t.name ∧ t'.background = t.background ∧ t'.foreground = t.foreground ∧
    ∀ k, (∃ entry c, lastSpelling k entries = some entry ∧ Color.read entry.2 = .ok c ∧
        t'.colors k = some c) ∨
      lastSpelling k entries = none ∧ t'.colors k = t.colors k := by
  induction entries generalizing t with
  | nil =>
    obtain rfl := Except.ok.inj h
    exact ⟨rfl, rfl, rfl, fun k => .inr ⟨rfl, rfl⟩⟩
  | cons entry entries ih =>
    rw [addEntries, bind_eq_ok_iff] at h
    obtain ⟨⟨kind, color⟩, hentry, hrest⟩ := h
    obtain ⟨hkind, hcolor⟩ := readEntry_eq_ok_iff.mp hentry
    obtain ⟨hname, hbackground, hforeground, hcolors⟩ := ih hrest
    refine ⟨hname, hbackground, hforeground, fun k => ?_⟩
    rw [lastSpelling_cons]
    rcases hcolors k with ⟨later, c, hlater, hread, hmapped⟩ | ⟨hlater, hmapped⟩
    · exact .inl ⟨later, c, by simp [hlater], hread, hmapped⟩
    · have hspells : sameName k.name entry.1 = true ↔ k = kind := by
        rw [← Kind.ofName?_eq_some_iff, Kind.ofName?_eq_some_iff.mpr hkind, Option.some.injEq,
          eq_comm]
      by_cases hk : k = kind
      · subst hk
        refine .inl ⟨entry, color, by simp [hlater, hspells], hcolor, ?_⟩
        simp [hmapped, withColor]
      · refine .inr ⟨by simp [hlater, hspells, hk], ?_⟩
        simp [hmapped, withColor, hk]

/-- What settings give to the theme that they are read as. -/
theorem of_ofSettings (h : ofSettings s = .ok t) :
    t.name = trimmed s.name ∧ Color.read s.background = .ok t.background ∧
    Color.read s.foreground = .ok t.foreground ∧
    ∀ k, (∃ entry c, s.Decides k entry ∧ Color.read entry.2 = .ok c ∧ t.colors k = some c) ∨
      (∀ entry ∈ s.colors.entries, sameName k.name entry.1 = false) ∧ t.colors k = none := by
  have hnamed : trimmed s.name ≠ "" := (exists_ofSettings_iff.mp ⟨t, h⟩).1
  rw [ofSettings, if_neg hnamed, bind_eq_ok_iff] at h
  obtain ⟨background, hbackground, h⟩ := h
  rw [bind_eq_ok_iff] at h
  obtain ⟨foreground, hforeground, h⟩ := h
  obtain ⟨hname, hback, hfore, hcolors⟩ := of_addEntries h
  rw [readGround_eq_ok_iff] at hbackground hforeground
  refine ⟨hname, by rw [hback, hbackground, plain], by rw [hfore, hforeground, plain],
    fun k => ?_⟩
  rcases hcolors k with ⟨entry, c, hlast, hread, hmapped⟩ | ⟨hnone, hmapped⟩
  · exact .inl ⟨entry, c, decides_of_lastSpelling hlast, hread, hmapped⟩
  · exact .inr ⟨lastSpelling_eq_none_iff.mp hnone, hmapped⟩

/-- Settings are read as a theme exactly when their name is not blank, their grounds are colours, and
every entry has a key that spells a kind and a value that is a colour. The theme has the name
without the blanks around it and the grounds; it maps the kinds that are spelled, each to the value
of the greatest key that spells it, and draws all others in the foreground. What cannot be read is
reported by its first faulty item, where the keys stand in the order of their bytes. -/
theorem ofSettings_exact (s : ThemeSettings) :
    ((∃ t, ofSettings s = .ok t) ↔
      trimmed s.name ≠ "" ∧ (∃ c, Color.read s.background = .ok c) ∧
      (∃ c, Color.read s.foreground = .ok c) ∧
      ∀ entry ∈ s.colors.entries, (∃ k : Kind, sameName k.name entry.1 = true) ∧
        ∃ c, Color.read entry.2 = .ok c) ∧
    (∀ t, ofSettings s = .ok t →
      t.name = trimmed s.name ∧ Color.read s.background = .ok t.background ∧
      Color.read s.foreground = .ok t.foreground ∧
      ∀ k, (∃ entry, s.Decides k entry ∧ Color.read entry.2 = .ok (t.colorFor k) ∧
          t.colors k = some (t.colorFor k)) ∨
        (∀ entry ∈ s.colors.entries, sameName k.name entry.1 = false) ∧
          t.colors k = none ∧ t.colorFor k = t.foreground) ∧
    (∀ e, ofSettings s = .error e ↔ FirstFault (Offends (trimmed s.name)) s.items e) ∧
    s.colors.entries.Pairwise fun a b => BytesBefore a.1 b.1 := by
  refine ⟨exists_ofSettings_iff, fun t h => ?_, fun e => ofSettings_eq_error_iff,
    s.colors.pairwise_bytesBefore⟩
  obtain ⟨hname, hbackground, hforeground, hcolors⟩ := of_ofSettings h
  refine ⟨hname, hbackground, hforeground, fun k => ?_⟩
  rcases hcolors k with ⟨entry, c, hdecides, hread, hmapped⟩ | ⟨hnone, hmapped⟩
  · have hc : t.colorFor k = c := by simp [colorFor, hmapped]
    exact .inl ⟨entry, hdecides, by rw [hc, hread], by rw [hc, hmapped]⟩
  · exact .inr ⟨hnone, hmapped, by simp [colorFor, hmapped]⟩

-- Small letters come behind capitals, so the key that was written first counts.
example :
    let colors := Dictionary.ofList [("keyword", "red"), ("KEYWORD", "green")]
    (ofSettings ⟨"Sea", "black", "white", colors⟩).toOption.map (colorFor · .keyword) =
      some .red := by
  decide +kernel

end Theme
end SyntaxPaint
