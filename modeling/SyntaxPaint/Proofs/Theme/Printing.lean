import SyntaxPaint.Proofs.Text.Dictionary
import SyntaxPaint.Proofs.Theme.Conversion
/-!
# Printed themes

Every theme can be written as settings, with its colours in hexadecimal digits. Where its name has no
blanks at its ends, the settings are read as the theme itself.
-/
namespace SyntaxPaint

theorem Kind.eq_of_sameName {k l : Kind} (h : sameName k.name l.name = true) : k = l := by
  have hl := Kind.ofName?_eq_some_iff.mpr h
  rwa [Kind.ofName?_name, Option.some.injEq, eq_comm] at hl

namespace Theme

variable {t : Theme} {entry : String × String}

/-- What is written for the kinds that a theme maps. -/
def writtenColors (t : Theme) : List (String × String) :=
  Kind.all.filterMap fun k => (t.colors k).map fun c => (k.name, c.hex)

/-- The settings that write a theme. -/
def settings (t : Theme) : ThemeSettings where
  name := t.name
  background := t.background.hex
  foreground := t.foreground.hex
  colors := .ofList t.writtenColors

theorem mem_writtenColors_iff :
    entry ∈ t.writtenColors ↔ ∃ k c, t.colors k = some c ∧ entry = (k.name, c.hex) := by
  simp only [writtenColors, List.mem_filterMap, Kind.mem_all, true_and, Option.map_eq_some_iff,
    eq_comm (a := entry)]

theorem nodup_writtenColors (t : Theme) : (t.writtenColors.map Prod.fst).Nodup := by
  rw [writtenColors, List.map_filterMap]
  refine List.Nodup.filterMap ?_ (by decide)
  intro k l key hk hl
  simp only [Option.map_map, Option.mem_def, Option.map_eq_some_iff, Function.comp_apply] at hk hl
  obtain ⟨_, -, hk⟩ := hk
  obtain ⟨_, -, hl⟩ := hl
  apply Kind.eq_of_sameName
  rw [hk, hl, sameName_refl]

theorem mem_settings_colors_iff :
    entry ∈ t.settings.colors.entries ↔ ∃ k c, t.colors k = some c ∧ entry = (k.name, c.hex) := by
  rw [settings, Dictionary.mem_ofList_iff t.nodup_writtenColors, mem_writtenColors_iff]

theorem exists_ofSettings_settings (named : t.name ≠ "") (trims : trimmed t.name = t.name) :
    ∃ u, ofSettings t.settings = .ok u := by
  rw [exists_ofSettings_iff]
  refine ⟨trims ▸ named, ⟨_, Color.read_hex _⟩, ⟨_, Color.read_hex _⟩, fun entry hentry => ?_⟩
  obtain ⟨k, c, -, rfl⟩ := mem_settings_colors_iff.mp hentry
  exact ⟨⟨k, sameName_refl _⟩, c, Color.read_hex c⟩

theorem colors_of_ofSettings_settings {u : Theme} (h : ofSettings t.settings = .ok u) (k : Kind) :
    u.colors k = t.colors k := by
  obtain ⟨-, -, -, hcolors⟩ := of_ofSettings h
  rcases hcolors k with ⟨entry, c, hdecides, hread, hmapped⟩ | ⟨hnone, hunmapped⟩
  · obtain ⟨l, d, hl, rfl⟩ := mem_settings_colors_iff.mp hdecides.listed
    obtain rfl : k = l := Kind.eq_of_sameName hdecides.spells
    rw [Color.read_hex, Except.ok.injEq] at hread
    rw [hmapped, hl, hread]
  · cases hk : t.colors k with
    | none => exact hunmapped
    | some c =>
      have hspelled := hnone (k.name, c.hex) (mem_settings_colors_iff.mpr ⟨k, c, hk, rfl⟩)
      simp at hspelled

/-- A theme whose name is not empty and neither begins nor ends with a blank is read from the
settings that write it. These have an entry for each kind that the theme maps and no other. -/
theorem ofSettings_settings (t : Theme) (named : t.name ≠ "")
    (front : ∀ c ∈ t.name.toList.head?, isBlank c = false)
    (back : ∀ c ∈ t.name.toList.getLast?, isBlank c = false) :
    (∀ entry, entry ∈ t.settings.colors.entries ↔
      ∃ k c, t.colors k = some c ∧ entry = (k.name, c.hex)) ∧
    ofSettings t.settings = .ok t := by
  have htrims : trimmed t.name = t.name := trimmed_eq_self front back
  obtain ⟨u, hu⟩ := exists_ofSettings_settings named htrims
  obtain ⟨hname, hbackground, hforeground, -⟩ := of_ofSettings hu
  have hcolors : u.colors = t.colors := funext (colors_of_ofSettings_settings hu)
  have hsame : u.name = t.name := hname.trans htrims
  have hback : t.background = u.background :=
    Except.ok.inj ((Color.read_hex t.background).symm.trans hbackground)
  have hfore : t.foreground = u.foreground :=
    Except.ok.inj ((Color.read_hex t.foreground).symm.trans hforeground)
  refine ⟨fun entry => mem_settings_colors_iff, ?_⟩
  calc ofSettings t.settings = .ok ⟨u.name, u.background, u.foreground, u.colors⟩ := hu
    _ = .ok ⟨t.name, t.background, t.foreground, t.colors⟩ := by
      rw [hsame, hback, hfore, hcolors]
    _ = .ok t := rfl

/-- A translucent ground and a kind without colour are written with their alphas. -/
theorem ofSettings_settings_translucent :
    let t := (plain "Deep Sea" ⟨0, 16, 32, 128⟩ .white).withColor .comment ⟨1, 2, 3, 0⟩
    (t.name ≠ "" ∧ (∀ c ∈ t.name.toList.head?, isBlank c = false) ∧
      ∀ c ∈ t.name.toList.getLast?, isBlank c = false) ∧
    t.settings = ⟨"Deep Sea", "#80001020", "#FFFFFF", .ofList [("Comment", "#00010203")]⟩ ∧
    (∀ entry, entry ∈ t.settings.colors.entries ↔
      ∃ k c, t.colors k = some c ∧ entry = (k.name, c.hex)) ∧
    ofSettings t.settings = .ok t := by
  intro t
  have hnamed : t.name ≠ "" := by decide
  have hfront : ∀ c ∈ t.name.toList.head?, isBlank c = false := by
    have hfirst : t.name.toList.head? = some 'D' := by decide +kernel
    simp only [hfirst, Option.mem_some_iff, forall_eq']
    decide +kernel
  have hback : ∀ c ∈ t.name.toList.getLast?, isBlank c = false := by
    have hlast : t.name.toList.getLast? = some 'a' := by decide +kernel
    simp only [hlast, Option.mem_some_iff, forall_eq']
    decide +kernel
  exact ⟨⟨hnamed, hfront, hback⟩, by decide +kernel, ofSettings_settings t hnamed hfront hback⟩

end Theme
end SyntaxPaint
