import SyntaxPaint.Proofs.Color.Canonical
import SyntaxPaint.Proofs.Command.Exit
/-!
# The listing of themes

A session holds one theme under each name, so the theme in use is the only one of its name and gets
the only mark of the listing.
-/
namespace SyntaxPaint

/-! ## Lines -/

theorem splitOn_printed {lines : List (List Char)} (h : ∀ line ∈ lines, '\n' ∉ line) :
    (printed lines).splitOn '\n' = lines ++ [[]] := by
  induction lines with
  | nil => rfl
  | cons line lines ih =>
    obtain ⟨hline, hlines⟩ := List.forall_mem_cons.mp h
    have hprinted : printed (line :: lines) = line ++ '\n' :: printed lines := by
      simp [printed]
    have hinside : ∀ c ∈ line, (c == '\n') = false := by
      intro c hc
      rw [beq_eq_false_iff_ne]
      rintro rfl
      exact hline hc
    rw [hprinted, List.splitOn, List.splitOnP_append_cons_of_forall_mem hinside _ (by simp)]
    exact congrArg (line :: ·) (ih hlines)

/-- What the listing says about a theme: its name and its two grounds. -/
def Theme.listed (t : Theme) : List Char :=
  padRight 12 t.name.toList ++ " background ".toList ++ t.background.hex.toList ++
    "  foreground ".toList ++ t.foreground.hex.toList

theorem themeRow_eq (active : String) (t : Theme) :
    themeRow active t = (if sameName t.name active then '*' else ' ') :: ' ' :: t.listed := by
  simp [themeRow, Theme.listed]

theorem infix_themeRow (active : String) (t : Theme) :
    t.name.toList <:+: themeRow active t ∧
    "background ".toList ++ t.background.hex.toList <:+: themeRow active t ∧
    "foreground ".toList ++ t.foreground.hex.toList <:+: themeRow active t := by
  let mark : Char := if sameName t.name active then '*' else ' '
  let padding := List.replicate (12 - t.name.toList.length) ' ' ++ [' ']
  let background := "background ".toList ++ t.background.hex.toList
  let foreground := "foreground ".toList ++ t.foreground.hex.toList
  have hrow : themeRow active t = [mark, ' '] ++ t.name.toList ++
      (padding ++ background ++ "  ".toList ++ foreground) := by
    simp [themeRow, padRight, mark, padding, background, foreground]
  refine ⟨?name, ?background, ?foreground⟩
  case name =>
    rw [hrow]
    exact List.infix_append _ _ _
  case background =>
    refine ⟨[mark, ' '] ++ t.name.toList ++ padding, "  ".toList ++ foreground, ?_⟩
    simp only [hrow, background, List.append_assoc]
  case foreground =>
    refine ⟨[mark, ' '] ++ t.name.toList ++ padding ++ background ++ "  ".toList, [], ?_⟩
    simp only [hrow, foreground, List.append_assoc, List.append_nil]

theorem Color.newline_not_mem_hex (c : Color) : '\n' ∉ c.hex.toList := by
  obtain ⟨digits, hash, upper, -⟩ := canonical_hex c
  rw [hash, List.mem_cons, not_or]
  refine ⟨by decide, fun hmem => ?_⟩
  exact absurd (upper _ hmem) (by decide)

theorem newline_not_mem_themeRow {t : Theme} (h : '\n' ∉ t.name.toList) (active : String) :
    '\n' ∉ themeRow active t := by
  have hmark : '\n' ≠ if sameName t.name active then '*' else ' ' := by
    split <;> decide
  have hname : '\n' ∉ padRight 12 t.name.toList := by
    simp [padRight, h]
  rw [themeRow_eq, Theme.listed]
  simp only [List.mem_cons, List.mem_append, not_or]
  exact ⟨hmark, by decide, ⟨⟨⟨hname, by decide⟩, t.background.newline_not_mem_hex⟩, by decide⟩,
    t.foreground.newline_not_mem_hex⟩

/-! ## Marks -/

namespace Registry

variable {r : Registry} {known : List Theme} {active t : Theme} {i k : Nat}

/-- Only the theme in the place of the active one has its name. -/
theorem Represents.sameName_iff_place (h : r.Represents known) (place : r.themes[k]? = some active)
    (other : r.themes[i]? = some t) : sameName t.name active.name = true ↔ i = k := by
  constructor
  · intro same
    obtain ⟨hi, -⟩ := List.getElem?_eq_some_iff.mp other
    have hkeys : (r.themes.map Theme.key)[i]? = (r.themes.map Theme.key)[k]? := by
      rw [List.getElem?_map, List.getElem?_map, other, place]
      exact congrArg some (sameName_iff.mp same)
    exact (List.getElem?_inj (by simpa using hi) h.distinct).mp hkeys
  · rintro rfl
    obtain rfl := Option.some.inj (place.symm.trans other)
    exact sameName_refl _

theorem Represents.map_themeRow (h : r.Represents known) (place : r.themes[k]? = some active) :
    r.themes.map (themeRow active.name) =
      r.themes.mapIdx fun i t => (if i = k then '*' else ' ') :: ' ' :: t.listed := by
  apply List.ext_getElem?
  intro i
  rw [List.getElem?_map, List.getElem?_mapIdx]
  cases hother : r.themes[i]? with
  | none => rfl
  | some t => simp only [Option.map_some, themeRow_eq, h.sameName_iff_place place hother]

theorem Represents.countP_marked (h : r.Represents known) (listed : active ∈ r.themes) :
    (r.themes.map (themeRow active.name)).countP (·.head? == some '*') = 1 := by
  have hmark : (fun line : List Char => line.head? == some '*') ∘ themeRow active.name =
      (· == active.key) ∘ Theme.key := by
    funext t
    have hkey : (t.key == active.key) = sameName t.name active.name := rfl
    simp only [Function.comp_apply, themeRow_eq, List.head?_cons, hkey]
    cases sameName t.name active.name <;> rfl
  rw [List.countP_map, hmark, ← List.countP_map]
  exact List.count_eq_one_of_mem h.distinct (List.mem_map_of_mem listed)

end Registry

namespace Command

/-- A session starts if the settings offer the theme that they name. -/
theorem exists_session {o : ProgramOptions} {file : FileState} {s : Settings} {known : List Theme}
    (configured : o.Configures file s) (offered : s.Offers known)
    (found : ∃ t ∈ known, sameName t.name s.highlight.theme = true) :
    ∃ loaded session, loadSettings o file = .ok loaded ∧
      startSession loaded = .ok session ∧ session.registry.Represents known ∧
      session.registry.find? s.highlight.theme = some session.active := by
  obtain ⟨loaded, hload, -, hhighlight⟩ := loadSettings_of_configures configured
  have hoffered : loaded.Offers known := by rwa [Settings.Offers, hhighlight]
  obtain ⟨⟨u, hu, e, hfault⟩, -⟩ | ⟨known', r, hoffered', hr, hnamed⟩ := startSession_cases loaded
  · obtain ⟨ts, hts, -⟩ := hoffered
    obtain ⟨t, ht⟩ := exists_mapM_eq_ok_iff.mp ⟨ts, hts⟩ u hu
    cases ht.symm.trans hfault
  · obtain rfl := hoffered.unique hoffered'
    rw [hhighlight] at hnamed
    obtain ⟨hunknown, -⟩ | ⟨t, hfound, hstart⟩ := hnamed
    · obtain ⟨t, ht, hsame⟩ := found
      have hother := hr.find?_eq_none_iff.mp hunknown t ht
      rw [hsame] at hother
      cases hother
    · exact ⟨loaded, _, hload, hstart, hr, hfound⟩

/-- Where the settings can be read, their themes convert, one of all themes has the name that they
give, and no name is broken into lines, the listing ends well and has one line for each registered
theme, in the order of first registrations and with the presets' places in front. It tells the name
and the grounds of the theme that was registered last under the name, and one line is marked, in the
place of the theme in use, which is the last one of the name that the settings give. -/
theorem themes_listed (o : ProgramOptions) (around : Surroundings) {s : Settings}
    {known : List Theme} (configured : o.Configures around.config s) (offered : s.Offers known)
    (found : ∃ t ∈ known, sameName t.name s.highlight.theme = true)
    (unbroken : ∀ t ∈ known, '\n' ∉ t.name.toList)
    (logs : o.logFile.isSome = true → around.logOpens = true) :
    ∃ loaded session k, loadSettings o around.config = .ok loaded ∧
      startSession loaded = .ok session ∧
      let slots := session.registry.themes
      let out := themes.run o around
      let lines := out.output.splitOn '\n'
      slots.map Theme.key = (known.map Theme.key).eraseDups ∧
      (∀ t ∈ slots, lastNamed known t.name = some t) ∧
      (∃ d l rest, slots = d :: l :: rest ∧ sameName d.name "Dark" = true ∧
        sameName l.name "Light" = true) ∧
      lastNamed known s.highlight.theme = some session.active ∧
      slots[k]? = some session.active ∧ out.exit = 0 ∧ out.errors = [] ∧
      lines = slots.mapIdx (fun i t => (if i = k then '*' else ' ') :: ' ' :: t.listed) ++ [[]] ∧
      (∀ (i : Nat) (t : Theme), slots[i]? = some t → ∃ line, lines[i]? = some line ∧
        t.name.toList <:+: line ∧ "background ".toList ++ t.background.hex.toList <:+: line ∧
        "foreground ".toList ++ t.foreground.hex.toList <:+: line) ∧
      lines.countP (·.head? == some '*') = 1 := by
  obtain ⟨loaded, session, hload, hstart, hr, hactive⟩ := exists_session configured offered found
  have hlisted : session.active ∈ session.registry.themes := List.mem_of_find?_eq_some hactive
  obtain ⟨k, hk⟩ := List.mem_iff_getElem?.mp hlisted
  have hnewest : ∀ t ∈ session.registry.themes, lastNamed known t.name = some t := by
    intro t ht
    rw [← hr.newest]
    exact hr.mem_iff.mp ht
  have hrun : themes.run o around =
      ⟨0, printed (session.registry.themes.map (themeRow session.active.name)), []⟩ :=
    run_of_prints logs hload hstart (perform_themes hr around.source)
  have hrows : ∀ row ∈ session.registry.themes.map (themeRow session.active.name), '\n' ∉ row := by
    rw [List.forall_mem_map]
    intro t ht
    have hknown : t ∈ known := List.mem_reverse.mp (List.mem_of_find?_eq_some (hnewest t ht))
    exact newline_not_mem_themeRow (unbroken t hknown) _
  refine ⟨loaded, session, k, hload, hstart, ?_⟩
  intro slots out lines
  have hlines : lines = slots.map (themeRow session.active.name) ++ [[]] := by
    rw [← splitOn_printed hrows]
    exact congrArg (fun out : Outcome => out.output.splitOn '\n') hrun
  obtain ⟨ts, -, hpresets⟩ := offered
  refine ⟨hr.order, hnewest, hr.presets_first hpresets, ?_, hk, ?_, ?_, ?lines, ?shown, ?marked⟩
  · rw [← hr.newest]
    exact hactive
  · exact congrArg Outcome.exit hrun
  · exact congrArg Outcome.errors hrun
  case lines => rw [hlines, hr.map_themeRow hk]
  case shown =>
    intro i t ht
    refine ⟨themeRow session.active.name t, ?_, infix_themeRow _ t⟩
    have hrow : (slots.map (themeRow session.active.name))[i]? =
        some (themeRow session.active.name t) := by
      rw [List.getElem?_map, ht, Option.map_some]
    rw [hlines, List.getElem?_append_left (List.getElem?_eq_some_iff.mp hrow).1, hrow]
  case marked =>
    rw [hlines, List.countP_append, hr.countP_marked hlisted]
    rfl

/-- A theme of the user's own stands in the place of a preset, the other preset is in use under a
name in another case, and a half transparent ground is told with its alpha. -/
theorem themes_listed_shadowed :
    let config :=
      ("\x7b\"highlight\":\x7b\"theme\":\"LIGHT\",\"themes\":[" ++
        "\x7b\"name\":\" dARK \",\"background\":\"#102030\",\"foreground\":\"white\"\x7d," ++
        "\x7b\"name\":\"Solar\",\"background\":\"black\",\"foreground\":\"#80FFFFFF\"\x7d]" ++
        "\x7d\x7d").toList
    let s : Settings :=
      ⟨.standard, .standard, "LIGHT", [⟨" dARK ", "#102030", "white", .empty⟩,
        ⟨"Solar", "black", "#80FFFFFF", .empty⟩]⟩
    let known : List Theme :=
      [.dark, .light, .plain "dARK" ⟨16, 32, 48, 255⟩ .white,
        .plain "Solar" .black ⟨255, 255, 255, 128⟩]
    let o : ProgramOptions := ⟨none, none, none, none⟩
    let around : Surroundings := ⟨.ok config, true, .ok []⟩
    o.Configures around.config s ∧ s.Offers known ∧
      (∃ t ∈ known, sameName t.name s.highlight.theme = true) ∧
      (∀ t ∈ known, '\n' ∉ t.name.toList) ∧ (o.logFile.isSome = true → around.logOpens = true) ∧
      ∃ loaded session, loadSettings o around.config = .ok loaded ∧
        startSession loaded = .ok session ∧ session.active = .light ∧
        (themes.run o around).exit = 0 ∧
        ((themes.run o around).output.splitOn '\n').countP (·.head? == some '*') = 1 := by
  intro config s known o around
  have hconfigured : o.Configures around.config s := .read (by decide +kernel)
  have hoffered : s.Offers known := ⟨_, by rfl, rfl⟩
  have hfound : ∃ t ∈ known, sameName t.name s.highlight.theme = true := by decide
  have hunbroken : ∀ t ∈ known, '\n' ∉ t.name.toList := by decide
  have hlogs : o.logFile.isSome = true → around.logOpens = true := fun _ => rfl
  obtain ⟨loaded, session, -, hload, hstart, -, -, -, hactive, -, hexit, -, -, -, hmarked⟩ :=
    themes_listed o around hconfigured hoffered hfound hunbroken hlogs
  have hlight : lastNamed known "LIGHT" = some .light := rfl
  refine ⟨hconfigured, hoffered, hfound, hunbroken, hlogs, loaded, session, hload, hstart, ?_,
    hexit, hmarked⟩
  exact Option.some.inj (hactive.symm.trans hlight)

end Command
end SyntaxPaint
