import SyntaxPaint.Proofs.Session.Runs
import SyntaxPaint.Proofs.Theme.Conversion
/-!
# Themes that come with settings

The themes of some settings are registered together or not at all. Where all of them are read, the
settings may name one of their own, of which the last one of the name counts, or else any theme that
was registered before them.
-/
namespace SyntaxPaint

/-- The last of some settings whose theme has a name is read as this theme. -/
def LastRead (themes : List ThemeSettings) (name : String) (t : Theme) : Prop :=
  ∃ front u later, themes = front ++ u :: later ∧ sameName (trimmed u.name) name = true ∧
    (∀ v ∈ later, sameName (trimmed v.name) name = false) ∧ Theme.ofSettings u = .ok t

section LastRead

variable {u : ThemeSettings} {us : List ThemeSettings} {t : Theme} {ts : List Theme}
  {name : String}

theorem not_lastRead_nil : ¬ LastRead [] name t := by
  rintro ⟨front, u, later, h, -⟩
  simp at h

theorem lastRead_cons_iff : LastRead (u :: us) name t ↔ LastRead us name t ∨
    sameName (trimmed u.name) name = true ∧
      (∀ v ∈ us, sameName (trimmed v.name) name = false) ∧ Theme.ofSettings u = .ok t := by
  constructor
  · rintro ⟨_ | ⟨v, front⟩, w, later, h, found⟩
    · obtain ⟨rfl, rfl⟩ := List.cons.inj h
      exact .inr found
    · obtain ⟨-, rfl⟩ := List.cons.inj h
      exact .inl ⟨front, w, later, rfl, found⟩
  · rintro (⟨front, w, later, rfl, found⟩ | found)
    · exact ⟨u :: front, w, later, rfl, found⟩
    · exact ⟨[], u, us, rfl, found⟩

theorem lastNamed_cons : lastNamed (t :: ts) name =
    (lastNamed ts name).or (if sameName t.name name then some t else none) := by
  simp [lastNamed, List.find?_append, List.find?_singleton]

theorem lastNamed_of_forall₂ (h : List.Forall₂ (fun u t => Theme.ofSettings u = .ok t) us ts)
    (name : String) :
    (lastNamed ts name = none ↔ ∀ u ∈ us, sameName (trimmed u.name) name = false) ∧
    ∀ t, lastNamed ts name = some t ↔ LastRead us name t := by
  induction h with
  | nil =>
    refine ⟨by simp [lastNamed], fun t => ?_⟩
    simp [lastNamed, not_lastRead_nil]
  | @cons u first us ts hread _ ih =>
    obtain ⟨hnone, hsome⟩ := ih
    have hname : first.name = trimmed u.name := (Theme.of_ofSettings hread).1
    rw [lastNamed_cons, hname, List.forall_mem_cons, ← hnone]
    simp only [lastRead_cons_iff, ← hsome, ← hnone, hread]
    cases lastNamed ts name <;> simp

end LastRead

namespace Registry

variable {r : Registry} {history : List Theme}

theorem find?_eq_none_iff_listed {name : String} :
    r.find? name = none ↔ ∀ t ∈ r.themes, sameName t.name name = false := by
  simp [find?]

theorem Represents.find?_registerAll (h : r.Represents history) (ts : List Theme) (name : String) :
    (r.registerAll ts).find? name = (lastNamed ts name).or (r.find? name) := by
  rw [(h.registerAll ts).newest, lastNamed_append, h.newest]

theorem Represents.find?_eq_some_iff (h : r.Represents history) {name : String} {t : Theme} :
    r.find? name = some t ↔ t ∈ r.themes ∧ sameName t.name name = true := by
  constructor
  · intro hfound
    exact ⟨List.mem_of_find?_eq_some hfound, sameName_of_find? hfound⟩
  · rintro ⟨hlisted, hnamed⟩
    have hkeys : (fun u : Theme => sameName u.name name) = fun u => sameName u.name t.name := by
      funext u
      rw [sameName, sameName, sameName_iff.mp hnamed]
    rw [find?, hkeys]
    exact h.mem_iff.mp hlisted

end Registry

namespace Session

variable {s : Session} {us : List ThemeSettings} {ts : List Theme} {name : String}

/-! ## Registering settings -/

theorem registerSettings_of_forall₂
    (h : List.Forall₂ (fun u t => Theme.ofSettings u = .ok t) us ts) :
    s.registerSettings us = (.ok (), { s with registry := s.registry.registerAll ts }) := by
  rw [registerSettings, mapM_eq_ok_iff.mpr h]

theorem registerSettings_of_firstFault {e : ThemeError}
    (h : FirstFault (fun u e => Theme.ofSettings u = .error e) us e) :
    s.registerSettings us = (.error (.theme e), s) := by
  rw [registerSettings, mapM_eq_error_iff.mpr h]

theorem registerSettings_eq_ok_iff : (s.registerSettings us).1 = .ok () ↔
    ∀ u ∈ us, ∃ t, Theme.ofSettings u = .ok t := by
  rw [← exists_mapM_eq_ok_iff, registerSettings]
  cases us.mapM Theme.ofSettings <;> simp

theorem registerSettings_eq_error_iff {e : SessionError} : (s.registerSettings us).1 = .error e ↔
    ∃ cause, e = .theme cause ∧
      FirstFault (fun u e => Theme.ofSettings u = .error e) us cause := by
  simp only [← mapM_eq_error_iff]
  rw [registerSettings]
  cases us.mapM Theme.ofSettings <;> simp [eq_comm]

/-- Settings are registered together exactly when each of them is read, and then the themes are
registered in the order of the list. If some are not, the first of these are reported and nothing is
registered. A registry that is built from settings, one by one, is what they make of the presets,
and what is reported is the same. -/
theorem registerSettings_atomic (s : Session) (us : List ThemeSettings) :
    let called := s.registerSettings us
    (called.1 = .ok () ↔ ∀ u ∈ us, ∃ t, Theme.ofSettings u = .ok t) ∧
    (∀ ts, List.Forall₂ (fun u t => Theme.ofSettings u = .ok t) us ts →
      called.2 = { s with registry := ts.foldl Registry.register s.registry }) ∧
    (∀ e, called.1 = .error e ↔ ∃ cause, e = .theme cause ∧
      FirstFault (fun u e => Theme.ofSettings u = .error e) us cause) ∧
    (∀ e, called.1 = .error e → called.2 = s) ∧
    (s.registry = .presets →
      (∀ r, Registry.ofSettings us = .ok r ↔ called.1 = .ok () ∧ called.2.registry = r) ∧
      ∀ e, Registry.ofSettings us = .error e ↔ called.1 = .error (.theme e)) := by
  intro called
  refine ⟨registerSettings_eq_ok_iff, ?whole, fun e => registerSettings_eq_error_iff, ?none,
    ?built⟩
  case whole =>
    intro ts hread
    exact congrArg Prod.snd (registerSettings_of_forall₂ hread)
  case none =>
    intro e failed
    obtain ⟨cause, -, hfault⟩ := registerSettings_eq_error_iff.mp failed
    exact congrArg Prod.snd (registerSettings_of_firstFault hfault)
  case built =>
    intro hpresets
    rw [Registry.ofSettings, Registry.addSettings_eq]
    simp only [called, registerSettings, hpresets]
    cases us.mapM Theme.ofSettings <;> simp [Except.map]

/-! ## Choosing a theme -/

/-- The theme that settings choose: their own that they name, or else a known one. -/
inductive Chooses (s : Session) (h : HighlightSettings) (t : Theme) : Prop
  | own (last : LastRead h.themes h.theme t)
  | known (absent : ∀ u ∈ h.themes, sameName (trimmed u.name) h.theme = false)
    (listed : t ∈ s.registry.themes) (named : sameName t.name h.theme = true)

section Choice

variable {h : HighlightSettings} {history : List Theme} {t : Theme}
  (represents : s.registry.Represents history)
  (hread : List.Forall₂ (fun u t => Theme.ofSettings u = .ok t) h.themes ts)
include represents hread

theorem find?_eq_some_iff_chooses :
    (s.registry.registerAll ts).find? h.theme = some t ↔ s.Chooses h t := by
  obtain ⟨hnone, hsome⟩ := lastNamed_of_forall₂ hread h.theme
  rw [represents.find?_registerAll, Option.or_eq_some_iff, hsome, hnone,
    represents.find?_eq_some_iff]
  constructor
  · rintro (last | ⟨absent, listed, named⟩)
    · exact .own last
    · exact .known absent listed named
  · rintro (last | ⟨absent, listed, named⟩)
    · exact .inl last
    · exact .inr ⟨absent, listed, named⟩

theorem find?_eq_none_iff_unnamed :
    (s.registry.registerAll ts).find? h.theme = none ↔
      (∀ u ∈ h.themes, sameName (trimmed u.name) h.theme = false) ∧
      ∀ t ∈ s.registry.themes, sameName t.name h.theme = false := by
  rw [represents.find?_registerAll, Option.or_eq_none_iff,
    (lastNamed_of_forall₂ hread h.theme).1, Registry.find?_eq_none_iff_listed]

end Choice

theorem useNamed_of_find?_eq_some {t : Theme} (found : s.registry.find? name = some t) :
    s.useNamed name = (.ok t, { s with active := t }) := by
  simp only [useNamed, findTheme, found, useTheme]

theorem useNamed_of_find?_eq_none (found : s.registry.find? name = none) :
    s.useNamed name = (.error (.unknownTheme name s.themeNames), s) := by
  simp only [useNamed, findTheme, found, themeNames]

theorem forall_themeNames_of_find?_eq_none (found : s.registry.find? name = none) :
    ∀ listed ∈ s.themeNames, sameName listed name = false := by
  rw [Registry.find?_eq_none_iff_listed] at found
  simpa [themeNames, Registry.names] using found

/-- A named theme is put to use and stays to be found, or the answer lists all names and none of
them is this one. -/
theorem useNamed_spec (s : Session) (name : String) :
    let called := s.useNamed name
    (∀ t, called.1 = .ok t ↔ s.registry.find? name = some t) ∧
    (∀ t, called.1 = .ok t → called.2.active = t ∧ called.2.findTheme name = .ok t) ∧
    ∀ e, called.1 = .error e → e = .unknownTheme name called.2.themeNames ∧
      ∀ listed ∈ called.2.themeNames, sameName listed name = false := by
  intro called
  cases hfound : s.registry.find? name with
  | some t =>
    have hcalled : called = (.ok t, { s with active := t }) := useNamed_of_find?_eq_some hfound
    simp [hcalled, findTheme, hfound]
  | none =>
    have hcalled : called = (.error (.unknownTheme name s.themeNames), s) :=
      useNamed_of_find?_eq_none hfound
    simpa [hcalled] using forall_themeNames_of_find?_eq_none hfound

/-- Settings whose themes are all read choose a theme exactly when one of their own or a registered
one has the name that they give. It is the last of their own of that name, or else the registered
one, and from then on it is in use and found under the name. Otherwise the answer lists the names of
all themes, with those of the settings, and the name is not among them. -/
theorem applyHighlight_chooses (s : Session) (registered : List Theme) (h : HighlightSettings)
    (reached : s.registry = Registry.presets.registerAll registered)
    (converts : ∀ u ∈ h.themes, ∃ t, Theme.ofSettings u = .ok t) :
    let called := s.applyHighlight h
    let after := called.2
    ((∃ t, called.1 = .ok t) ↔
      (∃ u ∈ h.themes, sameName (trimmed u.name) h.theme = true) ∨
        ∃ t ∈ s.registry.themes, sameName t.name h.theme = true) ∧
    (∀ t, called.1 = .ok t ↔ s.Chooses h t) ∧
    (∀ t, called.1 = .ok t → after.active = t ∧ after.findTheme h.theme = .ok t) ∧
    ∀ e, called.1 = .error e → e = .unknownTheme h.theme after.themeNames ∧
      ∀ name ∈ after.themeNames, sameName name h.theme = false := by
  intro called after
  obtain ⟨ts, hts⟩ := exists_mapM_eq_ok_iff.mpr converts
  have hread := mapM_eq_ok_iff.mp hts
  have represents : s.registry.Represents ([.dark, .light] ++ registered) := by
    rw [reached]
    exact Registry.represents_presets.registerAll registered
  have hcalled : called = { s with registry := s.registry.registerAll ts }.useNamed h.theme := by
    simp only [called, applyHighlight, registerSettings_of_forall₂ hread]
  have hspec := { s with registry := s.registry.registerAll ts }.useNamed_spec h.theme
  rw [← hcalled] at hspec
  obtain ⟨hfound, hchosen, hunknown⟩ := hspec
  refine ⟨?succeeds, ?chooses, hchosen, hunknown⟩
  case succeeds =>
    simp only [hfound]
    rw [← Option.isSome_iff_exists, ← Option.ne_none_iff_isSome, ne_eq,
      find?_eq_none_iff_unnamed represents hread]
    simp only [not_and_or, not_forall, Bool.not_eq_false, exists_prop]
  case chooses =>
    intro t
    rw [hfound, find?_eq_some_iff_chooses represents hread]

/-- Of two themes that spell the name of a preset the last one is chosen; a name that neither of
them has is left to the registry, where one theme has taken the place of the other preset; and
blanks around the name that is looked for are not left out. -/
theorem applyHighlight_chooses_shadowed :
    let s : Session := ⟨none, Registry.presets.registerAll [.plain "LIGHT" .gray .black], .dark⟩
    let own : List ThemeSettings :=
      [⟨" dARK ", "black", "white", .empty⟩, ⟨"Dark", "white", "#102030", .empty⟩]
    (∀ u ∈ own, ∃ t, Theme.ofSettings u = .ok t) ∧
    (s.applyHighlight ⟨"DARK", own⟩).1 = .ok (.plain "Dark" .white ⟨16, 32, 48, 255⟩) ∧
    (s.applyHighlight ⟨"light", own⟩).1 = .ok (.plain "LIGHT" .gray .black) ∧
    ¬ ∃ t, (s.applyHighlight ⟨" dARK ", own⟩).1 = .ok t := by
  intro s own
  have hconverts : ∀ u ∈ own, ∃ t, Theme.ofSettings u = .ok t := by
    simp only [own, List.forall_mem_cons]
    exact ⟨⟨_, by rfl⟩, ⟨_, by rfl⟩, by simp⟩
  obtain ⟨-, hown, -⟩ := applyHighlight_chooses s _ ⟨"DARK", own⟩ rfl hconverts
  obtain ⟨-, hknown, -⟩ := applyHighlight_chooses s _ ⟨"light", own⟩ rfl hconverts
  obtain ⟨hunknown, -⟩ := applyHighlight_chooses s _ ⟨" dARK ", own⟩ rfl hconverts
  refine ⟨hconverts, (hown _).mpr (.own ?_), (hknown _).mpr (.known ?_ ?_ ?_), ?_⟩
  · exact ⟨[_], _, [], rfl, by decide, by simp, by rfl⟩
  · decide
  · exact List.mem_cons_of_mem _ List.mem_cons_self
  · decide
  · rw [hunknown]
    decide

end Session
end SyntaxPaint
