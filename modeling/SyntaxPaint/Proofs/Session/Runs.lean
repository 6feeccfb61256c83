import SyntaxPaint.Document
import SyntaxPaint.Proofs.Theme.Registry
import SyntaxPaint.Session.Basic
/-!
# Runs of a session

A session is told by its log, that is by its calls and what they answered. The settings in force are
those of the one call that could give some, and the theme in use is the one that was answered to the
last successful call that chose a theme. What is registered is told by the calls alone.
-/
namespace SyntaxPaint
namespace Session

/-! ## Steps and logs -/

/-- The calls that only look at a session. -/
inductive Query where
  | isInitialized
  | settings
  | current
  | themeNames
  | findTheme (name : String)
  | check (source : List Char)
  | highlightCurrent (d : Document)

def Query.Answer : Query → Type
  | isInitialized | check _ => Bool
  | settings => Settings
  | current | findTheme _ => Theme
  | themeNames => List String
  | highlightCurrent _ => List (List Patch)

def ask (s : Session) : (q : Query) → Except SessionError q.Answer
  | .isInitialized => .ok s.isInitialized
  | .settings => .ok s.settings
  | .current => .ok s.active
  | .themeNames => .ok s.themeNames
  | .findTheme name => s.findTheme name
  | .check source => .ok (analyze source s.settings.limit).valid
  | .highlightCurrent d => .ok (d.highlight s.active)

inductive Step where
  | call (c : Call)
  | ask (q : Query)

def Step.Answer : Step → Type
  | call _ => Option Theme
  | ask q => q.Answer

def take (s : Session) : (step : Step) → Except SessionError step.Answer × Session
  | .call c => s.perform c
  | .ask q => (s.ask q, s)

/-- The session behind some steps. -/
def behind (s : Session) (steps : List Step) : Session :=
  steps.foldl (fun s step => (s.take step).2) s

/-- A call that may change the session, and what it answered. -/
structure Entry where
  call : Call
  answer : Except SessionError (Option Theme)

def log (s : Session) : List Step → List Entry
  | [] => []
  | .ask _ :: steps => s.log steps
  | .call c :: steps => ⟨c, (s.perform c).1⟩ :: (s.perform c).2.log steps

/-- The settings that a call gave, if it could. -/
def Entry.given? : Entry → Option Settings
  | ⟨.configure settings, .ok _⟩ => some settings
  | _ => none

/-- The theme that a call put to use, if it could. -/
def Entry.chosen? : Entry → Option Theme
  | ⟨.useTheme _, .ok t⟩ | ⟨.useNamed _, .ok t⟩ | ⟨.applyHighlight _, .ok t⟩ => t
  | _ => none

/-! ## Single calls -/

/-- All that a call can do: its answer, and the session behind it. -/
inductive Effect (s : Session) : Call → Except SessionError (Option Theme) → Session → Prop
  | configured {settings : Settings} (first : s.given = none) :
    Effect s (.configure settings) (.ok none) { s with given := some settings }
  | configuredBefore {settings given : Settings} (before : s.given = some given) :
    Effect s (.configure settings) (.error .alreadyInitialized) s
  | used (t : Theme) : Effect s (.useTheme t) (.ok (some t)) { s with active := t }
  | usedNamed {name : String} {t : Theme} (found : s.registry.find? name = some t) :
    Effect s (.useNamed name) (.ok (some t)) { s with active := t }
  | unknown {name : String} (found : s.registry.find? name = none) :
    Effect s (.useNamed name) (.error (.unknownTheme name s.themeNames)) s
  | registered (t : Theme) :
    Effect s (.register t) (.ok (some t)) { s with registry := s.registry.register t }
  | registeredAll {themes : List ThemeSettings} {ts : List Theme}
    (valid : themes.mapM Theme.ofSettings = .ok ts) :
    Effect s (.registerSettings themes) (.ok none) { s with registry := s.registry.registerAll ts }
  | invalid {themes : List ThemeSettings} {e : ThemeError}
    (fault : themes.mapM Theme.ofSettings = .error e) :
    Effect s (.registerSettings themes) (.error (.theme e)) s
  | applied {h : HighlightSettings} {ts : List Theme} {t : Theme}
    (valid : h.themes.mapM Theme.ofSettings = .ok ts)
    (found : (s.registry.registerAll ts).find? h.theme = some t) :
    Effect s (.applyHighlight h) (.ok (some t))
      { s with registry := s.registry.registerAll ts, active := t }
  | appliedInvalid {h : HighlightSettings} {e : ThemeError}
    (fault : h.themes.mapM Theme.ofSettings = .error e) :
    Effect s (.applyHighlight h) (.error (.theme e)) s
  | appliedUnknown {h : HighlightSettings} {ts : List Theme}
    (valid : h.themes.mapM Theme.ofSettings = .ok ts)
    (found : (s.registry.registerAll ts).find? h.theme = none) :
    Effect s (.applyHighlight h)
      (.error (.unknownTheme h.theme (s.registry.registerAll ts).names))
      { s with registry := s.registry.registerAll ts }

theorem effect_perform (s : Session) (c : Call) : s.Effect c (s.perform c).1 (s.perform c).2 := by
  cases c with
  | configure settings =>
    rw [perform, configure]
    cases hgiven : s.given with
    | none => exact .configured hgiven
    | some given => exact .configuredBefore hgiven
  | useTheme t => exact .used t
  | useNamed name =>
    rw [perform, useNamed, findTheme]
    cases hfound : s.registry.find? name with
    | none => exact .unknown hfound
    | some t => exact .usedNamed hfound
  | register t => exact .registered t
  | registerSettings themes =>
    rw [perform, registerSettings]
    cases hthemes : themes.mapM Theme.ofSettings with
    | error e => exact .invalid hthemes
    | ok ts => exact .registeredAll hthemes
  | applyHighlight h =>
    rw [perform, applyHighlight, registerSettings]
    cases hthemes : h.themes.mapM Theme.ofSettings with
    | error e => exact .appliedInvalid hthemes
    | ok ts =>
      simp only [useNamed, findTheme]
      cases hfound : (s.registry.registerAll ts).find? h.theme with
      | none => exact .appliedUnknown hthemes hfound
      | some t => exact .applied hthemes hfound

/-- The settings that a call offers. -/
def Call.settings? : Call → Option Settings
  | configure settings => some settings
  | _ => none

/-- The themes of some settings, or none if one of them does not convert. -/
def converted (themes : List ThemeSettings) : List Theme :=
  match themes.mapM Theme.ofSettings with
  | .ok ts => ts
  | .error _ => []

/-- The themes that a call registers. -/
def Call.registered : Call → List Theme
  | register t => [t]
  | registerSettings themes => converted themes
  | applyHighlight h => converted h.themes
  | configure _ | useTheme _ | useNamed _ => []

def Step.registered : Step → List Theme
  | call c => c.registered
  | ask _ => []

/-- The calls that put a theme to use. -/
def Call.chooses : Call → Bool
  | useTheme _ | useNamed _ | applyHighlight _ => true
  | configure _ | register _ | registerSettings _ => false

/-- The theme that a call puts to use where a registry holds what is registered before it. -/
def Call.chosen? (r : Registry) : Call → Option Theme
  | useTheme t => some t
  | useNamed name => r.find? name
  | applyHighlight h =>
    match h.themes.mapM Theme.ofSettings with
    | .ok ts => (r.registerAll ts).find? h.theme
    | .error _ => none
  | configure _ | register _ | registerSettings _ => none

section Calls

variable {s s' : Session} {c : Call} {answer : Except SessionError (Option Theme)}
  (h : s.Effect c answer s')
include h

theorem Effect.given : s'.given = s.given.or c.settings? := by
  cases h with
  | configured first => rw [first]; rfl
  | configuredBefore before => rw [before]; rfl
  | _ => exact (Option.or_none).symm

theorem Effect.registry : s'.registry = s.registry.registerAll c.registered := by
  cases h with
  | registeredAll valid | applied valid | appliedUnknown valid =>
    rw [Call.registered, converted, valid]
  | invalid fault | appliedInvalid fault =>
    rw [Call.registered, converted, fault]
    rfl
  | _ => rfl

theorem Effect.chosen : s'.active = (c.chosen? s.registry).getD s.active ∧
    Entry.chosen? ⟨c, answer⟩ = c.chosen? s.registry ∧
    (c.chooses = true → answer.toOption = (c.chosen? s.registry).map some) := by
  cases h with
  | usedNamed found | unknown found =>
    rw [Call.chosen?, found]
    exact ⟨rfl, rfl, fun _ => rfl⟩
  | applied valid found | appliedUnknown valid found =>
    simp only [Call.chosen?, valid, found]
    exact ⟨rfl, rfl, fun _ => rfl⟩
  | appliedInvalid fault =>
    simp only [Call.chosen?, fault]
    exact ⟨rfl, rfl, fun _ => rfl⟩
  | used => exact ⟨rfl, rfl, fun _ => rfl⟩
  | _ => exact ⟨rfl, rfl, fun chooses => nomatch chooses⟩

theorem Effect.entry_given? :
    s.given.toList ++ (Entry.given? ⟨c, answer⟩).toList = s'.given.toList := by
  cases h with
  | configured first => rw [first]; rfl
  | _ => exact List.append_nil _

/-- A call that fails changes nothing, unless it has registered themes without finding its own. -/
theorem Effect.eq_of_error {e : SessionError} (failed : answer = .error e)
    (other : ∀ h name names, c = .applyHighlight h → e ≠ .unknownTheme name names) : s' = s := by
  cases h with
  | appliedUnknown => exact absurd (Except.error.inj failed).symm (other _ _ _ rfl)
  | configuredBefore | unknown | invalid | appliedInvalid => rfl
  | _ => cases failed

end Calls

theorem Effect.of_unknownTheme {s s' : Session} {h : HighlightSettings} {name : String}
    {names : List String}
    (unknown : s.Effect (.applyHighlight h) (.error (.unknownTheme name names)) s') :
    ∃ ts, h.themes.mapM Theme.ofSettings = .ok ts ∧
      s' = { s with registry := s.registry.registerAll ts } := by
  cases unknown with
  | appliedUnknown valid found => exact ⟨_, valid, rfl⟩

/-! ## Runs -/

section Runs

variable (s : Session) (steps : List Step)

theorem behind_registry :
    (s.behind steps).registry = s.registry.registerAll (steps.flatMap Step.registered) := by
  induction steps generalizing s with
  | nil => rfl
  | cons step steps ih =>
    have hstep : (s.take step).2.registry = s.registry.registerAll step.registered := by
      cases step with
      | call c => exact (s.effect_perform c).registry
      | ask q => rfl
    show ((s.take step).2.behind steps).registry = _
    rw [ih, hstep, List.flatMap_cons, Registry.registerAll, Registry.registerAll,
      Registry.registerAll, List.foldl_append]

theorem behind_active :
    (s.behind steps).active = ((s.log steps).filterMap Entry.chosen?).getLast?.getD s.active := by
  induction steps generalizing s with
  | nil => rfl
  | cons step steps ih =>
    cases step with
    | ask q => exact ih s
    | call c =>
      obtain ⟨hactive, hentry, -⟩ := (s.effect_perform c).chosen
      show ((s.perform c).2.behind steps).active = _
      rw [ih, log, List.filterMap_cons, hentry, hactive]
      cases c.chosen? s.registry with
      | none => rfl
      | some t => rw [List.getLast?_cons, Option.getD_some, Option.getD_some]

theorem behind_given :
    s.given.toList ++ (s.log steps).filterMap Entry.given? = (s.behind steps).given.toList := by
  induction steps generalizing s with
  | nil => exact List.append_nil _
  | cons step steps ih =>
    cases step with
    | ask q => exact ih s
    | call c =>
      show _ = ((s.perform c).2.behind steps).given.toList
      rw [← ih, ← (s.effect_perform c).entry_given?, log, List.filterMap_cons, List.append_assoc]
      cases Entry.given? ⟨c, (s.perform c).1⟩ <;> rfl

end Runs

/-- After any steps from the beginning: at most one call has given settings, and those are in force,
or else the standard ones; the theme in use is what the last successful choice answered, which is
the theme that was registered under its name at that moment; and the themes registered are those of
all registering calls. Giving settings and choosing a registered theme leave the registry, and
registering leaves all else. A call that fails changes nothing, except that settings whose theme is
unknown have had their themes registered. -/
theorem state_follows_log (steps : List Step) :
    let s := fresh.behind steps
    let given := (fresh.log steps).filterMap Entry.given?
    let chosen := (fresh.log steps).filterMap Entry.chosen?
    (given.length ≤ 1 ∧ (s.isInitialized = true ↔ given ≠ []) ∧
      (∀ settings ∈ given, s.settings = settings) ∧ (given = [] → s.settings = .standard) ∧
      ∀ settings, (s.perform (.configure settings)).1 =
        if s.isInitialized then .error .alreadyInitialized else .ok none) ∧
    (s.active = chosen.getLast?.getD .dark ∧
      ∀ c, c.chooses = true → (s.perform c).1.toOption = (c.chosen? s.registry).map some) ∧
    s.registry = Registry.presets.registerAll (steps.flatMap Step.registered) ∧
    ((∀ settings, (s.perform (.configure settings)).2.registry = s.registry) ∧
      (∀ t, (s.perform (.useTheme t)).2.registry = s.registry) ∧
      (∀ name, (s.perform (.useNamed name)).2.registry = s.registry) ∧
      (∀ t, (s.perform (.register t)).2.active = s.active ∧
        (s.perform (.register t)).2.given = s.given) ∧
      ∀ themes, (s.perform (.registerSettings themes)).2.active = s.active ∧
        (s.perform (.registerSettings themes)).2.given = s.given) ∧
    (∀ step e, (s.take step).1 = .error e →
      (∀ h name names, step = .call (.applyHighlight h) → e ≠ .unknownTheme name names) →
        (s.take step).2 = s) ∧
    ∀ h name names, (s.perform (.applyHighlight h)).1 = .error (.unknownTheme name names) →
      ∃ ts, h.themes.mapM Theme.ofSettings = .ok ts ∧
        (s.perform (.applyHighlight h)).2 = { s with registry := s.registry.registerAll ts } := by
  intro s given chosen
  have hgiven : given = s.given.toList := behind_given fresh steps
  refine ⟨⟨?once, ?initialized, ?force, ?standard, ?first⟩, ⟨behind_active fresh steps, ?moment⟩,
    behind_registry fresh steps, ⟨?configure, ?use, ?useNamed, ?register, ?registerAll⟩, ?failure,
    ?unknown⟩
  case once =>
    rw [hgiven]
    cases s.given with
    | none => exact Nat.zero_le 1
    | some settings => exact Nat.le_refl 1
  case initialized =>
    rw [hgiven, isInitialized]
    cases s.given <;> simp
  case force =>
    intro settings hsettings
    rw [hgiven, Option.mem_toList] at hsettings
    rw [Session.settings, hsettings]
    rfl
  case standard =>
    intro hnone
    rw [hgiven, Option.toList_eq_nil_iff] at hnone
    rw [Session.settings, hnone]
    rfl
  case first =>
    intro settings
    rw [perform, Session.configure, isInitialized]
    cases s.given <;> rfl
  case moment => exact fun c => (s.effect_perform c).chosen.2.2
  case configure => exact fun settings => (s.effect_perform (.configure settings)).registry
  case use => exact fun t => (s.effect_perform (.useTheme t)).registry
  case useNamed => exact fun name => (s.effect_perform (.useNamed name)).registry
  case register =>
    intro t
    have heffect := s.effect_perform (.register t)
    exact ⟨heffect.chosen.1, heffect.given.trans Option.or_none⟩
  case registerAll =>
    intro themes
    have heffect := s.effect_perform (.registerSettings themes)
    exact ⟨heffect.chosen.1, heffect.given.trans Option.or_none⟩
  case failure =>
    intro step e failed other
    cases step with
    | ask q => rfl
    | call c =>
      refine (s.effect_perform c).eq_of_error failed fun h name names hc => ?_
      exact other h name names (congrArg Step.call hc)
  case unknown =>
    intro h name names failed
    have heffect := s.effect_perform (.applyHighlight h)
    rw [failed] at heffect
    exact heffect.of_unknownTheme

end Session
end SyntaxPaint
