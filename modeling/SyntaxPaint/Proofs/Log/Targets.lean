import Mathlib.Data.List.Infix
import SyntaxPaint.Log.Filter
/-!
# Levels of targets

A target is governed by the longest of the listed targets that it begins with. None of those that
the settings list begins with another, so at most one phase leads a target. A target has the level
of the phase that leads it, or the common level if none does.
-/
namespace SyntaxPaint

/-! ## The longest entry -/

namespace LogFilter

variable {f : LogFilter} {target : String} {entry : String × Threshold}

theorem mem_matching_iff :
    entry ∈ f.matching target ↔ entry ∈ f.listed ∧ entry.1.toList <+: target.toList := by
  simp [matching]

private theorem foldl_longer_mem (entries : List (String × Threshold)) :
    entries.foldl longer entry ∈ entry :: entries := by
  induction entries generalizing entry with
  | nil => simp
  | cons next entries ih =>
    have hstep : longer entry next = entry ∨ longer entry next = next := by
      simp only [longer]
      split <;> simp
    have hmem := @ih (longer entry next)
    rcases hstep with h | h <;> simp only [List.foldl_cons, h] at hmem ⊢ <;> grind

private theorem length_le_foldl_longer (entries : List (String × Threshold)) :
    ∀ other ∈ entry :: entries, other.1.length ≤ (entries.foldl longer entry).1.length := by
  induction entries generalizing entry with
  | nil => simp
  | cons next entries ih =>
    have hlonger : entry.1.length ≤ (longer entry next).1.length ∧
        next.1.length ≤ (longer entry next).1.length := by
      simp only [longer]
      split <;> omega
    have hrest := @ih (longer entry next)
    have hfirst := hrest _ List.mem_cons_self
    intro other hother
    simp only [List.mem_cons] at hother
    rcases hother with rfl | rfl | hother
    · exact hlonger.1.trans hfirst
    · exact hlonger.2.trans hfirst
    · exact hrest other (List.mem_cons_of_mem _ hother)

/-- A target that begins with no listed one has the level of everything else; all others have the
level of an entry that they begin with and that is as long as any of these. -/
theorem thresholdOf_cases (f : LogFilter) (target : String) :
    f.matching target = [] ∧ f.thresholdOf target = f.otherwise ∨
    ∃ entry ∈ f.matching target, f.thresholdOf target = entry.2 ∧
      ∀ other ∈ f.matching target, other.1.length ≤ entry.1.length := by
  rw [thresholdOf]
  cases f.matching target with
  | nil => exact .inl ⟨rfl, rfl⟩
  | cons entry entries =>
    exact .inr ⟨_, foldl_longer_mem entries, rfl, length_le_foldl_longer entries⟩

end LogFilter

/-! ## Phases in front of targets -/

/-- The target begins with that of the phase. -/
def Phase.Leads (p : Phase) (target : String) : Prop := p.target.toList <+: target.toList

/-- The targets that have levels of their own. -/
def ownTargets : List String := Phase.all.map Phase.target ++ [generalTarget, commandTarget]

private theorem eq_of_prefix_of_ownTargets {a b : String} (ha : a ∈ ownTargets)
    (hb : b ∈ ownTargets) (h : a.toList <+: b.toList) : a = b := by
  have hall : ∀ a ∈ ownTargets, ∀ b ∈ ownTargets, a.toList <+: b.toList → a = b := by decide
  exact hall a ha b hb h

private theorem eq_of_ownTargets {a b target : String} (ha : a ∈ ownTargets) (hb : b ∈ ownTargets)
    (leads : a.toList <+: target.toList) (leads' : b.toList <+: target.toList) : a = b := by
  rcases List.prefix_or_prefix_of_prefix leads leads' with h | h
  · exact eq_of_prefix_of_ownTargets ha hb h
  · exact (eq_of_prefix_of_ownTargets hb ha h).symm

theorem Phase.mem_all (p : Phase) : p ∈ Phase.all := by
  cases p <;> decide

private theorem Phase.target_mem (p : Phase) : p.target ∈ ownTargets :=
  List.mem_append_left _ (List.mem_map_of_mem p.mem_all)

theorem Phase.Leads.unique {p q : Phase} {target : String} (hp : p.Leads target)
    (hq : q.Leads target) : p = q := by
  have htarget : p.target = q.target := eq_of_ownTargets p.target_mem q.target_mem hp hq
  revert htarget
  cases p <;> cases q <;> decide

private theorem Phase.not_leads_of_other {p : Phase} {other target : String}
    (listed : other ∈ [generalTarget, commandTarget]) (leads : other.toList <+: target.toList) :
    ¬ p.Leads target := by
  intro hp
  have htarget : p.target = other :=
    eq_of_ownTargets p.target_mem (List.mem_append_right _ listed) hp leads
  have hnot : p.target ∉ [generalTarget, commandTarget] := by
    cases p <;> decide
  exact hnot (htarget ▸ listed)

/-! ## Levels of their own -/

namespace LoggingSettings

variable {p : Phase}

/-- The level of a phase's own, if it has one. -/
def override (s : LoggingSettings) : Phase → Option Level
  | .lexer => s.lexer
  | .parser => s.parser
  | .highlight => s.highlight

/-- The settings with another level, or none, of a phase's own. -/
def withOverride (s : LoggingSettings) (p : Phase) (level : Option Level) : LoggingSettings :=
  match p with
  | .lexer => { s with lexer := level }
  | .parser => { s with parser := level }
  | .highlight => { s with highlight := level }

theorem levelFor_eq (s : LoggingSettings) (p : Phase) :
    s.levelFor p = (s.override p).getD s.level := by
  cases p <;> rfl

theorem levelFor_withOverride_of_ne {q : Phase} (s : LoggingSettings) (h : q ≠ p)
    (level : Option Level) : (s.withOverride p level).levelFor q = s.levelFor q := by
  revert h
  cases p <;> cases q <;> simp [withOverride, levelFor]

theorem level_withOverride (s : LoggingSettings) (p : Phase) (level : Option Level) :
    (s.withOverride p level).level = s.level := by
  cases p <;> rfl

end LoggingSettings

/-! ## Thresholds -/

theorem Level.threshold_le_iff {a b : Level} : a.threshold ≤ b.threshold ↔ a ≤ b := by
  cases a <;> cases b <;> decide

theorem Level.pairwise_lt :
    [Level.off, .error, .warn, .info, .debug, .trace].Pairwise (· < ·) := by decide

theorem LogThresholds.thresholdFor_ofSettings (s : LoggingSettings) (p : Phase) :
    (ofSettings s).thresholdFor p = (s.levelFor p).threshold := by
  cases p <;> rfl

/-! ## The filter of some settings -/

namespace LogFilter

variable {s : LoggingSettings} {p : Phase} {target : String}

theorem listed_withPhases (f : LogFilter) (t : LogThresholds) :
    (f.withPhases t).listed = f.listed ++ Phase.all.map fun p => (p.target, t.thresholdFor p) := by
  rw [withPhases]
  induction Phase.all generalizing f with
  | nil => simp
  | cons p phases ih =>
    rw [List.foldl_cons, ih]
    simp [withTarget]

private theorem mem_listed_iff {entry : String × Threshold} : entry ∈ (ofSettings s).listed ↔
    (∃ p : Phase, entry = (p.target, (s.levelFor p).threshold)) ∨
      entry = (generalTarget, s.level.threshold) ∨ entry = (commandTarget, s.level.threshold) := by
  have hcommon : (LogThresholds.ofSettings s).common = s.level.threshold := rfl
  simp [ofSettings, ofThresholds, withTarget, listed_withPhases, hcommon,
    LogThresholds.thresholdFor_ofSettings, Phase.mem_all, eq_comm]

theorem thresholdOf_of_leads (h : p.Leads target) :
    (ofSettings s).thresholdOf target = (s.levelFor p).threshold := by
  have hmatching : (p.target, (s.levelFor p).threshold) ∈ (ofSettings s).matching target :=
    mem_matching_iff.mpr ⟨mem_listed_iff.mpr (.inl ⟨p, rfl⟩), h⟩
  obtain ⟨hnil, -⟩ | ⟨entry, hentry, hlevel, -⟩ := thresholdOf_cases (ofSettings s) target
  · simp [hnil] at hmatching
  · obtain ⟨hlisted, hleads⟩ := mem_matching_iff.mp hentry
    rw [hlevel]
    rcases mem_listed_iff.mp hlisted with ⟨q, rfl⟩ | rfl | rfl
    · rw [h.unique hleads]
    · exact absurd h (Phase.not_leads_of_other (by simp) hleads)
    · exact absurd h (Phase.not_leads_of_other (by simp) hleads)

theorem thresholdOf_of_not_leads (h : ∀ p : Phase, ¬ p.Leads target) :
    (ofSettings s).thresholdOf target = s.level.threshold := by
  obtain ⟨-, hlevel⟩ | ⟨entry, hentry, hlevel, -⟩ := thresholdOf_cases (ofSettings s) target
  · exact hlevel
  · obtain ⟨hlisted, hleads⟩ := mem_matching_iff.mp hentry
    rw [hlevel]
    rcases mem_listed_iff.mp hlisted with ⟨q, rfl⟩ | rfl | rfl
    · exact absurd hleads (h q)
    · rfl
    · rfl

theorem thresholdOf_withOverride (h : ¬ p.Leads target) (level : Option Level) :
    (ofSettings (s.withOverride p level)).thresholdOf target =
      (ofSettings s).thresholdOf target := by
  by_cases hled : ∃ q : Phase, q.Leads target
  · obtain ⟨q, hq⟩ := hled
    have hne : q ≠ p := by
      rintro rfl
      exact h hq
    rw [thresholdOf_of_leads hq, thresholdOf_of_leads hq, s.levelFor_withOverride_of_ne hne]
  · have hnone := not_exists.mp hled
    rw [thresholdOf_of_not_leads hnone, thresholdOf_of_not_leads hnone, s.level_withOverride]

theorem thresholdOf_withLevel (h : p.Leads target) (own : (s.override p).isSome = true)
    (level : Level) :
    (ofSettings { s with level := level }).thresholdOf target =
      (ofSettings s).thresholdOf target := by
  obtain ⟨l, hl⟩ := Option.isSome_iff_exists.mp own
  have hl' : LoggingSettings.override { s with level := level } p = some l := by
    rw [← hl]
    cases p <;> rfl
  rw [thresholdOf_of_leads h, thresholdOf_of_leads h, s.levelFor_eq, LoggingSettings.levelFor_eq,
    hl, hl', Option.getD_some, Option.getD_some]

theorem enables_of_off {f : LogFilter} {l : Level} (off : f.thresholdOf target = .off)
    (event : l ≠ .off) : f.enables target l = false := by
  rw [enables, off, decide_eq_false_iff_not]
  revert event
  cases l <;> decide

/-- The filter lets through to a target what is at most as talkative as the level of the one phase
that leads it, or as the common level if no phase does. The level of another phase's own has no
part in this, nor has the common level where the phase has its own. Levels go from nothing to
everything, and where the level is nothing no event is let through. -/
theorem filter_follows_settings (s : LoggingSettings) (target : String) :
    (∀ p q : Phase, p.Leads target → q.Leads target → p = q) ∧
    (∀ p : Phase, p.Leads target →
      ∀ l, (ofSettings s).enables target l = true ↔ l ≤ s.levelFor p) ∧
    ((∀ p : Phase, ¬ p.Leads target) →
      ∀ l, (ofSettings s).enables target l = true ↔ l ≤ s.level) ∧
    (∀ p : Phase, ¬ p.Leads target → ∀ level l,
      (ofSettings (s.withOverride p level)).enables target l =
        (ofSettings s).enables target l) ∧
    (∀ p : Phase, p.Leads target → (s.override p).isSome = true → ∀ level l,
      (ofSettings { s with level := level }).enables target l =
        (ofSettings s).enables target l) ∧
    [Level.off, .error, .warn, .info, .debug, .trace].Pairwise (· < ·) ∧
    (∀ p : Phase, p.Leads target → s.levelFor p = .off →
      ∀ l, l ≠ .off → (ofSettings s).enables target l = false) ∧
    ((∀ p : Phase, ¬ p.Leads target) → s.level = .off →
      ∀ l, l ≠ .off → (ofSettings s).enables target l = false) := by
  refine ⟨fun p q hp hq => hp.unique hq, ?phase, ?common, ?others, ?own, Level.pairwise_lt,
    ?phaseOff, ?commonOff⟩
  case phase =>
    intro p hp l
    rw [enables, thresholdOf_of_leads hp, decide_eq_true_iff, Level.threshold_le_iff]
  case common =>
    intro hnone l
    rw [enables, thresholdOf_of_not_leads hnone, decide_eq_true_iff, Level.threshold_le_iff]
  case others =>
    intro p hp level l
    rw [enables, enables, thresholdOf_withOverride hp]
  case own =>
    intro p hp own level l
    rw [enables, enables, thresholdOf_withLevel hp own]
  case phaseOff =>
    intro p hp hoff l
    apply enables_of_off
    rw [thresholdOf_of_leads hp, hoff]
    rfl
  case commonOff =>
    intro hnone hoff l
    apply enables_of_off
    rw [thresholdOf_of_not_leads hnone, hoff]
    rfl

/-- A target that goes on behind that of a phase belongs to it, one that breaks off does not. -/
example :
    let filter := ofSettings ⟨.warn, none, some .trace, some .off⟩
    filter.thresholdOf "merx::parserx" = .trace ∧ filter.thresholdOf "merx::parse" = .warn ∧
      filter.thresholdOf "merx::highlight::line" = .off ∧ filter.thresholdOf "" = .warn := by decide

end LogFilter
end SyntaxPaint
