import SyntaxPaint.Command.Run
import SyntaxPaint.Proofs.Command.Printing
import SyntaxPaint.Proofs.Session.Runs
import SyntaxPaint.Proofs.Theme.FirstFault
/-!
# Exit codes

What can go wrong with a run is said without running it: the file of the settings cannot be read, a
theme of theirs does not convert, a theme that is asked for is unknown, or the source cannot be
read. Such a run prints nothing. Every other run ends well, unless it checks a source that is no
program.
-/
namespace SyntaxPaint

/-! ## Faults -/

/-- The system knows of no file under the name. -/
inductive FileFault.Away : FileFault → Prop
  | missing : Away .missing
  | lost (cause : String) : Away (.lost cause)

/-- The settings that a file stands for: those it holds, or the standard ones if no file was asked
for and the system knows of none. -/
inductive ProgramOptions.Configures (o : ProgramOptions) : FileState → Settings → Prop
  | read {text : List Char} {s : Settings} (parsed : Settings.parse text = .ok s) :
    o.Configures (.ok text) s
  | absent {f : FileFault} (away : f.Away) (unasked : o.config = none) :
    o.Configures (.error f) .standard

/-- The themes to choose from: the presets and those of the settings, which all convert. -/
def Settings.Offers (s : Settings) (themes : List Theme) : Prop :=
  ∃ ts, s.highlight.themes.mapM Theme.ofSettings = .ok ts ∧ themes = [.dark, .light] ++ ts

namespace Command

/-- The command reads a source that cannot be read. -/
def CannotRead (c : Command) (source : FileState) : Prop :=
  ∃ place f, c.source? = some place ∧ source = .error f

/-- The command asks for a theme that is none of these. -/
def AsksUnknown (c : Command) (themes : List Theme) : Prop :=
  ∃ file name numbers, c = .highlight file (some name) numbers ∧
    ∀ t ∈ themes, sameName t.name name = false

/-- What can go wrong with a run. -/
inductive Fault (o : ProgramOptions) (c : Command) (around : Surroundings) : Prop
  | unreadConfig {f : FileFault} (found : around.config = .error f)
    (counts : f.Away → o.config.isSome = true)
  | malformedConfig {text : List Char} {e : SettingsError} (found : around.config = .ok text)
    (refused : Settings.parse text = .error e)
  | invalidTheme {s : Settings} {u : ThemeSettings} {e : ThemeError}
    (configured : o.Configures around.config s) (listed : u ∈ s.highlight.themes)
    (refused : Theme.ofSettings u = .error e)
  | unknownTheme {s : Settings} {themes : List Theme} (configured : o.Configures around.config s)
    (offered : s.Offers themes)
    (unknown : ∀ t ∈ themes, sameName t.name s.highlight.theme = false)
  | unreadSource (unread : c.CannotRead around.source)
  | unknownChoice {s : Settings} {themes : List Theme} (configured : o.Configures around.config s)
    (offered : s.Offers themes) (asks : c.AsksUnknown themes)

/-- The command checks a source that nests too deeply or is no program otherwise. -/
def Rejects (c : Command) (source : FileState) (limit : Nat) : Prop :=
  ∃ file text, c = .check file ∧ source = .ok text ∧ accepts (tokenize text) limit = false

end Command

/-! ## Settings in force -/

section Setup

variable {o : ProgramOptions} {file : FileState} {f : FileFault} {s s' : Settings}

theorem ProgramOptions.Configures.unique (h : o.Configures file s) (h' : o.Configures file s') :
    s = s' := by
  cases h with
  | read parsed =>
    cases h' with
    | read parsed' => exact Except.ok.inj (parsed.symm.trans parsed')
  | absent away unasked =>
    cases h' with
    | absent => rfl

theorem Settings.Offers.unique {themes themes' : List Theme} (h : s.Offers themes)
    (h' : s.Offers themes') : themes = themes' := by
  obtain ⟨ts, hts, rfl⟩ := h
  obtain ⟨ts', hts', rfl⟩ := h'
  rw [Except.ok.inj (hts.symm.trans hts')]

theorem FileFault.isAbsent_iff : f.isAbsent = true ↔ f.Away := by
  constructor
  · intro h
    cases f with
    | missing => exact .missing
    | lost cause => exact .lost cause
    | notText | unreadable cause => cases h
  · intro h
    cases h <;> rfl

theorem readConfig_text (o : ProgramOptions) (text : List Char) :
    readConfig o (.ok text) = (Settings.parse text).mapError .settings := by
  have hpresent : ¬ (o.config.isNone && FileState.isAbsent (.ok text)) = true := by
    simp [FileState.isAbsent]
  rw [readConfig, if_neg hpresent]
  rfl

theorem readConfig_absent (away : f.Away) (unasked : o.config = none) :
    readConfig o (.error f) = .ok .standard := by
  have habsent : (o.config.isNone && FileState.isAbsent (.error f)) = true := by
    rw [unasked]
    exact FileFault.isAbsent_iff.mpr away
  rw [readConfig, if_pos habsent]

theorem readConfig_fault (counts : f.Away → o.config.isSome = true) :
    readConfig o (.error f) = .error (.file f) := by
  have hcounts : ¬ (o.config.isNone && FileState.isAbsent (.error f)) = true := by
    rw [Bool.and_eq_true]
    rintro ⟨hnone, haway⟩
    rw [Option.isNone_iff_eq_none] at hnone
    rw [hnone] at counts
    cases counts (FileFault.isAbsent_iff.mp haway)
  rw [readConfig, if_neg hcounts]
  rfl

theorem loadSettings_of_configures (h : o.Configures file s) :
    ∃ loaded, loadSettings o file = .ok loaded ∧ loaded.limits = s.limits ∧
      loaded.highlight = s.highlight := by
  have hread : readConfig o file = .ok s := by
    cases h with
    | read parsed => rw [readConfig_text, parsed]; rfl
    | absent away unasked => exact readConfig_absent away unasked
  rw [loadSettings, hread]
  exact ⟨_, rfl, rfl, rfl⟩

theorem configures_or_fault (o : ProgramOptions) (c : Command) (around : Surroundings) :
    (∃ s, o.Configures around.config s) ∨
      c.Fault o around ∧ ∃ e, loadSettings o around.config = .error e := by
  cases hfile : around.config with
  | ok text =>
    cases hparse : Settings.parse text with
    | ok s => exact .inl ⟨s, .read hparse⟩
    | error e =>
      refine .inr ⟨.malformedConfig hfile hparse, .settings e, ?_⟩
      rw [loadSettings, readConfig_text, hparse]
      rfl
  | error f =>
    by_cases hcounts : f.Away → o.config.isSome = true
    · refine .inr ⟨.unreadConfig hfile hcounts, .file f, ?_⟩
      rw [loadSettings, readConfig_fault hcounts]
      rfl
    · rw [Classical.not_imp, Option.not_isSome_iff_eq_none] at hcounts
      exact .inl ⟨.standard, .absent hcounts.1 hcounts.2⟩

private theorem startSession_eq (s : Settings) :
    let called := Session.perform ⟨some s, .presets, .dark⟩ (.applyHighlight s.highlight)
    startSession s = called.1.map fun _ => called.2 := by
  simp only [startSession, Session.fresh, Session.configure, Session.settings, Option.getD_some,
    Session.perform]
  rcases Session.applyHighlight ⟨some s, .presets, .dark⟩ s.highlight with ⟨_ | _, behind⟩ <;> rfl

/-- No session starts if a theme does not convert, or if none has the name that the settings give;
otherwise it uses the theme of that name. -/
theorem startSession_cases (s : Settings) :
    (∃ u ∈ s.highlight.themes, ∃ e, Theme.ofSettings u = .error e) ∧
      (∃ e, startSession s = .error e) ∨
    ∃ themes, ∃ r : Registry, s.Offers themes ∧ r.Represents themes ∧
      (r.find? s.highlight.theme = none ∧ (∃ e, startSession s = .error e) ∨
        ∃ t, r.find? s.highlight.theme = some t ∧ startSession s = .ok ⟨some s, r, t⟩) := by
  have hstart := startSession_eq s
  have heffect := Session.effect_perform ⟨some s, .presets, .dark⟩ (.applyHighlight s.highlight)
  generalize Session.perform ⟨some s, .presets, .dark⟩ (.applyHighlight s.highlight) = called
    at hstart heffect
  obtain ⟨answer, behind⟩ := called
  have hpresets := Registry.represents_presets
  cases heffect with
  | appliedInvalid fault =>
    exact .inl ⟨exists_firstFault_iff.mp ⟨_, mapM_eq_error_iff.mp fault⟩, _, hstart⟩
  | appliedUnknown valid found =>
    exact .inr ⟨_, _, ⟨_, valid, rfl⟩, hpresets.registerAll _, .inl ⟨found, _, hstart⟩⟩
  | applied valid found =>
    exact .inr ⟨_, _, ⟨_, valid, rfl⟩, hpresets.registerAll _, .inr ⟨_, found, hstart⟩⟩

end Setup

/-! ## Commands in a session -/

namespace Command

open Printing

section Perform

variable {s : Session} {known : List Theme}

private theorem not_cannotRead {c : Command} {text : List Char} : ¬ c.CannotRead (.ok text) := by
  rintro ⟨place, f, -, found⟩
  cases found

private theorem not_asksUnknown {c : Command}
    (other : ∀ file name numbers, c ≠ .highlight file (some name) numbers) :
    ¬ c.AsksUnknown known := by
  rintro ⟨file, name, numbers, hc, -⟩
  exact other file name numbers hc

theorem mapM_findTheme_themeNames (h : s.registry.Represents known) :
    s.themeNames.mapM s.findTheme = .ok s.registry.themes := by
  rw [mapM_eq_ok_iff, Session.themeNames, Registry.names, List.forall₂_map_left_iff,
    List.forall₂_same]
  intro t ht
  rw [Session.findTheme, h.mem_iff.mp ht]

theorem perform_themes (h : s.registry.Represents known) (source : FileState) :
    (themes.perform s source).Prints 0
      (printed (s.registry.themes.map (themeRow s.active.name))) := by
  rw [perform, mapM_findTheme_themeNames h, lift_ok_bind]
  exact (prints_printLines _).andReturn 0

/-- How a command ends: it fails before it prints anything, since it cannot read its source or asks
for an unknown theme, or it ends with 1 if it rejects its source and with 0 if not. -/
inductive Ends (known : List Theme) (s : Session) (source : FileState) (c : Command) : Prop
  | unread {e : SessionError} (unread : c.CannotRead source)
    (fails : (c.perform s source).FailsSilently e)
  | unknown {e : SessionError} (asks : c.AsksUnknown known)
    (fails : (c.perform s source).FailsSilently e)
  | well {exit : Nat} {output : List Char} (read : ¬ c.CannotRead source)
    (asks : ¬ c.AsksUnknown known) (prints : (c.perform s source).Prints exit output)
    (bound : exit ≤ 1) (rejects : exit = 1 ↔ c.Rejects source s.settings.limit)

/-- Only a check rejects anything. -/
private theorem ends_of_prints {c : Command} {source : FileState} {output : List Char}
    (other : ∀ file, c ≠ .check file) (read : ¬ c.CannotRead source) (asks : ¬ c.AsksUnknown known)
    (prints : (c.perform s source).Prints 0 output) : c.Ends known s source := by
  refine .well read asks prints (Nat.zero_le 1) (iff_of_false Nat.zero_ne_one ?_)
  rintro ⟨file, _, hc, -⟩
  exact other file hc

theorem ends_tokens (file : String) (json : Bool) (source : FileState) :
    (tokens file json).Ends known s source := by
  cases source with
  | error f => exact .unread ⟨_, f, rfl, rfl⟩ (failsSilently_throw (SessionError.file f))
  | ok text =>
    have hasks : ¬ (tokens file json).AsksUnknown known := not_asksUnknown (by simp)
    cases json with
    | true => exact ends_of_prints (by simp) not_cannotRead hasks ((prints_printLine _).andReturn 0)
    | false =>
      exact ends_of_prints (by simp) not_cannotRead hasks ((prints_printLines _).andReturn 0)

theorem ends_check (file : String) (source : FileState) : (check file).Ends known s source := by
  cases source with
  | error f => exact .unread ⟨_, f, rfl, rfl⟩ (failsSilently_throw (SessionError.file f))
  | ok text =>
    have hasks : ¬ (check file).AsksUnknown known := not_asksUnknown (by simp)
    have hperform : (check file).perform s (.ok text) =
        if accepts (tokenize text) s.settings.limit then
          printLine s!"{file}: ok".toList >>= fun _ => pure 0
        else printLine s!"{file}: syntax error".toList >>= fun _ => pure 1 := rfl
    cases hvalid : accepts (tokenize text) s.settings.limit with
    | true =>
      have hprints := (prints_printLine (ε := SessionError) s!"{file}: ok".toList).andReturn 0
      refine .well not_cannotRead hasks (by rwa [hperform, hvalid]) (Nat.zero_le 1)
        (iff_of_false Nat.zero_ne_one ?_)
      rintro ⟨_, _, -, hsource, hrejected⟩
      rw [← Except.ok.inj hsource, hvalid] at hrejected
      cases hrejected
    | false =>
      have hprints :=
        (prints_printLine (ε := SessionError) s!"{file}: syntax error".toList).andReturn 1
      exact .well not_cannotRead hasks (by rwa [hperform, hvalid]) (Nat.le_refl 1)
        (iff_of_true rfl ⟨file, text, rfl, rfl, hvalid⟩)

/-- The theme is looked for before the source is read. -/
theorem ends_highlight (h : s.registry.Represents known) (file : String) (name : Option String)
    (numbers : Bool) (source : FileState) :
    (highlight file name numbers).Ends known s source := by
  cases name with
  | none =>
    cases source with
    | error f => exact .unread ⟨_, f, rfl, rfl⟩ (failsSilently_throw (SessionError.file f))
    | ok text =>
      exact ends_of_prints (by simp) not_cannotRead (not_asksUnknown (by simp))
        ((prints_printLines _).andReturn 0)
  | some name =>
    cases hfound : s.registry.find? name with
    | none =>
      have hasks : (highlight file (some name) numbers).AsksUnknown known :=
        ⟨file, name, numbers, rfl, h.find?_eq_none_iff.mp hfound⟩
      have htheme : s.findTheme name = .error (.unknownTheme name s.themeNames) := by
        rw [Session.findTheme, hfound]
        rfl
      apply Ends.unknown hasks
      rw [perform, htheme]
      exact failsSilently_throw _
    | some t =>
      have htheme : s.findTheme name = .ok t := by rw [Session.findTheme, hfound]
      cases source with
      | error f =>
        apply Ends.unread ⟨_, f, rfl, rfl⟩
        rw [perform, htheme]
        exact failsSilently_throw (SessionError.file f)
      | ok text =>
        have hasks : ¬ (highlight file (some name) numbers).AsksUnknown known := by
          rintro ⟨_, _, _, asks, hnone⟩
          obtain ⟨-, hname, -⟩ := highlight.inj asks
          rw [← Option.some.inj hname, ← h.find?_eq_none_iff, hfound] at hnone
          cases hnone
        apply ends_of_prints (by simp) not_cannotRead hasks
        rw [perform, htheme]
        exact (prints_printLines _).andReturn 0

theorem ends_themes (h : s.registry.Represents known) (source : FileState) :
    themes.Ends known s source := by
  have hread : ¬ themes.CannotRead source := by
    rintro ⟨place, f, reads, -⟩
    cases reads
  exact ends_of_prints (by simp) hread (not_asksUnknown (by simp)) (perform_themes h source)

theorem ends_of_represents (h : s.registry.Represents known) (c : Command) (source : FileState) :
    c.Ends known s source := by
  cases c with
  | tokens file json => exact ends_tokens file json source
  | check file => exact ends_check file source
  | highlight file name numbers => exact ends_highlight h file name numbers source
  | themes => exact ends_themes h source

end Perform

/-! ## Runs -/

section Run

variable {o : ProgramOptions} {c : Command} {around : Surroundings} {s : Settings}
  {session : Session} {e : SessionError} {exit : Nat} {output : List Char}

theorem run_of_loadFault (load : loadSettings o around.config = .error e) :
    c.run o around = ⟨2, [], ["Error: " ++ e.message]⟩ := by
  rw [run, attempt, load]
  rfl

section Loaded

variable (logs : o.logFile.isSome = true → around.logOpens = true)
  (load : loadSettings o around.config = .ok s)
include logs load

private theorem attempt_of_load : attempt o c around =
    liftM ((startSession s).mapError RunFault.session) >>= fun session =>
      (c.perform session around.source).adapt .session := by
  have hlog : (o.logFile.isSome && !around.logOpens) = false := by
    cases hfile : o.logFile.isSome with
    | false => rfl
    | true => rw [logs hfile]; rfl
  rw [attempt, load, hlog]
  rfl

theorem run_of_startFault (start : startSession s = .error e) :
    c.run o around = ⟨2, [], ["Error: " ++ e.message]⟩ := by
  rw [run, attempt_of_load logs load, start]
  rfl

variable (start : startSession s = .ok session)
include start

private theorem attempt_of_start :
    attempt o c around = (c.perform session around.source).adapt .session := by
  rw [attempt_of_load logs load, start]
  rfl

theorem run_of_failsSilently (fails : (c.perform session around.source).FailsSilently e) :
    c.run o around = ⟨2, [], ["Error: " ++ e.message]⟩ := by
  rw [run, attempt_of_start logs load start, onto_adapt, fails]
  rfl

theorem run_of_prints (prints : (c.perform session around.source).Prints exit output) :
    c.run o around = ⟨exit, output, []⟩ := by
  rw [run, attempt_of_start logs load start, onto_adapt, prints]
  rfl

end Loaded

private theorem not_fault {themes : List Theme} (configured : o.Configures around.config s)
    (offered : s.Offers themes) (known : ¬ ∀ t ∈ themes, sameName t.name s.highlight.theme = false)
    (read : ¬ c.CannotRead around.source) (asks : ¬ c.AsksUnknown themes) : ¬ c.Fault o around := by
  intro fault
  cases fault with
  | unreadConfig found counts =>
    rw [found] at configured
    cases configured with
    | absent away unasked =>
      rw [unasked] at counts
      cases counts away
  | malformedConfig found refused =>
    rw [found] at configured
    cases configured with
    | read parsed => cases parsed.symm.trans refused
  | invalidTheme configured' listed refused =>
    obtain rfl := configured.unique configured'
    obtain ⟨ts, hts, -⟩ := offered
    obtain ⟨t, ht⟩ := exists_mapM_eq_ok_iff.mp ⟨ts, hts⟩ _ listed
    cases ht.symm.trans refused
  | unknownTheme configured' offered' unknown =>
    obtain rfl := configured.unique configured'
    obtain rfl := offered.unique offered'
    exact known unknown
  | unreadSource unread => exact read unread
  | unknownChoice configured' offered' asks' =>
    obtain rfl := configured.unique configured'
    obtain rfl := offered.unique offered'
    exact asks asks'

/-- A run fails for one of the faults and has printed nothing then, or none of them is there and it
ends as its command does. -/
theorem run_cases (o : ProgramOptions) (c : Command) (around : Surroundings)
    (logs : o.logFile.isSome = true → around.logOpens = true) :
    c.Fault o around ∧ (∃ message, c.run o around = ⟨2, [], [message]⟩) ∨
    ¬ c.Fault o around ∧ ∃ s exit output, o.Configures around.config s ∧
      c.run o around = ⟨exit, output, []⟩ ∧ exit ≤ 1 ∧
      (exit = 1 ↔ c.Rejects around.source s.limit) := by
  obtain ⟨s, hs⟩ | ⟨hfault, e, hload⟩ := configures_or_fault o c around
  · obtain ⟨loaded, hload, hlimits, hhighlight⟩ := loadSettings_of_configures hs
    obtain ⟨⟨u, hu, fault, hfault⟩, e, hstart⟩ | ⟨themes, r, hoffered, hr, hnamed⟩ :=
      startSession_cases loaded
    · exact .inl ⟨.invalidTheme hs (hhighlight ▸ hu) hfault, _, run_of_startFault logs hload hstart⟩
    rw [Settings.Offers, hhighlight] at hoffered
    obtain ⟨hunknown, e, hstart⟩ | ⟨t, hfound, hstart⟩ := hnamed
    · rw [hhighlight, hr.find?_eq_none_iff] at hunknown
      exact .inl ⟨.unknownTheme hs hoffered hunknown, _, run_of_startFault logs hload hstart⟩
    have hknown : ¬ ∀ t ∈ themes, sameName t.name s.highlight.theme = false := by
      rw [← hr.find?_eq_none_iff, ← hhighlight, hfound]
      exact Option.some_ne_none t
    cases ends_of_represents (s := ⟨some loaded, r, t⟩) hr c around.source with
    | unread hread hfails =>
      exact .inl ⟨.unreadSource hread, _, run_of_failsSilently logs hload hstart hfails⟩
    | unknown hasks hfails =>
      exact .inl ⟨.unknownChoice hs hoffered hasks, _,
        run_of_failsSilently logs hload hstart hfails⟩
    | @well exit output hread hasks hprints hbound hrejects =>
      have hlimit : loaded.limit = s.limit := by rw [Settings.limit, hlimits, Settings.limit]
      refine .inr ⟨not_fault hs hoffered hknown hread hasks, s, exit, output, hs,
        run_of_prints logs hload hstart hprints, hbound, ?_⟩
      rw [← hlimit]
      exact hrejects
  · exact .inl ⟨hfault, _, run_of_loadFault hload⟩

/-- A run with a fault exits with 2 and prints nothing; one without exits with 1 if it rejects its
source under the limit that is set, and with 0 if not. -/
theorem exit_of_run (o : ProgramOptions) (c : Command) (around : Surroundings)
    (logs : o.logFile.isSome = true → around.logOpens = true) :
    let out := c.run o around
    (c.Fault o around → out.exit = 2 ∧ out.output = [] ∧ ∃ message, out.errors = [message]) ∧
    (¬ c.Fault o around → out.errors = [] ∧ ∃ s, o.Configures around.config s ∧
      (out.exit = 1 ↔ c.Rejects around.source s.limit) ∧
      (¬ c.Rejects around.source s.limit → out.exit = 0)) := by
  intro out
  obtain ⟨hfault, message, hrun⟩ | ⟨hfault, s, exit, output, hs, hrun, hbound, hexit⟩ :=
    run_cases o c around logs
  · have hout : out = ⟨2, [], [message]⟩ := hrun
    refine ⟨fun _ => ?_, fun h => absurd hfault h⟩
    rw [hout]
    exact ⟨rfl, rfl, _, rfl⟩
  · have hout : out = ⟨exit, output, []⟩ := hrun
    refine ⟨fun h => absurd h hfault, fun _ => ?_⟩
    rw [hout]
    refine ⟨rfl, s, hs, hexit, fun haccepts => ?_⟩
    have hne : exit ≠ 1 := mt hexit.mp haccepts
    show exit = 0
    omega

/-- Under a limit of one level, with a log, and with the theme named in a case of its own: a check
rejects its source, and a theme that nobody knows is a fault. -/
theorem exit_of_run_nested :
    let config :=
      ("\x7b\"limits\":\x7b\"max_nesting_depth\":1\x7d," ++
        "\"highlight\":\x7b\"theme\":\"DARK\"\x7d\x7d").toList
    let o : ProgramOptions := ⟨none, none, none, some "log"⟩
    let around : Surroundings := ⟨.ok config, true, .ok "x=((1));".toList⟩
    let checked := (check "a").run o around
    let painted := (highlight "a" (some "Solar") true).run o around
    (o.logFile.isSome = true → around.logOpens = true) ∧ checked.exit = 1 ∧
      (∃ s, o.Configures around.config s ∧ (check "a").Rejects around.source s.limit) ∧
      (highlight "a" (some "Solar") true).Fault o around ∧
      painted.exit = 2 ∧ painted.output = [] := by
  intro config o around checked painted
  have hlogs : o.logFile.isSome = true → around.logOpens = true := fun _ => rfl
  have hexit : checked.exit = 1 := by decide +kernel
  obtain ⟨hfaults, hruns⟩ := exit_of_run o (check "a") around hlogs
  have hnone : ¬ (check "a").Fault o around := by
    intro fault
    have htwo : checked.exit = 2 := (hfaults fault).1
    omega
  obtain ⟨-, s', hs', hrejects, -⟩ := hruns hnone
  have hfault : (highlight "a" (some "Solar") true).Fault o around := by
    have hs : o.Configures around.config ⟨.standard, ⟨1⟩, "DARK", []⟩ := .read (by decide +kernel)
    exact .unknownChoice hs ⟨[], rfl, rfl⟩ ⟨"a", "Solar", true, rfl, by decide⟩
  obtain ⟨htwo, houtput, -⟩ :=
    (exit_of_run o (highlight "a" (some "Solar") true) around hlogs).1 hfault
  exact ⟨hlogs, hexit, ⟨s', hs', hrejects.mp hexit⟩, hfault, htwo, houtput⟩

end Run
end Command
end SyntaxPaint
