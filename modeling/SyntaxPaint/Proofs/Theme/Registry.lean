import Mathlib.Data.List.Nodup
import SyntaxPaint.Theme.Registry
/-!
# Registries as maps

A registry stands for the list of all themes that were ever registered in it: its names are theirs,
each once and in the order of their first registrations, and under every name it holds the theme
that was registered last.
-/
namespace SyntaxPaint

/-- What a theme is looked up by. -/
def Theme.key (t : Theme) : List Char := folded t.name

/-- The last of some themes that has a name, in any case. -/
def lastNamed (history : List Theme) (name : String) : Option Theme :=
  history.reverse.find? fun t => sameName t.name name

theorem lastNamed_append (history later : List Theme) (name : String) :
    lastNamed (history ++ later) name = (lastNamed later name).or (lastNamed history name) := by
  rw [lastNamed, List.reverse_append, List.find?_append]
  rfl

theorem lastNamed_eq_none_iff {history : List Theme} {name : String} :
    lastNamed history name = none ↔ ∀ t ∈ history, sameName t.name name = false := by
  simp [lastNamed]

namespace Registry

variable {r : Registry} {history : List Theme}

/-! ## One registration -/

section Put

variable {t u : Theme} {us : List Theme}

private theorem find?_put (t : Theme) (us : List Theme) (name : String) :
    (put t us).find? (fun u => sameName u.name name) =
      if sameName t.name name then some t else us.find? fun u => sameName u.name name := by
  induction us with
  | nil =>
    rw [put, List.find?_cons, List.find?_nil]
    cases sameName t.name name <;> rfl
  | cons u us ih =>
    rw [put]
    split
    · rename_i hsame
      -- The theme that gives way has every name that the new one has.
      have hnames : sameName u.name name = sameName t.name name := by
        rw [sameName_iff] at hsame
        rw [sameName, sameName, hsame]
      rw [List.find?_cons, List.find?_cons, hnames]
      cases sameName t.name name <;> rfl
    · rename_i hother
      rw [List.find?_cons, List.find?_cons, ih]
      cases hu : sameName u.name name with
      | false => rfl
      | true =>
        have ht : sameName t.name name = false := by
          rw [Bool.eq_false_iff]
          intro ht
          rw [sameName_iff] at hu ht
          exact hother (sameName_iff.mpr (hu.trans ht.symm))
        rw [ht]
        rfl

private theorem map_key_put (t : Theme) (us : List Theme) :
    (put t us).map Theme.key =
      if t.key ∈ us.map Theme.key then us.map Theme.key else us.map Theme.key ++ [t.key] := by
  induction us with
  | nil => rfl
  | cons u us ih =>
    rw [put]
    split
    · rename_i hsame
      have hkey : u.key = t.key := sameName_iff.mp hsame
      rw [List.map_cons, List.map_cons, hkey, if_pos List.mem_cons_self]
    · rename_i hother
      have hkey : t.key ≠ u.key := fun h => hother (sameName_iff.mpr h.symm)
      have hmem : t.key ∈ (u :: us).map Theme.key ↔ t.key ∈ us.map Theme.key := by
        rw [List.map_cons, List.mem_cons]
        exact or_iff_right hkey
      rw [List.map_cons, ih]
      simp only [hmem]
      split
      · rfl
      · rfl

private theorem put_eq_set (h : us.find? (fun v => sameName v.name t.name) = some u) :
    ∃ i, us[i]? = some u ∧ put t us = us.set i t := by
  induction us with
  | nil => cases h
  | cons v us ih =>
    rw [List.find?_cons] at h
    rw [put]
    cases hsame : sameName v.name t.name with
    | true =>
      rw [hsame] at h
      exact ⟨0, h, rfl⟩
    | false =>
      rw [hsame] at h
      obtain ⟨i, hi, hset⟩ := ih h
      refine ⟨i + 1, hi, ?_⟩
      rw [hset]
      rfl

private theorem put_eq_append (h : us.find? (fun v => sameName v.name t.name) = none) :
    put t us = us ++ [t] := by
  induction us with
  | nil => rfl
  | cons v us ih =>
    rw [List.find?_cons] at h
    rw [put]
    cases hsame : sameName v.name t.name with
    | true =>
      rw [hsame] at h
      cases h
    | false =>
      rw [hsame] at h
      rw [ih h]
      rfl

end Put

theorem sameName_of_find? {name : String} {t : Theme} (h : r.find? name = some t) :
    sameName t.name name = true := by
  rw [find?] at h
  have hfound := List.find?_some h
  exact hfound

theorem find?_register (r : Registry) (t : Theme) (name : String) :
    (r.register t).find? name = if sameName t.name name then some t else r.find? name :=
  find?_put t r.themes name

/-- A theme of a name that is there takes the place of the theme of that name. -/
theorem register_of_find?_eq_some {t u : Theme} (h : r.find? t.name = some u) :
    ∃ i, r.themes[i]? = some u ∧ (r.register t).themes = r.themes.set i t := put_eq_set h

theorem register_of_find?_eq_none {t : Theme} (h : r.find? t.name = none) :
    (r.register t).themes = r.themes ++ [t] := put_eq_append h

/-! ## Runs of registrations -/

private theorem eraseDups_concat (ks : List (List Char)) (k : List Char) :
    (ks ++ [k]).eraseDups = if k ∈ ks then ks.eraseDups else ks.eraseDups ++ [k] := by
  rw [List.eraseDups_append, List.removeAll]
  split
  · rename_i hold
    rw [List.filter_cons_of_neg (by simpa using hold), List.filter_nil]
    exact List.append_nil _
  · rename_i hnew
    rw [List.filter_cons_of_pos (by simpa using hnew), List.filter_nil]
    rfl

/-- The registry is the map that the registrations make, in the order in which they came. -/
structure Represents (r : Registry) (history : List Theme) : Prop where
  distinct : (r.themes.map Theme.key).Nodup
  order : r.themes.map Theme.key = (history.map Theme.key).eraseDups
  newest : ∀ name, r.find? name = lastNamed history name

theorem represents_empty : empty.Represents [] := ⟨List.nodup_nil, rfl, fun _ => rfl⟩

theorem Represents.register (h : r.Represents history) (t : Theme) :
    (r.register t).Represents (history ++ [t]) := by
  have hkeys := map_key_put t r.themes
  refine ⟨?distinct, ?order, ?newest⟩
  case distinct =>
    show ((put t r.themes).map Theme.key).Nodup
    rw [hkeys]
    split
    · exact h.distinct
    · rename_i hnew
      rw [List.nodup_append]
      refine ⟨h.distinct, List.nodup_singleton _, fun k hk l hl => ?_⟩
      rw [List.mem_singleton.mp hl]
      exact fun heq => hnew (heq ▸ hk)
  case order =>
    show (put t r.themes).map Theme.key = ((history ++ [t]).map Theme.key).eraseDups
    rw [hkeys, h.order, List.map_append]
    simp only [List.mem_eraseDups]
    exact (eraseDups_concat _ t.key).symm
  case newest =>
    intro name
    rw [find?_register, lastNamed_append, h.newest]
    show _ = (List.find? _ [t]).or _
    rw [List.find?_cons]
    cases sameName t.name name <;> rfl

theorem Represents.registerAll (h : r.Represents history) (ts : List Theme) :
    (r.registerAll ts).Represents (history ++ ts) := by
  induction ts generalizing r history with
  | nil => rwa [List.append_nil]
  | cons t ts ih =>
    have hrest := ih (h.register t)
    rwa [List.append_assoc] at hrest

theorem represents_presets : presets.Represents [.dark, .light] :=
  represents_empty.registerAll [.dark, .light]

/-- Registering settings as they are converted is registering them when all have been converted. -/
theorem addSettings_eq (r : Registry) (ss : List ThemeSettings) :
    r.addSettings ss = (ss.mapM Theme.ofSettings).map r.registerAll := by
  induction ss generalizing r with
  | nil => rfl
  | cons s ss ih =>
    rw [addSettings, List.mapM_cons]
    cases Theme.ofSettings s with
    | error e => rfl
    | ok t =>
      show (r.register t).addSettings ss = _
      rw [ih]
      cases ss.mapM Theme.ofSettings with
      | error e => rfl
      | ok ts => rfl

namespace Represents

variable (h : r.Represents history)
include h

theorem pairwise : r.themes.Pairwise fun t u => sameName t.name u.name = false := by
  have hdistinct := h.distinct
  rw [List.Nodup, List.pairwise_map] at hdistinct
  refine hdistinct.imp fun hne => ?_
  rw [Bool.eq_false_iff]
  exact fun hsame => hne (sameName_iff.mp hsame)

theorem mem_iff {t : Theme} : t ∈ r.themes ↔ r.find? t.name = some t := by
  constructor
  · intro ht
    cases hfound : r.find? t.name with
    | none =>
      rw [Registry.find?, List.find?_eq_none] at hfound
      exact absurd (sameName_refl t.name) (hfound t ht)
    | some u =>
      have hu : u ∈ r.themes := List.mem_of_find?_eq_some hfound
      have hsame : sameName u.name t.name = true := sameName_of_find? hfound
      rw [List.inj_on_of_nodup_map h.distinct hu ht (sameName_iff.mp hsame)]
  · exact List.mem_of_find?_eq_some

theorem find?_eq_none_iff {name : String} :
    r.find? name = none ↔ ∀ t ∈ history, sameName t.name name = false := by
  rw [h.newest, lastNamed_eq_none_iff]

theorem size_eq : r.size = (history.map Theme.key).eraseDups.length := by
  rw [← h.order, List.length_map]
  rfl

/-- What was registered first under a new name stays in front. -/
theorem presets_first {later : List Theme} (hfirst : history = [.dark, .light] ++ later) :
    ∃ d l rest, r.themes = d :: l :: rest ∧ sameName d.name "Dark" = true ∧
      sameName l.name "Light" = true := by
  have horder := h.order
  rw [hfirst, List.map_append, List.eraseDups_append] at horder
  have hpresets : ([Theme.dark, Theme.light].map Theme.key).eraseDups =
      [folded "Dark", folded "Light"] := by decide
  rw [hpresets] at horder
  obtain ⟨d, themes, hd, hkey, hrest⟩ := List.map_eq_cons_iff.mp horder
  obtain ⟨l, rest, hl, hkey', -⟩ := List.map_eq_cons_iff.mp hrest
  exact ⟨d, l, rest, by rw [hd, hl], sameName_iff.mpr hkey, sameName_iff.mpr hkey'⟩

end Represents

/-! ## Where registries come from -/

/-- The registries that all others are made from. -/
inductive Origin where
  | empty
  | presets
  | settings (ss : List ThemeSettings)

def Origin.registry : Origin → Except ThemeError Registry
  | empty => .ok .empty
  | presets => .ok .presets
  | settings ss => Registry.ofSettings ss

/-- The themes that an origin registers. -/
def Origin.registered : Origin → Except ThemeError (List Theme)
  | empty => .ok []
  | presets => .ok [.dark, .light]
  | settings ss => (ss.mapM Theme.ofSettings).map ([.dark, .light] ++ ·)

theorem Origin.exists_registered {o : Origin} (h : o.registry = .ok r) :
    ∃ first, o.registered = .ok first ∧ r.Represents first ∧
      (o ≠ .empty → ∃ more, first = [.dark, .light] ++ more) := by
  cases o with
  | empty =>
    obtain rfl := Except.ok.inj h
    exact ⟨[], rfl, represents_empty, fun hne => absurd rfl hne⟩
  | presets =>
    obtain rfl := Except.ok.inj h
    exact ⟨_, rfl, represents_presets, fun _ => ⟨[], rfl⟩⟩
  | settings ss =>
    rw [registry, Registry.ofSettings, addSettings_eq] at h
    rw [registered]
    cases hts : ss.mapM Theme.ofSettings with
    | error e =>
      rw [hts] at h
      cases h
    | ok ts =>
      rw [hts] at h
      obtain rfl := Except.ok.inj h
      exact ⟨_, rfl, represents_presets.registerAll ts, fun _ => ⟨ts, rfl⟩⟩

/-- However a registry was begun and whatever was registered in it since, no two of its names agree
without regard to case; its names are those of all registered themes, in the order in which they
first came; and what is found under a name is the last theme that was registered under it. The
themes listed are the themes found. One more theme takes the place of the theme of its name and
leaves all others where they are, or goes behind all others. What began with the presets has
spellings of their names in front. -/
theorem register_keeps_order (o : Origin) {begun : Registry} (start : o.registry = .ok begun)
    (later : List Theme) :
    ∃ first, o.registered = .ok first ∧
      let history := first ++ later
      let keys := (history.map Theme.key).eraseDups
      let r := begun.registerAll later
      r.themes.Pairwise (fun t u => sameName t.name u.name = false) ∧
      r.themes.map Theme.key = keys ∧
      (∀ name, r.find? name = lastNamed history name) ∧
      (∀ name, r.find? name = none ↔ ∀ t ∈ history, sameName t.name name = false) ∧
      (∀ t, t ∈ r.themes ↔ r.find? t.name = some t) ∧
      r.names = r.themes.map Theme.name ∧ r.size = keys.length ∧
      (r.isEmpty = true ↔ history = []) ∧
      (∀ t u, r.find? t.name = some u → ∃ i, r.themes[i]? = some u ∧
        (r.register t).themes = r.themes.set i t ∧ (r.register t).size = r.size) ∧
      (∀ t, r.find? t.name = none → (r.register t).themes = r.themes ++ [t]) ∧
      (o ≠ .empty → ∃ d l rest, r.themes = d :: l :: rest ∧ sameName d.name "Dark" = true ∧
        sameName l.name "Light" = true) := by
  obtain ⟨first, hfirst, hbegun, hpresets⟩ := Origin.exists_registered start
  refine ⟨first, hfirst, ?_⟩
  intro history keys r
  have hr : r.Represents history := hbegun.registerAll later
  refine ⟨hr.pairwise, hr.order, hr.newest, fun name => hr.find?_eq_none_iff, fun t => hr.mem_iff,
    rfl, hr.size_eq, ?empty, ?known, fun t => register_of_find?_eq_none, ?presets⟩
  case empty =>
    have hnil : r.themes = [] ↔ history = [] := by
      rw [← List.map_eq_nil_iff, hr.order]
      cases history with
      | nil => exact iff_of_true rfl rfl
      | cons t ts => simp [List.eraseDups_cons]
    rw [isEmpty, List.isEmpty_iff, hnil]
  case known =>
    intro t u hu
    obtain ⟨i, hi, hset⟩ := register_of_find?_eq_some hu
    refine ⟨i, hi, hset, ?_⟩
    rw [size, size, hset, List.length_set]
  case presets =>
    intro hne
    obtain ⟨more, rfl⟩ := hpresets hne
    exact hr.presets_first (List.append_assoc _ _ _)

/-- A theme of the user's own takes the place of a preset, under its own spelling; one that comes
later takes the place of the other, and one of a new name goes behind both. -/
theorem register_keeps_order_shadowed :
    let o := Origin.settings [⟨" dARK ", "#102030", "white", .empty⟩]
    let begun : Registry := ⟨[.plain "dARK" ⟨16, 32, 48, 255⟩ .white, .light]⟩
    let later := [Theme.plain "LIGHT" .gray .black, .plain "Solar" .black .white]
    o.registry = .ok begun ∧
      (begun.registerAll later).names = ["dARK", "LIGHT", "Solar"] ∧
      ∃ first, o.registered = .ok first ∧
        (begun.registerAll later).find? "light" = lastNamed (first ++ later) "light" := by
  intro o begun later
  have hstart : o.registry = .ok begun := by rfl
  obtain ⟨first, hfirst, -, -, hfind, -⟩ := register_keeps_order o hstart later
  exact ⟨hstart, by decide, first, hfirst, hfind "light"⟩

end Registry
end SyntaxPaint
