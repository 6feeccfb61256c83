import SyntaxPaint.Proofs.Json.Whole
import SyntaxPaint.Settings.Reader
/-!
# Accepted settings

No part of the settings can be read from a tree with a fault. So the texts of settings are texts of
JSON, and what they hold depends on nothing but the tree that they spell.
-/
namespace SyntaxPaint

/-- The reader takes no tree with a fault. -/
def TakesWhole {α : Type} (read : Tree → Reading α) : Prop :=
  ∀ {t : Tree} {x : α}, read t = .ok x → t.IsWhole

section Scalars

variable {t : Tree} {q : Quoted}

theorem Quoted.said_eq_ok_iff {s : String} : q.said = .ok s ↔ q.value = .ok s :=
  mapError_eq_ok_iff

theorem Quoted.isWhole_of_said {s : String} (h : q.said = .ok s) : q.IsWhole :=
  .inl ⟨s, said_eq_ok_iff.mp h⟩

theorem Tree.misfit_ne_ok {α : Type} {wanted : Wanted} {x : α} : t.misfit wanted ≠ .ok x := by
  intro h
  cases t with
  | word w => cases w <;> cases h
  | number n =>
    rw [misfit] at h
    split at h <;> cases h
  | string q =>
    obtain ⟨s, -, h⟩ := bind_eq_ok_iff.mp h
    cases h
  | _ => cases h

theorem takesWhole_readText : TakesWhole readText := by
  intro t s h
  rw [readText.eq_def] at h
  split at h
  · exact Quoted.isWhole_of_said h
  · exact (Tree.misfit_ne_ok h).elim

theorem takesWhole_readCount : TakesWhole readCount := by
  intro t n h
  rw [readCount.eq_def] at h
  split at h
  · trivial
  · exact (Tree.misfit_ne_ok h).elim

theorem takesWhole_readUnit : TakesWhole readUnit := by
  intro t n h
  rw [readUnit.eq_def] at h
  split at h
  · trivial
  · exact (Tree.misfit_ne_ok h).elim

theorem takesWhole_readLevel : TakesWhole readLevel := by
  intro t level h
  rw [readLevel.eq_def] at h
  split at h
  · obtain ⟨name, hname, -⟩ := bind_eq_ok_iff.mp h
    exact Quoted.isWhole_of_said hname
  · next key value rest =>
    obtain ⟨name, hname, h⟩ := bind_eq_ok_iff.mp h
    obtain ⟨level', -, h⟩ := bind_eq_ok_iff.mp h
    obtain ⟨_, hunit, h⟩ := bind_eq_ok_iff.mp h
    cases rest with
    | closed => exact ⟨Quoted.isWhole_of_said hname, takesWhole_readUnit hunit, trivial⟩
    | cut f comma => cases comma <;> cases h
    | member => cases h
  all_goals cases h

theorem takesWhole_readOverride : TakesWhole readOverride := by
  intro t level h
  rw [readOverride.eq_def] at h
  split at h
  · trivial
  · cases h
  · obtain ⟨level', hlevel, -⟩ := map_eq_ok_iff.mp h
    exact takesWhole_readLevel hlevel

end Scalars

/-! ## Lists and records -/

section Records

variable {ρ : Type} {fields : List (Field ρ)} {record result : ρ}

theorem isWhole_of_readEntries {d d' : Dictionary} : ∀ {members : Members},
    readEntries members d = .ok d' → members.IsWhole
  | .closed, _ => trivial
  | .member key value rest, h => by
    obtain ⟨name, hname, h⟩ := bind_eq_ok_iff.mp h
    obtain ⟨written, hwritten, h⟩ := bind_eq_ok_iff.mp h
    exact ⟨Quoted.isWhole_of_said hname, takesWhole_readText hwritten, isWhole_of_readEntries h⟩

theorem takesWhole_readDictionary : TakesWhole readDictionary := by
  intro t d h
  rw [readDictionary.eq_def] at h
  split at h
  · exact isWhole_of_readEntries h
  · exact (Tree.misfit_ne_ok h).elim

theorem isWhole_of_readEach {α : Type} {read : Tree → Reading α} (whole : TakesWhole read) :
    ∀ {items : Items} {xs : List α}, readEach read items = .ok xs → items.IsWhole
  | .closed, _, _ => trivial
  | .item value rest, _, h => by
    obtain ⟨x, hx, h⟩ := bind_eq_ok_iff.mp h
    obtain ⟨xs, hxs, -⟩ := bind_eq_ok_iff.mp h
    exact ⟨whole hx, isWhole_of_readEach whole hxs⟩

theorem takesWhole_readSequence {α : Type} {read : Tree → Reading α} (whole : TakesWhole read) :
    TakesWhole (readSequence read) := by
  intro t xs h
  rw [readSequence.eq_def] at h
  split at h
  · exact isWhole_of_readEach whole h
  · exact (Tree.misfit_ne_ok h).elim

theorem takesWhole_of {α : Type} {name : String} {read : Tree → Reading α} {put : α → ρ → ρ}
    (whole : TakesWhole read) : TakesWhole (Field.of name read put).set := by
  intro t p h
  obtain ⟨x, hx, -⟩ := map_eq_ok_iff.mp h
  exact whole hx

theorem isWhole_of_readMembers (whole : ∀ field ∈ fields, TakesWhole field.set) :
    ∀ {members : Members} {seen : List String} {record : ρ},
      readMembers fields members seen record = .ok result → members.IsWhole
  | .closed, _, _, _ => trivial
  | .member key value rest, seen, record, h => by
    obtain ⟨name, hname, h⟩ := bind_eq_ok_iff.mp h
    have hkey := Quoted.isWhole_of_said hname
    split at h
    · split at h
      · cases h
      · next hskipped =>
        exact ⟨hkey, Tree.isWhole_of_skipped hskipped, isWhole_of_readMembers whole h⟩
    · next field hfind =>
      split_ifs at h
      obtain ⟨put, hput, h⟩ := bind_eq_ok_iff.mp h
      exact ⟨hkey, whole field (List.mem_of_find?_eq_some hfind) hput,
        isWhole_of_readMembers whole h⟩

theorem isWhole_of_readItems : ∀ {fields : List (Field ρ)} {items : Items} {record : ρ},
    (∀ field ∈ fields, TakesWhole field.set) → readItems fields items record = .ok result →
      items.IsWhole
  | _, .closed, _, _, _ => trivial
  | [], .item _ _, _, _, h => nomatch h
  | [], .cut _ true, _, _, h => nomatch h
  | [], .cut _ false, _, _, h => nomatch h
  | field :: fields, .item value rest, record, whole, h => by
    obtain ⟨put, hput, h⟩ := bind_eq_ok_iff.mp h
    obtain ⟨hfield, hfields⟩ := List.forall_mem_cons.mp whole
    exact ⟨hfield hput, isWhole_of_readItems hfields h⟩

theorem takesWhole_readRecord {wanted : Wanted} {standard : ρ}
    (whole : ∀ field ∈ fields, TakesWhole field.set) :
    TakesWhole (readRecord wanted fields standard) := by
  intro t result h
  rw [readRecord.eq_def] at h
  split at h
  · exact isWhole_of_readMembers whole h
  · exact isWhole_of_readItems whole h
  · exact (Tree.misfit_ne_ok h).elim

end Records

/-! ## Settings -/

theorem takesWhole_readTheme : TakesWhole readTheme := by
  refine takesWhole_readRecord ?_
  simp only [ThemeSettings.fields, List.forall_mem_cons, List.not_mem_nil, false_imp_iff,
    implies_true, and_true]
  exact ⟨takesWhole_of takesWhole_readText, takesWhole_of takesWhole_readText,
    takesWhole_of takesWhole_readText, takesWhole_of takesWhole_readDictionary⟩

theorem takesWhole_readLogging :
    TakesWhole (readRecord .logging LoggingSettings.fields .standard) := by
  refine takesWhole_readRecord ?_
  simp only [LoggingSettings.fields, List.forall_mem_cons, List.not_mem_nil, false_imp_iff,
    implies_true, and_true]
  exact ⟨takesWhole_of takesWhole_readLevel, takesWhole_of takesWhole_readOverride,
    takesWhole_of takesWhole_readOverride, takesWhole_of takesWhole_readOverride⟩

theorem takesWhole_readLimits : TakesWhole (readRecord .limits LimitSettings.fields .standard) := by
  refine takesWhole_readRecord ?_
  simp only [LimitSettings.fields, List.forall_mem_cons, List.not_mem_nil, false_imp_iff,
    implies_true, and_true]
  exact takesWhole_of takesWhole_readCount

theorem takesWhole_readHighlight :
    TakesWhole (readRecord .highlight HighlightSettings.fields .standard) := by
  refine takesWhole_readRecord ?_
  simp only [HighlightSettings.fields, List.forall_mem_cons, List.not_mem_nil, false_imp_iff,
    implies_true, and_true]
  exact ⟨takesWhole_of takesWhole_readText,
    takesWhole_of (takesWhole_readSequence takesWhole_readTheme)⟩

theorem takesWhole_readSettings : TakesWhole readSettings := by
  refine takesWhole_readRecord ?_
  simp only [Settings.fields, List.forall_mem_cons, List.not_mem_nil, false_imp_iff,
    implies_true, and_true]
  exact ⟨takesWhole_of takesWhole_readLogging, takesWhole_of takesWhole_readLimits,
    takesWhole_of takesWhole_readHighlight⟩

/-- A text holds settings exactly when it spells a tree from which they are read. -/
theorem Settings.parse_eq_ok_iff {text : List Char} {s : Settings} :
    Settings.parse text = .ok s ↔ ∃ t : Tree, t.Fills text ∧ readSettings t = .ok s := by
  constructor
  · intro h
    rw [Settings.parse] at h
    generalize hread : Tree.read text = found at h
    obtain ⟨t, rest⟩ := found
    obtain ⟨s', hs, h⟩ := bind_eq_ok_iff.mp h
    split_ifs at h with hrest
    · obtain rfl := Except.ok.inj h
      obtain ⟨blanks, blank, htext⟩ := exists_blanks rest
      rw [hrest, List.append_nil] at htext
      exact ⟨t, Tree.fills_iff.mpr ⟨rest, hread, takesWhole_readSettings hs, htext ▸ blank⟩, hs⟩
    · cases h
  · rintro ⟨t, filled, hread⟩
    obtain ⟨rest, htext, -, blank⟩ := Tree.fills_iff.mp filled
    have hrest : skipJsonBlanks rest = [] := by
      have hskip := @skipJsonBlanks_append rest [] blank (by simp)
      rwa [List.append_nil] at hskip
    simp [Settings.parse, htext, hread, hrest, bind, Except.bind, pure, Except.pure]

end SyntaxPaint
