import SyntaxPaint.Proofs.Text.Coordinates
import SyntaxPaint.Proofs.Token.Scan
/-!
# Reading by calls

Whoever reads a text by hand calls the operations of a cursor in any order. Only three of them move
it, and all that a call moves it by is passed character by character, so the cursor's position stays
that of the text read so far and every slice of the text is what was read in between.
-/
namespace SyntaxPaint
namespace Cursor

/-! ## Calls and runs -/

inductive Call where
  | position
  | atEnd
  | rest
  | peek (n : Nat)
  | check (x : Char)
  | startsWith (lead : List Char)
  | sliceFrom (mark : Position)
  | begin (kind : Kind)
  | finish (draft : Draft)
  | advance
  | advanceWhile (p : Char → Bool)
  | next

def Call.Answer : Call → Type
  | position => Position
  | atEnd | check _ | startsWith _ => Bool
  | rest | sliceFrom _ => List Char
  | peek _ | advance => Option Char
  | begin _ => Draft
  | finish _ => Token
  | advanceWhile _ => Nat
  | next => Option Token

/-- What an operation gives that may fail at the end of the text; there it leaves the cursor. -/
def given {α : Type} (c : Cursor) : Option (α × Cursor) → Option α × Cursor
  | some (x, moved) => (some x, moved)
  | none => (none, c)

/-- The answer to a call, and the cursor behind it. -/
def perform (c : Cursor) : (call : Call) → call.Answer × Cursor
  | .position => (c.position, c)
  | .atEnd => (c.atEnd, c)
  | .rest => (c.rest, c)
  | .peek n => (c.peek? n, c)
  | .check x => (c.check x, c)
  | .startsWith lead => (c.startsWith lead, c)
  | .sliceFrom mark => (c.sliceFrom mark, c)
  | .begin kind => (c.begin kind, c)
  | .finish draft => (c.finish draft, c)
  | .advance => c.given c.advance?
  | .advanceWhile p => c.advanceWhile p
  | .next => c.given c.next?

/-- The cursor behind some calls. -/
def behindCalls (c : Cursor) (calls : List Call) : Cursor :=
  calls.foldl (fun c call => (c.perform call).2) c

/-- What a call answers and which characters it passes, where `read` stands in front of the cursor
and `ahead` behind it. -/
def Call.Keeps (read ahead passed : List Char) : (call : Call) → call.Answer → Prop
  | .position, p => passed = [] ∧ p = .behind read
  | .atEnd, b => passed = [] ∧ (b = true ↔ ahead = [])
  | .rest, text => passed = [] ∧ text = ahead
  | .peek n, x => passed = [] ∧ x = ahead[n]?
  | .check x, b => passed = [] ∧ (b = true ↔ ahead.head? = some x)
  | .startsWith lead, b => passed = [] ∧ (b = true ↔ lead <+: ahead)
  | .sliceFrom mark, text => passed = [] ∧
      ∀ before since, read = before ++ since → mark = .behind before → text = since
  | .begin kind, d => passed = [] ∧ d = ⟨kind, .behind read⟩
  | .finish d, t => passed = [] ∧
      ∀ before since, read = before ++ since → d.start = .behind before →
        t = ⟨d.kind, since, ⟨.behind before, .behind read⟩⟩
  | .advance, x => passed = x.toList ∧ x = ahead.head?
  | .advanceWhile p, n => passed.length = n ∧ (∀ c ∈ passed, p c = true) ∧
      ∀ longer, longer <+: ahead → (∀ c ∈ longer, p c = true) → longer.length ≤ n
  | .next, t => passed = (t.map Token.text).getD [] ∧ (t = none ↔ ahead = []) ∧
      t = (place (.behind read) (lexemes ahead)).head?

/-! ## Passing characters -/

/-- The second cursor stands behind a piece of text that begins at the first. -/
def Passes (c : Cursor) (text : List Char) (d : Cursor) : Prop :=
  c.rest = text ++ d.rest ∧ d = c.skip text.length

namespace Passes

variable {c d e : Cursor} {s t : List Char}

theorem refl (c : Cursor) : c.Passes [] c := ⟨rfl, rfl⟩

theorem of_skip (ahead : c.rest = s ++ t) : c.Passes s (c.skip s.length) := by
  refine ⟨?_, rfl⟩
  rw [skip_eq ahead, ahead]

theorem eq_mk (h : c.Passes s d) : d = ⟨c.source, d.rest, c.position.after s⟩ := by
  obtain ⟨ahead, hd⟩ := h
  rw [skip_eq ahead] at hd
  exact hd

theorem trans (h : c.Passes s d) (h' : d.Passes t e) : c.Passes (s ++ t) e := by
  have hd := h.eq_mk
  have he := h'.eq_mk
  have hahead : c.rest = (s ++ t) ++ e.rest := by
    rw [h.1, h'.1, List.append_assoc]
  refine ⟨hahead, ?_⟩
  rw [skip_eq hahead, Position.after_append]
  rw [hd] at he
  exact he

theorem sound (h : c.Passes s d) (hc : c.Sound) : d.Sound := by
  rw [h.2]
  exact sound_skip hc s.length

theorem sliceFrom (h : c.Passes s d) (hc : c.Sound) : d.sliceFrom c.position = s := by
  obtain ⟨ahead, rfl⟩ := h
  exact sliceFrom_skip hc ahead

end Passes

/-! ## Single calls -/

section Calls

variable {c : Cursor} {read : List Char}

private theorem passes_advance (c : Cursor) :
    c.Passes (c.perform .advance).1.toList (c.perform .advance).2 ∧
      (c.perform .advance).1 = c.rest.head? := by
  cases hrest : c.rest with
  | nil =>
    have hnone : c.advance? = none := by rw [advance?, hrest]
    rw [perform, hnone]
    exact ⟨.refl c, rfl⟩
  | cons x xs =>
    have hsome : c.advance? = some (x, c.skip 1) := by rw [advance?, hrest]
    rw [perform, hsome]
    exact ⟨.of_skip (s := [x]) hrest, rfl⟩

private theorem length_le_takeWhile {p : Char → Bool} {ahead longer : List Char}
    (front : longer <+: ahead) (inside : ∀ c ∈ longer, p c = true) :
    longer.length ≤ (ahead.takeWhile p).length := by
  obtain ⟨behind, rfl⟩ := front
  rw [List.takeWhile_append_of_pos inside, List.length_append]
  exact Nat.le_add_right _ _

private theorem exists_rest {x : Char} (ahead : c.peek? 0 = some x) : ∃ xs, c.rest = x :: xs := by
  rw [peek?, ← List.head?_eq_getElem?] at ahead
  exact List.head?_eq_some_iff.mp ahead

/-- The characters that are passed one by one are the longest run of those that satisfy the
predicate. -/
private theorem passes_advanceWhile (c : Cursor) (p : Char → Bool) :
    c.Passes (c.rest.takeWhile p) (c.advanceWhile p).2 ∧
      (c.advanceWhile p).1 = (c.rest.takeWhile p).length := by
  fun_induction advanceWhile c p with
  | case1 c x ahead holds n moved called ih =>
    obtain ⟨xs, hrest⟩ := exists_rest ahead
    have hstep : c.Passes [x] (c.skip 1) := .of_skip (s := [x]) hrest
    have hbehind : (c.skip 1).rest = xs := by rw [skip, hrest]; rfl
    rw [called, hbehind] at ih
    rw [hrest, List.takeWhile_cons_of_pos holds]
    exact ⟨hstep.trans ih.1, congrArg (· + 1) ih.2⟩
  | case2 c x ahead fails =>
    obtain ⟨xs, hrest⟩ := exists_rest ahead
    rw [hrest, List.takeWhile_cons_of_neg fails]
    exact ⟨.refl c, rfl⟩
  | case3 c ahead =>
    have hrest : c.rest = [] := by
      rwa [peek?, ← List.head?_eq_getElem?, List.head?_eq_none_iff] at ahead
    rw [hrest]
    exact ⟨.refl c, rfl⟩

private theorem atEnd_iff (source : c.source = read ++ c.rest)
    (position : c.position = .behind read) : c.atEnd = true ↔ c.rest = [] := by
  have hoffset : c.position.offset = byteLength read := by rw [position]; rfl
  rw [atEnd, decide_eq_true_iff, source, hoffset, byteLength_append]
  constructor
  · intro h
    by_contra hrest
    have := byteLength_pos hrest
    omega
  · intro hrest
    rw [hrest, byteLength_nil]
    omega

private theorem passes_next (sound : c.Sound) :
    c.Passes ((c.perform .next).1.map Token.text |>.getD []) (c.perform .next).2 ∧
      (c.perform .next).1 = (place c.position (lexemes c.rest)).head? := by
  cases hrest : c.rest with
  | nil =>
    rw [perform, next?_eq_none hrest, lexemes]
    exact ⟨.refl c, rfl⟩
  | cons x xs =>
    obtain ⟨kind, tail, rest, rfl, hcut⟩ := exists_cut x xs
    rw [perform, next?_eq sound hrest hcut, lexemes_append hcut]
    exact ⟨.of_skip (s := x :: tail) hrest, rfl⟩

private theorem head?_place_eq_none_iff {p : Position} {text : List Char} :
    (place p (lexemes text)).head? = none ↔ text = [] := by
  cases text with
  | nil => simp [lexemes, place]
  | cons x xs => simp [lexemes, place]

/-- Every call passes a piece of the text ahead and answers as the text says. -/
theorem perform_keeps (source : c.source = read ++ c.rest) (position : c.position = .behind read)
    (call : Call) :
    ∃ passed, c.Passes passed (c.perform call).2 ∧
      call.Keeps read c.rest passed (c.perform call).1 := by
  have hsound : c.Sound := ⟨read, source, by rw [position, Position.after_origin]⟩
  have hslice (before since : List Char) (hread : read = before ++ since) (mark : Position)
      (hmark : mark = .behind before) : c.sliceFrom mark = since := by
    rw [Cursor.sliceFrom, source, position, hmark, hread]
    exact sliceBytes_append before since c.rest
  cases call with
  | position => exact ⟨[], .refl c, rfl, position⟩
  | atEnd => exact ⟨[], .refl c, rfl, atEnd_iff source position⟩
  | rest => exact ⟨[], .refl c, rfl, rfl⟩
  | peek n => exact ⟨[], .refl c, rfl, rfl⟩
  | check x =>
    refine ⟨[], .refl c, rfl, ?_⟩
    rw [List.head?_eq_getElem?]
    exact beq_iff_eq
  | startsWith lead => exact ⟨[], .refl c, rfl, List.isPrefixOf_iff_prefix⟩
  | sliceFrom mark => exact ⟨[], .refl c, rfl, fun before since h => hslice before since h mark⟩
  | begin kind =>
    refine ⟨[], .refl c, rfl, ?_⟩
    rw [perform, begin, position]
  | finish draft =>
    refine ⟨[], .refl c, rfl, fun before since hread hstart => ?_⟩
    rw [perform, finish, hslice before since hread draft.start hstart, hstart, position]
  | advance =>
    obtain ⟨hpasses, hanswer⟩ := passes_advance c
    exact ⟨_, hpasses, rfl, hanswer⟩
  | advanceWhile p =>
    obtain ⟨hpasses, hcount⟩ := passes_advanceWhile c p
    refine ⟨_, hpasses, hcount.symm, fun x hx => List.mem_takeWhile_imp hx, fun longer => ?_⟩
    rw [perform, hcount]
    exact length_le_takeWhile
  | next =>
    obtain ⟨hpasses, hanswer⟩ := passes_next hsound
    refine ⟨_, hpasses, rfl, ?_, by rw [hanswer, position]⟩
    rw [hanswer]
    exact head?_place_eq_none_iff

end Calls

/-! ## Runs -/

theorem exists_passes_behindCalls {c : Cursor} (sound : c.Sound) (calls : List Call) :
    ∃ since, c.Passes since (c.behindCalls calls) := by
  induction calls generalizing c with
  | nil => exact ⟨[], .refl c⟩
  | cons call calls ih =>
    obtain ⟨read, hsource, hposition⟩ := id sound
    rw [Position.after_origin] at hposition
    obtain ⟨passed, hpasses, -⟩ := perform_keeps hsource hposition call
    obtain ⟨since, hrest⟩ := ih (hpasses.sound sound)
    exact ⟨passed ++ since, hpasses.trans hrest⟩

/-- Whatever was called, the cursor stands behind a front of the source, its position counts just
that front, and the next call, whichever it is, answers as the text around the cursor says. A slice
from where the cursor stood at any earlier time is what was read since then. -/
theorem calls_keep_position (source : List Char) (calls : List Call) :
    let c := (start source).behindCalls calls
    ∃ read, read ++ c.rest = source ∧
      c.position = ⟨1 + read.count '\n', 1 + (lastLine read).length, byteLength read,
        utf16Length (lastLine read)⟩ ∧
      c.rest = sliceBytes source c.position.offset (byteLength source) ∧
      (c.atEnd = true ↔ c.rest = []) ∧ (c.rest = [] ↔ c.peek? 0 = none) ∧
      (∀ call, ∃ passed, passed ++ (c.perform call).2.rest = c.rest ∧
        call.Keeps read c.rest passed (c.perform call).1) ∧
      ∀ earlier later, calls = earlier ++ later →
        let mark := (start source).behindCalls earlier
        ∃ since, since ++ c.rest = mark.rest ∧ c.sliceFrom mark.position = since ∧
          ∀ kind, c.finish (mark.begin kind) = ⟨kind, since, ⟨mark.position, c.position⟩⟩ := by
  intro c
  have hstart := sound_start source
  obtain ⟨read, hread⟩ := exists_passes_behindCalls hstart calls
  have hsource : source = read ++ c.rest := hread.1
  have hposition : c.position = .behind read := by
    rw [← Position.after_origin]
    exact congrArg Cursor.position hread.eq_mk
  have hc : c.source = read ++ c.rest := (congrArg Cursor.source hread.eq_mk).trans hsource
  refine ⟨read, hsource.symm, hposition, ?rest, ?atEnd, ?peek, ?calls, ?slices⟩
  case rest =>
    have hslice := sliceBytes_append read c.rest []
    rw [List.append_nil, ← hsource] at hslice
    rw [hposition]
    exact hslice.symm
  case atEnd => exact atEnd_iff hc hposition
  case peek => rw [peek?, ← List.head?_eq_getElem?, List.head?_eq_none_iff]
  case calls =>
    intro call
    obtain ⟨passed, hpasses, hkeeps⟩ := perform_keeps hc hposition call
    exact ⟨passed, hpasses.1.symm, hkeeps⟩
  case slices =>
    intro earlier later hcalls mark
    obtain ⟨front, hfront⟩ := exists_passes_behindCalls hstart earlier
    have hmark := hfront.sound hstart
    obtain ⟨since, hsince⟩ := exists_passes_behindCalls hmark later
    have hlater : mark.behindCalls later = c := by
      simp only [mark, c, behindCalls, hcalls, List.foldl_append]
    rw [hlater] at hsince
    have hslice := hsince.sliceFrom hmark
    refine ⟨since, hsince.1.symm, hslice, fun kind => ?_⟩
    rw [finish, begin, hslice]

end Cursor
end SyntaxPaint
