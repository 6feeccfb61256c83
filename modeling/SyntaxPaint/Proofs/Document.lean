import SyntaxPaint.Document
import SyntaxPaint.Proofs.Paint.Search
import SyntaxPaint.Session.Basic
/-!
# Editing a document

Whatever was written to a document before its last text has left no trace: a document that was
updated many times is the one that was updated once. So its analysis is always that of its text, and
it may be painted line by line or as a whole and in any theme.
-/
namespace SyntaxPaint

theorem analyze_nil (limit : Nat) : analyze [] limit = .empty := by
  have htokens : tokenize [] = [] := by
    rw [tokenize, lexemes]
    rfl
  rw [analyze, htokens]
  rfl

/-! ## Painting in several themes -/

/-- A patch without its colour. -/
def Patch.stretch (p : Patch) : ByteRange × Kind := (p.range, p.kind)

theorem map_stretch_patch? (theme other : Theme) (r : ByteRange) (t : Token) :
    (patch? theme r t).map Patch.stretch = (patch? other r t).map Patch.stretch := by
  rw [patch?_eq, patch?_eq, Option.map_map, Option.map_map]
  rfl

theorem map_stretch_paintLine (theme other : Theme) (tokens : Array Token) (line : ByteRange) :
    (paintLine tokens line theme).map Patch.stretch =
      (paintLine tokens line other).map Patch.stretch := by
  rw [paintLine, paintLine, List.map_filterMap, List.map_filterMap]
  congr 1
  funext t
  exact map_stretch_patch? theme other line t

theorem map_stretch_paint (theme other : Theme) (text : List Char) (tokens : Array Token) :
    (paint text tokens theme).map (List.map Patch.stretch) =
      (paint text tokens other).map (List.map Patch.stretch) := by
  rw [paint, paint, List.map_map, List.map_map]
  refine List.map_congr_left fun line _ => ?_
  exact map_stretch_paintLine theme other tokens line

namespace Document

/-! ## Calls -/

/-- What a document can be asked for. -/
inductive Query where
  | text
  | tokens
  | isValid
  | analysis
  | lineCount
  | highlight (theme : Theme)
  | highlightLine (index : Nat) (theme : Theme)
  | highlightCurrent (s : Session)
  | render (theme : Theme) (numbers : Bool)

def Query.Answer : Query → Type
  | text => List Char
  | tokens => List Token
  | isValid => Bool
  | analysis => Analysis
  | lineCount => Nat
  | highlight _ | highlightCurrent _ => List (List Patch)
  | highlightLine _ _ => Option (List Patch)
  | render _ _ => List (List Char)

def ask (d : Document) : (q : Query) → q.Answer
  | .text => d.text
  | .tokens => d.analysis.tokens
  | .isValid => d.analysis.valid
  | .analysis => d.analysis
  | .lineCount => d.lineCount
  | .highlight theme => d.highlight theme
  | .highlightLine index theme => d.highlightLine? index theme
  | .highlightCurrent s => d.highlight s.active
  | .render theme numbers => d.render theme numbers

/-- The calls of a document; only an update may change it. -/
inductive Call where
  | update (text : List Char)
  | ask (q : Query)

def Call.Answer : Call → Type
  | update _ => Unit
  | ask q => q.Answer

def take (d : Document) : (c : Call) → c.Answer × Document
  | .update text => ((), d.update text)
  | .ask q => (d.ask q, d)

/-- The document behind some calls. -/
def behind (d : Document) (calls : List Call) : Document :=
  calls.foldl (fun d c => (d.take c).2) d

/-- The text that a call writes, if it writes one. -/
def Call.written? : Call → Option (List Char)
  | update text => some text
  | ask _ => none

/-! ## Runs -/

variable (d : Document)

theorem update_update (text later : List Char) : (d.update text).update later = d.update later :=
  rfl

theorem update_nil_new (s : Settings) : (new s).update [] = new s := by
  rw [update, analyze_nil]
  rfl

/-- Of all that was written only the last text counts. -/
theorem behind_eq (calls : List Call) :
    d.behind calls = (calls.filterMap Call.written?).getLast?.elim d d.update := by
  induction calls generalizing d with
  | nil => rfl
  | cons c calls ih =>
    cases c with
    | ask q => exact ih d
    | update text =>
      show (d.update text).behind calls = _
      rw [ih, List.filterMap_cons, Call.written?, List.getLast?_cons]
      cases (calls.filterMap Call.written?).getLast? with
      | none => rfl
      | some later => exact d.update_update text later

theorem length_highlight (theme : Theme) : (d.highlight theme).length = d.lineCount :=
  List.length_map _

theorem highlightLine?_eq (index : Nat) (theme : Theme) :
    d.highlightLine? index theme = (d.highlight theme)[index]? :=
  List.getElem?_map.symm

/-- After any calls a document holds the last text that was written, or none at all, with its
analysis; it is the document to which nothing else was written. In every theme it has as many
painted lines as lines, each of which can be had on its own, and another theme changes nothing but
the colours. Whatever it is asked, it answers as that other document does and stays as it is. -/
theorem holds_last_text (s : Settings) (calls : List Call) :
    let d := (new s).behind calls
    let last := (calls.filterMap Call.written?).getLast?
    (d.text = last.getD [] ∧ d.analysis = analyze d.text s.limit ∧
      d = last.elim (new s) (new s).update ∧ d = (new s).update d.text) ∧
    (∀ theme, (d.highlight theme).length = d.lineCount ∧
      ∀ index, d.highlightLine? index theme = (d.highlight theme)[index]? ∧
        ((d.highlightLine? index theme).isSome = true ↔ index < d.lineCount)) ∧
    (∀ theme other, (d.highlight theme).map (List.map Patch.stretch) =
      (d.highlight other).map (List.map Patch.stretch)) ∧
    ∀ q, d.take (.ask q) = (((new s).update d.text).ask q, d) := by
  intro d last
  have hlast : d = last.elim (new s) (new s).update := (new s).behind_eq calls
  have hfresh : d = (new s).update (last.getD []) := by
    rw [hlast]
    cases last with
    | none => exact (update_nil_new s).symm
    | some text => rfl
  have htext : d.text = last.getD [] := congrArg text hfresh
  rw [← htext] at hfresh
  refine ⟨⟨htext, ?analysis, hlast, hfresh⟩, ?lines, ?themes, ?asks⟩
  case analysis => exact congrArg Document.analysis hfresh
  case lines =>
    intro theme
    refine ⟨d.length_highlight theme, fun index => ⟨d.highlightLine?_eq index theme, ?_⟩⟩
    rw [highlightLine?_eq, ← d.length_highlight theme, isSome_getElem?]
  case themes => exact fun theme other => map_stretch_paint theme other d.text _
  case asks =>
    intro q
    rw [← hfresh]
    rfl

end Document
end SyntaxPaint
